import AgentGuard.Contract.Caps
import AgentGuard.Contract.Gates
import AgentGuard.Contract.Verdicts
import AgentGuard.Machinery.FirstMatch

/-!
# Contract/DecisionTable — the reason given is the first that applies

`decide` interprets a table: the rows of the account gates, then those of the context, each an error
with the condition under which it is reported.  Here the table is written down as data over the
context as it came, the stored window and what passed before, with no parsing, pruning or staging
(`decisionTable`), and every event `__check_auth` emits carries the answer of that table
(`every_verdict_by_table`).
-/

namespace AgentGuard

open Machinery

/-- The error a verdict carries. -/
def Decision.reason? : Decision → Option Error
  | .allowed => none
  | .blocked e => some e

/-! ## Reading a context -/

section

variable (cfg : PolicyConfig) (ctx : Context)

/-- A call on an allowed asset. -/
def OnAsset (p : Address → Symbol → Prop) : Prop :=
  ∃ asset ∈ cfg.assets, ∃ fname args, ctx = .contract ⟨asset, fname, args⟩ ∧ p asset fname

/-- A well-formed transfer of an allowed asset. -/
def OnTransfer (p : Address → Address → I128 → Prop) : Prop :=
  ∃ asset ∈ cfg.assets, ∃ dest amount, TransferOf asset dest amount ctx ∧ p asset dest amount

/-- A call on a listed protocol that is no asset. -/
def OnProtocol (p : ProtocolRule → Symbol → Prop) : Prop :=
  ∃ rule ∈ cfg.protocols, rule.contract ∉ cfg.assets ∧
    ∃ fname args, ctx = .contract ⟨rule.contract, fname, args⟩ ∧ p rule fname

/-- A call on a contract the policy does not name. -/
def OnStranger (self : Address) : Prop :=
  ∃ contract fname args, ctx = .contract ⟨contract, fname, args⟩ ∧ contract ≠ self ∧
    contract ∉ cfg.assets ∧ ∀ rule ∈ cfg.protocols, rule.contract ≠ contract

end

/-! ## The table -/

/-- The rows of the account gates. -/
def gateRows (cfg : PolicyConfig) (state : AccountState) (now : U64) : List (Error × Prop) :=
  [(.adminFrozen, state.adminFrozen = true),
    (.heartbeatExpired, 0 < cfg.dmsGraceSecs.val ∧ state.lastHeartbeat.val ≠ 0 ∧
      now.val - state.lastHeartbeat.val > cfg.dmsGraceSecs.val),
    (.paused, cfg.paused = true),
    (.outsideActiveWindow, cfg.activeFrom.val ≠ 0 ∧ now.val < cfg.activeFrom.val ∨
      cfg.activeUntil.val ≠ 0 ∧ now.val > cfg.activeUntil.val)]

/-- The rows of a context's class. -/
def classRows (self : Address) (cfg : PolicyConfig) (ctx : Context) : List (Error × Prop) :=
  [(.createContractNotAllowed, ∀ call, ctx ≠ .contract call),
    (.selfFunctionNotAllowed,
      ∃ fname args, ctx = .contract ⟨self, fname, args⟩ ∧ fname ≠ "heartbeat"),
    (.unknownContract, OnStranger cfg ctx self ∨ OnAsset cfg ctx fun asset fname =>
      (fname = "transfer" ∨ fname = "transfer_from") ∧
        ∀ dest amount, ¬TransferOf asset dest amount ctx)]

/-- The rows of an asset call. -/
def assetRows (cfg : PolicyConfig) (ctx : Context) : List (Error × Prop) :=
  [(.assetNotAllowed, OnAsset cfg ctx fun asset _ =>
      ∃ ac ∈ cfg.assetCaps, ac.asset = asset ∧ ac.paused = true),
    (.assetFnNotAllowed, OnAsset cfg ctx fun _ fname =>
      fname ≠ "transfer" ∧ fname ≠ "transfer_from"),
    (.invalidAmount, OnTransfer cfg ctx fun _ _ amount => amount.val ≤ 0),
    (.recipientBlocked, OnTransfer cfg ctx fun _ dest _ => dest ∈ cfg.blockedRecipients),
    (.recipientNotAllowed, OnTransfer cfg ctx fun _ dest _ =>
      cfg.allowAnyRecipient = false ∧ dest ∉ cfg.recipients),
    (.perTxCapExceeded, OnTransfer cfg ctx fun asset _ amount =>
      ∃ cap, CapFor cfg asset cap ∧ cap.val < amount.val)]

/-- The rows of the rolling caps, on top of the calls `before`. -/
def windowRows (cfg : PolicyConfig) (l : Ledger) (now : U64) (before : List ParsedCall)
    (ctx : Context) : List (Error × Prop) :=
  [(.windowCapExceeded, OnTransfer cfg ctx fun _ dest amount =>
      (0 < cfg.windowCap.val ∧ cfg.windowCap.val < live now cfg.windowSecs l.entries
        + (before.map ParsedCall.spend).sum + amount.val) ∨
      ∃ rc ∈ cfg.recipientWindowCaps, rc.recipient = dest ∧ 0 < rc.cap.val ∧
        rc.cap.val < live now cfg.windowSecs (l.meter dest).entries
          + (before.map (ParsedCall.spendTo dest)).sum + amount.val)]

/-- The rows of a protocol call, on top of the calls `before`. -/
def protocolRows (cfg : PolicyConfig) (l : Ledger) (now : U64) (before : List ParsedCall)
    (ctx : Context) : List (Error × Prop) :=
  [(.protocolNotAllowed, OnProtocol cfg ctx fun rule _ => rule.paused = true),
    (.functionNotAllowed, OnProtocol cfg ctx fun rule fname =>
      ∃ fns, rule.fns = some fns ∧ fname ∉ fns),
    (.protocolCallRateExceeded, OnProtocol cfg ctx fun _ _ =>
      0 < cfg.protocolCallsPerWindow.val ∧ cfg.protocolCallsPerWindow.val
        < min u32.hi (liveCalls now cfg.windowSecs l.protocolCallEntries
          + (before.map ParsedCall.protocolCalls).sum + 1))]

/-- The rows of a context. -/
def contextRows (self : Address) (cfg : PolicyConfig) (l : Ledger) (now : U64)
    (before : List ParsedCall) (ctx : Context) : List (Error × Prop) :=
  classRows self cfg ctx ++ assetRows cfg ctx ++ windowRows cfg l now before ctx
    ++ protocolRows cfg l now before ctx

/-- **The decision table.** -/
def decisionTable (env : Env) (s : State) (cfg : PolicyConfig) (before : List ParsedCall)
    (ctx : Context) : List (Error × Prop) :=
  gateRows cfg ⟨s.frozenOrFalse, s.heartbeatOrZero⟩ env.timestamp
    ++ contextRows env.host.self cfg s.loadWindow.1 env.timestamp before ctx

/-! ## The gates -/

section

variable {cfg : PolicyConfig} {state : AccountState} {now : U64} {rows : List (Error × Prop)}
  {o : Option Error}

/-- **The gate rows answer when a gate is closed**, and pass to the rest when all are open. -/
theorem firstMatch_gateRows :
    FirstMatch (gateRows cfg state now ++ rows) o
      ↔ match gateError cfg state now with
        | some e => o = some e
        | none => FirstMatch rows o := by
  have houtside : outsideActiveWindow cfg now = true
      ↔ (cfg.activeFrom.val ≠ 0 ∧ now.val < cfg.activeFrom.val ∨
        cfg.activeUntil.val ≠ 0 ∧ now.val > cfg.activeUntil.val) := by
    simp [outsideActiveWindow]
  simp only [gateRows, List.cons_append, List.nil_append, firstMatch_cons, ← heartbeatExpired_iff,
    ← houtside, gateError, accountError]
  split_ifs <;> simp_all

end

/-! ## The class of a context -/

section

variable {self : Address} {cfg : PolicyConfig} {ctx : Context}

theorem onTransfer_iff (hacc : cfg.Accepted self) {p : Address → Address → I128 → Prop} :
    OnTransfer cfg ctx p ↔ ∃ asset dest amount,
      parseCall self ctx cfg = .assetTransfer asset dest amount ∧ p asset dest amount := by
  simp only [OnTransfer, parseCall_eq_assetTransfer_iff hacc]
  constructor
  · rintro ⟨asset, hasset, dest, amount, hctx, hp⟩
    exact ⟨asset, dest, amount, ⟨hctx, hasset⟩, hp⟩
  · rintro ⟨asset, dest, amount, ⟨hctx, hasset⟩, hp⟩
    exact ⟨asset, hasset, dest, amount, hctx, hp⟩

theorem onProtocol_iff (hacc : cfg.Accepted self) {p : ProtocolRule → Symbol → Prop} :
    OnProtocol cfg ctx p ↔ ∃ contract fname, parseCall self ctx cfg = .protocol contract fname ∧
      ∃ rule ∈ cfg.protocols, rule.contract = contract ∧ p rule fname := by
  simp only [OnProtocol, parseCall_eq_protocol_iff hacc]
  constructor
  · rintro ⟨rule, hrule, hasset, fname, args, hctx, hp⟩
    exact ⟨rule.contract, fname, ⟨⟨args, hctx⟩, hasset, rule, hrule, rfl⟩, rule, hrule, rfl, hp⟩
  · rintro ⟨contract, fname, ⟨⟨args, hctx⟩, hasset, -⟩, rule, hrule, rfl, hp⟩
    exact ⟨rule, hrule, hasset, fname, args, hctx, hp⟩

theorem parseCall_eq_createContract_iff :
    parseCall self ctx cfg = .createContract ↔ ∀ call, ctx ≠ .contract call := by
  cases ctx with
  | contract call =>
    obtain ⟨contract, fname, args⟩ := call
    refine ⟨fun hparse => ?_, fun h => absurd rfl (h _)⟩
    simp only [parseCall] at hparse
    split_ifs at hparse
    split at hparse
    · split at hparse <;> cases hparse
    · cases hparse
  | createContractHostFn => simp [parseCall]
  | createContractWithCtorHostFn => simp [parseCall]

/-- **What parses as another asset call** is any function that is no transfer. -/
theorem parseCall_eq_assetOther_iff (hacc : cfg.Accepted self) {asset : Address} {fname : Symbol} :
    parseCall self ctx cfg = .assetOther asset fname
      ↔ (∃ args, ctx = .contract ⟨asset, fname, args⟩) ∧ asset ∈ cfg.assets ∧
        fname ≠ "transfer" ∧ fname ≠ "transfer_from" := by
  constructor
  · intro hparse
    cases ctx with
    | contract call =>
      obtain ⟨contract, name, args⟩ := call
      simp only [parseCall] at hparse
      split_ifs at hparse with hself htransfer harity hasset hprot
      · split at hparse
        · split at hparse <;> cases hparse
        · cases hparse
      · obtain ⟨rfl, rfl⟩ := ParsedCall.assetOther.inj hparse
        exact ⟨⟨args, rfl⟩, hasset, not_or.mp fun hname => htransfer ⟨hasset, hname⟩⟩
    | createContractHostFn => cases hparse
    | createContractWithCtorHostFn => cases hparse
  · rintro ⟨⟨args, rfl⟩, hasset, hname⟩
    have hne : asset ≠ self := fun heq => hacc.self_notMem_assets (heq ▸ hasset)
    rw [← not_or] at hname
    simp only [parseCall, if_neg hne, hasset, hname, and_false, if_false, if_true]

theorem eq_contract_of_parseCall_unknown {contract : Address} {fname : Symbol}
    (hparse : parseCall self ctx cfg = .unknown contract fname) :
    ∃ args, ctx = .contract ⟨contract, fname, args⟩ := by
  cases ctx with
  | contract call =>
    obtain ⟨contract', name, args⟩ := call
    have hsame : contract' = contract ∧ name = fname := by
      simp only [parseCall] at hparse
      split_ifs at hparse
      · exact ParsedCall.unknown.inj hparse
      · split at hparse
        · split at hparse
          · cases hparse
          · exact ParsedCall.unknown.inj hparse
        · exact ParsedCall.unknown.inj hparse
      · exact ParsedCall.unknown.inj hparse
    exact ⟨args, by rw [hsame.1, hsame.2]⟩
  | createContractHostFn => cases hparse
  | createContractWithCtorHostFn => cases hparse

/-- **What does not parse**: a stranger, or a malformed transfer. -/
theorem parseCall_eq_unknown_iff (hacc : cfg.Accepted self) {contract : Address}
    {fname : Symbol} :
    parseCall self ctx cfg = .unknown contract fname
      ↔ (∃ args, ctx = .contract ⟨contract, fname, args⟩) ∧ contract ≠ self ∧
        (contract ∉ cfg.assets ∧ (∀ rule ∈ cfg.protocols, rule.contract ≠ contract) ∨
          contract ∈ cfg.assets ∧ (fname = "transfer" ∨ fname = "transfer_from") ∧
            ∀ dest amount, ¬TransferOf contract dest amount ctx) := by
  constructor
  · intro hparse
    obtain ⟨args, rfl⟩ := eq_contract_of_parseCall_unknown hparse
    refine ⟨⟨args, rfl⟩, fun hself => ?_, ?_⟩
    · rw [parseCall_eq_selfCall_iff.mpr ⟨args, by rw [hself]⟩] at hparse
      cases hparse
    by_cases hasset : contract ∈ cfg.assets
    · refine .inr ⟨hasset, by_contra fun hname => ?_, fun dest amount hctx => ?_⟩
      · rw [(parseCall_eq_assetOther_iff hacc).mpr ⟨⟨args, rfl⟩, hasset, not_or.mp hname⟩] at hparse
        cases hparse
      · rw [(parseCall_eq_assetTransfer_iff hacc).mpr ⟨hctx, hasset⟩] at hparse
        cases hparse
    · refine .inl ⟨hasset, fun rule hrule heq => ?_⟩
      rw [(parseCall_eq_protocol_iff hacc).mpr ⟨⟨args, rfl⟩, hasset, rule, hrule, heq⟩] at hparse
      cases hparse
  · rintro ⟨⟨args, rfl⟩, hself, hclass⟩
    cases hparse : parseCall self (.contract ⟨contract, fname, args⟩) cfg with
    | selfCall name =>
      obtain ⟨args', heq⟩ := parseCall_eq_selfCall_iff.mp hparse
      simp only [Context.contract.injEq, ContractContext.mk.injEq] at heq
      exact absurd heq.1 hself
    | createContract => exact absurd rfl (parseCall_eq_createContract_iff.mp hparse _)
    | unknown contract' name =>
      obtain ⟨args', heq⟩ := eq_contract_of_parseCall_unknown hparse
      simp only [Context.contract.injEq, ContractContext.mk.injEq] at heq
      rw [heq.1, heq.2.1]
    | assetOther asset name =>
      obtain ⟨⟨args', heq⟩, hasset, hname⟩ := (parseCall_eq_assetOther_iff hacc).mp hparse
      simp only [Context.contract.injEq, ContractContext.mk.injEq] at heq
      obtain ⟨rfl, rfl, rfl⟩ := heq
      rcases hclass with ⟨hno, -⟩ | ⟨-, htransfer, -⟩
      · exact absurd hasset hno
      · exact absurd htransfer (not_or.mpr hname)
    | assetTransfer asset dest amount =>
      obtain ⟨hctx, hasset⟩ := (parseCall_eq_assetTransfer_iff hacc).mp hparse
      rcases hclass with ⟨hno, -⟩ | ⟨-, -, hno⟩
      · cases hctx <;> exact absurd hasset hno
      · cases hctx with
        | transfer sender => exact absurd (.transfer sender) (hno dest amount)
        | transferFrom spender sender =>
          exact absurd (.transferFrom spender sender) (hno dest amount)
    | protocol contract' name =>
      obtain ⟨⟨args', heq⟩, hasset, rule, hrule, hrule'⟩ :=
        (parseCall_eq_protocol_iff hacc).mp hparse
      simp only [Context.contract.injEq, ContractContext.mk.injEq] at heq
      obtain ⟨rfl, rfl, rfl⟩ := heq
      rcases hclass with ⟨-, hno⟩ | ⟨hmem, -⟩
      · exact absurd hrule' (hno rule hrule)
      · exact absurd hmem hasset

theorem onAsset_contract_iff {contract : Address} {fname : Symbol} {args : List Val}
    {p : Address → Symbol → Prop} :
    OnAsset cfg (.contract ⟨contract, fname, args⟩) p
      ↔ contract ∈ cfg.assets ∧ p contract fname := by
  constructor
  · rintro ⟨asset, hasset, name, args', heq, hp⟩
    simp only [Context.contract.injEq, ContractContext.mk.injEq] at heq
    obtain ⟨rfl, rfl, -⟩ := heq
    exact ⟨hasset, hp⟩
  · rintro ⟨hasset, hp⟩
    exact ⟨contract, hasset, fname, args, rfl, hp⟩

/-- **The rows of the class answer for the calls the policy does not know.** -/
theorem firstMatch_classRows (hacc : cfg.Accepted self) {rows : List (Error × Prop)}
    {o : Option Error} :
    FirstMatch (classRows self cfg ctx ++ rows) o
      ↔ match parseCall self ctx cfg with
        | .createContract => o = some .createContractNotAllowed
        | .selfCall fname =>
          if fname = "heartbeat" then FirstMatch rows o else o = some .selfFunctionNotAllowed
        | .unknown _ _ => o = some .unknownContract
        | _ => FirstMatch rows o := by
  have hself : (∃ fname args, ctx = .contract ⟨self, fname, args⟩ ∧ fname ≠ "heartbeat")
      ↔ ∃ fname, parseCall self ctx cfg = .selfCall fname ∧ fname ≠ "heartbeat" := by
    simp only [parseCall_eq_selfCall_iff, exists_and_right]
  have hunknown : (OnStranger cfg ctx self ∨ OnAsset cfg ctx fun asset fname =>
        (fname = "transfer" ∨ fname = "transfer_from") ∧
          ∀ dest amount, ¬TransferOf asset dest amount ctx)
      ↔ ∃ contract fname, parseCall self ctx cfg = .unknown contract fname := by
    simp only [parseCall_eq_unknown_iff hacc]
    constructor
    · rintro (⟨contract, fname, args, hctx, hne, hstranger⟩ | ⟨asset, hasset, fname, args, hctx, h⟩)
      · exact ⟨contract, fname, ⟨args, hctx⟩, hne, .inl hstranger⟩
      · exact ⟨asset, fname, ⟨args, hctx⟩, fun heq => hacc.self_notMem_assets (heq ▸ hasset),
          .inr ⟨hasset, h⟩⟩
    · rintro ⟨contract, fname, ⟨args, hctx⟩, hne, hstranger | ⟨hasset, h⟩⟩
      · exact .inl ⟨contract, fname, args, hctx, hne, hstranger⟩
      · exact .inr ⟨contract, hasset, fname, args, hctx, h⟩
  simp only [classRows, List.cons_append, List.nil_append, firstMatch_cons, hself, hunknown,
    ← @parseCall_eq_createContract_iff self cfg ctx]
  cases parseCall self ctx cfg with
  | selfCall fname => by_cases hname : fname = "heartbeat" <;> simp [hname]
  | _ => simp

end

/-! ## The rules of a context -/

section

variable {self : Address} {cfg : PolicyConfig} {ctx : Context} {l : Ledger} {now t : U64}
  {before : List ParsedCall} {st : Staging}

theorem assetPaused_iff (hacc : cfg.Accepted self) (asset : Address) :
    assetPaused cfg asset = true ↔ ∃ ac ∈ cfg.assetCaps, ac.asset = asset ∧ ac.paused = true := by
  rw [assetPaused]
  cases hfind : cfg.assetCaps.find? fun ac => ac.asset = asset with
  | none =>
    have hno : ∀ ac ∈ cfg.assetCaps, ac.asset ≠ asset := fun ac hac => by
      simpa using List.find?_eq_none.mp hfind ac hac
    refine ⟨fun h => absurd h (by simp), ?_⟩
    rintro ⟨ac, hac, heq, -⟩
    exact absurd heq (hno ac hac)
  | some ac =>
    obtain ⟨hmem, hasset⟩ := (find?_key_eq_some_iff hacc.assetCaps_nodup).mp hfind
    refine ⟨fun h => ⟨ac, hmem, hasset, h⟩, ?_⟩
    rintro ⟨ac', hac', heq, hpaused⟩
    have hfind' := (find?_key_eq_some_iff hacc.assetCaps_nodup).mpr ⟨hac', heq⟩
    obtain rfl : ac = ac' := Option.some.inj (hfind.symm.trans hfind')
    exact hpaused

/-- **The rolling caps, over what is live.** -/
theorem exceeds_pruneFor_iff (hacc : cfg.Accepted self) (hl : l.Rep t) (hnow : now.val < u64.hi)
    {dest : Address} {amount : I128} :
    Exceeds cfg (pruneFor cfg l now) before dest amount
      ↔ (0 < cfg.windowCap.val ∧ cfg.windowCap.val < live now cfg.windowSecs l.entries
          + (before.map ParsedCall.spend).sum + amount.val) ∨
        ∃ rc ∈ cfg.recipientWindowCaps, rc.recipient = dest ∧ 0 < rc.cap.val ∧
          rc.cap.val < live now cfg.windowSecs (l.meter dest).entries
            + (before.map (ParsedCall.spendTo dest)).sum + amount.val := by
  refine or_congr (and_congr_right fun hcap => ?_) ⟨?_, ?_⟩
  · rw [(val_total_pruneFor hl (limitsWindow_of_windowCap hcap) hnow).1, globalDemand, if_pos hcap]
  · rintro ⟨cap, hoverride, hover⟩
    obtain ⟨hrc, hcap⟩ := mem_of_recipientOverrideCap hoverride
    refine ⟨⟨dest, cap⟩, hrc, rfl, hcap, ?_⟩
    rwa [(val_total_pruneFor hl (limitsWindow_of_recipientCap hrc) hnow).2, recipientDemand,
      if_pos (by rw [hasRecipientWindowCap, hoverride]; rfl)] at hover
  · rintro ⟨rc, hrc, rfl, hcap, hover⟩
    have hoverride := recipientOverrideCap_of_mem hacc hrc hcap
    refine ⟨rc.cap, hoverride, ?_⟩
    rwa [(val_total_pruneFor hl (limitsWindow_of_recipientCap hrc) hnow).2, recipientDemand,
      if_pos (by rw [hasRecipientWindowCap, hoverride]; rfl)]

/-- **A transfer is answered by its rows.** -/
theorem firstMatch_transfer {asset dest : Address} {amount : I128} (hacc : cfg.Accepted self)
    (hwf : cfg.WellFormed self) (hl : l.Rep t) (hnow : now.val < u64.hi)
    (hst : Staged cfg now before st) (hperm : ∀ c ∈ before, Permitted cfg c)
    (hparse : parseCall self ctx cfg = .assetTransfer asset dest amount) :
    FirstMatch (assetRows cfg ctx ++ windowRows cfg l now before ctx)
      (evalTransfer cfg (pruneFor cfg l now) now st asset dest amount).1.reason? := by
  obtain ⟨hctx, hasset⟩ := (parseCall_eq_assetTransfer_iff hacc).mp hparse
  have htransfer : ∀ p, OnTransfer cfg ctx p ↔ p asset dest amount := fun p => by
    simp [onTransfer_iff hacc, hparse]
  have hpaused : (OnAsset cfg ctx fun asset _ =>
      ∃ ac ∈ cfg.assetCaps, ac.asset = asset ∧ ac.paused = true)
        ↔ assetPaused cfg asset = true := by
    rw [assetPaused_iff hacc]
    cases hctx <;> simp [onAsset_contract_iff, hasset]
  have hother : ¬OnAsset cfg ctx fun _ fname =>
      fname ≠ "transfer" ∧ fname ≠ "transfer_from" := by
    cases hctx <;> simp [onAsset_contract_iff]
  have hcap : (∃ cap, CapFor cfg asset cap ∧ cap.val < amount.val)
      ↔ (effectivePerTxCap cfg asset).any (fun cap => amount.val > cap.val) = true := by
    simp [← effectivePerTxCap_eq_some_iff hwf, Option.any_eq_true]
  simp only [assetRows, windowRows, List.cons_append, List.nil_append, firstMatch_cons,
    firstMatch_nil, htransfer, hpaused, hother, hcap, ← exceeds_pruneFor_iff hacc hl hnow]
  rw [evalTransfer]
  split_ifs with hp ha hb hr hc
  · simp [hp, Decision.reason?]
  · simp [hp, ha, Decision.reason?]
  · simp [hp, ha, hb, Decision.reason?]
  · simp only [Bool.and_eq_true, Bool.not_eq_true', decide_eq_true_eq] at hr
    simp [hp, ha, hb, hr, Decision.reason?]
  · simp only [Bool.and_eq_true, Bool.not_eq_true', decide_eq_true_eq] at hr
    simp only [hp, ha, hb, hr, hc, Decision.reason?]
    simp
  -- every rule of its own kept: the rolling caps decide
  · simp only [Bool.and_eq_true, Bool.not_eq_true', decide_eq_true_eq] at hr
    have hkept : Permitted cfg (.assetTransfer asset dest amount) := by
      refine ⟨by simpa using hp, by omega, hb, ?_, fun cap hcap' => ?_⟩
      · by_contra hno
        simp_all
      · by_contra hgt
        exact hc ((Option.any_eq_true ..).mpr ⟨cap, hcap', by simpa using hgt⟩)
    rw [← evalTransfer_of_permitted hkept, evalTransfer_verdict hst hperm hkept]
    by_cases hx : Exceeds cfg (pruneFor cfg l now) before dest amount
    · simp only [hp, ha, hb, hr, hc, hx, Decision.reason?]
      simp
    · simp only [hp, ha, hb, hr, hc, hx, Decision.reason?]
      simp

/-- **A protocol call is answered by its rows.** -/
theorem firstMatch_protocol {contract : Address} {fname : Symbol} (hacc : cfg.Accepted self)
    (hl : l.Rep t) (hnow : now.val < u64.hi)
    (htotal : l.protocolCallTotal = BoundedInt.clamp (valueSum l.protocolCallEntries))
    (hst : Staged cfg now before st)
    (hparse : parseCall self ctx cfg = .protocol contract fname) :
    FirstMatch (protocolRows cfg l now before ctx)
      (evalProtocol cfg (pruneFor cfg l now) st contract fname).1.reason? := by
  obtain ⟨-, -, rule, hrule, hcontract⟩ := (parseCall_eq_protocol_iff hacc).mp hparse
  have hfind : (cfg.protocols.find? fun rule => rule.contract = contract) = some rule :=
    (find?_key_eq_some_iff hacc.protocols_nodup).mpr ⟨hrule, hcontract⟩
  have hprotocol : ∀ p, OnProtocol cfg ctx p ↔ p rule fname := fun p => by
    simp only [onProtocol_iff hacc, hparse, ParsedCall.protocol.injEq]
    constructor
    · rintro ⟨contract', fname', ⟨rfl, rfl⟩, rule', hrule', heq, hp⟩
      have hfind' := (find?_key_eq_some_iff hacc.protocols_nodup).mpr ⟨hrule', heq⟩
      obtain rfl : rule = rule' := Option.some.inj (hfind.symm.trans hfind')
      exact hp
    · exact fun hp => ⟨contract, fname, ⟨rfl, rfl⟩, rule, hrule, hcontract, hp⟩
  have hover : (0 < cfg.protocolCallsPerWindow.val ∧ cfg.protocolCallsPerWindow.val
        < min u32.hi (liveCalls now cfg.windowSecs l.protocolCallEntries
          + (before.map ParsedCall.protocolCalls).sum + 1))
      ↔ 0 < cfg.protocolCallsPerWindow.val ∧ (((pruneFor cfg l now).protocolCallTotal.saturatingAdd
          st.pendingProtocolCalls).saturatingAdd 1).val > cfg.protocolCallsPerWindow.val := by
    refine and_congr_right fun hlimit => ?_
    rw [val_projectedCalls hst, callDemand, if_pos hlimit,
      val_protocolCallTotal_pruneFor hl (limitsWindow_of_calls hlimit) hnow htotal]
  simp only [protocolRows, firstMatch_cons, firstMatch_nil, hprotocol, hover]
  rw [evalProtocol, hfind]
  dsimp only
  cases hfns : rule.fns with
  | none =>
    split_ifs with hp hf hlimit hx <;> simp_all [Decision.reason?]
  | some fns =>
    split_ifs with hp hf hlimit hx <;> simp_all [Decision.reason?]

/-- A context that is no transfer is none of the caps' business. -/
theorem windowRows_silent (h : ∀ p, ¬OnTransfer cfg ctx p) :
    FirstMatch (windowRows cfg l now before ctx) none := by
  simp [windowRows, h]

theorem assetRows_silent (h : ∀ p, ¬OnAsset cfg ctx p) :
    FirstMatch (assetRows cfg ctx ++ windowRows cfg l now before ctx) none := by
  have htransfer : ∀ p, ¬OnTransfer cfg ctx p := fun p ⟨asset, hasset, dest, amount, hctx, _⟩ => by
    cases hctx with
    | transfer sender => exact h (fun _ _ => True) (onAsset_contract_iff.mpr ⟨hasset, trivial⟩)
    | transferFrom spender sender =>
      exact h (fun _ _ => True) (onAsset_contract_iff.mpr ⟨hasset, trivial⟩)
  exact (windowRows_silent htransfer).skip (by simp [assetRows, h, htransfer])

theorem protocolRows_silent (h : ∀ p, ¬OnProtocol cfg ctx p) :
    FirstMatch (protocolRows cfg l now before ctx) none := by
  simp [protocolRows, h]

/-- **The engine answers for a context what its rows answer.** -/
theorem firstMatch_contextRows (hacc : cfg.Accepted self) (hwf : cfg.WellFormed self)
    (hl : l.Rep t) (hnow : now.val < u64.hi)
    (htotal : l.protocolCallTotal = BoundedInt.clamp (valueSum l.protocolCallEntries))
    (hst : Staged cfg now before st) (hperm : ∀ c ∈ before, Permitted cfg c) :
    FirstMatch (contextRows self cfg l now before ctx)
      (evalCall cfg (pruneFor cfg l now) now st (parseCall self ctx cfg)).1.reason? := by
  have hnoprotocol : (∀ contract fname, parseCall self ctx cfg ≠ .protocol contract fname) →
      FirstMatch (protocolRows cfg l now before ctx) none := fun hno =>
    protocolRows_silent fun p h => by
      obtain ⟨contract, fname, hparse, -⟩ := (onProtocol_iff hacc).mp h
      exact hno contract fname hparse
  rw [contextRows, List.append_assoc, List.append_assoc, firstMatch_classRows hacc]
  cases hparse : parseCall self ctx cfg with
  | createContract => rfl
  | unknown contract fname => rfl
  | selfCall fname =>
    dsimp only
    rw [evalCall]
    split_ifs with hname
    · obtain ⟨args, rfl⟩ := parseCall_eq_selfCall_iff.mp hparse
      rw [← List.append_assoc]
      refine (hnoprotocol (by simp [hparse])).skip (assetRows_silent fun p h => ?_)
      exact hacc.self_notMem_assets (onAsset_contract_iff.mp h).1
    · rfl
  | assetOther asset fname =>
    obtain ⟨⟨args, rfl⟩, hasset, hname⟩ := (parseCall_eq_assetOther_iff hacc).mp hparse
    have hpaused := assetPaused_iff hacc asset
    dsimp only
    rw [evalCall]
    split_ifs with hp
    · refine .settled ?_ _
      simp [assetRows, onAsset_contract_iff, hasset, hpaused.mp hp]
    · refine .settled ?_ _
      rw [hpaused] at hp
      simp only [assetRows, firstMatch_cons, onAsset_contract_iff]
      exact .inr ⟨fun h => hp h.2, .inl ⟨⟨hasset, hname⟩, trivial⟩⟩
  | assetTransfer asset dest amount =>
    dsimp only
    rw [evalCall, ← List.append_assoc]
    have hanswer := firstMatch_transfer hacc hwf hl hnow hst hperm hparse
    cases hreason : (evalTransfer cfg (pruneFor cfg l now) now st asset dest amount).1.reason? with
    | none => exact (hnoprotocol (by simp [hparse])).skip (hreason ▸ hanswer)
    | some e => exact (hreason ▸ hanswer).settled _
  | protocol contract fname =>
    obtain ⟨⟨args, rfl⟩, hasset, -⟩ := (parseCall_eq_protocol_iff hacc).mp hparse
    dsimp only
    rw [evalCall, ← List.append_assoc]
    exact (firstMatch_protocol hacc hl hnow htotal hst hparse).skip
      (assetRows_silent fun p h => hasset (onAsset_contract_iff.mp h).1)

end

/-! ## The events -/

section

variable {env : Env} {s : State} {cfg : PolicyConfig} {contexts : List Context} {t : U64}

/-- **Each verdict is the table's answer.** -/
theorem firstMatch_decisionTable (hreach : Reachable env.host t s)
    (ht : t.val ≤ env.timestamp.val) (hnow : env.timestamp.val < u64.hi)
    (hcfg : s.policy = some cfg) (hlen : contexts.length ≤ maxAuthContexts) {i : ℕ}
    {ctx : Context} (hi : contexts[i]? = some ctx) :
    let verdicts := (authDecision env s contexts).1
    ∃ verdict, verdicts[i]? = some verdict ∧
      FirstMatch (decisionTable env s cfg
        (allowedBefore (parseAll env.host.self cfg contexts) verdicts i) ctx) verdict.reason? := by
  have hinv := hreach.inv.mono ht
  have hacc := hinv.accepted hcfg
  have hwf := wellFormed_of_firstFailingRule
    (firstFailingRule_of_validateConfig (hinv.policy cfg hcfg))
  simp only [decisionTable, firstMatch_gateRows, authDecision, hcfg, verdicts_eq hlen]
  cases gateError cfg ⟨s.frozenOrFalse, s.heartbeatOrZero⟩ env.timestamp with
  | some e =>
    refine ⟨.blocked e, ?_, rfl⟩
    dsimp only
    rw [blockAll, List.getElem?_map, hi]
    rfl
  | none =>
    have hrep := hinv.ledger.pruneFor cfg env.timestamp
    obtain ⟨st, hst, hperm, hverdict⟩ := evalContexts_getElem? env.host.self contexts
      (staged_empty cfg env.timestamp) (by simp) (fits_nil cfg _) hrep.single.total_nonneg
      (fun r => (hrep.meter r).total_nonneg) i ctx hi
    rw [List.nil_append] at hst hperm
    exact ⟨_, hverdict,
      firstMatch_contextRows hacc hwf hinv.ledger hnow hinv.recounted.1 hst hperm⟩

/-- **Every verdict is read off the decision table, and every event reports one.**  In every
reachable state with a policy, at a time below `u64::MAX` (where a saturated expiry drops what is
still live), a request of at most 64 contexts with the agent's signature gets an answer: the error
of the first context that is refused, or `Ok`.  The event of each context carries the answer its
table gives, and the table gives no other: the reason reported is the first row that applies, over
the gates, the context as it came, what is live in the stored window, and the contexts before it
that were allowed. -/
theorem every_verdict_by_table {signaturePayload signature : List UInt8} {agent : Bytes32}
    (hreach : Reachable env.host t s) (ht : t.val ≤ env.timestamp.val)
    (hnow : env.timestamp.val < u64.hi) (hkey : s.agentPubkey = some agent)
    (hsig : env.host.ed25519Verify agent signaturePayload signature = true)
    (hcfg : s.policy = some cfg) (hlen : contexts.length ≤ maxAuthContexts) :
    ∃ (verdicts : List Decision) (outcome : AuthOutcome),
      checkAuth env s signaturePayload signature contexts = .ok outcome ∧
      verdicts.length = contexts.length ∧
      outcome.result = (match firstError verdicts with
        | some e => .error e
        | none => .ok ()) ∧
      ∀ i ctx, contexts[i]? = some ctx → ∃ verdict, verdicts[i]? = some verdict ∧
        outcome.events[i]?
          = some (emitAuth s verdict.isAllowed verdict.reason? (some ctx) i) ∧
        ∀ reason, FirstMatch (decisionTable env s cfg
          (allowedBefore (parseAll env.host.self cfg contexts) verdicts i) ctx) reason
            ↔ reason = verdict.reason? := by
  have hlength : (authDecision env s contexts).1.length = contexts.length :=
    length_decideContexts hlen
  have hevent : ∀ {i : ℕ} {ctx : Context} {verdict : Decision}, contexts[i]? = some ctx →
      (authDecision env s contexts).1[i]? = some verdict →
      ((authDecision env s contexts).1.mapIdx (emitVerdict s contexts))[i]?
        = some (emitAuth s verdict.isAllowed verdict.reason? (some ctx) i) := by
    intro i ctx verdict hi hverdict
    rw [List.getElem?_mapIdx, hverdict, Option.map_some, ← hi]
    cases verdict <;> rfl
  have htable : ∀ i ctx, contexts[i]? = some ctx →
      ∃ verdict, (authDecision env s contexts).1[i]? = some verdict ∧
        ∀ reason, FirstMatch (decisionTable env s cfg (allowedBefore
          (parseAll env.host.self cfg contexts) (authDecision env s contexts).1 i) ctx) reason
            ↔ reason = verdict.reason? := fun i ctx hi => by
    obtain ⟨verdict, hverdict, hmatch⟩ := firstMatch_decisionTable hreach ht hnow hcfg hlen hi
    exact ⟨verdict, hverdict, fun reason => ⟨fun h => h.unique hmatch, fun h => h ▸ hmatch⟩⟩
  cases hfirst : firstError (authDecision env s contexts).1 with
  | none =>
    have hall := firstError_eq_none_iff.mp hfirst
    refine ⟨(authDecision env s contexts).1, _,
      (checkAuth_eq hkey hsig hcfg).trans (if_pos hall), hlength, by rw [hfirst], ?_⟩
    intro i ctx hi
    obtain ⟨verdict, hverdict, hmatch⟩ := htable i ctx hi
    refine ⟨verdict, hverdict, ?_, hmatch⟩
    have hi' := hevent hi hverdict
    rw [List.getElem?_append_left (List.getElem?_eq_some_iff.mp hi').1]
    exact hi'
  | some e =>
    have hblocked : ¬(authDecision env s contexts).1.all Decision.isAllowed = true := fun hall => by
      simp [firstError_eq_none_iff.mpr hall] at hfirst
    refine ⟨(authDecision env s contexts).1, _,
      (checkAuth_eq hkey hsig hcfg).trans ((if_neg hblocked).trans (by rw [hfirst])), hlength,
      by rw [hfirst], ?_⟩
    intro i ctx hi
    obtain ⟨verdict, hverdict, hmatch⟩ := htable i ctx hi
    exact ⟨verdict, hverdict, hevent hi hverdict, hmatch⟩

end

namespace Sample

/-- With `20` of `50` spent: a transfer of `20` passes and a second one does not fit on top of it,
and the table says so. -/
theorem second_refused_by_table :
    ∃ verdicts : List Decision, FirstMatch (decisionTable ((auth 120 [pay 20, pay 20]).env host)
      spent capFifty (allowedBefore (parseAll host.self capFifty [pay 20, pay 20]) verdicts 1)
        (pay 20)) (some .windowCapExceeded) := by
  obtain ⟨verdicts, outcome, hcheck, hlen, hresult, htable⟩ := @every_verdict_by_table
    ((auth 120 [pay 20, pay 20]).env host) spent capFifty [pay 20, pay 20] 110 [] [] _
    reachable_spent (by decide) (by decide) rfl rfl rfl (by decide)
  obtain ⟨verdict, hverdict, hevent, hmatch⟩ := htable 1 (pay 20) rfl
  refine ⟨verdicts, (hmatch _).mpr ?_⟩
  obtain rfl : outcome = ⟨.error .windowCapExceeded, spent,
      [emitAuth spent true none (some (pay 20)) 0,
        emitAuth spent false (some .windowCapExceeded) (some (pay 20)) 1]⟩ :=
    Except.ok.inj (hcheck.symm.trans (by rfl))
  cases verdict with
  | allowed => simp [emitAuth, Decision.isAllowed] at hevent
  | blocked e =>
    simp only [emitAuth, Decision.isAllowed, Decision.reason?, List.getElem?_cons_succ,
      List.getElem?_cons_zero, Option.some.injEq, Event.authChecked.injEq] at hevent
    have hreason : Error.reason .windowCapExceeded = Error.reason e := hevent.2.1
    rw [Decision.reason?, Error.reason_injective hreason]

end Sample

end AgentGuard
