import AgentGuard.Contract.Invariant

/-!
# Contract/Deny — default deny, exactly

What the guard account is for, stated without its engine: which contexts a policy permits on their
own, which account gates must stand open, and what the rolling limits leave.  `__check_auth` says
yes exactly then (`approves_iff_admissible`).
-/

namespace AgentGuard

open Machinery

/-! ## Permitted contexts -/

/-- **A well-formed transfer**: exactly the arguments of the SAC function, with an address and an
`i128` where recipient and amount stand. -/
inductive TransferOf (asset dest : Address) (amount : I128) : Context → Prop
  | transfer (sender : Val) :
      TransferOf asset dest amount
        (.contract ⟨asset, "transfer", [sender, .address dest, .i128 amount]⟩)
  | transferFrom (spender sender : Val) :
      TransferOf asset dest amount
        (.contract ⟨asset, "transfer_from", [spender, sender, .address dest, .i128 amount]⟩)

/-- **The contexts a policy permits on their own.**  Everything else is denied. -/
inductive PermittedContext (self : Address) (cfg : PolicyConfig) : Context → Prop
  | heartbeat (args : List Val) :
      PermittedContext self cfg (.contract ⟨self, "heartbeat", args⟩)
  | transfer {ctx : Context} {asset dest : Address} {amount : I128}
      (hctx : TransferOf asset dest amount ctx) (hasset : asset ∈ cfg.assets)
      (hpaused : ∀ ac ∈ cfg.assetCaps, ac.asset = asset → ac.paused = false)
      (hamount : 0 < amount.val) (hblocked : dest ∉ cfg.blockedRecipients)
      (hrecipient : cfg.allowAnyRecipient = true ∨ dest ∈ cfg.recipients)
      -- an override replaces the policy's cap; a cap of `0` is disabled
      (hoverride : ∀ ac ∈ cfg.assetCaps, ac.asset = asset → 0 < ac.perTxCap.val →
        amount.val ≤ ac.perTxCap.val)
      (hcap : (∀ ac ∈ cfg.assetCaps, ac.asset ≠ asset) → 0 < cfg.perTxCap.val →
        amount.val ≤ cfg.perTxCap.val) :
      PermittedContext self cfg ctx
  | protocol {fname : Symbol} (args : List Val) {rule : ProtocolRule}
      (hrule : rule ∈ cfg.protocols) (hasset : rule.contract ∉ cfg.assets)
      (hpaused : rule.paused = false) (hfn : ∀ fns, rule.fns = some fns → fname ∈ fns) :
      PermittedContext self cfg (.contract ⟨rule.contract, fname, args⟩)

section

variable {self : Address} {cfg : PolicyConfig}

theorem enabledCap_le_iff (cap amount : I128) :
    (∀ c ∈ enabledCap cap, amount.val ≤ c.val) ↔ (0 < cap.val → amount.val ≤ cap.val) := by
  rw [enabledCap]
  split_ifs with h <;> simp [h]

/-- The override of an asset, read declaratively. -/
theorem assetRules_iff (h : cfg.Accepted self) (asset : Address) (amount : I128) :
    (assetPaused cfg asset = false ∧ ∀ cap ∈ effectivePerTxCap cfg asset, amount.val ≤ cap.val)
      ↔ (∀ ac ∈ cfg.assetCaps, ac.asset = asset → ac.paused = false ∧
          (0 < ac.perTxCap.val → amount.val ≤ ac.perTxCap.val)) ∧
        ((∀ ac ∈ cfg.assetCaps, ac.asset ≠ asset) → 0 < cfg.perTxCap.val →
          amount.val ≤ cfg.perTxCap.val) := by
  rw [assetPaused, effectivePerTxCap]
  cases hfind : cfg.assetCaps.find? fun ac => ac.asset = asset with
  | none =>
    have hno : ∀ ac ∈ cfg.assetCaps, ac.asset ≠ asset := fun ac hac => by
      simpa using List.find?_eq_none.mp hfind ac hac
    dsimp only
    rw [enabledCap_le_iff]
    refine ⟨fun hc => ⟨fun ac hac heq => absurd heq (hno ac hac), fun _ => hc.2⟩,
      fun hc => ⟨rfl, hc.2 hno⟩⟩
  | some ac =>
    obtain ⟨hmem, hasset⟩ := (find?_key_eq_some_iff h.assetCaps_nodup).mp hfind
    dsimp only
    rw [enabledCap_le_iff]
    refine ⟨fun hc => ⟨fun ac' hac' heq => ?_, fun hno => absurd hasset (hno ac hmem)⟩,
      fun hc => hc.1 ac hmem hasset⟩
    -- the entry found is the only one for this asset
    have hfind' := (find?_key_eq_some_iff h.assetCaps_nodup).mpr ⟨hac', heq⟩
    obtain rfl : ac = ac' := Option.some.inj (hfind.symm.trans hfind')
    exact hc

/-- **What parses as a transfer** is a well-formed transfer of an allowed asset. -/
theorem parseCall_eq_assetTransfer_iff (h : cfg.Accepted self) {ctx : Context}
    {asset dest : Address} {amount : I128} :
    parseCall self ctx cfg = .assetTransfer asset dest amount
      ↔ TransferOf asset dest amount ctx ∧ asset ∈ cfg.assets := by
  constructor
  · intro hparse
    cases ctx with
    | contract c =>
      obtain ⟨contract, fname, args⟩ := c
      simp only [parseCall] at hparse
      split_ifs at hparse with hself htransfer harity hasset hprot
      obtain ⟨hmem, hname⟩ := htransfer
      rcases hname with rfl | rfl
      · match args with
        | [sender, toVal, amtVal] =>
          simp only [transferIndices, if_true, List.getElem?_cons_succ, List.getElem?_cons_zero]
            at hparse
          cases toVal <;> cases amtVal <;>
            simp only [Val.toAddress?, Val.toI128?, reduceCtorEq, ParsedCall.assetTransfer.injEq]
              at hparse
          obtain ⟨rfl, rfl, rfl⟩ := hparse
          exact ⟨.transfer sender, hmem⟩
        | [] | [_] | [_, _] | _ :: _ :: _ :: _ :: _ => simp [expectedArity] at harity
      · match args with
        | [spender, sender, toVal, amtVal] =>
          simp [transferIndices] at hparse
          cases toVal <;> cases amtVal <;>
            simp only [Val.toAddress?, Val.toI128?, reduceCtorEq, ParsedCall.assetTransfer.injEq]
              at hparse
          obtain ⟨rfl, rfl, rfl⟩ := hparse
          exact ⟨.transferFrom spender sender, hmem⟩
        | [] | [_] | [_, _] | [_, _, _] | _ :: _ :: _ :: _ :: _ :: _ =>
          simp [expectedArity] at harity
    | createContractHostFn => simp [parseCall] at hparse
    | createContractWithCtorHostFn => simp [parseCall] at hparse
  · rintro ⟨hctx, hmem⟩
    have hne : asset ≠ self := fun heq => h.self_notMem_assets (heq ▸ hmem)
    cases hctx with
    | transfer sender =>
      simp [parseCall, hne, hmem, expectedArity, transferIndices, Val.toAddress?, Val.toI128?]
    | transferFrom spender sender =>
      simp [parseCall, hne, hmem, expectedArity, transferIndices, Val.toAddress?, Val.toI128?]

theorem parseCall_eq_selfCall_iff {ctx : Context} {fname : Symbol} :
    parseCall self ctx cfg = .selfCall fname ↔ ∃ args, ctx = .contract ⟨self, fname, args⟩ := by
  constructor
  · intro hparse
    cases ctx with
    | contract c =>
      obtain ⟨contract, name, args⟩ := c
      by_cases hself : contract = self
      · subst hself
        obtain rfl : name = fname := by simpa [parseCall] using hparse
        exact ⟨args, rfl⟩
      · simp only [parseCall, if_neg hself] at hparse
        split_ifs at hparse
        split at hparse
        · split at hparse <;> simp at hparse
        · simp at hparse
    | createContractHostFn => simp [parseCall] at hparse
    | createContractWithCtorHostFn => simp [parseCall] at hparse
  · rintro ⟨args, rfl⟩
    simp [parseCall]

/-- **What parses as a protocol call** is any call on a listed protocol that is no asset. -/
theorem parseCall_eq_protocol_iff (h : cfg.Accepted self) {ctx : Context} {contract : Address}
    {fname : Symbol} :
    parseCall self ctx cfg = .protocol contract fname
      ↔ (∃ args, ctx = .contract ⟨contract, fname, args⟩) ∧ contract ∉ cfg.assets ∧
        ∃ rule ∈ cfg.protocols, rule.contract = contract := by
  constructor
  · intro hparse
    cases ctx with
    | contract c =>
      obtain ⟨contract', name, args⟩ := c
      simp only [parseCall] at hparse
      split_ifs at hparse with hself htransfer harity hasset hprot
      · split at hparse
        · split at hparse <;> simp at hparse
        · simp at hparse
      · obtain ⟨rfl, rfl⟩ := ParsedCall.protocol.inj hparse
        exact ⟨⟨args, rfl⟩, hasset, by simpa using hprot⟩
    | createContractHostFn => simp [parseCall] at hparse
    | createContractWithCtorHostFn => simp [parseCall] at hparse
  · rintro ⟨⟨args, rfl⟩, hasset, rule, hrule, rfl⟩
    have hne := h.self_ne_protocol rule hrule
    have hany : (cfg.protocols.any fun r => r.contract = rule.contract) = true :=
      List.any_eq_true.mpr ⟨rule, hrule, by simp⟩
    simp only [parseCall, if_neg hne, hasset, false_and, if_false, hany, if_true]

/-- **The engine permits a call exactly when the policy permits its context.** -/
theorem permitted_parseCall_iff (h : cfg.Accepted self) (ctx : Context) :
    Permitted cfg (parseCall self ctx cfg) ↔ PermittedContext self cfg ctx := by
  constructor
  · intro hperm
    cases hparse : parseCall self ctx cfg with
    | selfCall fname =>
      rw [hparse] at hperm
      obtain ⟨args, rfl⟩ := parseCall_eq_selfCall_iff.mp hparse
      obtain rfl : fname = "heartbeat" := hperm
      exact .heartbeat args
    | assetTransfer asset dest amount =>
      rw [hparse] at hperm
      obtain ⟨hctx, hasset⟩ := (parseCall_eq_assetTransfer_iff h).mp hparse
      obtain ⟨hpaused, hamount, hblocked, hrecipient, hcap⟩ := hperm
      obtain ⟨hoverride, hdefault⟩ := (assetRules_iff h asset amount).mp ⟨hpaused, hcap⟩
      exact .transfer hctx hasset (fun ac hac heq => (hoverride ac hac heq).1) hamount hblocked
        hrecipient (fun ac hac heq => (hoverride ac hac heq).2) hdefault
    | protocol contract fname =>
      rw [hparse] at hperm
      obtain ⟨⟨args, rfl⟩, hasset, -⟩ := (parseCall_eq_protocol_iff h).mp hparse
      obtain ⟨rule, hfind, hpaused, hfn⟩ := hperm
      obtain ⟨hrule, rfl⟩ := (find?_key_eq_some_iff h.protocols_nodup).mp hfind
      exact .protocol args hrule hasset hpaused hfn
    | createContract => simp [hparse, Permitted] at hperm
    | assetOther asset fname => simp [hparse, Permitted] at hperm
    | unknown contract fname => simp [hparse, Permitted] at hperm
  · intro hctx
    cases hctx with
    | heartbeat args =>
      rw [parseCall_eq_selfCall_iff.mpr ⟨args, rfl⟩]
      rfl
    | @transfer _ asset dest amount hctx hasset hpaused hamount hblocked hrecipient hoverride
        hcap =>
      obtain ⟨hactive, hle⟩ := (assetRules_iff h asset amount).mpr
        ⟨fun ac hac heq => ⟨hpaused ac hac heq, hoverride ac hac heq⟩, hcap⟩
      rw [(parseCall_eq_assetTransfer_iff h).mpr ⟨hctx, hasset⟩]
      exact ⟨hactive, hamount, hblocked, hrecipient, hle⟩
    | @protocol fname args rule hrule hasset hpaused hfn =>
      rw [(parseCall_eq_protocol_iff h).mpr ⟨⟨args, rfl⟩, hasset, rule, hrule, rfl⟩]
      exact ⟨rule, (find?_key_eq_some_iff h.protocols_nodup).mpr ⟨hrule, rfl⟩, hpaused, hfn⟩

end

/-! ## What a context moves -/

/-- **What a context spends on recipients in `dests`**, read off it: the amount of a well-formed
transfer of an allowed asset, and otherwise nothing. -/
inductive Spends (cfg : PolicyConfig) (dests : Set Address) (ctx : Context) : ℤ → Prop
  | transfer {asset dest : Address} {amount : I128} (hctx : TransferOf asset dest amount ctx)
      (hasset : asset ∈ cfg.assets) (hdest : dest ∈ dests) : Spends cfg dests ctx amount.val
  | other (h : ∀ asset ∈ cfg.assets, ∀ dest ∈ dests, ∀ amount, ¬TransferOf asset dest amount ctx) :
      Spends cfg dests ctx 0

/-- **How often a context counts as a protocol call**: once, when it calls a listed contract that is
no asset. -/
inductive CountsCall (cfg : PolicyConfig) (ctx : Context) : ℤ → Prop
  | protocol {rule : ProtocolRule} {fname : Symbol} {args : List Val}
      (hctx : ctx = .contract ⟨rule.contract, fname, args⟩) (hrule : rule ∈ cfg.protocols)
      (hasset : rule.contract ∉ cfg.assets) : CountsCall cfg ctx 1
  | other (h : ∀ rule ∈ cfg.protocols, rule.contract ∉ cfg.assets →
      ∀ fname args, ctx ≠ .contract ⟨rule.contract, fname, args⟩) : CountsCall cfg ctx 0

/-- Every context spends something definite. -/
theorem exists_spends (cfg : PolicyConfig) (dests : Set Address) (ctx : Context) :
    ∃ n, Spends cfg dests ctx n := by
  by_cases h : ∃ asset ∈ cfg.assets, ∃ dest ∈ dests, ∃ amount, TransferOf asset dest amount ctx
  · obtain ⟨asset, hasset, dest, hdest, amount, hctx⟩ := h
    exact ⟨_, .transfer hctx hasset hdest⟩
  · push Not at h
    exact ⟨0, .other h⟩

theorem exists_countsCall (cfg : PolicyConfig) (ctx : Context) : ∃ n, CountsCall cfg ctx n := by
  by_cases h : ∃ rule ∈ cfg.protocols, rule.contract ∉ cfg.assets ∧
      ∃ fname args, ctx = .contract ⟨rule.contract, fname, args⟩
  · obtain ⟨rule, hrule, hasset, fname, args, hctx⟩ := h
    exact ⟨1, .protocol hctx hrule hasset⟩
  · push Not at h
    exact ⟨0, .other h⟩

section

variable {self : Address} {cfg : PolicyConfig} {ctx : Context} {n : ℤ}

/-- A measure of parsed calls that sees the transfers to `dests` and nothing else. -/
theorem Spends.eq_of_reads {dests : Set Address} {f : ParsedCall → ℤ} (h : Spends cfg dests ctx n)
    (hacc : cfg.Accepted self)
    (hin : ∀ {asset dest amount}, dest ∈ dests → f (.assetTransfer asset dest amount) = amount.val)
    (hout : ∀ c, (∀ asset, ∀ dest ∈ dests, ∀ amount, c ≠ .assetTransfer asset dest amount) →
      f c = 0) : f (parseCall self ctx cfg) = n := by
  cases h with
  | transfer hctx hasset hdest =>
    rw [(parseCall_eq_assetTransfer_iff hacc).mpr ⟨hctx, hasset⟩, hin hdest]
  | other h =>
    refine hout _ fun asset dest hdest amount hparse => ?_
    obtain ⟨hctx, hasset⟩ := (parseCall_eq_assetTransfer_iff hacc).mp hparse
    exact h asset hasset dest hdest amount hctx

/-- **The engine meters what a context spends**, on anyone… -/
theorem Spends.spend_eq (h : Spends cfg Set.univ ctx n) (hacc : cfg.Accepted self) :
    (parseCall self ctx cfg).spend = n := by
  refine h.eq_of_reads hacc (fun _ => rfl) fun c hc => ?_
  cases c with
  | assetTransfer asset dest amount => exact absurd rfl (hc asset dest (Set.mem_univ dest) amount)
  | _ => rfl

/-- …and on one recipient… -/
theorem Spends.spendTo_eq {recipient : Address} (h : Spends cfg {recipient} ctx n)
    (hacc : cfg.Accepted self) : (parseCall self ctx cfg).spendTo recipient = n := by
  refine h.eq_of_reads hacc (fun hdest => if_pos hdest) fun c hc => ?_
  cases c with
  | assetTransfer asset dest amount => exact if_neg fun hdest => hc asset dest hdest amount rfl
  | _ => rfl

/-- …and how often it calls a protocol. -/
theorem CountsCall.protocolCalls_eq (h : CountsCall cfg ctx n) (hacc : cfg.Accepted self) :
    (parseCall self ctx cfg).protocolCalls = n := by
  cases h with
  | @protocol rule fname args hctx hrule hasset =>
    rw [(parseCall_eq_protocol_iff hacc).mpr ⟨⟨args, hctx⟩, hasset, rule, hrule, rfl⟩,
      ParsedCall.protocolCalls]
  | other h =>
    cases hparse : parseCall self ctx cfg with
    | protocol contract fname =>
      obtain ⟨⟨args, hctx⟩, hasset, rule, hrule, rfl⟩ := (parseCall_eq_protocol_iff hacc).mp hparse
      exact absurd hctx (h rule hrule hasset fname args)
    | _ => rfl

end

/-! ## The gates and the limits -/

/-- The value of the entries that have not expired at `now`; a width of `0` expires nothing. -/
def live {V : IntRange} (now windowSecs : U64) (entries : List (Stamped u64 V)) : ℤ :=
  valueSum (entries.filter fun e => windowSecs.val = 0 ∨ now.val < e.ts.val + windowSecs.val)

/-- What the `u32` counter says of the calls that have not expired: it is loaded saturated, and the
expired ones are taken off. -/
def liveCalls (now windowSecs : U64) (entries : List ProtocolCallEntry) : ℤ :=
  max 0 (min u32.hi (valueSum entries) - (valueSum entries - live now windowSecs entries))

/-- **What a request must satisfy to be approved**: the account gates, the rules of each context,
and the rolling limits over what the stored window still holds. -/
structure Admissible (env : Env) (s : State) (cfg : PolicyConfig) (contexts : List Context) :
    Prop where
  policy : s.policy = some cfg
  few : contexts.length ≤ maxAuthContexts
  unfrozen : s.frozenOrFalse = false
  alive : ¬(0 < cfg.dmsGraceSecs.val ∧ s.heartbeatOrZero.val ≠ 0 ∧
    env.timestamp.val - s.heartbeatOrZero.val > cfg.dmsGraceSecs.val)
  running : cfg.paused = false
  started : cfg.activeFrom.val = 0 ∨ cfg.activeFrom.val ≤ env.timestamp.val
  unfinished : cfg.activeUntil.val = 0 ∨ env.timestamp.val ≤ cfg.activeUntil.val
  permitted : ∀ ctx ∈ contexts, PermittedContext env.host.self cfg ctx
  global : 0 < cfg.windowCap.val →
    let spend := ((parseAll env.host.self cfg contexts).map ParsedCall.spend).sum
    0 < spend →
      live env.timestamp cfg.windowSecs s.loadWindow.1.entries + spend ≤ cfg.windowCap.val
  recipient : ∀ rc ∈ cfg.recipientWindowCaps, 0 < rc.cap.val →
    let spend := ((parseAll env.host.self cfg contexts).map (ParsedCall.spendTo rc.recipient)).sum
    0 < spend →
      live env.timestamp cfg.windowSecs (s.loadWindow.1.meter rc.recipient).entries + spend
        ≤ rc.cap.val
  calls : 0 < cfg.protocolCallsPerWindow.val →
    let count := ((parseAll env.host.self cfg contexts).map ParsedCall.protocolCalls).sum
    0 < count →
      liveCalls env.timestamp cfg.windowSecs s.loadWindow.1.protocolCallEntries + count
        ≤ cfg.protocolCallsPerWindow.val

/-- `__check_auth` returns `Ok`. -/
def Approves (env : Env) (s : State) (signaturePayload signature : List UInt8)
    (contexts : List Context) : Prop :=
  ∃ outcome, checkAuth env s signaturePayload signature contexts = .ok outcome ∧
    outcome.result = .ok ()

theorem approves_iff_grants {env : Env} {s : State} {signaturePayload signature : List UInt8}
    {contexts : List Context} {agent : Bytes32} (hkey : s.agentPubkey = some agent)
    (hsig : env.host.ed25519Verify agent signaturePayload signature = true) :
    Approves env s signaturePayload signature contexts ↔ ∃ cfg, Grants env s cfg contexts := by
  constructor
  · rintro ⟨outcome, hcheck, hok⟩
    obtain ⟨cfg, hgrants, -⟩ := checkAuth_ok hcheck hok
    exact ⟨cfg, hgrants⟩
  · rintro ⟨cfg, hgrants⟩
    exact ⟨_, (checkAuth_eq hkey hsig hgrants.policy).trans (if_pos hgrants.allowed), rfl⟩

section

variable {env : Env} {s : State} {cfg : PolicyConfig} {contexts : List Context} {l : Ledger}
  {now t : U64}

theorem heartbeatExpired_iff {lastHeartbeat : U64} :
    heartbeatExpired cfg lastHeartbeat now = true
      ↔ 0 < cfg.dmsGraceSecs.val ∧ lastHeartbeat.val ≠ 0 ∧
        now.val - lastHeartbeat.val > cfg.dmsGraceSecs.val := by
  have hgrace := cfg.dmsGraceSecs.nonneg
  rw [heartbeatExpired, BoundedInt.val_saturatingSub_of_nonneg now lastHeartbeat.nonneg, u64_lo,
    decide_eq_true_eq]
  refine and_congr_right fun _ => and_congr_right fun _ => ?_
  omega

theorem outsideActiveWindow_eq_false_iff :
    outsideActiveWindow cfg now = false
      ↔ (cfg.activeFrom.val = 0 ∨ cfg.activeFrom.val ≤ now.val) ∧
        (cfg.activeUntil.val = 0 ∨ now.val ≤ cfg.activeUntil.val) := by
  rw [outsideActiveWindow, decide_eq_false_iff_not]
  omega

/-- **The account gates, all open.** -/
theorem accountError_eq_none_iff {state : AccountState} :
    accountError cfg state now = none
      ↔ ¬heartbeatExpired cfg state.lastHeartbeat now = true ∧ cfg.paused = false ∧
        outsideActiveWindow cfg now = false := by
  rw [accountError]
  split_ifs <;> simp_all

theorem openPolicy_eq_some_iff {policy : Option PolicyConfig} {state : AccountState} :
    openPolicy policy state now = some cfg
      ↔ policy = some cfg ∧ state.adminFrozen = false ∧ accountError cfg state now = none := by
  rw [openPolicy]
  split_ifs with hf
  · simp [hf]
  · rw [Option.filter_eq_some_iff, Option.isNone_iff_eq_none]
    simp [hf]

/-- Below the end of time, what is live is what is after the horizon. -/
theorem live_eq_sumAfter {V : IntRange} {windowSecs : U64} (hnow : now.val < u64.hi)
    (entries : List (Stamped u64 V)) :
    live now windowSecs entries = sumAfter (horizon now windowSecs) entries := by
  refine congrArg valueSum (List.filter_congr fun e _ => decide_eq_decide.mpr ?_)
  have hts : 0 ≤ e.ts.val := U64.nonneg e.ts
  by_cases hw : windowSecs.val = 0
  · simp only [hw, true_or, true_iff, horizon, if_true]
    omega
  · rw [horizon_eq hw hnow]
    omega

theorem liveCalls_eq_live {windowSecs : U64} {entries : List ProtocolCallEntry}
    (hpos : ∀ e ∈ entries, 0 < e.value.val) (hfit : valueSum entries ≤ u32.hi) :
    liveCalls now windowSecs entries = live now windowSecs entries := by
  have hnn : 0 ≤ live now windowSecs entries :=
    valueSum_nonneg fun e he => hpos e (List.mem_of_mem_filter he)
  rw [liveCalls, min_eq_right hfit]
  omega

/-- **The totals the limits are checked against are the live values.** -/
theorem val_total_pruneFor (hl : l.Rep t) (hlimits : limitsWindow cfg = true)
    (hnow : now.val < u64.hi) :
    (pruneFor cfg l now).total.val = live now cfg.windowSecs l.entries ∧
      ∀ r, ((pruneFor cfg l now).meter r).total.val
        = live now cfg.windowSecs (l.meter r).entries := by
  have hhorizon : pruneHorizon cfg now = horizon now cfg.windowSecs := if_pos hlimits
  refine ⟨?_, fun r => ?_⟩
  · rw [live_eq_sumAfter hnow, ← hhorizon]
    have hexact := (hl.single.keepAfter (by decide) (pruneHorizon cfg now)).exact
    rw [← hl.single_pruneFor] at hexact
    exact hexact.trans (by rw [hl.single_pruneFor]; rfl)
  · rw [live_eq_sumAfter hnow, ← hhorizon]
    have hexact := ((hl.meter r).keepAfter (by decide) (pruneHorizon cfg now)).exact
    rw [← hl.meter_pruneFor] at hexact
    exact hexact.trans (by rw [hl.meter_pruneFor]; rfl)

/-- The counter too, as it was loaded. -/
theorem val_protocolCallTotal_pruneFor (hl : l.Rep t) (hlimits : limitsWindow cfg = true)
    (hnow : now.val < u64.hi)
    (htotal : l.protocolCallTotal = BoundedInt.clamp (valueSum l.protocolCallEntries)) :
    (pruneFor cfg l now).protocolCallTotal.val
      = liveCalls now cfg.windowSecs l.protocolCallEntries := by
  have hhorizon : pruneHorizon cfg now = horizon now cfg.windowSecs := if_pos hlimits
  have hcalls := congrArg Rolling.total (hl.calls_pruneFor cfg now)
  have hsplit := sumUpTo_add_sumAfter (horizon now cfg.windowSecs) l.protocolCallEntries
  have hval := Rolling.val_total_keepAfter (l := l.calls) hl.calls.positive
    (pruneHorizon cfg now)
  rw [← hcalls, hhorizon] at hval
  have hloaded : l.calls.total.val = min u32.hi (valueSum l.protocolCallEntries) := by
    rw [show l.calls.total = _ from htotal]
    exact U32.val_clamp (valueSum_nonneg hl.calls.positive)
  have hexpired : sumUpTo (horizon now cfg.windowSecs) l.calls.entries
      = valueSum l.protocolCallEntries - live now cfg.windowSecs l.protocolCallEntries := by
    rw [live_eq_sumAfter hnow]
    exact eq_sub_of_add_eq hsplit
  rw [hloaded, hexpired] at hval
  exact hval

/-- **The limits, over what is live.** -/
theorem fits_pruneFor_iff {self : Address} (hacc : cfg.Accepted self) (hl : l.Rep t)
    (htotal : l.protocolCallTotal = BoundedInt.clamp (valueSum l.protocolCallEntries))
    (hnow : now.val < u64.hi) (hlimit : cfg.protocolCallsPerWindow.val < u32.hi)
    (calls : List ParsedCall) :
    Fits cfg (pruneFor cfg l now) calls
      ↔ (0 < cfg.windowCap.val → 0 < (calls.map ParsedCall.spend).sum →
          live now cfg.windowSecs l.entries + (calls.map ParsedCall.spend).sum
            ≤ cfg.windowCap.val) ∧
        (∀ rc ∈ cfg.recipientWindowCaps, 0 < rc.cap.val →
          0 < (calls.map (ParsedCall.spendTo rc.recipient)).sum →
            live now cfg.windowSecs (l.meter rc.recipient).entries
              + (calls.map (ParsedCall.spendTo rc.recipient)).sum ≤ rc.cap.val) ∧
        (0 < cfg.protocolCallsPerWindow.val → 0 < (calls.map ParsedCall.protocolCalls).sum →
          liveCalls now cfg.windowSecs l.protocolCallEntries
            + (calls.map ParsedCall.protocolCalls).sum ≤ cfg.protocolCallsPerWindow.val) := by
  constructor
  · refine fun h => ⟨fun hcap hpos => ?_, fun rc hrc hcap hpos => ?_, fun hcap hpos => ?_⟩
    · have hdemand : globalDemand cfg calls = _ := if_pos hcap
      have hfit := h.global (hdemand ▸ hpos)
      rwa [hdemand, (val_total_pruneFor hl (limitsWindow_of_windowCap hcap) hnow).1] at hfit
    · have hoverride := recipientOverrideCap_of_mem hacc hrc hcap
      have hdemand : recipientDemand cfg rc.recipient calls = _ :=
        if_pos (by rw [hasRecipientWindowCap, hoverride]; rfl)
      have hfit := h.recipient rc.recipient rc.cap hoverride (hdemand ▸ hpos)
      rwa [hdemand, (val_total_pruneFor hl (limitsWindow_of_recipientCap hrc) hnow).2] at hfit
    · have hdemand : callDemand cfg calls = _ := if_pos hcap
      have hfit := h.calls (hdemand ▸ hpos)
      rw [hdemand, val_protocolCallTotal_pruneFor hl (limitsWindow_of_calls hcap) hnow htotal]
        at hfit
      omega
  · rintro ⟨hglobal, hrecipient, hcalls⟩
    refine ⟨fun hpos => ?_, fun r cap hoverride hpos => ?_, fun hpos => ?_⟩
    · rw [globalDemand] at hpos ⊢
      split_ifs at hpos ⊢ with hcap
      · rw [(val_total_pruneFor hl (limitsWindow_of_windowCap hcap) hnow).1]
        exact hglobal hcap hpos
      · exact absurd hpos (lt_irrefl 0)
    · obtain ⟨hrc, hcap⟩ := mem_of_recipientOverrideCap hoverride
      rw [recipientDemand, if_pos (by rw [hasRecipientWindowCap, hoverride]; rfl)] at hpos ⊢
      rw [(val_total_pruneFor hl (limitsWindow_of_recipientCap hrc) hnow).2]
      exact hrecipient ⟨r, cap⟩ hrc hcap hpos
    · rw [callDemand] at hpos ⊢
      split_ifs at hpos ⊢ with hcap
      · rw [val_protocolCallTotal_pruneFor hl (limitsWindow_of_calls hcap) hnow htotal]
        exact (min_le_right _ _).trans (hcalls hcap hpos)
      · exact absurd hpos (lt_irrefl 0)

/-- A nonempty request is granted exactly when the gates are open, every call is permitted and every
demand fits. -/
theorem grants_iff {host : Host} (h : s.Inv host env.timestamp) (hne : contexts ≠ []) :
    Grants env s cfg contexts
      ↔ contexts.length ≤ maxAuthContexts ∧
        openPolicy s.policy ⟨s.frozenOrFalse, s.heartbeatOrZero⟩ env.timestamp = some cfg ∧
        (∀ c ∈ parseAll env.host.self cfg contexts, Permitted cfg c) ∧
        Fits cfg (pruneFor cfg s.loadWindow.1 env.timestamp)
          (parseAll env.host.self cfg contexts) := by
  constructor
  · intro hgrants
    obtain ⟨hlen, ⟨-, hnil, -⟩ | ⟨hopen, hperm, hfits, -⟩⟩ := hgrants.cases h
    · exact absurd hnil hne
    · exact ⟨hlen, hopen, hperm, hfits⟩
  · rintro ⟨hlen, hopen, hperm, hfits⟩
    exact ⟨policy_of_openPolicy hopen,
      (decideContexts_granted_iff h.ledger hlen hopen).mpr ⟨hperm, hfits⟩⟩

/-- **Default deny, exactly.**  In every reachable state, over a valid agent signature, a nonempty
request is approved if and only if it is admissible under the installed policy; and the counter the
rate limit reads is the exact number of live calls unless the stored ones exceed a `u32`. -/
theorem approves_iff_admissible {signaturePayload signature : List UInt8} {agent : Bytes32}
    (hreach : Reachable env.host t s) (ht : t.val ≤ env.timestamp.val)
    (hnow : env.timestamp.val < u64.hi) (hkey : s.agentPubkey = some agent)
    (hsig : env.host.ed25519Verify agent signaturePayload signature = true)
    (hlimit : ∀ cfg, s.policy = some cfg → cfg.protocolCallsPerWindow.val < u32.hi)
    (hne : contexts ≠ []) :
    (Approves env s signaturePayload signature contexts
        ↔ ∃ cfg, Admissible env s cfg contexts) ∧
      (valueSum s.loadWindow.1.protocolCallEntries ≤ u32.hi → ∀ windowSecs,
        liveCalls env.timestamp windowSecs s.loadWindow.1.protocolCallEntries
          = live env.timestamp windowSecs s.loadWindow.1.protocolCallEntries) := by
  have hinv := hreach.inv.mono ht
  refine ⟨?_, fun hfit windowSecs => liveCalls_eq_live hinv.ledger.calls.positive hfit⟩
  rw [approves_iff_grants hkey hsig]
  refine exists_congr fun cfg => ?_
  rw [grants_iff hinv hne, openPolicy_eq_some_iff, accountError_eq_none_iff, heartbeatExpired_iff,
    outsideActiveWindow_eq_false_iff]
  constructor
  · rintro ⟨hlen, ⟨hpolicy, hfrozen, halive, hpaused, hfrom, huntil⟩, hperm, hfits⟩
    have hacc := hinv.accepted hpolicy
    obtain ⟨hglobal, hrecipient, hcalls⟩ := (fits_pruneFor_iff hacc hinv.ledger hinv.recounted.1
      hnow (hlimit cfg hpolicy) _).mp hfits
    refine ⟨hpolicy, hlen, hfrozen, halive, hpaused, hfrom, huntil, fun ctx hctx => ?_, hglobal,
      hrecipient, hcalls⟩
    exact (permitted_parseCall_iff hacc ctx).mp (hperm _ (List.mem_map_of_mem hctx))
  · intro h
    have hacc := hinv.accepted h.policy
    refine ⟨h.few, ⟨h.policy, h.unfrozen, h.alive, h.running, h.started, h.unfinished⟩,
      fun c hc => ?_, (fits_pruneFor_iff hacc hinv.ledger hinv.recounted.1 hnow
        (hlimit cfg h.policy) _).mpr ⟨h.global, h.recipient, h.calls⟩⟩
    obtain ⟨ctx, hctx, rfl⟩ := List.mem_map.mp hc
    exact (permitted_parseCall_iff hacc ctx).mpr (h.permitted ctx hctx)

end

namespace Sample

/-- With `20` of `50` spent, a transfer of `30` is admissible and approved, and one of `31` is
neither. -/
theorem spent_admits :
    (Approves ((auth 120 [pay 30]).env host) spent [] [] [pay 30] ∧
        ∃ cfg, Admissible ((auth 120 [pay 30]).env host) spent cfg [pay 30]) ∧
      ¬Approves ((auth 120 [pay 31]).env host) spent [] [] [pay 31] ∧
        ¬∃ cfg, Admissible ((auth 120 [pay 31]).env host) spent cfg [pay 31] := by
  have hiff : ∀ amount, Approves ((auth 120 [pay amount]).env host) spent [] [] [pay amount]
      ↔ ∃ cfg, Admissible ((auth 120 [pay amount]).env host) spent cfg [pay amount] :=
    fun amount => (approves_iff_admissible reachable_spent
      (show (110 : U64).val ≤ (120 : U64).val by decide)
      (show (120 : U64).val < u64.hi by decide) (show spent.agentPubkey = some _ from rfl)
      (by rfl) (fun cfg hcfg => by
        obtain rfl : capFifty = cfg := Option.some.inj hcfg
        decide) (by simp)).1
  have hyes : Approves ((auth 120 [pay 30]).env host) spent [] [] [pay 30] :=
    ⟨_, by rfl, by rfl⟩
  have hno : ¬Approves ((auth 120 [pay 31]).env host) spent [] [] [pay 31] := by
    rintro ⟨outcome, hcheck, hok⟩
    obtain rfl : outcome = ⟨.error .windowCapExceeded, spent,
        [emitAuth spent false (some .windowCapExceeded) (some (pay 31)) 0]⟩ :=
      Except.ok.inj (hcheck.symm.trans (by rfl))
    simp at hok
  exact ⟨⟨hyes, (hiff 30).mp hyes⟩, hno, fun h => hno ((hiff 31).mpr h)⟩

end Sample

end AgentGuard
