import AgentGuard.Contract.Deadman
import AgentGuard.Machinery.Dominance

/-!
# Contract/Loosening — a looser policy withdraws nothing

Policies are ordered by what they allow (`PolicyConfig.Looser`), requests by what they ask for
(`Lighter`).  An edit to a looser policy keeps every request approvable that was, and every lighter
one (`loosening_keeps`); read backwards, a tightening edit lets nothing through that was refused.
The order says what an edit must leave alone: a limit of `0` is no limit, a width of `0` never
forgets, and a protocol that becomes an asset is no protocol any more.
-/

namespace AgentGuard

open Machinery

/-- **`cfg'` allows whatever `cfg` allows.** -/
structure PolicyConfig.Looser (cfg cfg' : PolicyConfig) : Prop where
  running : cfg.paused = false → cfg'.paused = false
  grace : 0 < cfg'.dmsGraceSecs.val →
    0 < cfg.dmsGraceSecs.val ∧ cfg.dmsGraceSecs.val ≤ cfg'.dmsGraceSecs.val
  activeFrom : cfg'.activeFrom.val ≤ cfg.activeFrom.val
  activeUntil : cfg'.activeUntil.val ≠ 0 →
    cfg.activeUntil.val ≠ 0 ∧ cfg.activeUntil.val ≤ cfg'.activeUntil.val
  assets : ∀ asset ∈ cfg.assets, asset ∈ cfg'.assets
  unpaused : ∀ asset ∈ cfg.assets, assetPaused cfg asset = false → assetPaused cfg' asset = false
  perTxCap : ∀ asset ∈ cfg.assets, ∀ cap' ∈ effectivePerTxCap cfg' asset,
    ∃ cap ∈ effectivePerTxCap cfg asset, cap.val ≤ cap'.val
  blocked : ∀ dest ∈ cfg'.blockedRecipients, dest ∈ cfg.blockedRecipients
  anyRecipient : cfg.allowAnyRecipient = true → cfg'.allowAnyRecipient = true
  recipients : ∀ dest ∈ cfg.recipients, cfg'.allowAnyRecipient = true ∨ dest ∈ cfg'.recipients
  protocols : ∀ rule ∈ cfg.protocols, rule.contract ∉ cfg.assets → rule.paused = false →
    rule.contract ∉ cfg'.assets ∧ ∃ rule' ∈ cfg'.protocols, rule'.contract = rule.contract ∧
      rule'.paused = false ∧ ∀ fns' ∈ rule'.fns, ∃ fns ∈ rule.fns, ∀ fname ∈ fns, fname ∈ fns'
  windowCap : 0 < cfg'.windowCap.val →
    0 < cfg.windowCap.val ∧ cfg.windowCap.val ≤ cfg'.windowCap.val
  recipientCaps : ∀ dest, ∀ cap' ∈ recipientOverrideCap cfg' dest,
    ∃ cap ∈ recipientOverrideCap cfg dest, cap.val ≤ cap'.val
  callLimit : 0 < cfg'.protocolCallsPerWindow.val → 0 < cfg.protocolCallsPerWindow.val ∧
    cfg.protocolCallsPerWindow.val ≤ cfg'.protocolCallsPerWindow.val
  windowSecs : limitsWindow cfg' = true → cfg.windowSecs.val ≠ 0 →
    cfg'.windowSecs.val ≠ 0 ∧ cfg'.windowSecs.val ≤ cfg.windowSecs.val

/-- **A context that asks for no more**: the same, or a smaller transfer, by the same function, of
the same asset to the same recipient. -/
inductive Lighter : Context → Context → Prop
  | same (ctx : Context) : Lighter ctx ctx
  | transfer (asset dest : Address) (sender sender' : Val) {amount amount' : I128}
      (hpos : 0 < amount'.val) (hle : amount'.val ≤ amount.val) :
      Lighter (.contract ⟨asset, "transfer", [sender', .address dest, .i128 amount']⟩)
        (.contract ⟨asset, "transfer", [sender, .address dest, .i128 amount]⟩)
  | transferFrom (asset dest : Address) (spender sender spender' sender' : Val)
      {amount amount' : I128} (hpos : 0 < amount'.val) (hle : amount'.val ≤ amount.val) :
      Lighter
        (.contract ⟨asset, "transfer_from", [spender', sender', .address dest, .i128 amount']⟩)
        (.contract ⟨asset, "transfer_from", [spender, sender, .address dest, .i128 amount]⟩)

/-- A call of which no meter sees more than of another. -/
structure ParsedCall.Below (c' c : ParsedCall) : Prop where
  spend : c'.spend ≤ c.spend
  spendTo : ∀ dest, c'.spendTo dest ≤ c.spendTo dest
  protocolCalls : c'.protocolCalls ≤ c.protocolCalls

section

variable {self : Address} {cfg cfg' : PolicyConfig} {ctx ctx' : Context} {now t : U64} {l : Ledger}
  {contexts contexts' : List Context}

/-! ## One context -/

theorem ParsedCall.Below.refl (c : ParsedCall) : c.Below c := ⟨le_rfl, fun _ => le_rfl, le_rfl⟩

/-- A smaller transfer of an asset is permitted when the larger one is. -/
theorem permitted_smaller {asset dest : Address} {amount amount' : I128} (hpos : 0 < amount'.val)
    (hle : amount'.val ≤ amount.val) (h : Permitted cfg (.assetTransfer asset dest amount)) :
    Permitted cfg (.assetTransfer asset dest amount') ∧
      (ParsedCall.assetTransfer asset dest amount').Below (.assetTransfer asset dest amount) := by
  obtain ⟨hpaused, -, hblocked, hrecipient, hcap⟩ := h
  refine ⟨⟨hpaused, hpos, hblocked, hrecipient, fun cap hc => hle.trans (hcap cap hc)⟩, hle,
    fun r => ?_, le_rfl⟩
  rw [ParsedCall.spendTo, ParsedCall.spendTo]
  split_ifs
  · exact hle
  · exact le_rfl

/-- Of a call on no asset only the contract and the function are read. -/
theorem parseCall_congr {contract : Address} {fname : Symbol} (h : contract ∉ cfg.assets)
    (args args' : List Val) : parseCall self (.contract ⟨contract, fname, args⟩) cfg
      = parseCall self (.contract ⟨contract, fname, args'⟩) cfg := by
  simp only [parseCall, h, false_and, if_false]

/-- **A lighter context is permitted as well**, and no meter sees more of it. -/
theorem Lighter.permitted (h : Lighter ctx' ctx) (hacc : cfg.Accepted self)
    (hperm : Permitted cfg (parseCall self ctx cfg)) :
    Permitted cfg (parseCall self ctx' cfg) ∧
      (parseCall self ctx' cfg).Below (parseCall self ctx cfg) := by
  cases h with
  | same => exact ⟨hperm, .refl _⟩
  | transfer asset dest sender sender' hpos hle =>
    by_cases hasset : asset ∈ cfg.assets
    · rw [(parseCall_eq_assetTransfer_iff hacc).mpr ⟨.transfer sender, hasset⟩] at hperm ⊢
      rw [(parseCall_eq_assetTransfer_iff hacc).mpr ⟨.transfer sender', hasset⟩]
      exact permitted_smaller hpos hle hperm
    · rw [parseCall_congr hasset]
      exact ⟨hperm, .refl _⟩
  | transferFrom asset dest spender sender spender' sender' hpos hle =>
    by_cases hasset : asset ∈ cfg.assets
    · rw [(parseCall_eq_assetTransfer_iff hacc).mpr ⟨.transferFrom spender sender, hasset⟩]
        at hperm ⊢
      rw [(parseCall_eq_assetTransfer_iff hacc).mpr ⟨.transferFrom spender' sender', hasset⟩]
      exact permitted_smaller hpos hle hperm
    · rw [parseCall_congr hasset]
      exact ⟨hperm, .refl _⟩

/-- **A looser policy permits the call**, and reads it the same way. -/
theorem PolicyConfig.Looser.permitted (h : cfg.Looser cfg') (hacc : cfg.Accepted self)
    (hacc' : cfg'.Accepted self) (hperm : Permitted cfg (parseCall self ctx cfg)) :
    parseCall self ctx cfg' = parseCall self ctx cfg ∧
      Permitted cfg' (parseCall self ctx cfg) := by
  cases hparse : parseCall self ctx cfg with
  | selfCall fname =>
    rw [hparse] at hperm
    exact ⟨parseCall_eq_selfCall_iff.mpr (parseCall_eq_selfCall_iff.mp hparse), hperm⟩
  | assetTransfer asset dest amount =>
    rw [hparse] at hperm
    obtain ⟨hctx, hasset⟩ := (parseCall_eq_assetTransfer_iff hacc).mp hparse
    obtain ⟨hpaused, hamount, hblocked, hrecipient, hcap⟩ := hperm
    refine ⟨(parseCall_eq_assetTransfer_iff hacc').mpr ⟨hctx, h.assets asset hasset⟩,
      h.unpaused asset hasset hpaused, hamount, fun hmem => hblocked (h.blocked dest hmem), ?_,
      fun cap' hcap' => ?_⟩
    · exact hrecipient.elim (fun hany => .inl (h.anyRecipient hany)) (h.recipients dest)
    · obtain ⟨cap, hc, hle⟩ := h.perTxCap asset hasset cap' hcap'
      exact (hcap cap hc).trans hle
  | protocol contract fname =>
    rw [hparse] at hperm
    obtain ⟨hctx, hasset, -⟩ := (parseCall_eq_protocol_iff hacc).mp hparse
    obtain ⟨rule, hfind, hpaused, hfns⟩ := hperm
    obtain ⟨hrule, rfl⟩ := (find?_key_eq_some_iff hacc.protocols_nodup).mp hfind
    obtain ⟨hasset', rule', hrule', hcontract, hpaused', hfns'⟩ :=
      h.protocols rule hrule hasset hpaused
    refine ⟨(parseCall_eq_protocol_iff hacc').mpr ⟨hctx, hasset', rule', hrule', hcontract⟩, rule',
      (find?_key_eq_some_iff hacc'.protocols_nodup).mpr ⟨hrule', hcontract⟩, hpaused',
      fun fns' hmem => ?_⟩
    obtain ⟨fns, hmem', hsub⟩ := hfns' fns' hmem
    exact hsub fname (hfns fns hmem')
  | assetOther asset fname => simp [hparse, Permitted] at hperm
  | createContract => simp [hparse, Permitted] at hperm
  | unknown contract fname => simp [hparse, Permitted] at hperm

/-! ## The meters -/

/-- A looser policy counts no more of the ledger. -/
theorem PolicyConfig.Looser.pruneHorizon (h : cfg.Looser cfg') (now : U64)
    (hlimits : limitsWindow cfg = true) (hlimits' : limitsWindow cfg' = true) (time : U64)
    (htime : time.val ≤ pruneHorizon cfg now) : time.val ≤ AgentGuard.pruneHorizon cfg' now := by
  have hnonneg := time.nonneg
  rw [AgentGuard.pruneHorizon, if_pos hlimits, horizon] at htime
  rw [AgentGuard.pruneHorizon, if_pos hlimits', horizon]
  by_cases hsecs : cfg.windowSecs.val = 0
  · rw [if_pos hsecs] at htime
    omega
  · obtain ⟨hsecs', hle⟩ := h.windowSecs hlimits' hsecs
    rw [if_neg hsecs] at htime
    rw [if_neg hsecs']
    split_ifs at htime ⊢ <;> omega

/-- **The totals a looser policy checks** are no larger. -/
theorem PolicyConfig.Looser.totals (h : cfg.Looser cfg') (hl : l.Rep t) (now : U64)
    (hlimits : limitsWindow cfg = true) (hlimits' : limitsWindow cfg' = true) :
    (pruneFor cfg' l now).total.val ≤ (pruneFor cfg l now).total.val ∧
      (∀ r, ((pruneFor cfg' l now).meter r).total.val ≤ ((pruneFor cfg l now).meter r).total.val) ∧
      (pruneFor cfg' l now).protocolCallTotal.val ≤ (pruneFor cfg l now).protocolCallTotal.val := by
  have hforget := h.pruneHorizon now hlimits hlimits'
  refine ⟨?_, fun r => ?_, ?_⟩
  · have hle := total_keepAfter_anti hl.single.ordered.positive hforget
    rwa [← hl.single_pruneFor, ← hl.single_pruneFor] at hle
  · rw [hl.meter_pruneFor, hl.meter_pruneFor]
    exact total_keepAfter_anti (hl.meter r).ordered.positive hforget
  · have hle := total_keepAfter_anti (l := l.calls) hl.calls.positive hforget
    rwa [← hl.calls_pruneFor, ← hl.calls_pruneFor] at hle

/-- **A lighter request fits under a looser policy.** -/
theorem PolicyConfig.Looser.fits {calls calls' : List ParsedCall} (h : cfg.Looser cfg')
    (hl : l.Rep t) (hfits : Fits cfg (pruneFor cfg l now) calls)
    (hspend : (calls'.map ParsedCall.spend).sum ≤ (calls.map ParsedCall.spend).sum)
    (hspendTo : ∀ dest, (calls'.map (ParsedCall.spendTo dest)).sum
      ≤ (calls.map (ParsedCall.spendTo dest)).sum)
    (hcalls : (calls'.map ParsedCall.protocolCalls).sum
      ≤ (calls.map ParsedCall.protocolCalls).sum) :
    Fits cfg' (pruneFor cfg' l now) calls' := by
  refine ⟨fun hpos => ?_, fun r cap' hcap' hpos => ?_, fun hpos => ?_⟩
  · rw [globalDemand] at hpos ⊢
    split_ifs at hpos ⊢ with hlimit'
    · obtain ⟨hlimit, hle⟩ := h.windowCap hlimit'
      have hfit := hfits.global
      rw [globalDemand, if_pos hlimit] at hfit
      obtain ⟨htotal, -⟩ := h.totals hl now (limitsWindow_of_windowCap hlimit)
        (limitsWindow_of_windowCap hlimit')
      have := hfit (by omega)
      omega
    · exact absurd hpos (lt_irrefl 0)
  · obtain ⟨cap, hcap, hle⟩ := h.recipientCaps r cap' hcap'
    rw [recipientDemand, if_pos (by rw [hasRecipientWindowCap, hcap']; rfl)] at hpos ⊢
    have hfit := hfits.recipient r cap hcap
    rw [recipientDemand, if_pos (by rw [hasRecipientWindowCap, hcap]; rfl)] at hfit
    obtain ⟨-, htotal, -⟩ := h.totals hl now
      (limitsWindow_of_recipientCap (mem_of_recipientOverrideCap hcap).1)
      (limitsWindow_of_recipientCap (mem_of_recipientOverrideCap hcap').1)
    have := hspendTo r
    have := htotal r
    have := hfit (by omega)
    omega
  · rw [callDemand] at hpos ⊢
    split_ifs at hpos ⊢ with hlimit'
    · obtain ⟨hlimit, hle⟩ := h.callLimit hlimit'
      have hfit := hfits.calls
      rw [callDemand, if_pos hlimit] at hfit
      obtain ⟨-, -, htotal⟩ := h.totals hl now (limitsWindow_of_calls hlimit)
        (limitsWindow_of_calls hlimit')
      have := hfit (by omega)
      omega
    · exact absurd hpos (lt_irrefl 0)

/-! ## A request -/

/-- A looser policy is open whenever the other is. -/
theorem PolicyConfig.Looser.accountError (h : cfg.Looser cfg') {state : AccountState}
    (hopen : AgentGuard.accountError cfg state now = none) :
    AgentGuard.accountError cfg' state now = none := by
  rw [accountError_eq_none_iff, heartbeatExpired_iff, outsideActiveWindow_eq_false_iff] at hopen ⊢
  obtain ⟨halive, hrunning, hfrom, huntil⟩ := hopen
  have := h.grace
  have := h.activeFrom
  have := h.activeUntil
  have := cfg'.activeFrom.nonneg
  refine ⟨?_, h.running hrunning, ?_, ?_⟩ <;> omega

/-- The calls of a lighter request, under a looser policy. -/
theorem lighter_parseAll (h : cfg.Looser cfg') (hacc : cfg.Accepted self)
    (hacc' : cfg'.Accepted self) (hlight : List.SublistForall₂ Lighter contexts' contexts)
    (hperm : ∀ c ∈ parseAll self cfg contexts, Permitted cfg c) :
    (∀ c ∈ parseAll self cfg' contexts', Permitted cfg' c) ∧
      ∀ f : ParsedCall → ℤ, (∀ c' c : ParsedCall, c'.Below c → f c' ≤ f c) →
        (∀ c, Permitted cfg c → 0 ≤ f c) →
          ((parseAll self cfg' contexts').map f).sum
            ≤ ((parseAll self cfg contexts).map f).sum := by
  have hone : ∀ ctx ∈ contexts, ∀ ctx', Lighter ctx' ctx →
      Permitted cfg' (parseCall self ctx' cfg') ∧
        (parseCall self ctx' cfg').Below (parseCall self ctx cfg) := by
    intro ctx hctx ctx' hlighter
    obtain ⟨hperm', hbelow⟩ := hlighter.permitted hacc
      (hperm _ (List.mem_map_of_mem hctx))
    obtain ⟨hsame, hperm''⟩ := h.permitted hacc hacc' hperm'
    rw [hsame]
    exact ⟨hperm'', hbelow⟩
  refine ⟨fun c hc => ?_, fun f hmono hnn => ?_⟩
  · obtain ⟨ctx', hctx', rfl⟩ := List.mem_map.mp hc
    obtain ⟨ctx, hctx, hlighter⟩ := exists_of_mem_sublistForall₂ hlight hctx'
    exact (hone ctx hctx ctx' hlighter).1
  · rw [parseAll, parseAll, List.map_map, List.map_map]
    refine sum_le_of_sublistForall₂ hlight (fun ctx' ctx hctx hlighter => ?_) fun ctx hctx => ?_
    · exact hmono _ _ (hone ctx hctx ctx' hlighter).2
    · exact hnn _ (hperm _ (List.mem_map_of_mem hctx))

end

/-- **Loosening withdraws nothing.**  In every reachable state, whatever nonempty request was
approved stays approved after the admin edits the policy to a looser one, and so does every nonempty
part of it, each transfer for a positive amount and no more than it was. -/
theorem loosening_keeps {host : Host} {s : State} {t : U64} {cfg cfg' : PolicyConfig}
    {edit c : Call} {admin : Address} {agent : Bytes32}
    {signaturePayload signature signaturePayload' signature' : List UInt8}
    {contexts contexts' : List Context} (hreach : Reachable host t s)
    (ht : t.val ≤ edit.timestamp.val) (hc : edit.timestamp.val ≤ c.timestamp.val)
    (hpolicy : s.policy = some cfg) (haction : edit.action = .setPolicy cfg')
    (hadmin : s.admin = some admin) (hauth : edit.authorized admin = true)
    (hvalid : validateConfig host.self cfg' = .ok ()) (hloose : cfg.Looser cfg')
    (hlight : List.SublistForall₂ Lighter contexts' contexts) (hne : contexts' ≠ [])
    (hkey : s.agentPubkey = some agent)
    (hsig' : host.ed25519Verify agent signaturePayload' signature' = true)
    (happ : Approves (c.env host) s signaturePayload signature contexts) :
    Approves (c.env host) (step host s edit) signaturePayload' signature' contexts' := by
  have hinv : s.Inv host (c.env host).timestamp := (hreach.inv.mono ht).mono hc
  have hinv' : (step host s edit).Inv host (c.env host).timestamp := (hreach.inv.step ht).mono hc
  have hne₀ : contexts ≠ [] := by
    rintro rfl
    exact hne (List.eq_nil_of_length_eq_zero (Nat.le_zero.mp (length_le_of_sublistForall₂ hlight)))
  -- what the approval says of the old policy
  obtain ⟨outcome, hcheck, hok⟩ := happ
  obtain ⟨cfg₀, hgrants, -⟩ := checkAuth_ok hcheck hok
  obtain rfl : cfg = cfg₀ := Option.some.inj (hpolicy.symm.trans hgrants.policy)
  obtain ⟨hlen, hopen, hperm, hfits⟩ := (grants_iff hinv hne₀).mp hgrants
  obtain ⟨-, hfrozen, herror⟩ := openPolicy_eq_some_iff.mp hopen
  obtain ⟨hperm', hsums⟩ := lighter_parseAll hloose (hinv.accepted hpolicy)
    (accepted_of_validateConfig hvalid) hlight hperm
  -- what it takes under the new one
  have hstate := step_edit hpolicy haction hadmin hauth hvalid
  have hkey' : (step host s edit).agentPubkey = some agent := by rw [hstate]; exact hkey
  rw [approves_iff_grants hkey' hsig']
  refine ⟨cfg', (grants_iff hinv' hne).mpr
    ⟨(length_le_of_sublistForall₂ hlight).trans hlen, ?_, hperm', ?_⟩⟩
  · rw [hstate]
    exact openPolicy_eq_some_iff.mpr ⟨rfl, hfrozen, hloose.accountError herror⟩
  · rw [hstate]
    refine hloose.fits hinv.ledger hfits ?_ (fun dest => ?_) ?_
    · exact hsums ParsedCall.spend (fun _ _ h => h.spend) fun _ h => h.spend_nonneg
    · exact hsums (ParsedCall.spendTo dest) (fun _ _ h => h.spendTo dest)
        fun _ h => h.spendTo_nonneg dest
    · exact hsums ParsedCall.protocolCalls (fun _ _ h => h.protocolCalls)
        fun c _ => c.protocolCalls_nonneg

namespace Sample

/-- The cap of `50`, raised to `80`. -/
def capEighty : PolicyConfig := { capFifty with windowCap := 80 }

theorem capFifty_looser : capFifty.Looser capEighty where
  running := id
  grace := fun h => absurd h (by decide)
  activeFrom := le_rfl
  activeUntil := fun h => absurd rfl h
  assets := fun _ h => h
  unpaused := fun _ _ h => h
  perTxCap := fun _ _ cap' h => ⟨cap', h, le_rfl⟩
  blocked := fun _ h => h
  anyRecipient := id
  recipients := fun _ h => .inr h
  protocols := fun rule hrule hasset hpaused =>
    ⟨hasset, rule, hrule, rfl, hpaused, fun fns hfns => ⟨fns, hfns, fun _ h => h⟩⟩
  windowCap := fun _ => by decide
  recipientCaps := fun _ cap' h => ⟨cap', h, le_rfl⟩
  callLimit := fun h => absurd h (by decide)
  windowSecs := fun _ _ => by decide

/-- A transfer of `30` was approved with `20` of `50` spent, so one of `25` is after the cap was
raised. -/
theorem raised_keeps :
    Approves ((auth 130 [pay 25]).env host) (step host spent (call 120 (.setPolicy capEighty))) []
      [] [pay 25] :=
  loosening_keeps reachable_spent (show (110 : U64).val ≤ (120 : U64).val by decide)
    (show (120 : U64).val ≤ (130 : U64).val by decide) (show spent.policy = some capFifty from rfl)
    rfl (show spent.admin = some admin from rfl) (by decide) (by decide +kernel) capFifty_looser
    (.cons (.transfer asset payee (.address asset) (.address asset) (by decide)
      (show (25 : I128).val ≤ (30 : I128).val by decide)) .nil) (by simp)
    (show spent.agentPubkey = some _ from rfl) (by rfl)
    (show Approves ((auth 130 [pay 25]).env host) spent [] [] [pay 30] from ⟨_, by rfl, by rfl⟩)

end Sample

end AgentGuard
