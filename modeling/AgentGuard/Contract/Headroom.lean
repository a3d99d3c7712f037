import AgentGuard.Contract.Verdicts

/-!
# Contract/Headroom — the headroom a pre-flight reports

`check_detailed` reports the headroom of one ledger: the recipient's own when an override is
configured for it, the global one otherwise.  The decision enforces both caps, so for a recipient
with an override the transfer has to fit under the global headroom as well.
-/

namespace AgentGuard

open Machinery

/-- **Headroom is what still fits.** -/
theorem le_headroom_iff {cap total amount : I128} (hcap : 0 ≤ cap.val) (htotal : 0 ≤ total.val)
    (hamount : 0 < amount.val) :
    amount.val ≤ (headroom cap total).val ↔ total.val + amount.val ≤ cap.val := by
  have hlo : i128.lo ≤ cap.val - total.val := by
    have := total.le_hi
    rw [i128_lo]
    rw [i128_hi] at this
    omega
  have hsub := BoundedInt.val_saturatingSub_of_le htotal hlo
  rw [headroom]
  split_ifs with hneg
  · rw [I128.val_zero]
    omega
  · omega

section

variable {cfg : PolicyConfig} {dest : Address}

/-- A cap is enforced on the ledger the reads prune. -/
theorem pruneForRead_eq (h : limitsSpend cfg = true) (l : Ledger) (now : U64) :
    pruneForRead cfg l now = pruneFor cfg l now := by
  have hlimits : limitsWindow cfg = true := by
    simp only [limitsSpend, limitsWindow, decide_eq_true_eq] at h ⊢
    exact h.imp_right .inl
  rw [pruneForRead, pruneFor, if_pos h, if_pos hlimits]

theorem limitsSpend_of_windowCap (h : 0 < cfg.windowCap.val) : limitsSpend cfg = true := by
  simp [limitsSpend, h]

theorem limitsSpend_of_override {cap : I128} (h : recipientOverrideCap cfg dest = some cap) :
    limitsSpend cfg = true := by
  have hmem := (mem_of_recipientOverrideCap h).1
  simp [limitsSpend, List.ne_nil_of_mem hmem]

end

section

variable {env : Env} {s : State} {t : U64} {cfg : PolicyConfig} {asset dest : Address}
  {amount : I128} {detail : CheckDetail} {events : List Event}

/-- The global headroom, as `status` reports it. -/
theorem windowRemaining_eq (hcfg : s.policy = some cfg) :
    (status env s).windowRemaining
      = globalWindowRemaining cfg (pruneForRead cfg s.loadWindow.1 env.timestamp) := by
  simp [status, hcfg]

/-- Without an override the metric is the global one. -/
theorem capMetrics_of_none (h : recipientOverrideCap cfg dest = none) (l : Ledger) :
    (capMetrics cfg l dest).1 = globalWindowRemaining cfg l := by
  simp only [capMetrics, effectiveWindowCap, hasRecipientWindowCap, h, globalWindowRemaining,
    enabledCap, Option.isSome_none, Bool.false_eq_true, if_false, Option.none_or]
  split_ifs <;> rfl

theorem capMetrics_of_some {cap : I128} (h : recipientOverrideCap cfg dest = some cap)
    (l : Ledger) : (capMetrics cfg l dest).1 = some (headroom cap (l.meter dest).total) := by
  rw [capMetrics, effectiveWindowCap, hasRecipientWindowCap, h, ← recipientTotal_eq]
  rfl

/-- **A transfer exceeds no cap exactly when it fits under both headrooms.** -/
theorem not_exceeds_iff (dest : Address) (hinv : s.Inv env.host env.timestamp)
    (hcfg : s.policy = some cfg)
    (hamount : 0 < amount.val) :
    ¬Exceeds cfg (pruneFor cfg s.loadWindow.1 env.timestamp) [] dest amount
      ↔ (∀ h, (capMetrics cfg (pruneForRead cfg s.loadWindow.1 env.timestamp) dest).1 = some h →
          amount.val ≤ h.val) ∧
        ∀ g, (status env s).windowRemaining = some g → amount.val ≤ g.val := by
  have haccepted := hinv.accepted hcfg
  have hrep := hinv.ledger.pruneFor cfg env.timestamp
  have hglobal : (∀ g, (status env s).windowRemaining = some g → amount.val ≤ g.val) ↔
      ¬(0 < cfg.windowCap.val ∧ cfg.windowCap.val
        < (pruneFor cfg s.loadWindow.1 env.timestamp).total.val + amount.val) := by
    rw [windowRemaining_eq hcfg, globalWindowRemaining]
    by_cases hw : 0 < cfg.windowCap.val
    · simp only [hw, if_true, Option.some.injEq, forall_eq', true_and, not_lt]
      rw [pruneForRead_eq (limitsSpend_of_windowCap hw)]
      exact le_headroom_iff hw.le hrep.single.total_nonneg hamount
    · simp [hw]
  rw [Exceeds, globalDemand_nil, recipientDemand_nil, add_zero, add_zero, not_or, hglobal]
  cases hcap : recipientOverrideCap cfg dest with
  | none =>
    rw [capMetrics_of_none hcap, ← windowRemaining_eq hcfg, hglobal]
    simp
  | some cap =>
    have hpos := (mem_of_recipientOverrideCap hcap).2
    have hfits := le_headroom_iff hpos.le (hrep.meter dest).total_nonneg hamount
    rw [capMetrics_of_some hcap, pruneForRead_eq (limitsSpend_of_override hcap)]
    simp only [Option.some.injEq, exists_eq_left', forall_eq', not_lt]
    rw [hfits, and_comm]

/-- Without a metric there is no cap to exceed. -/
theorem not_exceeds_of_none {l l' : Ledger} {calls : List ParsedCall}
    (h : (capMetrics cfg l dest).1 = none) : ¬Exceeds cfg l' calls dest amount := by
  cases hcap : recipientOverrideCap cfg dest with
  | none =>
    rw [capMetrics_of_none hcap, globalWindowRemaining] at h
    split_ifs at h with hw
    rw [Exceeds, hcap]
    simp [hw]
  | some cap => simp [capMetrics_of_some hcap] at h

/-- **The verdict on one transfer of an allowed asset**, once its own rules and the gates are
passed. -/
theorem verdict_transfer {verdict : Decision} {sender : Val}
    (hinv : s.Inv env.host env.timestamp) (hcfg : s.policy = some cfg)
    (hverdict : (authDecision env s [transferCall asset sender dest amount]).1 = [verdict])
    (hasset : asset ∈ cfg.assets) (hreason : ∀ e, verdict = .blocked e → e = .windowCapExceeded) :
    (verdict = .allowed ↔
        ¬Exceeds cfg (pruneFor cfg s.loadWindow.1 env.timestamp) [] dest amount) ∧
      (verdict = .blocked .windowCapExceeded ↔
        Exceeds cfg (pruneFor cfg s.loadWindow.1 env.timestamp) [] dest amount) := by
  have hctx : TransferOf asset dest amount (transferCall asset sender dest amount) :=
    .transfer sender
  have hparse := (parseCall_eq_assetTransfer_iff (hinv.accepted hcfg)).mpr ⟨hctx, hasset⟩
  rw [authDecision, hcfg, verdicts_eq (by simp [maxAuthContexts])] at hverdict
  split at hverdict
  -- a gate's error is never the window's
  · rename_i e hgate
    obtain rfl : Decision.blocked e = verdict := by simpa [blockAll] using hverdict
    have hisGate := isGate_of_gateError hgate
    simp [hreason e rfl, Error.IsGate] at hisGate
  · simp only [evalContexts, hparse, evalCall, List.cons.injEq, and_true] at hverdict
    by_cases hp : Permitted cfg (.assetTransfer asset dest amount)
    · rw [evalTransfer_verdict (staged_empty cfg env.timestamp) (by simp) hp] at hverdict
      split_ifs at hverdict with hexceeds <;> simp [← hverdict, hexceeds]
    · obtain ⟨e, he, -, hne⟩ := evalTransfer_of_not_permitted
        (pruneFor cfg s.loadWindow.1 env.timestamp) env.timestamp Staging.empty hp
      rw [he] at hverdict
      exact absurd (hreason e hverdict.symm) hne

theorem TransferOf.exists_contract {ctx : Context} (h : TransferOf asset dest amount ctx) :
    ∃ fname args, ctx = .contract ⟨asset, fname, args⟩ := by
  cases h with
  | transfer sender => exact ⟨_, _, rfl⟩
  | transferFrom spender sender => exact ⟨_, _, rfl⟩

/-- A call on anything but an allowed asset moves no spend: the window never blocks it. -/
theorem verdict_other {verdict : Decision} {sender : Val}
    (hinv : s.Inv env.host env.timestamp) (hcfg : s.policy = some cfg)
    (hverdict : (authDecision env s [transferCall asset sender dest amount]).1 = [verdict])
    (hasset : asset ∉ cfg.assets) : verdict ≠ .blocked .windowCapExceeded := by
  rintro rfl
  rw [authDecision, hcfg, verdicts_eq (by simp [maxAuthContexts])] at hverdict
  split at hverdict
  · rename_i e hgate
    obtain rfl : e = .windowCapExceeded := by simpa [blockAll] using hverdict
    exact isGate_of_gateError hgate
  · simp only [evalContexts, List.cons.injEq, and_true] at hverdict
    obtain ⟨e, he, -, hwindow⟩ := evalCall_of_not_allowed (hverdict.trans_ne (by simp))
    obtain rfl : e = .windowCapExceeded := by simpa [he] using hverdict
    obtain ⟨asset', dest', amount', hparse, -⟩ := hwindow rfl
    obtain ⟨hctx, hmem⟩ := (parseCall_eq_assetTransfer_iff (hinv.accepted hcfg)).mp hparse
    obtain ⟨fname, args, hcontract⟩ := hctx.exists_contract
    obtain rfl : asset = asset' := by
      simp only [transferCall, Context.contract.injEq, ContractContext.mk.injEq] at hcontract
      exact hcontract.1
    exact hasset hmem

end

/-- **Reported headroom.**  In every reachable state with a policy, for a transfer that no gate and
no rule of its own blocks: with `remaining_window = Some(h)`, a transfer of an allowed asset is
blocked when it exceeds `h` or the global headroom and allowed when it fits under both — without an
override the two are the same; and with `remaining_window = None` no transfer to that recipient is
ever blocked by the window. -/
theorem checkDetailed_headroom {env : Env} {s : State} {t : U64} {cfg : PolicyConfig}
    {asset dest : Address} {amount : I128} {detail : CheckDetail} {events : List Event}
    (hreach : Reachable env.host t s) (ht : t.val ≤ env.timestamp.val)
    (hcfg : s.policy = some cfg) (hamount : 0 < amount.val)
    (hcheck : checkDetailed env s asset dest amount = .ok (detail, events))
    (hreason : ∀ reason, detail.result = .blocked reason →
      reason = Error.windowCapExceeded.reason) :
    (∀ h, detail.remainingWindow = some h →
      (asset ∈ cfg.assets →
        (amount.val ≤ h.val → (∀ g, (status env s).windowRemaining = some g → amount.val ≤ g.val) →
          detail.result = .allowed) ∧
        (h.val < amount.val → detail.result = .blocked Error.windowCapExceeded.reason) ∧
        (∀ g, (status env s).windowRemaining = some g → g.val < amount.val →
          detail.result = .blocked Error.windowCapExceeded.reason)) ∧
      (asset ∉ cfg.assets → detail.result = .allowed) ∧
      (recipientOverrideCap cfg dest = none → (status env s).windowRemaining = some h)) ∧
    (detail.remainingWindow = none →
      ∀ asset' amount' detail' events',
        checkDetailed env s asset' dest amount' = .ok (detail', events') →
          detail'.result ≠ .blocked Error.windowCapExceeded.reason) := by
  have hinv := hreach.inv.mono ht
  obtain ⟨verdict, events', hverdict, heq⟩ :=
    checkDetailed_eq hinv hcfg asset dest amount (.address asset)
  obtain ⟨rfl, -⟩ := Prod.mk.inj (Except.ok.inj (heq.symm.trans hcheck))
  dsimp only at hreason ⊢
  have honly : ∀ e, verdict = .blocked e → e = .windowCapExceeded := fun e he =>
    Error.reason_injective (hreason _ (congrArg Decision.toCheckResult he))
  have hfits := not_exceeds_iff dest hinv hcfg hamount
  refine ⟨fun h hh => ⟨fun hasset => ?_, fun hasset => ?_, fun hnone => ?_⟩, fun hnone => ?_⟩
  · obtain ⟨hallowed, hblocked⟩ := verdict_transfer hinv hcfg hverdict hasset honly
    have hover : ¬((∀ h', some h = some h' → amount.val ≤ h'.val) ∧
          ∀ g, (status env s).windowRemaining = some g → amount.val ≤ g.val) →
        verdict = .blocked .windowCapExceeded := fun hno =>
      hblocked.mpr (not_not.mp fun hn => hno (hh ▸ hfits.mp hn))
    refine ⟨fun hle hg => ?_, fun hlt => ?_, fun g hg hlt => ?_⟩
    · rw [hallowed.mpr (hfits.mpr ⟨fun h' hh' => ?_, hg⟩)]
      · rfl
      · obtain rfl := Option.some.inj (hh.symm.trans hh')
        exact hle
    · rw [hover fun hboth => absurd (hboth.1 h rfl) (not_le.mpr hlt)]
      rfl
    · rw [hover fun hboth => absurd (hboth.2 g hg) (not_le.mpr hlt)]
      rfl
  · have hne := verdict_other hinv hcfg hverdict hasset
    cases verdict with
    | allowed => rfl
    | blocked e => exact absurd (congrArg Decision.blocked (honly e rfl)) hne
  · rw [windowRemaining_eq hcfg, ← capMetrics_of_none hnone]
    exact hh
  · intro asset' amount' detail' events'' hcheck' hblocked
    obtain ⟨verdict', _, hverdict', heq'⟩ :=
      checkDetailed_eq hinv hcfg asset' dest amount' (.address asset')
    obtain ⟨rfl, -⟩ := Prod.mk.inj (Except.ok.inj (heq'.symm.trans hcheck'))
    dsimp only at hblocked
    obtain rfl := toCheckResult_eq_blocked_iff.mp hblocked
    by_cases hasset : asset' ∈ cfg.assets
    · have hexceeds := (verdict_transfer hinv hcfg hverdict' hasset
        fun e he => (Decision.blocked.inj he).symm).2.mp rfl
      exact not_exceeds_of_none hnone hexceeds
    · exact verdict_other hinv hcfg hverdict' hasset rfl

namespace Sample

/-- A rolling cap of `50`, and an override of `100` for the payee. -/
def wideOverride : PolicyConfig := { capFifty with recipientWindowCaps := [⟨payee, 100⟩] }

/-- **The reported headroom can be more than the real one**: a transfer of `60` to a recipient with
an override of `100` is over the global cap of `50`.  And a call on a protocol contract is no
transfer: the window does not block it, whatever its amount. -/
theorem headroom_overstated :
    Reachable host 100 (installed wideOverride) ∧
      (∃ events, checkDetailed ((call 110 .status).env host) (installed wideOverride) asset payee 60
        = .ok (⟨.blocked Error.windowCapExceeded.reason, some 100, none, none, some 100⟩,
          events)) ∧
      Reachable host 100 (installed capFifty) ∧
      ∃ events, checkDetailed ((call 110 .status).env host) (installed capFifty) protocol payee 60
        = .ok (⟨.allowed, some 50, none, none, some 50⟩, events) :=
  ⟨reachable_installed _, ⟨_, rfl⟩, reachable_installed _, _, rfl⟩

/-- After a transfer of `20` under a cap of `50`, another `31` are too much. -/
theorem headroom_spent :
    ∃ detail events, checkDetailed ((call 120 .status).env host) spent asset payee 31
        = .ok (detail, events) ∧ detail.remainingWindow = some 30 ∧
      detail.result = .blocked Error.windowCapExceeded.reason := by
  obtain ⟨detail, events, hcheck, hremaining, hreason⟩ : ∃ detail events,
      checkDetailed ((call 120 .status).env host) spent asset payee 31 = .ok (detail, events) ∧
        detail.remainingWindow = some 30 ∧
        ∀ reason, detail.result = .blocked reason → reason = Error.windowCapExceeded.reason :=
    ⟨_, _, rfl, rfl, fun reason h => (CheckResult.blocked.inj h).symm⟩
  have hreach : Reachable ((call 120 .status).env host).host 110 spent := reachable_spent
  have hcfg : spent.policy = some capFifty := by rfl
  have hmain := checkDetailed_headroom hreach
    (show (110 : U64).val ≤ (120 : U64).val by decide) hcfg (by decide) hcheck hreason
  exact ⟨detail, events, hcheck, hremaining,
    ((hmain.1 30 hremaining).1 (by decide)).2.1 (by decide)⟩

end Sample

end AgentGuard
