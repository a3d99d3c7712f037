import AgentGuard.Contract.Verdicts
import AgentGuard.Contract.WellFormed

/-!
# Contract/Caps — which per-transaction cap a transfer meets

Two tables use `0` for "no cap": the asset's own entry and the policy's global cap.  The entry
decides alone as soon as it is there, so a `0` in it lifts the cap for that asset rather than
falling back (`CapFor`).
-/

namespace AgentGuard

open Machinery

/-- **The cap on one transfer of an asset**: the asset's own entry when it has one, otherwise the
global cap; a `0` in either is no cap. -/
inductive CapFor (cfg : PolicyConfig) (asset : Address) : I128 → Prop
  | override (ac : AssetCap) (hac : ac ∈ cfg.assetCaps) (hasset : ac.asset = asset)
      (hcap : ac.perTxCap.val ≠ 0) : CapFor cfg asset ac.perTxCap
  | global (hno : ∀ ac ∈ cfg.assetCaps, ac.asset ≠ asset) (hcap : cfg.perTxCap.val ≠ 0) :
      CapFor cfg asset cfg.perTxCap

section

variable {self : Address} {cfg : PolicyConfig} {asset dest : Address} {amount e : I128}

theorem enabledCap_eq_some_iff {cap : I128} (h : 0 ≤ cap.val) :
    enabledCap cap = some e ↔ cap = e ∧ cap.val ≠ 0 := by
  rw [enabledCap]
  split_ifs with hpos
  · simp [hpos.ne']
  · simp only [false_iff, not_and, not_not]
    omega

/-- The scan finds the asset's one entry. -/
theorem find?_assetCap_eq_some_iff (h : cfg.WellFormed self) {ac : AssetCap} :
    (cfg.assetCaps.find? fun ac => ac.asset = asset) = some ac
      ↔ ac ∈ cfg.assetCaps ∧ ac.asset = asset := find?_key_eq_some_iff h.assetCaps_nodup

/-- **The engine resolves this cap.** -/
theorem effectivePerTxCap_eq_some_iff (h : cfg.WellFormed self) :
    effectivePerTxCap cfg asset = some e ↔ CapFor cfg asset e := by
  rw [effectivePerTxCap]
  cases hfind : cfg.assetCaps.find? fun ac => ac.asset = asset with
  | none =>
    have hno : ∀ ac ∈ cfg.assetCaps, ac.asset ≠ asset := fun ac hac => by
      simpa using List.find?_eq_none.mp hfind ac hac
    dsimp only
    rw [enabledCap_eq_some_iff h.perTxCap_nonneg]
    constructor
    · rintro ⟨rfl, hcap⟩
      exact .global hno hcap
    · rintro (⟨ac, hac, hasset, -⟩ | ⟨-, hcap⟩)
      · exact absurd hasset (hno ac hac)
      · exact ⟨rfl, hcap⟩
  | some ac =>
    obtain ⟨hmem, hasset⟩ := (find?_assetCap_eq_some_iff h).mp hfind
    dsimp only
    rw [enabledCap_eq_some_iff (h.assetCap_nonneg ac hmem)]
    constructor
    · rintro ⟨rfl, hcap⟩
      exact .override ac hmem hasset hcap
    · rintro (⟨ac', hac', hasset', hcap⟩ | ⟨hno, -⟩)
      · have hfind' := (find?_assetCap_eq_some_iff h).mpr ⟨hac', hasset'⟩
        obtain rfl : ac = ac' := Option.some.inj (hfind.symm.trans hfind')
        exact ⟨rfl, hcap⟩
      · exact absurd hasset (hno ac hmem)

/-- Each verdict of the loop is the verdict on one call, whatever was staged before it. -/
theorem exists_evalCall {l : Ledger} {now : U64} {ctx : Context} {i : ℕ}
    (contexts : List Context) : ∀ st : Staging, contexts[i]? = some ctx →
      ∃ st', (evalContexts self cfg l now st contexts).1[i]?
        = some (evalCall cfg l now st' (parseCall self ctx cfg)).1 := by
  induction contexts generalizing i with
  | nil => simp
  | cons ctx' contexts ih =>
    intro st hi
    cases i with
    | zero =>
      obtain rfl : ctx' = ctx := by simpa using hi
      exact ⟨st, rfl⟩
    | succ i => exact ih _ (by simpa using hi)

/-- **An allowed transfer kept its own rules**, whatever the ledger and the rest of the request. -/
theorem permitted_of_allowed {state : AccountState} {l : Ledger} {now : U64}
    {contexts : List Context} {ctx : Context} {i : ℕ} (hi : contexts[i]? = some ctx)
    (hparse : parseCall self ctx cfg = .assetTransfer asset dest amount)
    (hallowed : (decideContexts self (some cfg) state l now contexts).1[i]? = some .allowed) :
    Permitted cfg (.assetTransfer asset dest amount) := by
  rcases le_or_gt contexts.length maxAuthContexts with hlen | hlen
  · rw [verdicts_eq hlen] at hallowed
    cases hgate : gateError cfg state now with
    | some e =>
      rw [hgate] at hallowed
      simp only [blockAll, List.getElem?_map, hi, Option.map_some] at hallowed
      simp at hallowed
    | none =>
      obtain ⟨st, hverdict⟩ := @exists_evalCall self cfg (pruneFor cfg l now) now ctx i contexts
        Staging.empty hi
      simp only [hgate, hverdict, hparse, evalCall, Option.some.injEq] at hallowed
      by_contra hp
      obtain ⟨e, he, -⟩ := evalTransfer_of_not_permitted (pruneFor cfg l now) now st hp
      simp [he] at hallowed
  · rw [decideContexts_oversized self (some cfg) state l now hlen] at hallowed
    cases i <;> simp at hallowed

/-- `check_detailed` always answers, and reports the engine's cap. -/
theorem checkDetailed_perTxCap (env : Env) {s : State} (hcfg : s.policy = some cfg)
    (asset dest : Address) (amount : I128) :
    ∃ detail events, checkDetailed env s asset dest amount = .ok (detail, events) ∧
      detail.effectivePerTxCap = effectivePerTxCap cfg asset := by
  obtain ⟨verdict, hverdict⟩ : ∃ v, (decideContexts env.host.self (some cfg)
      ⟨s.frozenOrFalse, s.heartbeatOrZero⟩ (pruneForRead cfg s.loadWindow.1 env.timestamp)
      env.timestamp [transferContext asset dest amount]).1 = [v] :=
    List.length_eq_one_iff.mp (length_decideContexts (by simp [maxAuthContexts]))
  simp only [checkDetailed, AuthSnapshot.load, hcfg, Option.map_some, AuthSnapshot.accountState,
    hverdict]
  exact ⟨_, _, rfl, rfl⟩

/-- A `0` entry lifts the cap of its own asset. -/
theorem effectivePerTxCap_of_zero (h : cfg.WellFormed self) {ac : AssetCap}
    (hac : ac ∈ cfg.assetCaps) (hzero : ac.perTxCap.val = 0) :
    effectivePerTxCap cfg ac.asset = none := by
  rw [effectivePerTxCap, (find?_assetCap_eq_some_iff h).mpr ⟨hac, rfl⟩]
  simp [enabledCap, hzero]

/-- An entry leaves every other asset's cap alone. -/
theorem effectivePerTxCap_insert {xs ys : List AssetCap} {ac : AssetCap}
    (hcaps : cfg.assetCaps = xs ++ ac :: ys) (hne : ac.asset ≠ asset) :
    effectivePerTxCap cfg asset
      = effectivePerTxCap { cfg with assetCaps := xs ++ ys } asset := by
  simp [effectivePerTxCap, hcaps, List.find?_append, hne]

/-- **The cap on a transfer is its asset's own, or the global one.**  No transfer above it is
allowed, in any state and within any request; `check_detailed` reports it; and an entry of `0` takes
the cap away from its own asset, and from no other. -/
theorem per_tx_cap_resolved (hvalid : validateConfig self cfg = .ok ()) :
    (∀ (asset dest : Address) (amount : I128) (state : AccountState) (l : Ledger) (now : U64)
      (contexts : List Context) (i : ℕ) (ctx : Context), contexts[i]? = some ctx →
      parseCall self ctx cfg = .assetTransfer asset dest amount →
      (decideContexts self (some cfg) state l now contexts).1[i]? = some .allowed →
        ∀ e, CapFor cfg asset e → amount.val ≤ e.val) ∧
      (∀ (env : Env) (s : State) (asset dest : Address) (amount : I128), s.policy = some cfg →
        ∃ detail events, checkDetailed env s asset dest amount = .ok (detail, events) ∧
          ∀ e, detail.effectivePerTxCap = some e ↔ CapFor cfg asset e) ∧
      ∀ xs ac ys, cfg.assetCaps = xs ++ ac :: ys → ac.perTxCap.val = 0 →
        (∀ e, ¬CapFor cfg ac.asset e) ∧
          ∀ asset, ac.asset ≠ asset →
            effectivePerTxCap cfg asset
              = effectivePerTxCap { cfg with assetCaps := xs ++ ys } asset := by
  have h : cfg.WellFormed self :=
    wellFormed_of_firstFailingRule (firstFailingRule_of_validateConfig hvalid)
  refine ⟨?_, ?_, ?_⟩
  · intro asset dest amount state l now contexts i ctx hi hparse hallowed e he
    obtain ⟨-, -, -, -, hcap⟩ := permitted_of_allowed hi hparse hallowed
    exact hcap e ((effectivePerTxCap_eq_some_iff h).mpr he)
  · intro env s asset dest amount hcfg
    obtain ⟨detail, events, hreturns, hreport⟩ := checkDetailed_perTxCap env hcfg asset dest amount
    refine ⟨detail, events, hreturns, fun e => ?_⟩
    rw [hreport, effectivePerTxCap_eq_some_iff h]
  · intro xs ac ys hcaps hzero
    have hac : ac ∈ cfg.assetCaps := by simp [hcaps]
    refine ⟨fun e he => ?_, fun asset hne => effectivePerTxCap_insert hcaps hne⟩
    have hnone := effectivePerTxCap_of_zero h hac hzero
    simp [(effectivePerTxCap_eq_some_iff h).mpr he] at hnone

end

/-- The cap SPEC 6.2 describes: an entry of `0` falls back to the global cap. -/
def fallbackPerTxCap (cfg : PolicyConfig) (asset : Address) : Option I128 :=
  ((cfg.assetCaps.find? fun ac => ac.asset = asset).bind fun ac => enabledCap ac.perTxCap).or
    (enabledCap cfg.perTxCap)

namespace Sample

/-- A global cap of `10`, and an entry for the asset that only carries its `paused` flag. -/
def flagOnly : PolicyConfig := { policy with perTxCap := 10, assetCaps := [⟨asset, 0, false⟩] }

/-- The entry does not fall back: a transfer of `60` is allowed, and no cap is reported. -/
theorem flagOnly_uncapped :
    validateConfig self flagOnly = .ok () ∧ fallbackPerTxCap flagOnly asset = some 10 ∧
      (decideContexts self (some flagOnly) ⟨false, 0⟩ Ledger.empty 100 [pay 60]).1 = [.allowed] ∧
      effectivePerTxCap flagOnly asset = none :=
  ⟨by rfl, by rfl, by rfl, by rfl⟩

/-- An entry of `50` over the same global cap. -/
def raised : PolicyConfig := { policy with perTxCap := 10, assetCaps := [⟨asset, 50, false⟩] }

/-- The entry's own cap is the one that binds, and the one that is reported. -/
theorem raised_capped :
    (decideContexts self (some raised) ⟨false, 0⟩ Ledger.empty 100 [pay 50, pay 51]).1
        = [.allowed, .blocked .perTxCapExceeded] ∧
      (∀ e, CapFor raised asset e → (50 : I128).val ≤ e.val) ∧
      ∃ detail events, checkDetailed ((call 110 .status).env host) (installed raised) asset payee 51
        = .ok (detail, events) ∧ detail.effectivePerTxCap = some 50 := by
  have hcaps : CapFor raised asset 50 :=
    .override ⟨asset, 50, false⟩ List.mem_cons_self rfl (by decide)
  obtain ⟨hbounded, hreported, -⟩ :=
    per_tx_cap_resolved (show validateConfig self raised = .ok () by rfl)
  obtain ⟨detail, events, hreturns, hreport⟩ :=
    hreported ((call 110 .status).env host) (installed raised) asset payee 51 (by rfl)
  refine ⟨by rfl, ?_, detail, events, hreturns, (hreport 50).mpr hcaps⟩
  exact hbounded asset payee 50 ⟨false, 0⟩ Ledger.empty 100 [pay 50, pay 51] 0 (pay 50) (by rfl)
    (by rfl) (by rfl)

end Sample

end AgentGuard
