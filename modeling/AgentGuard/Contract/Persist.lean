import AgentGuard.Contract.Invariant

/-!
# Contract/Persist — when an approval's ledger is the one loaded next

`__check_auth` writes the ledger back when the window key was there or the ledger holds a spend.  It
does not ask for protocol calls, so a call approved on an absent window is never counted; and the
`u32` counter, which is counted again on every load, disagrees with the one in memory once it has
saturated and lost entries.  Nothing else is ever lost (`loadWindow_eq_decided_iff`).
-/

namespace AgentGuard

open Machinery

/-- The protocol calls in the stored window, counted exactly. -/
def storedCalls (s : State) : ℤ := valueSum s.loadWindow.1.protocolCallEntries

/-- Those of them that expire when the request is decided; past a closed gate nothing is pruned. -/
def expiredCalls (env : Env) (s : State) (cfg : PolicyConfig) : ℤ :=
  if (openPolicy s.policy ⟨s.frozenOrFalse, s.heartbeatOrZero⟩ env.timestamp).isSome then
    sumUpTo (pruneHorizon cfg env.timestamp) s.loadWindow.1.protocolCallEntries
  else 0

/-- The protocol calls of the request that count against a rate limit. -/
def countedCalls (env : Env) (cfg : PolicyConfig) (contexts : List Context) : ℤ :=
  callDemand cfg (parseAll env.host.self cfg contexts)

/-- A transfer of the request is recorded, in the global window or in its recipient's. -/
def RecordsSpend (env : Env) (cfg : PolicyConfig) (contexts : List Context) : Prop :=
  0 < globalDemand cfg (parseAll env.host.self cfg contexts) ∨
    ∃ r, 0 < recipientDemand cfg r (parseAll env.host.self cfg contexts)

/-- **When nothing approved is lost**: there is a reason to write the window back, or no call to
count; and the call counter has not both saturated and dropped some, but not all, of its calls. -/
structure Kept (env : Env) (s : State) (cfg : PolicyConfig) (contexts : List Context) : Prop where
  written : s.window.isSome ∨ countedCalls env cfg contexts = 0 ∨ RecordsSpend env cfg contexts
  counter : storedCalls s ≤ u32.hi ∨ expiredCalls env s cfg = 0 ∨
    expiredCalls env s cfg = storedCalls s ∨
    expiredCalls env s cfg ≤ countedCalls env cfg contexts

section

variable {s : State} {host : Host} {t : U64} {env : Env} {cfg : PolicyConfig}
  {contexts : List Context}

theorem loadWindow_of_none (h : s.window = none) : s.loadWindow.1 = Ledger.empty := by
  rw [State.loadWindow, h]

/-- Some recipient's ledger holds an entry exactly when some recipient's meter does. -/
theorem ledgerHasRecipientEntries_iff {l : Ledger} (h : l.Rep t) :
    ledgerHasRecipientEntries l = true ↔ ∃ r, (l.meter r).entries ≠ [] := by
  rw [ledgerHasRecipientEntries, List.any_eq_true]
  refine ⟨fun ⟨x, hx, hne⟩ => ⟨x.recipient, ?_⟩, fun ⟨r, hne⟩ => ?_⟩
  · rw [Ledger.meter, meterOf_mem h.distinct hx]
    simpa [RecipientLedger.single] using hne
  · rw [Ledger.meter, meterOf] at hne
    cases hfind : l.recipients.find? fun x => x.recipient = r with
    | none => simp [hfind] at hne
    | some x =>
      rw [hfind] at hne
      refine ⟨x, List.mem_of_find?_eq_some hfind, ?_⟩
      simpa [RecipientLedger.single] using hne

/-- What is loaded after a ledger was written back. -/
theorem loadWindow_of_persists (hl : (authDecision env s contexts).2.Rep t)
    (h : persists s (authDecision env s contexts).2 = true) :
    (s.admitted env contexts).loadWindow.1
      = { (authDecision env s contexts).2 with
          protocolCallTotal :=
            BoundedInt.clamp (valueSum (authDecision env s contexts).2.protocolCallEntries)
          merges := [] } := by
  rw [admitted_eq, if_pos h]
  exact hl.fromState_toState

theorem loadWindow_of_not_persists (hl : (authDecision env s contexts).2.Rep t)
    (h : persists s (authDecision env s contexts).2 = false) :
    (s.admitted env contexts).loadWindow.1 = Ledger.empty := by
  rw [admitted_eq, h, if_neg (by simp)]
  exact loadWindow_of_none (of_not_persists hl h).1

/-- **The counter left in memory agrees with its entries** exactly when the loaded one has not both
saturated and dropped some, but not all, of its calls. -/
theorem counter_decided_iff (h : s.Inv host env.timestamp)
    (hopen : openPolicy s.policy ⟨s.frozenOrFalse, s.heartbeatOrZero⟩ env.timestamp = some cfg)
    (hlen : contexts.length ≤ maxAuthContexts)
    (hcharged : Charged cfg env.timestamp (parseAll env.host.self cfg contexts)
      (pruneFor cfg s.loadWindow.1 env.timestamp) (authDecision env s contexts).2) :
    (authDecision env s contexts).2.protocolCallTotal
        = BoundedInt.clamp (valueSum (authDecision env s contexts).2.protocolCallEntries)
      ↔ storedCalls s ≤ u32.hi ∨ expiredCalls env s cfg = 0 ∨
        expiredCalls env s cfg = storedCalls s ∨
        expiredCalls env s cfg ≤ countedCalls env cfg contexts := by
  have hcalls := h.ledger.calls
  have hdecided := hcharged.calls
  rw [h.ledger.calls_pruneFor] at hdecided
  have hlen' : (parseAll env.host.self cfg contexts).length ≤ maxAuthContexts := by
    simpa [parseAll] using hlen
  have hcount := callDemand_le_length cfg (parseAll env.host.self cfg contexts)
  have hcount0 := callDemand_nonneg cfg (parseAll env.host.self cfg contexts)
  have hfew : callDemand cfg (parseAll env.host.self cfg contexts) < u32.hi := by
    rw [maxAuthContexts] at hlen'
    rw [u32_hi]
    omega
  have hloaded : s.loadWindow.1.calls.total.val
      = min u32.hi (valueSum s.loadWindow.1.calls.entries) := by
    rw [show s.loadWindow.1.calls.total = _ from h.recounted.1]
    exact U32.val_clamp (valueSum_nonneg hcalls.positive)
  have hentries : ∀ e ∈ (authDecision env s contexts).2.calls.entries, 0 < e.value.val := by
    rw [hdecided]
    exact ((hcalls.keepAfter (l := s.loadWindow.1.calls) _).charge (by decide) (by decide)
      hfew.le).positive
  have hexpired : expiredCalls env s cfg
      = sumUpTo (pruneHorizon cfg env.timestamp) s.loadWindow.1.calls.entries := by
    rw [expiredCalls, hopen]
    rfl
  have hiff := Rolling.total_eq_min_valueSum_iff (by decide) rfl hcalls hloaded hcount0 hfew
    (pruneHorizon cfg env.timestamp)
  rw [← hdecided] at hiff
  rw [hexpired]
  refine Iff.trans ?_ hiff
  rw [← U32.val_clamp (valueSum_nonneg hentries)]
  exact ⟨fun heq => congrArg BoundedInt.val heq, fun heq => BoundedInt.ext heq⟩

/-- With no window to start from, the ledger left in memory holds a spend exactly when the request
records one. -/
theorem persists_iff_recordsSpend (hw : s.window = none)
    (hdec : (authDecision env s contexts).2.Rep env.timestamp)
    (hperm : ∀ c ∈ parseAll env.host.self cfg contexts, Permitted cfg c)
    (hcharged : Charged cfg env.timestamp (parseAll env.host.self cfg contexts)
      (pruneFor cfg Ledger.empty env.timestamp) (authDecision env s contexts).2) :
    persists s (authDecision env s contexts).2 = true ↔ RecordsSpend env cfg contexts := by
  have hempty := Ledger.rep_empty env.timestamp
  have hglobal : (authDecision env s contexts).2.entries = []
      ↔ globalDemand cfg (parseAll env.host.self cfg contexts) = 0 := by
    change (authDecision env s contexts).2.single.entries = [] ↔ _
    rw [hcharged.single, Rolling.charge_eq_nil_iff (by decide) (globalDemand_nonneg hperm),
      hempty.single_pruneFor]
    exact and_iff_right rfl
  have hrecipient : ∀ r, ((authDecision env s contexts).2.meter r).entries = []
      ↔ recipientDemand cfg r (parseAll env.host.self cfg contexts) = 0 := fun r => by
    rw [hcharged.meter, Rolling.charge_eq_nil_iff (by decide) (recipientDemand_nonneg hperm r),
      hempty.meter_pruneFor]
    exact and_iff_right rfl
  have hg0 := globalDemand_nonneg hperm
  have hr0 := recipientDemand_nonneg hperm
  rw [persists, hw, Option.isSome_none, Bool.false_or, Bool.or_eq_true,
    ledgerHasRecipientEntries_iff hdec, RecordsSpend, decide_eq_true_eq]
  refine or_congr ((not_congr hglobal).trans ?_) (exists_congr fun r =>
    (not_congr (hrecipient r)).trans ?_)
  · exact ⟨fun h => hg0.lt_of_ne' h, fun h => h.ne'⟩
  · exact ⟨fun h => (hr0 r).lt_of_ne' h, fun h => h.ne'⟩

/-- With nothing recorded and nothing counted, an empty ledger stays empty. -/
theorem decided_eq_empty (hperm : ∀ c ∈ parseAll env.host.self cfg contexts, Permitted cfg c)
    (hcharged : Charged cfg env.timestamp (parseAll env.host.self cfg contexts)
      (pruneFor cfg Ledger.empty env.timestamp) (authDecision env s contexts).2)
    (hno : ¬RecordsSpend env cfg contexts) (hcalls : countedCalls env cfg contexts = 0) :
    { (authDecision env s contexts).2 with merges := [] } = Ledger.empty := by
  rw [RecordsSpend, not_or, not_exists] at hno
  have hempty := Ledger.rep_empty env.timestamp
  have hglobal : globalDemand cfg (parseAll env.host.self cfg contexts) = 0 :=
    le_antisymm (not_lt.mp hno.1) (globalDemand_nonneg hperm)
  have hrecipient : ∀ r, recipientDemand cfg r (parseAll env.host.self cfg contexts) = 0 :=
    fun r => le_antisymm (not_lt.mp (hno.2 r)) (recipientDemand_nonneg hperm r)
  have hsingle : (authDecision env s contexts).2.single = ⟨0, []⟩ := by
    rw [hcharged.single, hglobal, Rolling.charge_zero, hempty.single_pruneFor]
    exact Rolling.keepAfter_of_lt (l := ⟨0, []⟩) (by simp)
  have hcount : (authDecision env s contexts).2.calls = ⟨0, []⟩ := by
    rw [hcharged.calls, show callDemand cfg _ = 0 from hcalls, Rolling.charge_zero,
      hempty.calls_pruneFor]
    exact Rolling.keepAfter_of_lt (l := ⟨0, []⟩) (by simp)
  have hnone : (authDecision env s contexts).2.recipients = [] := by
    rw [hcharged.untouched hrecipient, pruneFor]
    split_ifs <;> rfl
  have h1 : (authDecision env s contexts).2.total = 0 := congrArg Rolling.total hsingle
  have h2 : (authDecision env s contexts).2.entries = [] := congrArg Rolling.entries hsingle
  have h3 : (authDecision env s contexts).2.protocolCallTotal = 0 := congrArg Rolling.total hcount
  have h4 : (authDecision env s contexts).2.protocolCallEntries = [] :=
    congrArg Rolling.entries hcount
  simp only [h1, h2, h3, h4, hnone]
  rfl

/-- A request that leaves the ledger as it was loaded loses nothing. -/
theorem loadWindow_admitted_of_same (h : s.Inv host env.timestamp)
    (hsame : (authDecision env s contexts).2 = s.loadWindow.1) :
    (s.admitted env contexts).loadWindow.1
      = { (authDecision env s contexts).2 with merges := [] } := by
  have hdec := h.decided contexts
  by_cases hp : persists s (authDecision env s contexts).2 = true
  · rw [loadWindow_of_persists hdec hp, hsame, ← h.recounted.1]
  · have hp' := Bool.eq_false_iff.mpr hp
    rw [loadWindow_of_not_persists hdec hp', hsame,
      loadWindow_of_none (of_not_persists hdec hp').1]
    rfl

/-- **Written back**: all is kept but for the counter, which is counted again. -/
theorem loadWindow_iff_of_persists (h : s.Inv host env.timestamp)
    (hopen : openPolicy s.policy ⟨s.frozenOrFalse, s.heartbeatOrZero⟩ env.timestamp = some cfg)
    (hlen : contexts.length ≤ maxAuthContexts)
    (hperm : ∀ c ∈ parseAll env.host.self cfg contexts, Permitted cfg c)
    (hcharged : Charged cfg env.timestamp (parseAll env.host.self cfg contexts)
      (pruneFor cfg s.loadWindow.1 env.timestamp) (authDecision env s contexts).2)
    (hp : persists s (authDecision env s contexts).2 = true) :
    (s.admitted env contexts).loadWindow.1 = { (authDecision env s contexts).2 with merges := [] }
      ↔ Kept env s cfg contexts := by
  have hdec := h.decided contexts
  have hcounter := counter_decided_iff h hopen hlen hcharged
  have hwritten : s.window.isSome ∨ countedCalls env cfg contexts = 0 ∨
      RecordsSpend env cfg contexts := by
    cases hw : s.window with
    | some w => exact .inl rfl
    | none =>
      rw [loadWindow_of_none hw] at hcharged
      exact .inr (.inr ((persists_iff_recordsSpend hw hdec hperm hcharged).mp hp))
  rw [loadWindow_of_persists hdec hp]
  refine Iff.trans ?_ (Iff.trans hcounter ⟨fun h => ⟨hwritten, h⟩, fun h => h.counter⟩)
  exact ⟨fun h => (congrArg Ledger.protocolCallTotal h).symm, fun h => by rw [← h]⟩

/-- **Not written back**: all is kept unless a call was to be counted. -/
theorem loadWindow_iff_of_not_persists (h : s.Inv host env.timestamp)
    (hperm : ∀ c ∈ parseAll env.host.self cfg contexts, Permitted cfg c)
    (hcharged : Charged cfg env.timestamp (parseAll env.host.self cfg contexts)
      (pruneFor cfg s.loadWindow.1 env.timestamp) (authDecision env s contexts).2)
    (hp : persists s (authDecision env s contexts).2 = false) :
    (s.admitted env contexts).loadWindow.1 = { (authDecision env s contexts).2 with merges := [] }
      ↔ Kept env s cfg contexts := by
  have hdec := h.decided contexts
  have hw := (of_not_persists hdec hp).1
  rw [loadWindow_of_none hw] at hcharged
  have hno := mt (persists_iff_recordsSpend hw hdec hperm hcharged).mpr (Bool.eq_false_iff.mp hp)
  rw [loadWindow_of_not_persists hdec hp]
  refine ⟨fun h => ⟨.inr (.inl ?_), ?_⟩, fun h => ?_⟩
  · have hnil : (authDecision env s contexts).2.calls.entries = [] :=
      (congrArg Ledger.protocolCallEntries h).symm
    rw [hcharged.calls, Rolling.charge_eq_nil_iff (by decide) (callDemand_nonneg cfg _)] at hnil
    exact hnil.2
  · have hstored : storedCalls s = 0 := by
      rw [storedCalls, loadWindow_of_none hw]
      rfl
    exact .inl (hstored.trans_le (by decide))
  · rcases h.written with hsome | hcalls | hspend
    · rw [hw] at hsome
      simp at hsome
    · exact (decided_eq_empty hperm hcharged hno hcalls).symm
    · exact absurd hspend hno

/-- **No approved admission is lost, exactly when.**  For every reachable state and every approved
authorization, what the next authorization loads is the ledger the engine left — the telemetry apart
— if and only if `Kept` holds of the state and the request. -/
theorem loadWindow_eq_decided_iff {signaturePayload signature : List UInt8}
    {outcome : AuthOutcome} (hreach : Reachable env.host t s) (ht : t.val ≤ env.timestamp.val)
    (hcfg : s.policy = some cfg)
    (hcheck : checkAuth env s signaturePayload signature contexts = .ok outcome)
    (hok : outcome.result = .ok ()) :
    outcome.state.loadWindow.1 = { (authDecision env s contexts).2 with merges := [] }
      ↔ Kept env s cfg contexts := by
  have hinv := hreach.inv.mono ht
  obtain ⟨cfg', hgrants, hstate⟩ := checkAuth_ok hcheck hok
  obtain rfl : cfg = cfg' := Option.some.inj (hcfg.symm.trans hgrants.policy)
  rw [hstate]
  obtain ⟨hlen, ⟨hclosed, rfl, hsame⟩ | ⟨hopen, hperm, hfits, hcharged⟩⟩ := hgrants.cases hinv
  -- past a closed gate only an empty request is approved, and nothing happens
  · have hcounted : countedCalls env cfg [] = 0 := callDemand_nil
    have hexpired : expiredCalls env s cfg = 0 := by rw [expiredCalls, hclosed]; rfl
    exact iff_of_true (loadWindow_admitted_of_same hinv hsame)
      ⟨.inr (.inl hcounted), .inr (.inl hexpired)⟩
  · by_cases hp : persists s (authDecision env s contexts).2 = true
    · exact loadWindow_iff_of_persists hinv hopen hlen hperm hcharged hp
    · exact loadWindow_iff_of_not_persists hinv hperm hcharged (Bool.eq_false_iff.mpr hp)

end

/-! ## The call that is not counted -/

namespace Sample

/-- A rate of one protocol call in the window, and no other limit. -/
def onePerWindow : PolicyConfig := { policy with protocolCallsPerWindow := 1 }

/-- The account after the admin has reset the window. -/
def reset : State := step host (installed onePerWindow) (call 105 .resetWindow)

theorem reachable_reset : Reachable host 105 reset :=
  .call (call 105 .resetWindow) (reachable_installed onePerWindow) (by decide)

/-- **A lost call**: after a reset, a protocol call is approved under a limit of one, the ledger in
memory counts it, the one loaded next does not — and the same call is approved again. -/
theorem reset_loses_call :
    Reachable host 105 reset ∧
      (∃ outcome, checkAuth ((auth 110 [use]).env host) reset [] [] [use] = .ok outcome ∧
        outcome.result = .ok () ∧
        outcome.state.loadWindow.1
          ≠ { (authDecision ((auth 110 [use]).env host) reset [use]).2 with merges := [] }) ∧
      (run host reset [auth 110 [use], auth 111 [use]]).2.length = 2 :=
  ⟨reachable_reset, ⟨_, by rfl, by rfl, by decide⟩, by rfl⟩

/-- The same request on the window of the install is kept. -/
theorem installed_keeps_call :
    ∃ outcome, checkAuth ((auth 110 [use]).env host) (installed onePerWindow) [] [] [use]
          = .ok outcome ∧
      outcome.result = .ok () ∧
      Kept ((auth 110 [use]).env host) (installed onePerWindow) onePerWindow [use] ∧
      outcome.state.loadWindow.1
        = { (authDecision ((auth 110 [use]).env host) (installed onePerWindow) [use]).2 with
            merges := [] } := by
  have hkept : Kept ((auth 110 [use]).env host) (installed onePerWindow) onePerWindow [use] :=
    ⟨.inl (by decide), .inl (by decide)⟩
  obtain ⟨outcome, hcheck, hok⟩ : ∃ outcome,
      checkAuth ((auth 110 [use]).env host) (installed onePerWindow) [] [] [use] = .ok outcome ∧
        outcome.result = .ok () := ⟨_, by rfl, by rfl⟩
  refine ⟨outcome, hcheck, hok, hkept, ?_⟩
  exact (loadWindow_eq_decided_iff (t := 100) (reachable_installed onePerWindow) (by decide)
    (by rfl) hcheck hok).mpr hkept

end Sample

end AgentGuard
