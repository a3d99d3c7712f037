import AgentGuard.Contract.Tending
import AgentGuard.Contract.Handover

/-!
# Contract/Liveness — an account in use keeps its entries

Runs over storage that lapses: each call comes with the ledger it is in, and a call that fails, an
`Err` of `__check_auth` included, rolls its extensions back.
-/

namespace AgentGuard

open Machinery

namespace Rented

/-- An entry point that does not return an `Err`. -/
def settled (m : Rented (List Event)) : Rented (Except Error Unit × List Event) := do
  let events ← m
  return (.ok (), events)

/-- A read, with the events it emits. -/
def reading {α : Type} (m : Rented (α × List Event)) : Rented (Except Error Unit × List Event) := do
  let (_, events) ← m
  return (.ok (), events)

/-- A read that emits nothing. -/
def silently {α : Type} (m : Rented α) : Rented (Except Error Unit × List Event) := do
  let _ ← m
  return (.ok (), [])

/-- An invocation of an entry point. -/
def perform (env : RentEnv) : Action → Rented (Except Error Unit × List Event)
  | .initializeAccount admin agentPubkey => settled (initializeAccount env admin agentPubkey)
  | .setPolicy config => settled (setPolicy env config)
  | .resetWindow => settled (resetWindow env)
  | .pause => settled (pause env)
  | .resume => settled (resume env)
  | .revokePolicy => settled (revokePolicy env)
  | .rotateAgentKey newPubkey => settled (rotateAgentKey env newPubkey)
  | .proposeAdminRotation newAdmin => settled (proposeAdminRotation env newAdmin)
  | .confirmAdminRotation => settled (confirmAdminRotation env)
  | .cancelAdminRotation => settled (cancelAdminRotation env)
  | .heartbeat entry => settled (heartbeat env entry)
  | .freeze => settled (freeze env)
  | .refreshDeadman => settled (refreshDeadman env)
  | .unfreeze => settled (unfreeze env)
  | .readPolicy => silently (readPolicy env)
  | .policyHash => silently (policyHash env)
  | .validatePolicy _ => silently (pure ())
  | .dmsHealth => silently (readDmsHealth env)
  | .status => silently (status env)
  | .check asset dest amount => reading (check env asset dest amount)
  | .checkDetailed asset dest amount => reading (checkDetailed env asset dest amount)
  | .checkBatch asset transfers => reading (checkBatch env asset transfers)
  | .checkAuth entry => checkAuth env entry.signaturePayload entry.signature entry.contexts

end Rented

/-- A storage, and until when its entries live. -/
abbrev RentState := State × Leases DataKey

/-- **One call**, in the ledger `c.1`: what it leaves, and the entries it touched. -/
def rentStep (host : Host) (terms : LeaseTerms) (x : RentState) (c : ℕ × Call) :
    RentState × List (Access DataKey) :=
  match (Rented.perform ⟨c.2.env host, terms, c.1⟩ c.2.action).run (x, []) with
  | .ok ((.ok (), _), x', log) => (x', log)
  -- a call that fails leaves nothing behind, not even a longer lease
  | _ => (x, [])

/-- What a call comes to, the leases left aside. -/
def rentEffect (host : Host) (terms : LeaseTerms) (x : RentState) (c : ℕ × Call) : Effect :=
  ((Rented.perform ⟨c.2.env host, terms, c.1⟩ c.2.action).run (x, [])).map
    fun r => (r.2.1.1, r.1.2)

/-- The program returns `a` and leaves the values as they are. -/
def Rented.Returns {α : Type} (m : Rented α) (x : RentState) (a : α) : Prop :=
  ∃ leases log, Does m x a (x.1, leases) log

/-- The reads, which return what they return over storage that never lapses. -/
structure Rented.ReadsThrough (env : RentEnv) (x : RentState) : Prop where
  policy : Returns (readPolicy env) x x.1.policy
  policyHash : Returns (policyHash env) x (AgentGuard.policyHash env.toEnv x.1)
  dmsHealth : Returns (readDmsHealth env) x (AgentGuard.readDmsHealth env.toEnv x.1)
  status : Returns (status env) x (AgentGuard.status env.toEnv x.1)
  check (asset dest : Address) (amount : I128) : ∃ r,
    AgentGuard.check env.toEnv x.1 asset dest amount = .ok r ∧
      Returns (check env asset dest amount) x r
  checkDetailed (asset dest : Address) (amount : I128) : ∃ r,
    AgentGuard.checkDetailed env.toEnv x.1 asset dest amount = .ok r ∧
      Returns (checkDetailed env asset dest amount) x r
  checkBatch (asset : Address) (transfers : List BatchTransfer) :
    Returns (checkBatch env asset transfers) x (AgentGuard.checkBatch env.toEnv x.1 asset transfers)

/-- The storage before the `i`-th call of a run of a freshly deployed account, with its leases. -/
def rentAt (host : Host) (terms : LeaseTerms) (calls : List (ℕ × Call)) (i : ℕ) : RentState :=
  pointAt (fun x c => (rentStep host terms x c).1) (State.empty, fun _ => 0) calls i

/-- **The call uses the account**: an approved authorization, or a read that looks at all an
authorization would look at. -/
def Uses (host : Host) (s : State) (c : Call) : Prop :=
  match c.action with
  | .checkAuth entry | .heartbeat entry => (approval host s c).isSome ∧ entry.contexts ≠ []
  | .status | .check _ _ _ | .checkDetailed _ _ _ => True
  | .checkBatch _ transfers => transfers ≠ []
  | _ => False

/-- The call fails: it aborts, or `__check_auth` returns an `Err`. -/
def RollsBack (host : Host) (s : State) (c : Call) : Prop :=
  ¬Succeeds host s c ∨ (∃ entry, c.action = .checkAuth entry) ∧ approval host s c = none

namespace Rented

/-! ## One call -/

section

variable {env : RentEnv} {s s' : State} {α : Type}

/-- What a call comes to, and what it touches when it uses the account. -/
def Serves (env : RentEnv) (s : State) (m : Rented (Except Error Unit × List Event)) (uses : Prop) :
    Effect → Prop
  | .ok (s', events) => ∃ r keys, Ends env m s (r, events) s' keys ∧
      (∀ e, r = .error e → s' = s) ∧
        (uses → s.policy.isSome → r = .ok () ∧ livingKeys ⊆ keys)
  | .error a => Mirrors env m s (.error a) ∧ ¬uses

theorem serves_settled {m : Rented (List Event)} {uses : Prop} {effect : Effect}
    (h : Mirrors env m s effect) (hno : ¬uses) : Serves env s (settled m) uses effect := by
  cases effect with
  | error a => exact ⟨ComesTo.bind_error h, hno⟩
  | ok r =>
    obtain ⟨s', events⟩ := r
    refine ⟨.ok (), [], Tends.bind_pure h rfl, fun e he => ?_, fun hyes => absurd hyes hno⟩
    cases he

theorem serves_silently {m : Rented α} {uses : Prop} {a : α} {keys : List DataKey}
    (h : Ends env m s a s keys) (hkeys : uses → s.policy.isSome → livingKeys ⊆ keys) :
    Serves env s (silently m) uses (.ok (s, [])) :=
  ⟨.ok (), keys, h.bind_pure rfl, fun _ _ => rfl, fun hyes hpolicy => ⟨rfl, hkeys hyes hpolicy⟩⟩

theorem serves_reading {m : Rented (α × List Event)} {uses : Prop} {a : α} {events : List Event}
    {keys : List DataKey} (h : Ends env m s (a, events) s keys)
    (hkeys : uses → s.policy.isSome → livingKeys ⊆ keys) :
    Serves env s (reading m) uses (.ok (s, events)) :=
  ⟨.ok (), keys, h.bind_pure rfl, fun _ _ => rfl, fun hyes hpolicy => ⟨rfl, hkeys hyes hpolicy⟩⟩

end

section

variable (host : Host) (terms : LeaseTerms) (sequence : ℕ) {s : State} {c : Call}

/-- An approval is an authorization that succeeded. -/
theorem checkAuth_of_approvalOf {env : Env} {entry : AuthEntry}
    (h : (approvalOf env s entry).isSome) :
    ∃ outcome, AgentGuard.checkAuth env s entry.signaturePayload entry.signature entry.contexts
      = .ok outcome ∧ outcome.result = .ok () := by
  rcases approvalOf_eq env s entry with ⟨hnone, -⟩ | ⟨cfg, outcome, -, hcheck, hok, -, -⟩
  · simp [hnone] at h
  · exact ⟨outcome, hcheck, hok⟩

/-- A heartbeat with its approval returns. -/
theorem heartbeat_of_approval {entry : AuthEntry} (haction : c.action = .heartbeat entry)
    (h : (approval host s c).isSome) :
    ∃ r, AgentGuard.heartbeat (c.env host) s entry = .ok r := by
  simp only [approval, haction] at h
  split_ifs at h with hmem
  · obtain ⟨outcome, hcheck, hok⟩ := checkAuth_of_approvalOf h
    have hmem' : heartbeatContext (c.env host).host.self ∈ entry.contexts := hmem
    rw [AgentGuard.heartbeat, if_neg (not_not.mpr hmem'), hcheck]
    exact ⟨_, by simp only [bind, Except.bind, hok]; rfl⟩
  · simp at h

/-- **Every entry point serves**: it comes to what the plain one comes to. -/
theorem perform_serves :
    Serves ⟨c.env host, terms, sequence⟩ s (perform ⟨c.env host, terms, sequence⟩ c.action)
      (Uses host s c) (c.action.effect (c.env host) s) := by
  cases haction : c.action with
  | initializeAccount admin agentPubkey =>
    exact serves_settled (initializeAccount_mirrors admin agentPubkey) (by simp [Uses, haction])
  | setPolicy config => exact serves_settled (setPolicy_mirrors config) (by simp [Uses, haction])
  | resetWindow => exact serves_settled resetWindow_mirrors (by simp [Uses, haction])
  | pause => exact serves_settled (setPaused_mirrors true) (by simp [Uses, haction])
  | resume => exact serves_settled (setPaused_mirrors false) (by simp [Uses, haction])
  | revokePolicy => exact serves_settled revokePolicy_mirrors (by simp [Uses, haction])
  | rotateAgentKey newPubkey =>
    exact serves_settled (rotateAgentKey_mirrors newPubkey) (by simp [Uses, haction])
  | proposeAdminRotation newAdmin =>
    exact serves_settled (proposeAdminRotation_mirrors newAdmin) (by simp [Uses, haction])
  | confirmAdminRotation =>
    exact serves_settled confirmAdminRotation_mirrors (by simp [Uses, haction])
  | cancelAdminRotation =>
    exact serves_settled cancelAdminRotation_mirrors (by simp [Uses, haction])
  | freeze => exact serves_settled freeze_mirrors (by simp [Uses, haction])
  | refreshDeadman => exact serves_settled refreshDeadman_mirrors (by simp [Uses, haction])
  | unfreeze => exact serves_settled unfreeze_mirrors (by simp [Uses, haction])
  | readPolicy => exact serves_silently readPolicy_ends (by simp [Uses, haction])
  | policyHash => exact serves_silently policyHash_ends (by simp [Uses, haction])
  | validatePolicy config => exact serves_silently (tends_pure () s) (by simp [Uses, haction])
  | dmsHealth => exact serves_silently readDmsHealth_ends (by simp [Uses, haction])
  | status =>
    refine serves_silently status_ends fun _ hpolicy => ?_
    simp [livingKeys, hpolicy]
  | check asset dest amount =>
    obtain ⟨result, events, keys, heq, hends, hkeys⟩ :=
      @check_ends ⟨c.env host, terms, sequence⟩ s asset dest amount
    have heff : (Action.check asset dest amount).effect (c.env host) s = .ok (s, events) := by
      rw [Action.effect, heq]
      rfl
    rw [heff]
    exact serves_reading hends fun _ => hkeys
  | checkDetailed asset dest amount =>
    obtain ⟨detail, events, keys, heq, hends, hkeys⟩ :=
      @checkDetailed_ends ⟨c.env host, terms, sequence⟩ s asset dest amount
    have heff : (Action.checkDetailed asset dest amount).effect (c.env host) s
        = .ok (s, events) := by
      rw [Action.effect, heq]
      rfl
    rw [heff]
    exact serves_reading hends fun _ => hkeys
  | checkBatch asset transfers =>
    obtain ⟨keys, hends, hkeys⟩ := @checkBatch_ends ⟨c.env host, terms, sequence⟩ s asset transfers
    refine serves_reading hends fun huses hpolicy => hkeys hpolicy ?_
    simpa [Uses, haction] using huses
  | heartbeat entry =>
    cases heff : AgentGuard.heartbeat (c.env host) s entry with
    | error a =>
      rw [Action.effect, heff]
      refine ⟨ComesTo.bind_error (heartbeat_fails heff), fun huses => ?_⟩
      simp only [Uses, haction] at huses
      obtain ⟨r, hr⟩ := heartbeat_of_approval host haction huses.1
      rw [heff] at hr
      cases hr
    | ok r =>
      obtain ⟨s', events⟩ := r
      obtain ⟨keys, hends, hkeys⟩ := @heartbeat_ends ⟨c.env host, terms, sequence⟩ s s' _ _ heff
      rw [Action.effect, heff]
      refine ⟨.ok (), keys, hends.bind_pure rfl, fun e he => ?_, fun huses _ => ⟨rfl, ?_⟩⟩
      · cases he
      · simp only [Uses, haction] at huses
        exact hkeys huses.2
  | checkAuth entry =>
    cases heff : AgentGuard.checkAuth (c.env host) s entry.signaturePayload entry.signature
        entry.contexts with
    | error a =>
      rw [Action.effect, heff]
      refine ⟨checkAuth_fails heff, fun huses => ?_⟩
      simp only [Uses, haction, approval] at huses
      obtain ⟨outcome, hcheck, -⟩ := checkAuth_of_approvalOf huses.1
      rw [heff] at hcheck
      cases hcheck
    | ok outcome =>
      obtain ⟨keys, hends, hkeys⟩ := @checkAuth_ends ⟨c.env host, terms, sequence⟩ s _ _ _ _ heff
      rw [Action.effect, heff]
      refine ⟨outcome.result, keys, hends, fun e he => ?_, fun huses _ => ?_⟩
      · rcases checkAuth_cases heff with ⟨_, -, hstate⟩ | ⟨_, _, -, -, -, hok, -⟩
        · exact hstate
        · rw [hok] at he
          cases he
      · simp only [Uses, haction, approval] at huses
        obtain ⟨outcome', hcheck, hok⟩ := checkAuth_of_approvalOf huses.1
        obtain rfl := Except.ok.inj (hcheck.symm.trans heff)
        exact ⟨hok, hkeys hok huses.2⟩

end

end Rented

section

variable {host : Host} {terms : LeaseTerms} {x : RentState} {c : ℕ × Call}

/-- **What one call does to storage that lapses.** -/
theorem rentStep_spec (hwithin : terms.Within c.1 x.2) :
    (rentStep host terms x c).1.1 = step host x.1 c.2 ∧
      rentEffect host terms x c = c.2.action.effect (c.2.env host) x.1 ∧
      Tended terms State.stored c.1 (rentStep host terms x c).2 x (rentStep host terms x c).1 ∧
      (Uses host x.1 c.2 → x.1.policy.isSome → ∀ k ∈ Rented.livingKeys, x.1.stored k = true →
        .write k ∈ (rentStep host terms x c).2) := by
  obtain ⟨s, leases⟩ := x
  have hserves := @Rented.perform_serves host terms c.1 s c.2
  rw [step, rentStep, rentEffect]
  cases heff : c.2.action.effect (c.2.env host) s with
  | error a =>
    rw [heff] at hserves
    simp only [hserves.1 leases hwithin []]
    exact ⟨trivial, rfl, .refl hwithin, fun hyes => absurd hyes hserves.2⟩
  | ok effect =>
    obtain ⟨s', events⟩ := effect
    rw [heff] at hserves
    obtain ⟨r, keys, hends, herr, huses⟩ := hserves
    obtain ⟨leases', log, hdoes, htended, hkeys⟩ := hends leases hwithin
    simp only [hdoes.run]
    cases r with
    | ok u =>
      refine ⟨rfl, rfl, htended, fun hyes hpolicy k hk hstored => ?_⟩
      exact hkeys k ((huses hyes hpolicy).2 hk) hstored
    | error e =>
      obtain rfl := herr e rfl
      refine ⟨rfl, rfl, .refl hwithin, fun hyes hpolicy => ?_⟩
      cases (huses hyes hpolicy).1

end

/-- **A call that fails leaves nothing behind.** -/
theorem rentStep_rollsBack (hwithin : terms.Within c.1 x.2) (h : RollsBack host x.1 c.2) :
    rentStep host terms x c = (x, []) := by
  obtain ⟨s, leases⟩ := x
  rw [rentStep]
  rcases h with h | ⟨⟨entry, haction⟩, hnone⟩
  · have hserves := @Rented.perform_serves host terms c.1 s c.2
    cases heff : c.2.action.effect (c.2.env host) s with
    | error a =>
      rw [heff] at hserves
      simp only [hserves.1 leases hwithin []]
    | ok r => exact absurd ⟨r, heff⟩ h
  · simp only [haction, Rented.perform]
    cases hcheck : checkAuth (c.2.env host) s entry.signaturePayload entry.signature
        entry.contexts with
    | error a =>
      have hfails := @Rented.checkAuth_fails ⟨c.2.env host, terms, c.1⟩ s _ _ _ _ hcheck
      simp only [hfails leases hwithin []]
    | ok outcome =>
      obtain ⟨keys, hends, -⟩ :=
        @Rented.checkAuth_ends ⟨c.2.env host, terms, c.1⟩ s _ _ _ _ hcheck
      obtain ⟨leases', log, hdoes, -, -⟩ := hends leases hwithin
      simp only [approval, haction] at hnone
      rcases approvalOf_eq (c.2.env host) s entry with ⟨-, hrefused⟩ | ⟨_, _, -, -, -, -, hsome⟩
      · obtain ⟨e, he, -⟩ := hrefused outcome hcheck
        simp only [hdoes.run, he]
      · rw [hnone] at hsome
        cases hsome

namespace Rented

variable {env : RentEnv} {s : State} {leases : Leases DataKey}

theorem Ends.returns {α : Type} {m : Rented α} {a : α} {keys : List DataKey}
    (h : Ends env m s a s keys) (hwithin : env.terms.Within env.sequence leases) :
    Returns m (s, leases) a := by
  obtain ⟨leases', log, hdoes, -, -⟩ := h leases hwithin
  exact ⟨leases', log, hdoes⟩

theorem readsThrough (hwithin : env.terms.Within env.sequence leases) :
    ReadsThrough env (s, leases) where
  policy := Ends.returns readPolicy_ends hwithin
  policyHash := Ends.returns policyHash_ends hwithin
  dmsHealth := Ends.returns readDmsHealth_ends hwithin
  status := Ends.returns status_ends hwithin
  check asset dest amount := by
    obtain ⟨result, events, keys, heq, hends, -⟩ := @check_ends env s asset dest amount
    exact ⟨_, heq, Ends.returns hends hwithin⟩
  checkDetailed asset dest amount := by
    obtain ⟨detail, events, keys, heq, hends, -⟩ := @checkDetailed_ends env s asset dest amount
    exact ⟨_, heq, Ends.returns hends hwithin⟩
  checkBatch asset transfers := by
    obtain ⟨keys, hends, -⟩ := @checkBatch_ends env s asset transfers
    exact Ends.returns hends hwithin

end Rented

/-! ## Runs -/

section

variable {host : Host} {terms : LeaseTerms} {calls : List (ℕ × Call)} {i j : ℕ} {c : ℕ × Call}

theorem rentAt_succ (h : calls[i]? = some c) :
    rentAt host terms calls (i + 1) = (rentStep host terms (rentAt host terms calls i) c).1 :=
  pointAt_succ h

theorem rentAt_succ_of_none (h : calls[i]? = none) :
    rentAt host terms calls (i + 1) = rentAt host terms calls i := pointAt_succ_of_none h

/-- At every point no lease is longer than the longest. -/
theorem within_rentAt (htimed : Timed Prod.fst 0 calls) (h : calls[i]? = some c) :
    terms.Within c.1 (rentAt host terms calls i).2 := by
  induction i generalizing c with
  | zero => exact fun k => Nat.zero_le _
  | succ i ih =>
    have hlt : i < calls.length := by
      have := (List.getElem?_eq_some_iff.mp h).1
      omega
    have hi := List.getElem?_eq_getElem hlt
    have hstep := (@rentStep_spec host _ _ _ (ih hi)).2.2.1
    rw [rentAt_succ hi]
    exact hstep.within.mono terms (htimed.le_of_le (Nat.le_succ i) hi h)

theorem tended_rentAt (htimed : Timed Prod.fst 0 calls) (h : calls[i]? = some c) :
    Tended terms State.stored c.1 (rentStep host terms (rentAt host terms calls i) c).2
      (rentAt host terms calls i) (rentAt host terms calls (i + 1)) := by
  rw [rentAt_succ h]
  exact (rentStep_spec (within_rentAt htimed h)).2.2.1

/-- The values are those of the run without leases. -/
theorem fst_rentAt (htimed : Timed Prod.fst 0 calls) :
    ∀ i, (rentAt host terms calls i).1 = stateAt host (calls.map Prod.snd) i
  | 0 => rfl
  | i + 1 => by
    have ih := fst_rentAt htimed i
    cases hc : calls[i]? with
    | none =>
      have hc' : (calls.map Prod.snd)[i]? = none := by simp [hc]
      rw [rentAt_succ_of_none hc, stateAt, pointAt_succ_of_none hc']
      exact ih
    | some c =>
      have hc' : (calls.map Prod.snd)[i]? = some c.2 := by simp [hc]
      rw [rentAt_succ hc, (rentStep_spec (within_rentAt htimed hc)).1, ih, stateAt_succ hc']

/-- **A lapsed entry is never a missing one.**  In every run through ledgers that never go back, the
storage, what each call comes to and what the reads return are those of the run without leases; the
call tends the leases, and one that fails leaves them alone. -/
theorem leases_never_show (htimed : Timed Prod.fst 0 calls) (h : calls[i]? = some c) :
    let x := rentAt host terms calls i
    let s := stateAt host (calls.map Prod.snd) i
    x.1 = s ∧ rentEffect host terms x c = c.2.action.effect (c.2.env host) s ∧
      Rented.ReadsThrough ⟨c.2.env host, terms, c.1⟩ x ∧
      Tended terms State.stored c.1 (rentStep host terms x c).2 x
        (rentAt host terms calls (i + 1)) ∧
      (RollsBack host s c.2 → rentAt host terms calls (i + 1) = x) := by
  intro x s
  have hvalues : x.1 = s := fst_rentAt htimed i
  have hwithin : terms.Within c.1 x.2 := within_rentAt htimed h
  refine ⟨hvalues, hvalues ▸ (rentStep_spec hwithin).2.1, Rented.readsThrough hwithin,
    tended_rentAt htimed h, fun hback => ?_⟩
  rw [rentAt_succ h, rentStep_rollsBack hwithin (hvalues.symm ▸ hback)]

/-- **An account in use keeps its entries.**  After a call that used it, whatever is stored at a
later point lives on for half of the longest time, counted from that call. -/
theorem entries_outlive_use (htimed : Timed Prod.fst 0 calls) (hi : calls[i]? = some c)
    (huses : Uses host (stateAt host (calls.map Prod.snd) i) c.2)
    (hpolicy : (stateAt host (calls.map Prod.snd) i).policy.isSome) (hij : i < j) {k : DataKey}
    (hk : k ∈ Rented.livingKeys)
    (hstored : (stateAt host (calls.map Prod.snd) j).stored k = true) :
    c.1 + terms.maxTtl / 2 ≤ (rentAt host terms calls j).2 k := by
  rw [← @fst_rentAt host terms calls htimed] at huses hpolicy hstored
  have hlives : LivesOn terms State.stored c.1 k (rentAt host terms calls j) := by
    clear hstored
    induction j, hij using Nat.le_induction with
    | base =>
      have hkept := (rentStep_spec (within_rentAt htimed hi)).2.2.2 huses hpolicy k hk
      exact (tended_rentAt htimed hi).livesOn hkept
    | succ j hij ih =>
      cases hj : calls[j]? with
      | none => rwa [rentAt_succ_of_none hj]
      | some d =>
        have hlater := htimed.le_of_le (by omega) hi hj
        exact ih.step (tended_rentAt htimed hj) hlater
  exact hlives hstored

end

namespace Sample

/-- A network whose entries live for at most a hundred ledgers. -/
def shortTerms : LeaseTerms where
  maxTtl := 100
  fresh now := now + 4
  extend last now threshold target := if last ≤ now + threshold then now + target else last
  fresh_le now := by omega
  le_fresh now := by omega
  extend_due last now threshold target _ h := if_pos h.le
  extend_cases last now threshold target := by
    split
    · exact .inr rfl
    · exact .inl rfl

/-- An account set up, paid from and left alone for longer than its entries live. -/
def tenancy : List (ℕ × Call) :=
  [(10, call 1 (.initializeAccount admin (Vector.replicate 32 0))),
    (20, call 100 (.setPolicy capFifty)), (90, auth 101 [pay 5]), (250, call 900 .refreshDeadman)]

/-- The refresh comes after every lease ran out, and reads on as if none had. -/
theorem tenancy_reads_through : Rented.ReadsThrough
    ⟨(call 900 .refreshDeadman).env host, shortTerms, 250⟩ (rentAt host shortTerms tenancy 3) := by
  have htimed : Timed Prod.fst 0 tenancy := by
    simp only [Timed, tenancy]
    decide
  exact (@leases_never_show host shortTerms tenancy 3 (250, call 900 .refreshDeadman) htimed
    rfl).2.2.1

/-- The window entry the payment left is there until ledger `140` at least. -/
theorem tenancy_keeps_window : 140 ≤ (rentAt host shortTerms tenancy 3).2 .window := by
  have htimed : Timed Prod.fst 0 tenancy := by
    simp only [Timed, tenancy]
    decide
  have huses : Uses host (stateAt host (tenancy.map Prod.snd) 2) (auth 101 [pay 5]) :=
    ⟨by rfl, by simp [pay]⟩
  have hpolicy : (stateAt host (tenancy.map Prod.snd) 2).policy.isSome := by rfl
  have hstored : (stateAt host (tenancy.map Prod.snd) 3).stored .window = true := by rfl
  exact @entries_outlive_use host shortTerms tenancy 2 3 (90, auth 101 [pay 5]) htimed rfl huses
    hpolicy (by decide) .window (by decide) hstored

end Sample

end AgentGuard
