import AgentGuard.Contract.Invariant

/-!
# Contract/Events — the points of a run, and what the events of a call say

History properties are stated over the points of a run from deployment (`stateAt`).  `Attributed`
says once what the revisions and deadlines in the events of a call are; every entry point's events
satisfy it (`attributed_effect`).
-/

namespace AgentGuard

open Machinery

/-- The storage before the `i`-th call of a run of a freshly deployed account. -/
def stateAt (host : Host) (calls : List Call) (i : ℕ) : State :=
  pointAt (step host) State.empty calls i

/-- The call returns instead of aborting. -/
def Succeeds (host : Host) (s : State) (c : Call) : Prop :=
  ∃ r, c.action.effect (c.env host) s = .ok r

section

variable {host : Host} {calls : List Call} {i : ℕ} {s : State} {c : Call}

theorem stateAt_succ (h : calls[i]? = some c) :
    stateAt host calls (i + 1) = step host (stateAt host calls i) c := pointAt_succ h

theorem step_of_not_succeeds (h : ¬Succeeds host s c) : step host s c = s := by
  rw [step]
  split
  · rename_i s' events heff
    exact absurd ⟨_, heff⟩ h
  · rfl

theorem succeeds_setPolicy {admin : Address} {cfg : PolicyConfig}
    (haction : c.action = .setPolicy cfg) (hadmin : s.admin = some admin)
    (hauth : c.authorized admin = true) (hvalid : validateConfig host.self cfg = .ok ()) :
    Succeeds host s c := by
  simp [Succeeds, haction, Action.effect, setPolicy, adminOrPanic, hadmin, requireAuth, Call.env,
    hauth, hvalid]

theorem succeeds_unfreeze {admin : Address} (haction : c.action = .unfreeze)
    (hadmin : s.admin = some admin) (hauth : c.authorized admin = true) : Succeeds host s c := by
  simp [Succeeds, haction, Action.effect, unfreeze, adminOrPanic, hadmin, requireAuth, Call.env,
    hauth]

theorem map_eq_ok {α β : Type} {f : α → β} {x : Except Abort α} {b : β} (h : x.map f = .ok b) :
    ∃ a, x = .ok a ∧ f a = b := by
  cases x with
  | error a => simp [Except.map] at h
  | ok a => exact ⟨a, rfl, by simpa [Except.map] using h⟩

/-- What a call returns is what it leaves. -/
theorem pure_eq_ok {s' : State} {events events' : List Event}
    (h : (pure (s, events) : Effect) = .ok (s', events')) : s = s' ∧ events = events' :=
  Prod.mk.inj (Except.ok.inj h)

/-- A call that asks for an authorization returns only with it. -/
theorem requireAuth_bind_ok {α : Type} {env : Env} {a : Address} {k : Unit → Except Abort α} {r : α}
    (h : (requireAuth env a >>= k) = .ok r) : env.authorized a = true ∧ k () = .ok r := by
  by_cases hauth : env.authorized a = true
  · exact ⟨hauth, by simpa [requireAuth, hauth, bind, Except.bind] using h⟩
  · simp [requireAuth, hauth, bind, Except.bind] at h

/-- A call that asks for the admin returns only with the stored admin's authorization. -/
theorem adminOrPanic_bind_ok {env : Env} {k : Address → Effect} {r : State × List Event}
    (h : (adminOrPanic env s >>= k) = .ok r) :
    ∃ admin, s.admin = some admin ∧ env.authorized admin = true ∧ k admin = .ok r := by
  cases hadmin : s.admin with
  | none => simp [adminOrPanic, hadmin, bind, Except.bind] at h
  | some admin =>
    simp only [adminOrPanic, hadmin, bind_assoc] at h
    obtain ⟨hauth, hk⟩ := requireAuth_bind_ok h
    exact ⟨admin, rfl, hauth, hk⟩

theorem step_of_ok {s' : State} {events : List Event}
    (h : c.action.effect (c.env host) s = .ok (s', events)) : step host s c = s' := by
  rw [step, h]

/-- No call undoes the initialization. -/
theorem step_initialized (h : s.initialized = some true) :
    (step host s c).initialized = some true := by
  have heff := stepEffect host s c
  generalize step host s c = s', approval host s c = a at heff
  cases heff with
  | initialized admin key haction hfresh => simp [h] at hfresh
  | policySet => simpa [installPolicy_eq] using h
  | approved => simpa using h
  | heartbeat => simpa [recordHeartbeat_eq] using h
  | _ => exact h

end

/-- The revision a policy event carries. -/
def Event.policyRevision? : Event → Option U64
  | .policySet _ revision | .policyRevoked _ revision | .paused _ revision
  | .resumed _ revision => some revision
  | _ => none

/-- The revision a decision event carries. -/
def Event.authRevision? : Event → Option U64
  | .authChecked _ _ _ _ _ revision => some revision
  | _ => none

/-- The time and the deadline of a heartbeat event. -/
def Event.beat? : Event → Option (U64 × U64)
  | .heartbeat time expiresAt => some (time, expiresAt)
  | _ => none

/-! ## Policy calls -/

section

variable {s s' : State} {env : Env} {events : List Event}

/-- A `set_policy` that returns bumps the counter and reports it. -/
theorem setPolicy_ok {cfg : PolicyConfig} (h : setPolicy env s cfg = .ok (s', events)) :
    s'.currentRevision = s.incrementRevision.currentRevision ∧
      ∃ admin, events = [.policySet admin s'.currentRevision] := by
  obtain ⟨admin, -, -, hbody⟩ := adminOrPanic_bind_ok h
  split at hbody
  · simp at hbody
  · obtain ⟨rfl, rfl⟩ := pure_eq_ok hbody
    refine ⟨?_, admin, rfl⟩
    rw [installPolicy_eq]
    rfl

/-- So does a `revoke_policy`. -/
theorem revokePolicy_ok (h : revokePolicy env s = .ok (s', events)) :
    s'.currentRevision = s.incrementRevision.currentRevision ∧
      ∃ admin, events = [.policyRevoked admin s'.currentRevision] := by
  obtain ⟨admin, -, -, hbody⟩ := adminOrPanic_bind_ok h
  obtain ⟨rfl, rfl⟩ := pure_eq_ok hbody
  exact ⟨rfl, admin, rfl⟩

/-- `pause` and `resume` bump the counter when they flip the flag, and report it either way. -/
theorem setPaused_ok {paused : Bool} (h : setPaused env s paused = .ok (s', events)) :
    (s.policy.map PolicyConfig.paused = some (!paused) →
        s'.currentRevision = s.incrementRevision.currentRevision) ∧
      ∃ admin, events = [if paused then .paused admin s'.currentRevision
        else .resumed admin s'.currentRevision] := by
  obtain ⟨admin, -, -, hbody⟩ := adminOrPanic_bind_ok h
  cases hpolicy : s.policy with
  | none => simp [hpolicy] at hbody
  | some cfg =>
    simp only [hpolicy, pure, Except.pure, Except.ok.injEq, Prod.mk.injEq] at hbody
    obtain ⟨rfl, rfl⟩ := hbody
    refine ⟨fun hflip => ?_, admin, rfl⟩
    have hne : cfg.paused ≠ paused := by
      have : cfg.paused = !paused := by simpa using hflip
      simp [this]
    rw [if_pos hne]
    rfl

end

/-! ## What the events of a call say -/

/-- **What the data in an event is**, when a call takes `s` to `s'`: a policy event carries the
counter the call left, a decision event the counter of the storage it was decided on, a heartbeat
event the clock it set and the deadline under the installed policy. -/
structure Event.Attributed (env : Env) (s s' : State) (e : Event) : Prop where
  policy : ∀ revision, e.policyRevision? = some revision → revision = s'.currentRevision
  auth : ∀ revision, e.authRevision? = some revision → revision = s.currentRevision
  beat : ∀ time expiresAt, e.beat? = some (time, expiresAt) →
    time = env.timestamp ∧ s'.lastHeartbeat = some time ∧ ∃ cfg, s.policy = some cfg ∧
      expiresAt = if cfg.dmsGraceSecs.val = 0 then 0 else time.saturatingAdd cfg.dmsGraceSecs

section

variable {s s' : State} {env : Env} {contexts : List Context} {events : List Event}

theorem attributed_emitAuth (allowed : Bool) (reason : Option Error) (ctx : Option Context)
    (i : ℕ) : (emitAuth s allowed reason ctx i).Attributed env s s' where
  policy revision h := by simp [emitAuth, Event.policyRevision?] at h
  auth revision h := by simpa [emitAuth, Event.authRevision?, eq_comm] using h
  beat time expiresAt h := by simp [emitAuth, Event.beat?] at h

theorem attributed_emitVerdict (i : ℕ) (verdict : Decision) :
    (emitVerdict s contexts i verdict).Attributed env s s' := by
  cases verdict with
  | allowed => exact attributed_emitAuth _ _ _ _
  | blocked e => exact attributed_emitAuth _ _ _ _

theorem attributed_emitBlocked (e : Error) :
    ∀ event ∈ emitBlocked s e contexts, event.Attributed env s s' := by
  intro event h
  obtain ⟨i, hi, rfl⟩ := List.mem_mapIdx.mp h
  exact attributed_emitAuth _ _ _ _

theorem attributed_verdicts (verdicts : List Decision) :
    ∀ event ∈ verdicts.mapIdx (emitVerdict s contexts), event.Attributed env s s' := by
  intro event h
  obtain ⟨i, hi, rfl⟩ := List.mem_mapIdx.mp h
  exact attributed_emitVerdict _ _

/-- An event without a revision or a deadline has nothing to attribute. -/
theorem attributed_of_none {e : Event} (hpolicy : e.policyRevision? = none)
    (hauth : e.authRevision? = none) (hbeat : e.beat? = none) : e.Attributed env s s' where
  policy revision h := by simp [hpolicy] at h
  auth revision h := by simp [hauth] at h
  beat time expiresAt h := by simp [hbeat] at h

/-- An event that carries the counter the call left is a policy event. -/
theorem attributed_of_policy {e : Event} (hpolicy : e.policyRevision? = some s'.currentRevision)
    (hauth : e.authRevision? = none) (hbeat : e.beat? = none) : e.Attributed env s s' where
  policy revision h := Option.some.inj (h.symm.trans hpolicy)
  auth revision h := by simp [hauth] at h
  beat time expiresAt h := by simp [hbeat] at h

theorem attributed_merges (merges : List WindowMerge) :
    ∀ event ∈ merges.map emitWindowMerge, event.Attributed env s s' := by
  intro event h
  obtain ⟨merge, -, rfl⟩ := List.mem_map.mp h
  exact attributed_of_none rfl rfl rfl

/-- **Every event of `__check_auth`** is a decision under the storage it ran on, or telemetry. -/
theorem attributed_checkAuth {signaturePayload signature : List UInt8} {outcome : AuthOutcome}
    (h : checkAuth env s signaturePayload signature contexts = .ok outcome) :
    ∀ event ∈ outcome.events, event.Attributed env s s' := by
  cases checkAuth_returns h with
  | uninitialized => exact attributed_emitBlocked _
  | noPolicy => exact attributed_emitBlocked _
  | approved =>
    intro event hevent
    rcases List.mem_append.mp hevent with hevent | hevent
    · exact attributed_verdicts _ event hevent
    · exact attributed_merges _ event hevent
  | refused => exact attributed_verdicts _

/-- **A heartbeat event** carries the clock it set, and the deadline under the policy. -/
theorem attributed_recordHeartbeat {x : State} {cfg : PolicyConfig} (hx : x.policy = s.policy)
    (hcfg : s.policy = some cfg) :
    ∀ event ∈ (recordHeartbeat x env.timestamp).2,
      event.Attributed env s (recordHeartbeat x env.timestamp).1 := by
  intro event h
  by_cases hsame : env.timestamp = x.heartbeatOrZero
  · simp [recordHeartbeat, hsame] at h
  · simp only [recordHeartbeat, if_neg hsame, List.mem_singleton] at h ⊢
    subst h
    refine ⟨by simp [Event.policyRevision?], by simp [Event.authRevision?], ?_⟩
    intro time expiresAt hbeat
    simp only [Event.beat?, Option.some.injEq, Prod.mk.injEq] at hbeat
    obtain ⟨rfl, rfl⟩ := hbeat
    refine ⟨rfl, rfl, cfg, hcfg, ?_⟩
    rw [hx, hcfg, Option.map_some, Option.getD_some]

/-- **A heartbeat that returns** was approved, and records the clock on what the approval left. -/
theorem heartbeat_ok {entry : AuthEntry} (h : heartbeat env s entry = .ok (s', events)) :
    ∃ outcome, checkAuth env s entry.signaturePayload entry.signature entry.contexts = .ok outcome ∧
      outcome.result = .ok () ∧ s' = (recordHeartbeat outcome.state env.timestamp).1 ∧
      events = outcome.events ++ (recordHeartbeat outcome.state env.timestamp).2 := by
  rw [heartbeat] at h
  split_ifs at h
  cases hcheck : checkAuth env s entry.signaturePayload entry.signature entry.contexts with
  | error a => simp [hcheck, bind, Except.bind] at h
  | ok outcome =>
    cases hres : outcome.result with
    | error e => simp [hcheck, bind, Except.bind, hres] at h
    | ok u =>
      simp only [hcheck, bind, Except.bind, hres, pure, Except.pure, Except.ok.injEq,
        Prod.mk.injEq] at h
      exact ⟨outcome, rfl, hres, h.1.symm, h.2.symm⟩

theorem attributed_heartbeat {entry : AuthEntry} (h : heartbeat env s entry = .ok (s', events)) :
    ∀ event ∈ events, event.Attributed env s s' := by
  obtain ⟨outcome, hcheck, hres, rfl, rfl⟩ := heartbeat_ok h
  intro event hevent
  rcases List.mem_append.mp hevent with hevent | hevent
  · exact attributed_checkAuth hcheck event hevent
  · obtain ⟨cfg, hgrants, hstate⟩ := checkAuth_ok hcheck hres
    exact attributed_recordHeartbeat (by rw [hstate, admitted_policy]) hgrants.policy event hevent

theorem attributed_checkDetailed {asset dest : Address} {amount : I128} {detail : CheckDetail}
    (h : checkDetailed env s asset dest amount = .ok (detail, events)) :
    ∀ event ∈ events, event.Attributed env s s' := by
  rw [checkDetailed] at h
  split at h
  · simp only [Except.ok.injEq, Prod.mk.injEq] at h
    obtain ⟨-, rfl⟩ := h
    simp [attributed_emitAuth]
  · dsimp only at h
    split at h
    · simp at h
    · simp only [Except.ok.injEq, Prod.mk.injEq] at h
      obtain ⟨-, rfl⟩ := h
      simp [attributed_emitVerdict]

theorem attributed_checkBatch (asset : Address) (transfers : List BatchTransfer) :
    ∀ event ∈ (checkBatch env s asset transfers).2, event.Attributed env s s' := by
  rw [checkBatch]
  split
  · exact attributed_emitBlocked _
  · exact attributed_verdicts _

/-- A single event without a revision, on behalf of the admin. -/
theorem attributed_asAdmin {k : Address → Effect}
    (h : (adminOrPanic env s >>= k) = .ok (s', events))
    (hk : ∀ admin, k admin = .ok (s', events) →
      ∃ e, events = [e] ∧ e.policyRevision? = none ∧ e.authRevision? = none ∧ e.beat? = none) :
    ∀ event ∈ events, event.Attributed env s s' := by
  obtain ⟨admin, -, -, hbody⟩ := adminOrPanic_bind_ok h
  obtain ⟨e, rfl, hpolicy, hauth, hbeat⟩ := hk admin hbody
  simpa using attributed_of_none hpolicy hauth hbeat

/-- **Every event of every entry point carries the right revision.** -/
theorem attributed_effect {action : Action} (h : action.effect env s = .ok (s', events)) :
    ∀ event ∈ events, event.Attributed env s s' := by
  cases action with
  | setPolicy cfg =>
    obtain ⟨-, admin, rfl⟩ := setPolicy_ok h
    simpa using attributed_of_policy rfl rfl rfl
  | revokePolicy =>
    obtain ⟨-, admin, rfl⟩ := revokePolicy_ok h
    simpa using attributed_of_policy rfl rfl rfl
  | pause =>
    obtain ⟨-, admin, rfl⟩ := setPaused_ok h
    simpa using attributed_of_policy rfl rfl rfl
  | resume =>
    obtain ⟨-, admin, rfl⟩ := setPaused_ok h
    simpa using attributed_of_policy rfl rfl rfl
  | initializeAccount admin key =>
    rw [Action.effect, initializeAccount] at h
    split_ifs at h
    obtain ⟨-, hbody⟩ := requireAuth_bind_ok h
    obtain ⟨-, rfl⟩ := pure_eq_ok hbody
    simpa using attributed_of_none rfl rfl rfl
  | confirmAdminRotation =>
    rw [Action.effect, confirmAdminRotation] at h
    split at h
    · simp at h
    · split at h
      · simp at h
      · obtain ⟨-, hbody⟩ := requireAuth_bind_ok h
        obtain ⟨-, rfl⟩ := pure_eq_ok hbody
        simpa using attributed_of_none rfl rfl rfl
  | resetWindow | freeze | unfreeze =>
    refine attributed_asAdmin h fun admin hbody => ?_
    exact ⟨_, (pure_eq_ok hbody).2.symm, rfl, rfl, rfl⟩
  | rotateAgentKey key =>
    refine attributed_asAdmin h fun admin hbody => ?_
    split at hbody
    · simp at hbody
    · exact ⟨_, (pure_eq_ok hbody).2.symm, rfl, rfl, rfl⟩
  | proposeAdminRotation newAdmin =>
    refine attributed_asAdmin h fun admin hbody => ?_
    split_ifs at hbody
    exact ⟨_, (pure_eq_ok hbody).2.symm, rfl, rfl, rfl⟩
  | cancelAdminRotation =>
    refine attributed_asAdmin h fun admin hbody => ?_
    split at hbody
    · simp at hbody
    · exact ⟨_, (pure_eq_ok hbody).2.symm, rfl, rfl, rfl⟩
  | refreshDeadman =>
    rw [Action.effect, refreshDeadman] at h
    split_ifs at h
    all_goals
      simp only [Except.ok.injEq, Prod.mk.injEq] at h
      obtain ⟨-, rfl⟩ := h
    · simpa using attributed_of_none rfl rfl rfl
    · simp
    · simp
  | heartbeat entry => exact attributed_heartbeat h
  | check asset dest amount =>
    obtain ⟨r, hcheck, hr⟩ := map_eq_ok h
    obtain ⟨r', hdetailed, rfl⟩ := map_eq_ok hcheck
    exact (Prod.mk.inj hr).2 ▸ attributed_checkDetailed hdetailed
  | checkDetailed asset dest amount =>
    obtain ⟨r, hcheck, hr⟩ := map_eq_ok h
    exact (Prod.mk.inj hr).2 ▸ attributed_checkDetailed hcheck
  | checkBatch asset transfers =>
    simp only [Action.effect, Except.ok.injEq, Prod.mk.injEq] at h
    exact h.2 ▸ attributed_checkBatch asset transfers
  | checkAuth entry =>
    obtain ⟨outcome, hcheck, hr⟩ := map_eq_ok h
    exact (Prod.mk.inj hr).2 ▸ attributed_checkAuth hcheck
  | readPolicy | policyHash | validatePolicy | dmsHealth | status =>
    simp only [Action.effect, Except.ok.injEq, Prod.mk.injEq] at h
    exact h.2 ▸ by simp

end

end AgentGuard
