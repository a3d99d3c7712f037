import AgentGuard.Contract.Events
import AgentGuard.Machinery.Replay

/-!
# Contract/Replay — the account rebuilt from its events

What an indexer can know without reading the storage.  A `Mirror` folds the events of a run, each
with the time of its ledger; it always agrees with the storage on who administers the account, on
every gate and on the revision (`replay_follows`).  Of the policy it knows that one is installed,
and its pause flag from the last event that reports it; of the agent key, its fingerprint from the
first rotation on.
-/

namespace AgentGuard

open Machinery

/-- What the events of an account tell. -/
structure Mirror where
  initialized : Bool
  admin : Option Address
  pendingAdmin : Option Address
  hasPolicy : Bool
  /-- The pause flag, while it is known. -/
  paused : Option Bool
  revision : U64
  adminFrozen : Bool
  lastHeartbeat : U64
  autoFrozenAt : Option U64
  /-- The fingerprint of the agent key, once it is known. -/
  agentFingerprint : Option (List UInt8)

namespace Mirror

/-- The mirror of a freshly deployed account. -/
def empty : Mirror := ⟨false, none, none, false, none, 0, false, 0, none, none⟩

/-- What one event changes, at the time of its ledger. -/
def apply (m : Mirror) (e : U64 × Event) : Mirror :=
  match e.2 with
  | .initialized by' =>
    { m with initialized := true, admin := some by', adminFrozen := false, lastHeartbeat := 0
             agentFingerprint := none }
  | .policySet _ revision =>
    { m with hasPolicy := true, paused := none, revision
             lastHeartbeat := if m.hasPolicy then m.lastHeartbeat else e.1 }
  | .policyRevoked _ revision => { m with hasPolicy := false, paused := none, revision }
  | .paused _ revision => { m with paused := some true, revision }
  | .resumed _ revision => { m with paused := some false, revision }
  | .frozen _ => { m with adminFrozen := true }
  | .unfrozen _ _ => { m with adminFrozen := false, lastHeartbeat := e.1 }
  | .heartbeat time _ => { m with lastHeartbeat := time }
  | .dmsAutoFrozen time => { m with autoFrozenAt := some time }
  | .agentRotated _ _ newFingerprint => { m with agentFingerprint := some newFingerprint }
  | .adminRotationProposed _ proposed => { m with pendingAdmin := some proposed }
  | .adminRotated _ new => { m with admin := some new, pendingAdmin := none }
  | .adminRotationCancelled _ _ => { m with pendingAdmin := none }
  | .authChecked .. | .windowReset _ | .windowMerged .. => m

/-- **The mirror agrees with the storage**, wherever it claims to know. -/
structure Matches (host : Host) (m : Mirror) (s : State) : Prop where
  initialized : m.initialized = s.initialized.getD false
  admin : m.admin = s.admin
  pendingAdmin : m.pendingAdmin = s.pendingAdmin
  hasPolicy : m.hasPolicy = s.policy.isSome
  paused : ∀ b, m.paused = some b → s.policy.map PolicyConfig.paused = some b
  revision : m.revision = s.currentRevision
  adminFrozen : m.adminFrozen = s.frozenOrFalse
  lastHeartbeat : m.lastHeartbeat = s.heartbeatOrZero
  autoFrozenAt : m.autoFrozenAt = s.autoFrozenAt
  agentFingerprint : ∀ f, m.agentFingerprint = some f →
    s.agentPubkey.map (keyFingerprint host) = some f

end Mirror

/-- The events a call emits, each with the time of its ledger; an aborted call emits none. -/
def stamped (host : Host) (s : State) (c : Call) : List (U64 × Event) :=
  match c.action.effect (c.env host) s with
  | .ok (_, events) => events.map (c.timestamp, ·)
  | .error _ => []

/-- The mirror of a log. -/
def replay (log : List (U64 × Event)) : Mirror := log.foldl Mirror.apply Mirror.empty

/-- An event a mirror does not look at. -/
def Event.isTelemetry : Event → Bool
  | .authChecked .. | .windowReset _ | .windowMerged .. => true
  | _ => false

section

variable {host : Host} {s s' : State} {env : Env} {events : List Event} {m : Mirror}

/-- What is not known is not wrong. -/
theorem unknown {β : Type} {P : β → Prop} : ∀ b, none = some b → P b := by
  rintro b ⟨⟩

theorem Mirror.apply_of_isTelemetry {e : Event} (h : e.isTelemetry = true) (t : U64) (m : Mirror) :
    m.apply (t, e) = m := by
  cases e <;> first | rfl | cases h

/-- Telemetry changes nothing in the mirror. -/
theorem foldl_telemetry (h : ∀ e ∈ events, e.isTelemetry = true) (t : U64) (m : Mirror) :
    (events.map (t, ·)).foldl Mirror.apply m = m := by
  refine foldl_ignored (fun e he m => ?_) m
  obtain ⟨e, hmem, rfl⟩ := List.mem_map.mp he
  exact Mirror.apply_of_isTelemetry (h e hmem) t m

theorem isTelemetry_emitBlocked (s : State) (e : Error) (contexts : List Context) :
    ∀ event ∈ emitBlocked s e contexts, event.isTelemetry = true := by
  intro event h
  obtain ⟨i, hi, rfl⟩ := List.mem_mapIdx.mp h
  rfl

theorem isTelemetry_verdicts (s : State) (contexts : List Context) (verdicts : List Decision) :
    ∀ event ∈ verdicts.mapIdx (emitVerdict s contexts), event.isTelemetry = true := by
  intro event h
  obtain ⟨i, hi, rfl⟩ := List.mem_mapIdx.mp h
  cases verdicts[i] <;> rfl

/-- Everything `__check_auth` emits is telemetry. -/
theorem isTelemetry_checkAuth {signaturePayload signature : List UInt8} {contexts : List Context}
    {outcome : AuthOutcome}
    (h : checkAuth env s signaturePayload signature contexts = .ok outcome) :
    ∀ event ∈ outcome.events, event.isTelemetry = true := by
  cases checkAuth_returns h with
  | uninitialized => exact isTelemetry_emitBlocked s _ _
  | noPolicy => exact isTelemetry_emitBlocked s _ _
  | approved =>
    intro event hevent
    rcases List.mem_append.mp hevent with hevent | hevent
    · exact isTelemetry_verdicts s _ _ event hevent
    · obtain ⟨merge, -, rfl⟩ := List.mem_map.mp hevent
      rfl
  | refused => exact isTelemetry_verdicts s _ _

theorem isTelemetry_checkDetailed {asset dest : Address} {amount : I128} {detail : CheckDetail}
    (h : checkDetailed env s asset dest amount = .ok (detail, events)) :
    ∀ event ∈ events, event.isTelemetry = true := by
  rw [checkDetailed] at h
  split at h
  · obtain ⟨-, rfl⟩ := Prod.mk.inj (Except.ok.inj h)
    simp [emitAuth, Event.isTelemetry]
  · dsimp only at h
    split at h
    · simp at h
    · rename_i verdict _ _
      obtain ⟨-, rfl⟩ := Prod.mk.inj (Except.ok.inj h)
      cases verdict <;> simp [emitVerdict, emitAuth, Event.isTelemetry]

theorem isTelemetry_checkBatch (asset : Address) (transfers : List BatchTransfer) :
    ∀ event ∈ (checkBatch env s asset transfers).2, event.isTelemetry = true := by
  rw [checkBatch]
  split
  · exact isTelemetry_emitBlocked s _ _
  · exact isTelemetry_verdicts s _ _

/-- What an approval leaves matches what was there before. -/
theorem Mirror.Matches.admitted (h : m.Matches host s) (env : Env) (contexts : List Context) :
    m.Matches host (s.admitted env contexts) := by
  rw [admitted_eq]
  exact ⟨h.initialized, h.admin, h.pendingAdmin, h.hasPolicy, h.paused, h.revision, h.adminFrozen,
    h.lastHeartbeat, h.autoFrozenAt, h.agentFingerprint⟩

/-- What an authorization leaves matches what was there before, whatever the answer. -/
theorem Mirror.Matches.checkAuth {signaturePayload signature : List UInt8}
    {contexts : List Context} {outcome : AuthOutcome} (h : m.Matches host s)
    (hcheck : checkAuth env s signaturePayload signature contexts = .ok outcome) :
    m.Matches host outcome.state := by
  rcases checkAuth_cases hcheck with ⟨-, -, hstate⟩ | ⟨_, cfg, -, -, -, -, hstate⟩
  · rw [hstate]
    exact h
  · rw [hstate]
    exact h.admitted env contexts

/-- **A recorded heartbeat** moves the clock in the storage and in the mirror. -/
theorem Mirror.Matches.recordHeartbeat (h : m.Matches host s) (t now : U64) :
    Mirror.Matches host (((recordHeartbeat s now).2.map (t, ·)).foldl Mirror.apply m)
      (recordHeartbeat s now).1 := by
  rw [AgentGuard.recordHeartbeat]
  split_ifs with hsame
  · exact h
  · exact ⟨h.initialized, h.admin, h.pendingAdmin, h.hasPolicy, h.paused, h.revision, h.adminFrozen,
      rfl, h.autoFrozenAt, h.agentFingerprint⟩

/-- An install, with its event. -/
theorem Mirror.Matches.installPolicy (h : m.Matches host s) (admin : Address) (cfg : PolicyConfig)
    (now : U64) :
    (m.apply (now, .policySet admin (installPolicy s cfg now).currentRevision)).Matches host
      (installPolicy s cfg now) := by
  rw [installPolicy_eq]
  refine ⟨h.initialized, h.admin, h.pendingAdmin, rfl, unknown, rfl, h.adminFrozen, ?_,
    h.autoFrozenAt, h.agentFingerprint⟩
  cases hpolicy : s.policy with
  | none =>
    have hnone : m.hasPolicy = false := by rw [h.hasPolicy, hpolicy]; rfl
    simp [Mirror.apply, hnone, State.heartbeatOrZero]
  | some old =>
    have hsome : m.hasPolicy = true := by rw [h.hasPolicy, hpolicy]; rfl
    simpa [Mirror.apply, hsome, State.heartbeatOrZero] using h.lastHeartbeat

/-- What `pause` and `resume` leave: the flag, and perhaps a revision. -/
theorem setPaused_state {paused : Bool} (heff : setPaused env s paused = .ok (s', events)) :
    s'.policy.map PolicyConfig.paused = some paused ∧
      s' = { s with policy := s'.policy, policyRevision := s'.policyRevision } := by
  obtain ⟨admin, -, -, hbody⟩ := adminOrPanic_bind_ok heff
  cases hpolicy : s.policy with
  | none => simp [hpolicy] at hbody
  | some cfg =>
    simp only [hpolicy] at hbody
    obtain ⟨rfl, -⟩ := pure_eq_ok hbody
    by_cases hflip : cfg.paused ≠ paused
    · rw [if_pos hflip]
      exact ⟨rfl, rfl⟩
    · rw [if_neg hflip, hpolicy, ← not_not.mp hflip]
      exact ⟨rfl, by rw [← hpolicy]⟩

/-- `pause` and `resume`, with their events. -/
theorem Mirror.Matches.setPaused (h : m.Matches host s) {paused : Bool}
    (heff : setPaused env s paused = .ok (s', events)) :
    ((events.map (env.timestamp, ·)).foldl Mirror.apply m).Matches host s' := by
  obtain ⟨-, admin, rfl⟩ := setPaused_ok heff
  obtain ⟨hpaused, hstate⟩ := setPaused_state heff
  obtain ⟨admin', -, -, hbody⟩ := adminOrPanic_bind_ok heff
  have hhas : m.hasPolicy = s'.policy.isSome := by
    rw [h.hasPolicy, ← Option.isSome_map (f := PolicyConfig.paused) (x := s'.policy), hpaused]
    cases hpolicy : s.policy with
    | none => simp [hpolicy] at hbody
    | some cfg => rfl
  generalize hrevision : s'.currentRevision = revision
  rw [hstate]
  cases paused with
  | true =>
    exact ⟨h.initialized, h.admin, h.pendingAdmin, hhas, fun b hb => hpaused.trans hb,
      hrevision.symm, h.adminFrozen, h.lastHeartbeat, h.autoFrozenAt, h.agentFingerprint⟩
  | false =>
    exact ⟨h.initialized, h.admin, h.pendingAdmin, hhas, fun b hb => hpaused.trans hb,
      hrevision.symm, h.adminFrozen, h.lastHeartbeat, h.autoFrozenAt, h.agentFingerprint⟩

/-- **One call's events take a matching mirror to a matching mirror.** -/
theorem Mirror.Matches.effect (h : m.Matches env.host s) {action : Action}
    (heff : action.effect env s = .ok (s', events)) :
    ((events.map (env.timestamp, ·)).foldl Mirror.apply m).Matches env.host s' := by
  cases action with
  | initializeAccount admin key =>
    rw [Action.effect, AgentGuard.initializeAccount] at heff
    split_ifs at heff
    obtain ⟨-, hbody⟩ := requireAuth_bind_ok heff
    obtain ⟨rfl, rfl⟩ := pure_eq_ok hbody
    exact ⟨rfl, rfl, h.pendingAdmin, h.hasPolicy, h.paused, h.revision, rfl, rfl, h.autoFrozenAt,
      unknown⟩
  | setPolicy cfg =>
    obtain ⟨admin, -, -, hbody⟩ := adminOrPanic_bind_ok heff
    split at hbody
    · simp at hbody
    · obtain ⟨rfl, rfl⟩ := pure_eq_ok hbody
      exact h.installPolicy admin cfg env.timestamp
  | pause => exact h.setPaused heff
  | resume => exact h.setPaused heff
  | revokePolicy =>
    obtain ⟨admin, -, -, hbody⟩ := adminOrPanic_bind_ok heff
    obtain ⟨rfl, rfl⟩ := pure_eq_ok hbody
    exact ⟨h.initialized, h.admin, h.pendingAdmin, rfl, unknown, rfl, h.adminFrozen,
      h.lastHeartbeat, h.autoFrozenAt, h.agentFingerprint⟩
  | resetWindow =>
    obtain ⟨admin, -, -, hbody⟩ := adminOrPanic_bind_ok heff
    obtain ⟨rfl, rfl⟩ := pure_eq_ok hbody
    exact ⟨h.initialized, h.admin, h.pendingAdmin, h.hasPolicy, h.paused, h.revision,
      h.adminFrozen, h.lastHeartbeat, h.autoFrozenAt, h.agentFingerprint⟩
  | rotateAgentKey key =>
    obtain ⟨admin, -, -, hbody⟩ := adminOrPanic_bind_ok heff
    cases hkey : s.agentPubkey with
    | none => simp [hkey] at hbody
    | some old =>
      simp only [hkey] at hbody
      obtain ⟨rfl, rfl⟩ := pure_eq_ok hbody
      exact ⟨h.initialized, h.admin, h.pendingAdmin, h.hasPolicy, h.paused, h.revision,
        h.adminFrozen, h.lastHeartbeat, h.autoFrozenAt, fun f hf => hf⟩
  | proposeAdminRotation newAdmin =>
    obtain ⟨admin, -, -, hbody⟩ := adminOrPanic_bind_ok heff
    split_ifs at hbody
    obtain ⟨rfl, rfl⟩ := pure_eq_ok hbody
    exact ⟨h.initialized, h.admin, rfl, h.hasPolicy, h.paused, h.revision, h.adminFrozen,
      h.lastHeartbeat, h.autoFrozenAt, h.agentFingerprint⟩
  | confirmAdminRotation =>
    rw [Action.effect, AgentGuard.confirmAdminRotation] at heff
    split at heff
    · simp at heff
    · split at heff
      · simp at heff
      · obtain ⟨-, hbody⟩ := requireAuth_bind_ok heff
        obtain ⟨rfl, rfl⟩ := pure_eq_ok hbody
        exact ⟨h.initialized, rfl, rfl, h.hasPolicy, h.paused, h.revision, h.adminFrozen,
          h.lastHeartbeat, h.autoFrozenAt, h.agentFingerprint⟩
  | cancelAdminRotation =>
    obtain ⟨admin, -, -, hbody⟩ := adminOrPanic_bind_ok heff
    split at hbody
    · simp at hbody
    · obtain ⟨rfl, rfl⟩ := pure_eq_ok hbody
      exact ⟨h.initialized, h.admin, rfl, h.hasPolicy, h.paused, h.revision, h.adminFrozen,
        h.lastHeartbeat, h.autoFrozenAt, h.agentFingerprint⟩
  | heartbeat entry =>
    obtain ⟨outcome, hcheck, -, rfl, rfl⟩ := heartbeat_ok heff
    rw [List.map_append, List.foldl_append, foldl_telemetry (isTelemetry_checkAuth hcheck)]
    exact (h.checkAuth hcheck).recordHeartbeat env.timestamp env.timestamp
  | freeze =>
    obtain ⟨admin, -, -, hbody⟩ := adminOrPanic_bind_ok heff
    obtain ⟨rfl, rfl⟩ := pure_eq_ok hbody
    exact ⟨h.initialized, h.admin, h.pendingAdmin, h.hasPolicy, h.paused, h.revision, rfl,
      h.lastHeartbeat, h.autoFrozenAt, h.agentFingerprint⟩
  | refreshDeadman =>
    simp only [Action.effect, AgentGuard.refreshDeadman] at heff
    split_ifs at heff
    · obtain ⟨rfl, rfl⟩ := pure_eq_ok heff
      exact ⟨h.initialized, h.admin, h.pendingAdmin, h.hasPolicy, h.paused, h.revision,
        h.adminFrozen, h.lastHeartbeat, rfl, h.agentFingerprint⟩
    · obtain ⟨rfl, rfl⟩ := pure_eq_ok heff
      exact h
    · obtain ⟨rfl, rfl⟩ := pure_eq_ok heff
      exact h
  | unfreeze =>
    obtain ⟨admin, -, -, hbody⟩ := adminOrPanic_bind_ok heff
    obtain ⟨rfl, rfl⟩ := pure_eq_ok hbody
    exact ⟨h.initialized, h.admin, h.pendingAdmin, h.hasPolicy, h.paused, h.revision, rfl, rfl,
      h.autoFrozenAt, h.agentFingerprint⟩
  | readPolicy | policyHash | validatePolicy | dmsHealth | status =>
    obtain ⟨rfl, rfl⟩ := pure_eq_ok heff
    exact h
  | check asset dest amount =>
    obtain ⟨⟨result, events'⟩, hcheck, heq⟩ := map_eq_ok heff
    obtain ⟨rfl, rfl⟩ := Prod.mk.inj heq
    obtain ⟨⟨detail, events''⟩, hdetail, heq'⟩ := map_eq_ok hcheck
    obtain ⟨-, rfl⟩ := Prod.mk.inj heq'
    rw [foldl_telemetry (isTelemetry_checkDetailed hdetail)]
    exact h
  | checkDetailed asset dest amount =>
    obtain ⟨⟨detail, events'⟩, hdetail, heq⟩ := map_eq_ok heff
    obtain ⟨rfl, rfl⟩ := Prod.mk.inj heq
    rw [foldl_telemetry (isTelemetry_checkDetailed hdetail)]
    exact h
  | checkBatch asset transfers =>
    obtain ⟨rfl, rfl⟩ := pure_eq_ok heff
    rw [foldl_telemetry (isTelemetry_checkBatch asset transfers)]
    exact h
  | checkAuth entry =>
    obtain ⟨outcome, hcheck, heq⟩ := map_eq_ok heff
    obtain ⟨rfl, rfl⟩ := Prod.mk.inj heq
    rw [foldl_telemetry (isTelemetry_checkAuth hcheck)]
    exact h.checkAuth hcheck

end

/-- **The events tell the storage.**  After every run of a deployed account, whoever called what and
whichever calls aborted, replaying the events that were emitted gives the stored admin, pending
admin, freeze, heartbeat clock, auto-freeze time and revision, and whether a policy is installed;
and wherever the replay knows the pause flag or the fingerprint of the agent key, it is right. -/
theorem replay_follows (host : Host) (calls : List Call) :
    (replay (runLog (step host) (stamped host) State.empty calls)).Matches host
      (calls.foldl (step host) State.empty) := by
  refine replay_matches (fun m s c h => ?_) calls _ _ ?_
  · rw [stamped, step]
    cases heff : c.action.effect (c.env host) s with
    | error a => exact h
    | ok r =>
      refine Mirror.Matches.effect ?_ heff
      exact h
  · exact ⟨rfl, rfl, rfl, rfl, unknown, rfl, rfl, rfl, rfl, unknown⟩

end AgentGuard
