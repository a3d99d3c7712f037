import AgentGuard.Contract.Calls
import AgentGuard.Machinery.Replay

/-!
# Contract/Reset — bookkeeping is inert, and an account can always be reset

The policy revision and the recorded auto-freeze time are written and reported, and nothing reads
them to decide anything: accounts that differ in them alone answer every run of calls alike, values
returned included (`sameAnswers`).  So whatever an account has been through, five calls of its admin
make it answer like one that was deployed for the occasion (`reset_is_fresh`).
-/

namespace AgentGuard

open Machinery

/-- An event without its revision; the record of an expiry is left out. -/
def Event.unstamped : Event → Option Event
  | .authChecked result reason contract fnName contextIndex _ =>
    some (.authChecked result reason contract fnName contextIndex 0)
  | .policySet by' _ => some (.policySet by' 0)
  | .policyRevoked by' _ => some (.policyRevoked by' 0)
  | .paused by' _ => some (.paused by' 0)
  | .resumed by' _ => some (.resumed by' 0)
  | .dmsAutoFrozen _ => none
  | e => some e

/-- What an entry point returns. -/
inductive Reply
  | unit
  | policy (policy : Option PolicyConfig)
  | digest (digest : Bytes32)
  | validation (outcome : ValidationOutcome)
  | health (health : DmsHealthStatus)
  | status (status : Status)
  | checked (result : CheckResult)
  | detailed (detail : CheckDetail)
  | batch (result : BatchCheckResult)
  | authorized (result : Except Error Unit)

/-- The value a call returns to its caller, or why it aborts. -/
def Action.reply (env : Env) (s : State) : Action → Except Abort Reply
  | .readPolicy => .ok (.policy s.policy)
  | .policyHash => .ok (.digest (AgentGuard.policyHash env s))
  | .validatePolicy config => .ok (.validation (AgentGuard.validatePolicy env config))
  | .dmsHealth => .ok (.health (readDmsHealth env s))
  | .status => .ok (.status (AgentGuard.status env s))
  | .check asset dest amount =>
    (AgentGuard.check env s asset dest amount).map fun (result, _) => .checked result
  | .checkDetailed asset dest amount =>
    (AgentGuard.checkDetailed env s asset dest amount).map fun (detail, _) => .detailed detail
  | .checkBatch asset transfers => .ok (.batch (AgentGuard.checkBatch env s asset transfers).1)
  | .checkAuth entry =>
    (AgentGuard.checkAuth env s entry.signaturePayload entry.signature entry.contexts).map
      fun outcome => .authorized outcome.result
  -- the other entry points return nothing
  | action => (action.effect env s).map fun _ => .unit

/-- A reply without its revision, which `status` shows. -/
def Reply.unstamped : Reply → Reply
  | .status st => .status { st with policyRevision := 0 }
  | reply => reply

/-- **What a call answers**: why it aborted, or what it returned and the events it emitted,
revisions apart; and the approval it obtained on its way. -/
def answer (host : Host) (s : State) (c : Call) :
    Except Abort (Reply × List Event) × Option Approval :=
  (do
    let reply ← (c.action.reply (c.env host) s).map Reply.unstamped
    let (_, events) ← c.action.effect (c.env host) s
    return (reply, events.filterMap Event.unstamped), approval host s c)

/-- The answers of a run. -/
def answers (host : Host) (s : State) (calls : List Call) :
    List (Except Abort (Reply × List Event) × Option Approval) :=
  runLog (step host) (fun s c => [answer host s c]) s calls

/-- **The same account**, but for the revision and the recorded auto-freeze time. -/
def State.Alike (s s' : State) : Prop :=
  ∃ revision autoFrozenAt, s' = { s with policyRevision := revision, autoFrozenAt := autoFrozenAt }

/-- Two calls that did the same. -/
inductive Effect.Alike : Effect → Effect → Prop
  | ok {s s' : State} {events events' : List Event} (hstate : s.Alike s')
      (hevents : events.filterMap Event.unstamped = events'.filterMap Event.unstamped) :
      Effect.Alike (.ok (s, events)) (.ok (s', events'))
  | error (a : Abort) : Effect.Alike (.error a) (.error a)

section

variable {host : Host} {env : Env} {s s' : State}

theorem State.Alike.refl (s : State) : s.Alike s := ⟨_, _, rfl⟩

/-! ## Every entry point -/

theorem requireAuth_alike {a : Address} {k k' : Unit → Effect} (h : (k ()).Alike (k' ())) :
    Effect.Alike (requireAuth env a >>= k) (requireAuth env a >>= k') := by
  rw [requireAuth]
  split_ifs
  · exact h
  · exact .error _

theorem adminOrPanic_alike {k k' : Address → Effect} (hs : s.Alike s')
    (h : ∀ admin, (k admin).Alike (k' admin)) :
    Effect.Alike (adminOrPanic env s >>= k) (adminOrPanic env s' >>= k') := by
  obtain ⟨revision, time, rfl⟩ := hs
  rw [adminOrPanic, adminOrPanic]
  cases s.admin with
  | none => exact .error _
  | some admin =>
    simp only [bind_assoc]
    exact requireAuth_alike (h admin)

/-- A list of events that differ in their revisions. -/
theorem unstamped_mapIdx {α : Type} {f g : ℕ → α → Event}
    (h : ∀ i a, (f i a).unstamped = (g i a).unstamped) (l : List α) :
    (l.mapIdx f).filterMap Event.unstamped = (l.mapIdx g).filterMap Event.unstamped := by
  induction l generalizing f g with
  | nil => rfl
  | cons a l ih =>
    rw [List.mapIdx_cons, List.mapIdx_cons, List.filterMap_cons, List.filterMap_cons, h,
      ih fun i a => h (i + 1) a]

theorem unstamped_emitAuth (s s' : State) (allowed : Bool) (reason : Option Error)
    (context : Option Context) (i : ℕ) :
    (emitAuth s allowed reason context i).unstamped
      = (emitAuth s' allowed reason context i).unstamped := rfl

theorem unstamped_emitVerdict (s s' : State) (contexts : List Context) (i : ℕ) (d : Decision) :
    (emitVerdict s contexts i d).unstamped = (emitVerdict s' contexts i d).unstamped := by
  cases d <;> rfl

theorem unstamped_verdicts (s s' : State) (contexts : List Context) (verdicts : List Decision) :
    (verdicts.mapIdx (emitVerdict s contexts)).filterMap Event.unstamped
      = (verdicts.mapIdx (emitVerdict s' contexts)).filterMap Event.unstamped :=
  unstamped_mapIdx (unstamped_emitVerdict s s' contexts) verdicts

theorem unstamped_emitBlocked (s s' : State) (e : Error) (contexts : List Context) :
    (emitBlocked s e contexts).filterMap Event.unstamped
      = (emitBlocked s' e contexts).filterMap Event.unstamped :=
  unstamped_mapIdx (fun i ctx => unstamped_emitAuth s s' false (some e) (some ctx) i) contexts

/-- Two authorizations that did the same. -/
structure AuthOutcome.Alike (outcome outcome' : AuthOutcome) : Prop where
  result : outcome.result = outcome'.result
  state : outcome.state.Alike outcome'.state
  events : outcome.events.filterMap Event.unstamped = outcome'.events.filterMap Event.unstamped

theorem persistLedger_alike (hs : s.Alike s') (windowPersisted : Bool) (ledger : Ledger) :
    (persistLedger s windowPersisted ledger).Alike (persistLedger s' windowPersisted ledger) := by
  obtain ⟨revision, time, rfl⟩ := hs
  rw [persistLedger, persistLedger]
  split_ifs
  · exact ⟨revision, time, rfl⟩
  · exact ⟨revision, time, rfl⟩

/-- **The decision reads neither.** -/
theorem checkAuth_alike (hs : s.Alike s') (signaturePayload signature : List UInt8)
    (contexts : List Context) :
    (∃ a, checkAuth env s signaturePayload signature contexts = .error a ∧
        checkAuth env s' signaturePayload signature contexts = .error a) ∨
      ∃ outcome outcome', checkAuth env s signaturePayload signature contexts = .ok outcome ∧
        checkAuth env s' signaturePayload signature contexts = .ok outcome' ∧
        outcome.Alike outcome' := by
  have hkey : s'.agentPubkey = s.agentPubkey := by obtain ⟨_, _, rfl⟩ := hs; rfl
  have hload : AuthSnapshot.load s' = AuthSnapshot.load s := by obtain ⟨_, _, rfl⟩ := hs; rfl
  rw [checkAuth, checkAuth, hkey, hload]
  cases s.agentPubkey with
  | none => exact .inr ⟨_, _, rfl, rfl, rfl, hs, unstamped_emitBlocked s s' _ _⟩
  | some agent =>
    dsimp only
    split_ifs with hsig
    · exact .inl ⟨_, rfl, rfl⟩
    · cases AuthSnapshot.load s with
      | none => exact .inr ⟨_, _, rfl, rfl, rfl, hs, unstamped_emitBlocked s s' _ _⟩
      | some snap =>
        dsimp only
        generalize decideContexts env.host.self (some snap.policy) snap.accountState snap.ledger
          env.timestamp contexts = decided
        obtain ⟨verdicts, ledger⟩ := decided
        have hevents := unstamped_verdicts s s' contexts verdicts
        split_ifs
        · refine .inr ⟨_, _, rfl, rfl, rfl, persistLedger_alike hs _ _, ?_⟩
          rw [List.filterMap_append, List.filterMap_append, hevents]
        · cases firstError verdicts with
          | none => exact .inl ⟨_, rfl, rfl⟩
          | some e => exact .inr ⟨_, _, rfl, rfl, rfl, hs, hevents⟩

theorem approvalOf_alike (hs : s.Alike s') (entry : AuthEntry) :
    approvalOf env s entry = approvalOf env s' entry := by
  have hpolicy : s'.policy = s.policy := by obtain ⟨_, _, rfl⟩ := hs; rfl
  rw [approvalOf, approvalOf, hpolicy]
  rcases checkAuth_alike hs entry.signaturePayload entry.signature entry.contexts with
    ⟨a, h, h'⟩ | ⟨outcome, outcome', h, h', halike⟩
  · rw [h, h']
  · rw [h, h']
    cases s.policy with
    | none => rfl
    | some cfg =>
      dsimp only
      rw [halike.result]

theorem recordHeartbeat_alike (hs : s.Alike s') (now : U64) :
    (recordHeartbeat s now).1.Alike (recordHeartbeat s' now).1 ∧
      (recordHeartbeat s now).2 = (recordHeartbeat s' now).2 := by
  have hbeat : s'.heartbeatOrZero = s.heartbeatOrZero := by obtain ⟨_, _, rfl⟩ := hs; rfl
  rw [recordHeartbeat, recordHeartbeat, hbeat]
  split_ifs
  · exact ⟨hs, rfl⟩
  · obtain ⟨revision, time, rfl⟩ := hs
    exact ⟨⟨revision, time, rfl⟩, rfl⟩

theorem heartbeat_alike (hs : s.Alike s') (entry : AuthEntry) :
    (heartbeat env s entry).Alike (heartbeat env s' entry) := by
  rw [heartbeat, heartbeat]
  split_ifs with hmem
  · rcases checkAuth_alike hs entry.signaturePayload entry.signature entry.contexts with
      ⟨a, h, h'⟩ | ⟨outcome, outcome', h, h', halike⟩
    · rw [h, h']
      exact .error a
    · rw [h, h']
      simp only [bind, Except.bind, ← halike.result]
      cases outcome.result with
      | error e => exact .error _
      | ok u =>
        obtain ⟨hstate, hevents⟩ := recordHeartbeat_alike halike.state env.timestamp
        refine .ok hstate ?_
        rw [List.filterMap_append, List.filterMap_append, halike.events, hevents]
  · exact .error _

/-- The loaded policy and ledger are the same. -/
theorem checkDetailed_alike (hs : s.Alike s') (asset dest : Address) (amount : I128) :
    (∃ a, checkDetailed env s asset dest amount = .error a ∧
        checkDetailed env s' asset dest amount = .error a) ∨
      ∃ detail events events', checkDetailed env s asset dest amount = .ok (detail, events) ∧
        checkDetailed env s' asset dest amount = .ok (detail, events') ∧
        events.filterMap Event.unstamped = events'.filterMap Event.unstamped := by
  have hload : AuthSnapshot.load s' = AuthSnapshot.load s := by obtain ⟨_, _, rfl⟩ := hs; rfl
  rw [checkDetailed, checkDetailed, hload]
  cases AuthSnapshot.load s with
  | none => exact .inr ⟨_, _, _, rfl, rfl, rfl⟩
  | some snap =>
    dsimp only
    split
    · exact .inl ⟨_, rfl, rfl⟩
    · refine .inr ⟨_, _, _, rfl, rfl, ?_⟩
      rw [List.filterMap_cons, List.filterMap_cons, unstamped_emitVerdict s s']

theorem checkBatch_alike (hs : s.Alike s') (asset : Address) (transfers : List BatchTransfer) :
    (checkBatch env s asset transfers).1 = (checkBatch env s' asset transfers).1 ∧
      (checkBatch env s asset transfers).2.filterMap Event.unstamped
        = (checkBatch env s' asset transfers).2.filterMap Event.unstamped := by
  have hload : AuthSnapshot.load s' = AuthSnapshot.load s := by obtain ⟨_, _, rfl⟩ := hs; rfl
  rw [checkBatch, checkBatch, hload]
  cases AuthSnapshot.load s with
  | none => exact ⟨rfl, unstamped_emitBlocked s s' _ _⟩
  | some snap => exact ⟨rfl, unstamped_verdicts s s' _ _⟩

theorem setPaused_alike (hs : s.Alike s') (paused : Bool) :
    (setPaused env s paused).Alike (setPaused env s' paused) := by
  refine adminOrPanic_alike hs fun admin => ?_
  have hpolicy : s'.policy = s.policy := by obtain ⟨_, _, rfl⟩ := hs; rfl
  rw [hpolicy]
  cases s.policy with
  | none => exact .error _
  | some cfg =>
    refine .ok ?_ (by cases paused <;> rfl)
    split_ifs
    · obtain ⟨_, time, rfl⟩ := hs
      exact ⟨_, time, rfl⟩
    · exact hs

/-- `refresh_deadman` writes the record and nothing else. -/
theorem refreshDeadman_records (env : Env) (s : State) :
    ∃ s₁ events, refreshDeadman env s = .ok (s₁, events) ∧ s.Alike s₁ ∧
      events.filterMap Event.unstamped = [] := by
  rw [refreshDeadman]
  split_ifs
  · exact ⟨_, _, rfl, ⟨_, _, rfl⟩, rfl⟩
  · exact ⟨_, _, rfl, .refl s, rfl⟩
  · exact ⟨_, _, rfl, .refl s, rfl⟩

theorem refreshDeadman_alike (hs : s.Alike s') :
    (refreshDeadman env s).Alike (refreshDeadman env s') := by
  obtain ⟨s₁, events, heff, hstate, hevents⟩ := refreshDeadman_records env s
  obtain ⟨s₁', events', heff', hstate', hevents'⟩ := refreshDeadman_records env s'
  rw [heff, heff']
  refine .ok ?_ (hevents.trans hevents'.symm)
  obtain ⟨_, _, rfl⟩ := hs
  obtain ⟨_, _, rfl⟩ := hstate
  obtain ⟨_, _, rfl⟩ := hstate'
  exact ⟨_, _, rfl⟩

/-- **No entry point tells two alike storages apart.** -/
theorem Action.effect_alike (hs : s.Alike s') (action : Action) :
    (action.effect env s).Alike (action.effect env s') := by
  have hs' := hs
  obtain ⟨revision, time, rfl⟩ := hs
  cases action with
  | initializeAccount admin key =>
    rw [Action.effect, Action.effect, AgentGuard.initializeAccount, AgentGuard.initializeAccount]
    dsimp only
    split_ifs
    · exact .error _
    · exact requireAuth_alike (.ok ⟨revision, time, rfl⟩ rfl)
  | setPolicy cfg =>
    refine adminOrPanic_alike hs' fun admin => ?_
    cases validateConfig env.host.self cfg with
    | error e => exact .error _
    | ok u =>
      refine .ok ?_ rfl
      rw [installPolicy_eq, installPolicy_eq]
      exact ⟨_, time, rfl⟩
  | pause => exact setPaused_alike hs' true
  | resume => exact setPaused_alike hs' false
  | rotateAgentKey key =>
    refine adminOrPanic_alike hs' fun admin => ?_
    dsimp only
    cases s.agentPubkey with
    | none => exact .error _
    | some old => exact .ok ⟨revision, time, rfl⟩ rfl
  | proposeAdminRotation newAdmin =>
    refine adminOrPanic_alike hs' fun admin => ?_
    split_ifs
    · exact .error _
    · exact .ok ⟨revision, time, rfl⟩ rfl
  | confirmAdminRotation =>
    rw [Action.effect, Action.effect, AgentGuard.confirmAdminRotation,
      AgentGuard.confirmAdminRotation]
    dsimp only
    cases s.admin with
    | none => exact .error _
    | some old =>
      cases s.pendingAdmin with
      | none => exact .error _
      | some pending => exact requireAuth_alike (.ok ⟨revision, time, rfl⟩ rfl)
  | cancelAdminRotation =>
    refine adminOrPanic_alike hs' fun admin => ?_
    dsimp only
    cases s.pendingAdmin with
    | none => exact .error _
    | some pending => exact .ok ⟨revision, time, rfl⟩ rfl
  | revokePolicy | resetWindow | freeze | unfreeze =>
    exact adminOrPanic_alike hs' fun admin => .ok ⟨_, time, rfl⟩ rfl
  | heartbeat entry => exact heartbeat_alike hs' entry
  | refreshDeadman => exact refreshDeadman_alike hs'
  | readPolicy | policyHash | validatePolicy | dmsHealth | status =>
    exact .ok ⟨revision, time, rfl⟩ rfl
  | check asset dest amount =>
    rw [Action.effect, Action.effect, AgentGuard.check, AgentGuard.check]
    rcases checkDetailed_alike hs' asset dest amount with
      ⟨a, h, h'⟩ | ⟨detail, events, events', h, h', hevents⟩
    · rw [h, h']
      exact .error a
    · rw [h, h']
      exact .ok ⟨revision, time, rfl⟩ hevents
  | checkDetailed asset dest amount =>
    rw [Action.effect, Action.effect]
    rcases checkDetailed_alike hs' asset dest amount with
      ⟨a, h, h'⟩ | ⟨detail, events, events', h, h', hevents⟩
    · rw [h, h']
      exact .error a
    · rw [h, h']
      exact .ok ⟨revision, time, rfl⟩ hevents
  | checkBatch asset transfers =>
    exact .ok ⟨revision, time, rfl⟩ (checkBatch_alike hs' asset transfers).2
  | checkAuth entry =>
    rw [Action.effect, Action.effect]
    rcases checkAuth_alike hs' entry.signaturePayload entry.signature entry.contexts with
      ⟨a, h, h'⟩ | ⟨outcome, outcome', h, h', halike⟩
    · rw [h, h']
      exact .error a
    · rw [h, h']
      exact .ok halike.state halike.events

/-- A reply that is not a value read from the storage. -/
theorem Effect.Alike.map_const {r r' : Effect} (h : r.Alike r') (reply : Reply) :
    (r.map fun _ => reply) = r'.map fun _ => reply := by
  cases h <;> rfl

/-- **Nor does what they return**, but for the revision in `status`. -/
theorem Action.reply_alike (hs : s.Alike s') (action : Action) :
    (action.reply env s).map Reply.unstamped = (action.reply env s').map Reply.unstamped := by
  have hs' := hs
  obtain ⟨revision, time, rfl⟩ := hs
  cases action with
  | readPolicy | policyHash | validatePolicy | dmsHealth | status => rfl
  | check asset dest amount =>
    rw [Action.reply, Action.reply, AgentGuard.check, AgentGuard.check]
    rcases checkDetailed_alike hs' asset dest amount with
      ⟨a, h, h'⟩ | ⟨detail, events, events', h, h', -⟩
    · rw [h, h']
    · rw [h, h']
      rfl
  | checkDetailed asset dest amount =>
    rw [Action.reply, Action.reply]
    rcases checkDetailed_alike hs' asset dest amount with
      ⟨a, h, h'⟩ | ⟨detail, events, events', h, h', -⟩
    · rw [h, h']
    · rw [h, h']
      rfl
  | checkBatch asset transfers =>
    rw [Action.reply, Action.reply, (checkBatch_alike hs' asset transfers).1]
  | checkAuth entry =>
    rw [Action.reply, Action.reply]
    rcases checkAuth_alike hs' entry.signaturePayload entry.signature entry.contexts with
      ⟨a, h, h'⟩ | ⟨outcome, outcome', h, h', halike⟩
    · rw [h, h']
    · rw [h, h']
      exact congrArg (fun result => Except.ok (Reply.authorized result)) halike.result
  -- an entry point that returns nothing answers alike when its effects are alike
  | _ => exact congrArg (Except.map Reply.unstamped) ((Action.effect_alike hs' _).map_const .unit)

/-! ## Runs -/

theorem approval_alike (hs : s.Alike s') (c : Call) : approval host s c = approval host s' c := by
  rw [approval, approval]
  cases c.action with
  | checkAuth entry => exact approvalOf_alike hs entry
  | heartbeat entry =>
    dsimp only
    rw [approvalOf_alike hs entry]
  | _ => rfl

/-- **One call** gets the same answer from both, and leaves them alike. -/
theorem answer_alike (hs : s.Alike s') (c : Call) :
    answer host s c = answer host s' c ∧ (step host s c).Alike (step host s' c) := by
  have heff : (c.action.effect (c.env host) s).Alike (c.action.effect (c.env host) s') :=
    Action.effect_alike hs c.action
  have hreply : (c.action.reply (c.env host) s).map Reply.unstamped
      = (c.action.reply (c.env host) s').map Reply.unstamped := Action.reply_alike hs c.action
  rw [answer, answer, approval_alike hs, hreply, step, step]
  generalize c.action.effect (c.env host) s = r at heff ⊢
  generalize c.action.effect (c.env host) s' = r' at heff ⊢
  cases heff with
  | ok hstate hevents =>
    exact ⟨by simp only [bind, Except.bind, pure, Except.pure, hevents], hstate⟩
  | error a => exact ⟨rfl, hs⟩

/-- **Bookkeeping is inert**: no run tells two accounts apart that differ in it alone. -/
theorem sameAnswers (hs : s.Alike s') (calls : List Call) :
    answers host s calls = answers host s' calls := by
  refine (runLog_congr (fun s s' c h => ?_) calls s s' hs).1
  obtain ⟨hanswer, hnext⟩ := answer_alike h c
  exact ⟨by rw [hanswer], hnext⟩

/-! ## A reset -/

variable {admin : Address} {authorized : Address → Bool}

/-- The calls of a reset: a pending rotation is dropped, the policy removed with all it metered, a
policy installed, the agent key replaced, and every stop lifted. -/
def resetCalls (authorized : Address → Bool) (cfg : PolicyConfig) (key : Bytes32)
    (t₁ t₂ t₃ t₄ t₅ : U64) : List Call :=
  [⟨t₁, authorized, .cancelAdminRotation⟩, ⟨t₂, authorized, .revokePolicy⟩,
    ⟨t₃, authorized, .setPolicy cfg⟩, ⟨t₄, authorized, .rotateAgentKey key⟩,
    ⟨t₅, authorized, .unfreeze⟩]

/-- The calls that set up a deployed account. -/
def setupCalls (authorized : Address → Bool) (admin : Address) (cfg : PolicyConfig) (key : Bytes32)
    (t₀ t₃ t₅ : U64) : List Call :=
  [⟨t₀, authorized, .initializeAccount admin key⟩, ⟨t₃, authorized, .setPolicy cfg⟩,
    ⟨t₅, authorized, .unfreeze⟩]

/-- **A reset leaves what a fresh setup leaves**, revision and recorded expiry apart. -/
theorem reset_alike {t : U64} (hreach : Reachable host t s) (hadmin : s.admin = some admin)
    (hauth : authorized admin = true) (cfg : PolicyConfig) (key : Bytes32)
    (t₀ t₁ t₂ t₃ t₄ t₅ : U64) :
    ((resetCalls authorized cfg key t₁ t₂ t₃ t₄ t₅).foldl (step host) s).Alike
      ((setupCalls authorized admin cfg key t₀ t₃ t₅).foldl (step host) State.empty) := by
  have hinit : s.initialized = some true := hreach.inv.initialized (by simp [hadmin])
  have hkey : s.agentPubkey.isSome := hreach.setUp.key (by simp [hadmin])
  rw [resetCalls, setupCalls]
  simp only [List.foldl_cons, List.foldl_nil]
  rw [step_cancelAdminRotation hadmin hauth, step_revokePolicy (by exact hadmin) hauth,
    step_setPolicy (by exact hadmin) hauth,
    step_initializeAccount (by rfl) hauth, step_setPolicy (by rfl) hauth]
  cases validateConfig host.self cfg with
  | error e =>
    dsimp only
    rw [step_rotateAgentKey (by exact hadmin) hauth _ (by exact hkey),
      step_unfreeze (by exact hadmin) hauth, step_unfreeze (by rfl) hauth]
    exact ⟨none, none, by
      simp [State.incrementRevision, State.empty, hinit, hadmin]⟩
  | ok u =>
    dsimp only
    rw [installPolicy_eq, installPolicy_eq,
      step_rotateAgentKey (by exact hadmin) hauth _ (by exact hkey),
      step_unfreeze (by exact hadmin) hauth, step_unfreeze (by rfl) hauth]
    exact ⟨some ((0 : U64).saturatingAdd 1), none, by
      simp [State.incrementRevision, State.currentRevision, State.empty, hinit, hadmin]⟩

end

/-- **A reset account is a fresh one.**  Whatever an initialized account has been through, once its
admin has dropped a pending rotation, revoked the policy, installed one, replaced the agent key and
lifted the stops, every further run is answered — calls that abort, values returned, events and
approvals alike — as by an account deployed with that admin, key and policy. -/
theorem reset_is_fresh {host : Host} {s : State} {t : U64} {admin : Address}
    {authorized : Address → Bool} (hreach : Reachable host t s) (hadmin : s.admin = some admin)
    (hauth : authorized admin = true) (cfg : PolicyConfig) (key : Bytes32)
    (t₀ t₁ t₂ t₃ t₄ t₅ : U64) (calls : List Call) :
    answers host ((resetCalls authorized cfg key t₁ t₂ t₃ t₄ t₅).foldl (step host) s) calls
      = answers host ((setupCalls authorized admin cfg key t₀ t₃ t₅).foldl (step host) State.empty)
          calls :=
  sameAnswers (reset_alike hreach hadmin hauth cfg key t₀ t₁ t₂ t₃ t₄ t₅) calls

namespace Sample

/-- The account that has spent is reset to the same cap, under another key, asked to pay and then
for its status. -/
theorem spent_reset :
    answers host ((resetCalls (fun a => a = admin) capFifty (Vector.replicate 32 1) 200 200 200 200
        200).foldl (step host) spent) [auth 210 [pay 40], call 220 .status]
      = answers host ((setupCalls (fun a => a = admin) admin capFifty (Vector.replicate 32 1) 1 200
          200).foldl (step host) State.empty) [auth 210 [pay 40], call 220 .status] :=
  reset_is_fresh reachable_spent (show spent.admin = some admin from rfl) (by decide) capFifty
    (Vector.replicate 32 1) 1 200 200 200 200 200 [auth 210 [pay 40], call 220 .status]

end Sample

end AgentGuard
