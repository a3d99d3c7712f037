import AgentGuard.Contract.Account
import AgentGuard.Contract.Decide
import AgentGuard.Machinery.Runs

/-!
# Contract/Runs — runs of the account, and what one call can do to it

A run is a list of calls, each with its timestamp and the set of addresses whose authorization
succeeds.  `stepEffect` says once what a call can do to the stored policy and window; every
invariant over runs is derived from it.
-/

namespace AgentGuard

open Machinery

/-- One invocation of an entry point, with its arguments. -/
inductive Action
  | initializeAccount (admin : Address) (agentPubkey : Bytes32)
  | setPolicy (config : PolicyConfig)
  | resetWindow
  | pause
  | resume
  | revokePolicy
  | rotateAgentKey (newPubkey : Bytes32)
  | proposeAdminRotation (newAdmin : Address)
  | confirmAdminRotation
  | cancelAdminRotation
  | heartbeat (entry : AuthEntry)
  | freeze
  | refreshDeadman
  | unfreeze
  | readPolicy
  | policyHash
  | validatePolicy (config : PolicyConfig)
  | dmsHealth
  | status
  | check (asset dest : Address) (amount : I128)
  | checkDetailed (asset dest : Address) (amount : I128)
  | checkBatch (asset : Address) (transfers : List BatchTransfer)
  | checkAuth (entry : AuthEntry)

/-- What an entry point leaves behind; the reads leave the storage as it is. -/
def Action.effect (env : Env) (s : State) : Action → Effect
  | .initializeAccount admin agentPubkey => AgentGuard.initializeAccount env s admin agentPubkey
  | .setPolicy config => AgentGuard.setPolicy env s config
  | .resetWindow => AgentGuard.resetWindow env s
  | .pause => AgentGuard.pause env s
  | .resume => AgentGuard.resume env s
  | .revokePolicy => AgentGuard.revokePolicy env s
  | .rotateAgentKey newPubkey => AgentGuard.rotateAgentKey env s newPubkey
  | .proposeAdminRotation newAdmin => AgentGuard.proposeAdminRotation env s newAdmin
  | .confirmAdminRotation => AgentGuard.confirmAdminRotation env s
  | .cancelAdminRotation => AgentGuard.cancelAdminRotation env s
  | .heartbeat entry => AgentGuard.heartbeat env s entry
  | .freeze => AgentGuard.freeze env s
  | .refreshDeadman => AgentGuard.refreshDeadman env s
  | .unfreeze => AgentGuard.unfreeze env s
  | .readPolicy | .policyHash | .validatePolicy _ | .dmsHealth | .status => .ok (s, [])
  | .check asset dest amount =>
    (AgentGuard.check env s asset dest amount).map fun (_, events) => (s, events)
  | .checkDetailed asset dest amount =>
    (AgentGuard.checkDetailed env s asset dest amount).map fun (_, events) => (s, events)
  | .checkBatch asset transfers => .ok (s, (AgentGuard.checkBatch env s asset transfers).2)
  | .checkAuth entry =>
    (AgentGuard.checkAuth env s entry.signaturePayload entry.signature entry.contexts).map
      fun outcome => (outcome.state, outcome.events)

/-- A call as the host makes it. -/
structure Call where
  timestamp : U64
  authorized : Address → Bool
  action : Action

def Call.env (host : Host) (c : Call) : Env := ⟨host, c.timestamp, c.authorized⟩

@[simp] theorem Call.env_timestamp (host : Host) (c : Call) :
    (c.env host).timestamp = c.timestamp := rfl

/-- The storage after a call; an aborted call leaves it as it was. -/
def step (host : Host) (s : State) (c : Call) : State :=
  match c.action.effect (c.env host) s with
  | .ok (s', _) => s'
  | .error _ => s

/-! ## Approved authorizations -/

/-- An authorization the account approved: when, under which policy, over which contexts. -/
structure Approval where
  time : U64
  policy : PolicyConfig
  contexts : List Context

/-- The approval `__check_auth` grants, if it does. -/
def approvalOf (env : Env) (s : State) (entry : AuthEntry) : Option Approval :=
  match AgentGuard.checkAuth env s entry.signaturePayload entry.signature entry.contexts,
      s.policy with
  | .ok outcome, some policy =>
    match outcome.result with
    | .ok () => some ⟨env.timestamp, policy, entry.contexts⟩
    | .error _ => none
  | _, _ => none

/-- The approval a call obtains on its way, if any. -/
def approval (host : Host) (s : State) (c : Call) : Option Approval :=
  match c.action with
  | .checkAuth entry => approvalOf (c.env host) s entry
  | .heartbeat entry =>
    if heartbeatContext host.self ∉ entry.contexts then none
    else approvalOf (c.env host) s entry
  | _ => none

/-- A storage with the approvals granted so far, the newest first. -/
def exec (host : Host) (sh : State × List Approval) (c : Call) : State × List Approval :=
  (step host sh.1 c, (approval host sh.1 c).toList ++ sh.2)

/-- The storage and history after a list of calls. -/
def run (host : Host) (s : State) (calls : List Call) : State × List Approval :=
  calls.foldl (exec host) (s, [])

instance : Preorder U64 where
  le a b := a.val ≤ b.val
  le_refl a := Int.le_refl a.val
  le_trans _ _ _ := Int.le_trans

/-- **The states a deployed account can be in**, each with the time of the last call. -/
inductive Reachable (host : Host) : U64 → State → Prop
  | deployed (t : U64) : Reachable host t State.empty
  | call {t : U64} {s : State} (c : Call) (h : Reachable host t s)
      (ht : t.val ≤ c.timestamp.val) : Reachable host c.timestamp (step host s c)

/-- **The states reached from `s₀` by calls that all meet a condition**, each on the storage it
finds. -/
inductive Reaches (host : Host) (ok : State → Call → Prop) (t₀ : U64) (s₀ : State) :
    U64 → State → Prop
  | start : Reaches host ok t₀ s₀ t₀ s₀
  | call {t : U64} {s : State} (c : Call) (h : Reaches host ok t₀ s₀ t s)
      (ht : t.val ≤ c.timestamp.val) (hok : ok s c) :
      Reaches host ok t₀ s₀ c.timestamp (step host s c)

theorem Reaches.reachable {host : Host} {ok : State → Call → Prop} {t₀ t : U64} {s₀ s : State}
    (h : Reaches host ok t₀ s₀ t s) (h₀ : Reachable host t₀ s₀) : Reachable host t s := by
  induction h with
  | start => exact h₀
  | call c _ ht _ ih => exact .call c ih ht

/-! ## Approval -/

/-- The verdicts and the ledger an authorization request gets. -/
def authDecision (env : Env) (s : State) (contexts : List Context) : List Decision × Ledger :=
  decideContexts env.host.self s.policy ⟨s.frozenOrFalse, s.heartbeatOrZero⟩ s.loadWindow.1
    env.timestamp contexts

/-- **The request is granted under the installed policy.** -/
structure Grants (env : Env) (s : State) (cfg : PolicyConfig) (contexts : List Context) : Prop where
  policy : s.policy = some cfg
  allowed : (authDecision env s contexts).1.all Decision.isAllowed = true

/-- The storage an approved request leaves. -/
def State.admitted (s : State) (env : Env) (contexts : List Context) : State :=
  persistLedger s s.loadWindow.2 (authDecision env s contexts).2

section

variable {env : Env} {s : State} {signaturePayload signature : List UInt8}
  {contexts : List Context}

/-- With the agent's signature and a policy, `__check_auth` is the decision table. -/
theorem checkAuth_eq {agent : Bytes32} {cfg : PolicyConfig} (hkey : s.agentPubkey = some agent)
    (hsig : env.host.ed25519Verify agent signaturePayload signature = true)
    (hcfg : s.policy = some cfg) :
    checkAuth env s signaturePayload signature contexts
      = if (authDecision env s contexts).1.all Decision.isAllowed then
          .ok ⟨.ok (), s.admitted env contexts,
            (authDecision env s contexts).1.mapIdx (emitVerdict s contexts)
              ++ (authDecision env s contexts).2.merges.map emitWindowMerge⟩
        else
          match firstError (authDecision env s contexts).1 with
          | some e => .ok ⟨.error e, s,
              (authDecision env s contexts).1.mapIdx (emitVerdict s contexts)⟩
          | none => .error (.error .decisionInvariantViolation) := by
  simp only [checkAuth, hkey, hsig, Bool.not_true, Bool.false_eq_true, if_false,
    AuthSnapshot.load, hcfg, Option.map_some, AuthSnapshot.accountState, authDecision,
    State.admitted]
  rfl

/-- The events of the verdicts of a request. -/
def decisionEvents (env : Env) (s : State) (contexts : List Context) : List Event :=
  (authDecision env s contexts).1.mapIdx (emitVerdict s contexts)

/-- **Everything `__check_auth` can return.** -/
inductive AuthReturn (env : Env) (s : State) (signaturePayload signature : List UInt8)
    (contexts : List Context) : AuthOutcome → Prop
  | uninitialized (hkey : s.agentPubkey = none) :
      AuthReturn env s signaturePayload signature contexts
        ⟨.error .notInitialized, s, emitBlocked s .notInitialized contexts⟩
  | noPolicy (agent : Bytes32) (hkey : s.agentPubkey = some agent)
      (hsig : env.host.ed25519Verify agent signaturePayload signature = true)
      (hcfg : s.policy = none) :
      AuthReturn env s signaturePayload signature contexts
        ⟨.error .noPolicy, s, emitBlocked s .noPolicy contexts⟩
  | approved (agent : Bytes32) (cfg : PolicyConfig) (hkey : s.agentPubkey = some agent)
      (hsig : env.host.ed25519Verify agent signaturePayload signature = true)
      (hgrants : Grants env s cfg contexts) :
      AuthReturn env s signaturePayload signature contexts
        ⟨.ok (), s.admitted env contexts, decisionEvents env s contexts
          ++ (authDecision env s contexts).2.merges.map emitWindowMerge⟩
  | refused (agent : Bytes32) (cfg : PolicyConfig) (e : Error) (hkey : s.agentPubkey = some agent)
      (hsig : env.host.ed25519Verify agent signaturePayload signature = true)
      (hcfg : s.policy = some cfg)
      (hall : (authDecision env s contexts).1.all Decision.isAllowed ≠ true)
      (hfirst : firstError (authDecision env s contexts).1 = some e) :
      AuthReturn env s signaturePayload signature contexts
        ⟨.error e, s, decisionEvents env s contexts⟩

theorem checkAuth_returns {outcome : AuthOutcome}
    (h : checkAuth env s signaturePayload signature contexts = .ok outcome) :
    AuthReturn env s signaturePayload signature contexts outcome := by
  cases hkey : s.agentPubkey with
  | none =>
    simp only [checkAuth, hkey, Except.ok.injEq] at h
    exact h ▸ .uninitialized hkey
  | some agent =>
    by_cases hsig : env.host.ed25519Verify agent signaturePayload signature = true
    · cases hcfg : s.policy with
      | none =>
        simp only [checkAuth, hkey, hsig, Bool.not_true, Bool.false_eq_true, if_false,
          AuthSnapshot.load, hcfg, Option.map_none, Except.ok.injEq] at h
        exact h ▸ .noPolicy agent hkey hsig hcfg
      | some cfg =>
        rw [checkAuth_eq hkey hsig hcfg] at h
        split_ifs at h with hall
        · exact Except.ok.inj h ▸ .approved agent cfg hkey hsig ⟨hcfg, hall⟩
        · split at h
          · rename_i e hfirst
            exact Except.ok.inj h ▸ .refused agent cfg e hkey hsig hcfg hall hfirst
          · simp at h
    · simp [checkAuth, hkey, hsig] at h

/-- A refusal changes nothing; an approval is a grant over the agent's signature. -/
theorem checkAuth_cases {outcome : AuthOutcome}
    (h : checkAuth env s signaturePayload signature contexts = .ok outcome) :
    (∃ e, outcome.result = .error e ∧ outcome.state = s) ∨
      ∃ agent cfg, s.agentPubkey = some agent ∧
        env.host.ed25519Verify agent signaturePayload signature = true ∧
        Grants env s cfg contexts ∧ outcome.result = .ok () ∧
        outcome.state = s.admitted env contexts := by
  cases checkAuth_returns h with
  | uninitialized => exact .inl ⟨_, rfl, rfl⟩
  | noPolicy => exact .inl ⟨_, rfl, rfl⟩
  | approved agent cfg hkey hsig hgrants => exact .inr ⟨agent, cfg, hkey, hsig, hgrants, rfl, rfl⟩
  | refused => exact .inl ⟨_, rfl, rfl⟩

/-- **An approval is a grant**, and leaves what the grant leaves. -/
theorem checkAuth_ok {outcome : AuthOutcome}
    (h : checkAuth env s signaturePayload signature contexts = .ok outcome)
    (hok : outcome.result = .ok ()) :
    ∃ cfg, Grants env s cfg contexts ∧ outcome.state = s.admitted env contexts := by
  rcases checkAuth_cases h with ⟨e, herr, -⟩ | ⟨_, cfg, -, -, hgrants, -, hstate⟩
  · rw [herr] at hok
    cases hok
  · exact ⟨cfg, hgrants, hstate⟩

end

/-! ## What one call can do -/

/-- The storage an effect leaves; an abort leaves it as it was. -/
def Effect.stateOr (r : Effect) (s : State) : State :=
  match r with
  | .ok (s', _) => s'
  | .error _ => s

theorem step_eq (host : Host) (s : State) (c : Call) :
    step host s c = Effect.stateOr (c.action.effect (c.env host) s) s := rfl

/-- **Everything a call can do to the storage**, with the approval it obtains on its way. -/
inductive StepEffect (host : Host) (s : State) (c : Call) : State → Option Approval → Prop
  | idle : StepEffect host s c s none
  | initialized (admin : Address) (agentPubkey : Bytes32)
      (haction : c.action = .initializeAccount admin agentPubkey)
      (hfresh : s.initialized.getD false = false) (hauth : c.authorized admin = true) :
      StepEffect host s c { s with
        admin := some admin
        agentPubkey := some agentPubkey
        initialized := some true
        adminFrozen := some false
        lastHeartbeat := some 0 } none
  | policySet (admin : Address) (cfg : PolicyConfig) (haction : c.action = .setPolicy cfg)
      (hadmin : s.admin = some admin) (hauth : c.authorized admin = true)
      (hvalid : validateConfig host.self cfg = .ok ()) :
      StepEffect host s c (installPolicy s cfg c.timestamp) none
  | windowReset (admin : Address) (haction : c.action = .resetWindow)
      (hadmin : s.admin = some admin) (hauth : c.authorized admin = true) :
      StepEffect host s c { s with window := none } none
  | pausedSet (admin : Address) (cfg : PolicyConfig) (paused : Bool)
      (haction : c.action = .pause ∧ paused = true ∨ c.action = .resume ∧ paused = false)
      (hadmin : s.admin = some admin) (hauth : c.authorized admin = true)
      (hpolicy : s.policy = some cfg) (hflip : cfg.paused ≠ paused) :
      StepEffect host s c { s with policy := some { cfg with paused } }.incrementRevision none
  | policyRevoked (admin : Address) (haction : c.action = .revokePolicy)
      (hadmin : s.admin = some admin) (hauth : c.authorized admin = true) :
      StepEffect host s c { s with policy := none, window := none }.incrementRevision none
  | keyRotated (admin : Address) (newPubkey : Bytes32)
      (haction : c.action = .rotateAgentKey newPubkey)
      (hadmin : s.admin = some admin) (hauth : c.authorized admin = true)
      (hkey : s.agentPubkey.isSome) :
      StepEffect host s c { s with agentPubkey := some newPubkey } none
  | rotationProposed (admin newAdmin : Address)
      (haction : c.action = .proposeAdminRotation newAdmin)
      (hadmin : s.admin = some admin) (hauth : c.authorized admin = true)
      (hne : newAdmin ≠ admin) :
      StepEffect host s c { s with pendingAdmin := some newAdmin } none
  | rotationConfirmed (old pending : Address) (haction : c.action = .confirmAdminRotation)
      (hadmin : s.admin = some old) (hpending : s.pendingAdmin = some pending)
      (hauth : c.authorized pending = true) :
      StepEffect host s c { s with admin := some pending, pendingAdmin := none } none
  | rotationCancelled (admin : Address) (haction : c.action = .cancelAdminRotation)
      (hadmin : s.admin = some admin) (hauth : c.authorized admin = true)
      (hpending : s.pendingAdmin.isSome) :
      StepEffect host s c { s with pendingAdmin := none } none
  | frozen (admin : Address) (haction : c.action = .freeze)
      (hadmin : s.admin = some admin) (hauth : c.authorized admin = true) :
      StepEffect host s c { s with adminFrozen := some true } none
  | autoFrozen (haction : c.action = .refreshDeadman) :
      StepEffect host s c { s with autoFrozenAt := some c.timestamp } none
  | unfrozen (admin : Address) (haction : c.action = .unfreeze)
      (hadmin : s.admin = some admin) (hauth : c.authorized admin = true) :
      StepEffect host s c { s with adminFrozen := some false, lastHeartbeat := some c.timestamp }
        none
  | approved (entry : AuthEntry) (cfg : PolicyConfig) (haction : c.action = .checkAuth entry)
      (hgrants : Grants (c.env host) s cfg entry.contexts) :
      StepEffect host s c (s.admitted (c.env host) entry.contexts)
        (some ⟨c.timestamp, cfg, entry.contexts⟩)
  | heartbeat (entry : AuthEntry) (cfg : PolicyConfig) (haction : c.action = .heartbeat entry)
      (hmem : heartbeatContext host.self ∈ entry.contexts)
      (hgrants : Grants (c.env host) s cfg entry.contexts) :
      StepEffect host s c
        (recordHeartbeat (s.admitted (c.env host) entry.contexts) c.timestamp).1
        (some ⟨c.timestamp, cfg, entry.contexts⟩)

/-- An admin call either aborts or runs as the stored admin. -/
theorem adminOrPanic_bind (env : Env) (s : State) (k : Address → Effect) :
    Effect.stateOr (adminOrPanic env s >>= k) s = s ∨
      ∃ admin, s.admin = some admin ∧ env.authorized admin = true ∧
        (adminOrPanic env s >>= k) = k admin := by
  cases hadmin : s.admin with
  | none =>
    left
    simp [adminOrPanic, hadmin, bind, Except.bind, Effect.stateOr]
  | some admin =>
    by_cases hauth : env.authorized admin = true
    · exact .inr ⟨admin, rfl, hauth, by
        simp [adminOrPanic, hadmin, requireAuth, hauth, bind, Except.bind, pure, Except.pure]⟩
    · left
      simp [adminOrPanic, hadmin, requireAuth, hauth, bind, Except.bind, Effect.stateOr]

section

variable {host : Host} {s : State} {c : Call}

/-- A call that runs as the admin does what its body does, or nothing. -/
theorem stepEffect_asAdmin {k : Address → Effect}
    (h : ∀ admin, s.admin = some admin → c.authorized admin = true →
      StepEffect host s c (Effect.stateOr (k admin) s) none) :
    StepEffect host s c (Effect.stateOr (adminOrPanic (c.env host) s >>= k) s) none := by
  rcases adminOrPanic_bind (c.env host) s k with habort | ⟨admin, hadmin, hauth, hrun⟩
  · rw [habort]
    exact .idle
  · rw [hrun]
    exact h admin hadmin hauth

theorem stepEffect_setPaused {paused : Bool}
    (haction : c.action = .pause ∧ paused = true ∨ c.action = .resume ∧ paused = false) :
    StepEffect host s c (Effect.stateOr (setPaused (c.env host) s paused) s) none := by
  refine stepEffect_asAdmin fun admin hadmin hauth => ?_
  cases hpolicy : s.policy with
  | none => exact .idle
  | some cfg =>
    dsimp only
    by_cases hflip : cfg.paused ≠ paused
    · rw [if_pos hflip]
      exact .pausedSet admin cfg paused haction hadmin hauth hpolicy hflip
    · rw [if_neg hflip]
      exact .idle

/-- The authorization of a call, whatever the call does with it. -/
theorem approvalOf_eq (env : Env) (s : State) (entry : AuthEntry) :
    (approvalOf env s entry = none ∧
        ∀ outcome, checkAuth env s entry.signaturePayload entry.signature entry.contexts
          = .ok outcome → ∃ e, outcome.result = .error e ∧ outcome.state = s) ∨
      ∃ cfg outcome, Grants env s cfg entry.contexts ∧
        checkAuth env s entry.signaturePayload entry.signature entry.contexts = .ok outcome ∧
        outcome.result = .ok () ∧ outcome.state = s.admitted env entry.contexts ∧
        approvalOf env s entry = some ⟨env.timestamp, cfg, entry.contexts⟩ := by
  rw [approvalOf]
  cases hcheck : checkAuth env s entry.signaturePayload entry.signature entry.contexts with
  | error a => exact .inl ⟨rfl, fun _ h => by simp at h⟩
  | ok outcome =>
    rcases checkAuth_cases hcheck with ⟨e, hres, hstate⟩ | ⟨_, cfg, _, _, hgrants, hres, hstate⟩
    · refine .inl ⟨?_, fun outcome' h => ?_⟩
      · cases s.policy <;> simp [hres]
      · simp only [Except.ok.injEq] at h
        exact ⟨e, h ▸ hres, h ▸ hstate⟩
    · exact .inr ⟨cfg, outcome, hgrants, rfl, hres, hstate, by simp [hgrants.policy, hres]⟩

theorem heartbeat_unnamed {env : Env} {entry : AuthEntry}
    (hmem : heartbeatContext env.host.self ∉ entry.contexts) :
    Effect.stateOr (heartbeat env s entry) s = s := by
  rw [heartbeat, if_pos hmem]
  rfl

theorem heartbeat_refused {env : Env} {entry : AuthEntry}
    (hmem : heartbeatContext env.host.self ∈ entry.contexts)
    (h : ∀ outcome, checkAuth env s entry.signaturePayload entry.signature entry.contexts
      = .ok outcome → ∃ e, outcome.result = .error e ∧ outcome.state = s) :
    Effect.stateOr (heartbeat env s entry) s = s := by
  rw [heartbeat, if_neg (not_not.mpr hmem)]
  cases hcheck : checkAuth env s entry.signaturePayload entry.signature entry.contexts with
  | error a => rfl
  | ok outcome =>
    obtain ⟨e, hres, -⟩ := h outcome hcheck
    simp only [bind, Except.bind, hres]
    rfl

theorem heartbeat_granted {env : Env} {entry : AuthEntry} {outcome : AuthOutcome}
    (hmem : heartbeatContext env.host.self ∈ entry.contexts)
    (hcheck : checkAuth env s entry.signaturePayload entry.signature entry.contexts = .ok outcome)
    (hres : outcome.result = .ok ()) :
    Effect.stateOr (heartbeat env s entry) s = (recordHeartbeat outcome.state env.timestamp).1 := by
  rw [heartbeat, if_neg (not_not.mpr hmem), hcheck]
  simp only [bind, Except.bind, hres]
  rfl

theorem stepEffect_heartbeat {entry : AuthEntry} (haction : c.action = .heartbeat entry) :
    StepEffect host s c (Effect.stateOr (heartbeat (c.env host) s entry) s)
      (if heartbeatContext host.self ∉ entry.contexts then none
        else approvalOf (c.env host) s entry) := by
  by_cases hmem : heartbeatContext host.self ∈ entry.contexts
  · rw [if_neg (not_not.mpr hmem)]
    rcases approvalOf_eq (c.env host) s entry with ⟨hnone, hrefused⟩ |
      ⟨cfg, outcome, hgrants, hcheck, hres, hstate, hsome⟩
    · rw [hnone, heartbeat_refused hmem hrefused]
      exact .idle
    · rw [hsome, heartbeat_granted hmem hcheck hres, hstate]
      exact .heartbeat entry cfg haction hmem hgrants
  · rw [if_pos hmem, heartbeat_unnamed hmem]
    exact .idle

theorem stepEffect_checkAuth {entry : AuthEntry} (haction : c.action = .checkAuth entry) :
    StepEffect host s c
      (Effect.stateOr ((checkAuth (c.env host) s entry.signaturePayload entry.signature
        entry.contexts).map fun outcome => (outcome.state, outcome.events)) s)
      (approvalOf (c.env host) s entry) := by
  rcases approvalOf_eq (c.env host) s entry with ⟨hnone, hrefused⟩ |
    ⟨cfg, outcome, hgrants, hcheck, hres, hstate, hsome⟩
  · rw [hnone]
    cases hcheck : checkAuth (c.env host) s entry.signaturePayload entry.signature
        entry.contexts with
    | error a => exact .idle
    | ok outcome =>
      obtain ⟨e, -, hstate⟩ := hrefused outcome hcheck
      simp only [Except.map, Effect.stateOr, hstate]
      exact .idle
  · rw [hsome, hcheck]
    simp only [Except.map, Effect.stateOr, hstate]
    exact .approved entry cfg haction hgrants

/-- **The inversion of a step.** -/
theorem stepEffect (host : Host) (s : State) (c : Call) :
    StepEffect host s c (step host s c) (approval host s c) := by
  rw [step_eq, approval]
  cases haction : c.action with
  | initializeAccount admin agentPubkey =>
    simp only [Action.effect, AgentGuard.initializeAccount]
    by_cases hfresh : s.initialized.getD false = true
    · rw [if_pos hfresh]
      exact .idle
    · rw [if_neg hfresh]
      by_cases hauth : c.authorized admin = true
      · simp only [requireAuth, Call.env, hauth, if_true]
        exact .initialized admin agentPubkey haction (by simpa using hfresh) hauth
      · simp only [requireAuth, Call.env, hauth]
        exact .idle
  | setPolicy cfg =>
    refine stepEffect_asAdmin fun admin hadmin hauth => ?_
    cases hvalid : validateConfig (c.env host).host.self cfg with
    | error e => exact .idle
    | ok u => exact .policySet admin cfg haction hadmin hauth hvalid
  | resetWindow =>
    exact stepEffect_asAdmin fun admin hadmin hauth => .windowReset admin haction hadmin hauth
  | pause => exact stepEffect_setPaused (.inl ⟨haction, rfl⟩)
  | resume => exact stepEffect_setPaused (.inr ⟨haction, rfl⟩)
  | revokePolicy =>
    exact stepEffect_asAdmin fun admin hadmin hauth => .policyRevoked admin haction hadmin hauth
  | rotateAgentKey newPubkey =>
    refine stepEffect_asAdmin fun admin hadmin hauth => ?_
    cases hkey : s.agentPubkey with
    | none => exact .idle
    | some old => exact .keyRotated admin newPubkey haction hadmin hauth (by simp [hkey])
  | proposeAdminRotation newAdmin =>
    refine stepEffect_asAdmin fun admin hadmin hauth => ?_
    split_ifs with hne
    · exact .idle
    · exact .rotationProposed admin newAdmin haction hadmin hauth hne
  | confirmAdminRotation =>
    simp only [Action.effect, AgentGuard.confirmAdminRotation]
    cases hadmin : s.admin with
    | none => exact .idle
    | some old =>
      cases hpending : s.pendingAdmin with
      | none => exact .idle
      | some pending =>
        by_cases hauth : c.authorized pending = true
        · simp only [requireAuth, Call.env, hauth, if_true]
          exact .rotationConfirmed old pending haction hadmin hpending hauth
        · simp only [requireAuth, Call.env, hauth]
          exact .idle
  | cancelAdminRotation =>
    refine stepEffect_asAdmin fun admin hadmin hauth => ?_
    cases hpending : s.pendingAdmin with
    | none => exact .idle
    | some pending => exact .rotationCancelled admin haction hadmin hauth (by simp [hpending])
  | heartbeat entry => exact stepEffect_heartbeat haction
  | freeze =>
    exact stepEffect_asAdmin fun admin hadmin hauth => .frozen admin haction hadmin hauth
  | refreshDeadman =>
    simp only [Action.effect, AgentGuard.refreshDeadman]
    split_ifs
    · exact .autoFrozen haction
    · exact .idle
    · exact .idle
  | unfreeze =>
    exact stepEffect_asAdmin fun admin hadmin hauth => .unfrozen admin haction hadmin hauth
  | check asset dest amount =>
    simp only [Action.effect]
    cases AgentGuard.check (c.env host) s asset dest amount <;> exact .idle
  | checkDetailed asset dest amount =>
    simp only [Action.effect]
    cases AgentGuard.checkDetailed (c.env host) s asset dest amount <;> exact .idle
  | readPolicy | policyHash | validatePolicy | dmsHealth | status | checkBatch => exact .idle
  | checkAuth entry => exact stepEffect_checkAuth haction

end

/-! ## A small deployment

One host, admin, asset, recipient and protocol, for the concrete runs below. -/

namespace Sample

def self : Address := .contract 0
def admin : Address := .account 1
def asset : Address := .contract 2
def payee : Address := .account 3
def protocol : Address := .contract 4

/-- A host on which exactly the payload itself is a valid signature. -/
def host : Host where
  self := self
  sha256 _ := Vector.replicate 32 0
  ed25519Verify _ payload signature := payload = signature
  policyCanonicalEncoding _ := []

/-- A call at `time` that the admin stands behind. -/
def call (time : U64) (action : Action) : Call := ⟨time, fun a => a = admin, action⟩

/-- An authorization with a valid signature. -/
def auth (time : U64) (contexts : List Context) : Call :=
  call time (.checkAuth ⟨[], [], contexts⟩)

/-- A transfer to the payee. -/
def pay (amount : I128) : Context := transferContext asset payee amount

/-- A call on the protocol. -/
def use : Context := .contract ⟨protocol, "swap", []⟩

/-- A policy with one asset and one protocol, and no limits. -/
def policy : PolicyConfig where
  perTxCap := 0
  windowSecs := 60
  windowCap := 0
  assets := [asset]
  protocols := [⟨protocol, none, false⟩]
  recipients := []
  recipientWindowCaps := []
  blockedRecipients := []
  assetCaps := []
  allowAnyRecipient := true
  activeFrom := 0
  activeUntil := 0
  paused := false
  dmsGraceSecs := 0
  protocolCallsPerWindow := 0

/-- The account after `initialize`. -/
def fresh : State :=
  step host State.empty (call 1 (.initializeAccount admin (Vector.replicate 32 0)))

/-- The account after a first install at time `100`. -/
def installed (cfg : PolicyConfig) : State := step host fresh (call 100 (.setPolicy cfg))

theorem reachable_fresh : Reachable host 1 fresh :=
  .call (call 1 (.initializeAccount admin (Vector.replicate 32 0))) (.deployed 0) (by decide)

theorem reachable_installed (cfg : PolicyConfig) : Reachable host 100 (installed cfg) :=
  .call (call 100 (.setPolicy cfg)) reachable_fresh
    (show (1 : U64).val ≤ (100 : U64).val by decide)

/-- A rolling cap of `50`, and no other limit. -/
def capFifty : PolicyConfig := { policy with windowCap := 50 }

/-- The account after a transfer of `20` at time `110`. -/
def spent : State := step host (installed capFifty) (auth 110 [pay 20])

theorem reachable_spent : Reachable host 110 spent :=
  .call (auth 110 [pay 20]) (reachable_installed capFifty)
    (show (100 : U64).val ≤ (110 : U64).val by decide)

end Sample

end AgentGuard
