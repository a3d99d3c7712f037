import AgentGuard.Contract.Events
import AgentGuard.Contract.Preflight
import AgentGuard.Machinery.Recorder

/-!
# Contract/Touches — the storage entries an authorization touches

`__check_auth` and `heartbeat` once more, as programs that log every storage entry they read or
write, the reads of event emission included.  They return and leave what `checkAuth` and `heartbeat`
do (`Traced.checkAuth_does`, `Traced.heartbeat_does`), so the log is about the same executions.
-/

namespace AgentGuard

open Machinery

/-- The storage keys. -/
inductive DataKey
  | initialized | admin | pendingAdmin | agentPubkey | policy | window | lastHeartbeat | adminFrozen
  | autoFrozenAt | policyRevision
deriving DecidableEq

/-- The keys kept in the contract instance; every other one has a persistent entry of its own. -/
def DataKey.inInstance : DataKey → Bool
  | .initialized | .admin | .pendingAdmin | .agentPubkey => true
  | _ => false

/-- The contract's programs, with the entries they touch. -/
abbrev Program := Recorded DataKey Abort State

namespace Traced

/-! ## Storage access -/

/-- Extending an entry's TTL looks at the entry and leaves its value alone. -/
def extendPersistentTtl (key : DataKey) : Program Unit := Recorded.note (.read key)

def persistSet (key : DataKey) (set : State → State) : Program Unit := do
  Recorded.store key set
  extendPersistentTtl key

def persistGet {α : Type} (key : DataKey) (get : State → Option α) : Program (Option α) := do
  match ← Recorded.load key get with
  | none => return none
  | some value =>
    extendPersistentTtl key
    return some value

/-- `env.storage().instance().get`. -/
def instanceGet {α : Type} (key : DataKey) (get : State → Option α) : Program (Option α) :=
  Recorded.load key get

/-- `load_window`: one key. -/
def loadWindow : Program (Ledger × Bool) := do
  match ← persistGet .window State.window with
  | some state => return (Ledger.fromState state, true)
  | none => return (Ledger.empty, false)

/-- `save_ledger`: one key. -/
def saveLedger (ledger : Ledger) : Program Unit :=
  persistSet .window fun s => { s with window := some ledger.toState }

/-- `AuthSnapshot::load`; without a policy nothing else is read. -/
def loadSnapshot : Program (Option AuthSnapshot) := do
  match ← persistGet .policy State.policy with
  | none => return none
  | some policy =>
    let adminFrozen ← persistGet .adminFrozen State.adminFrozen
    let lastHeartbeat ← persistGet .lastHeartbeat State.lastHeartbeat
    let (ledger, windowPersisted) ← loadWindow
    return some
      { policy
        adminFrozen := adminFrozen.getD false
        lastHeartbeat := lastHeartbeat.getD 0
        windowPersisted
        ledger }

/-! ## Event emission -/

/-- A missing counter reads as `0`. -/
def currentRevision : Program U64 := do
  let revision ← persistGet .policyRevision State.policyRevision
  return revision.getD 0

/-- An event reads the revision it is stamped with. -/
def emitAuth (allowed : Bool) (reason : Option Error) (context : Option Context)
    (contextIndex : ℕ) : Program Event := do
  let revision ← currentRevision
  return .authChecked (if allowed then "allowed" else "blocked")
    ((reason.map Error.reason).getD "") (contextTarget context).1 (contextTarget context).2
    contextIndex revision

/-- A refusal of a whole request, an event for each context. -/
def emitBlocked (e : Error) (contexts : List Context) : Program (List Event) :=
  contexts.zipIdx.mapM fun x => emitAuth false (some e) (some x.1) x.2

def emitVerdict (contexts : List Context) (i : ℕ) : Decision → Program Event
  | .allowed => emitAuth true none contexts[i]? i
  | .blocked e => emitAuth false (some e) contexts[i]? i

def emitVerdicts (contexts : List Context) (verdicts : List Decision) : Program (List Event) :=
  verdicts.zipIdx.mapM fun x => emitVerdict contexts x.2 x.1

/-! ## The two entry points -/

/-- The write-back at the end of `__check_auth`. -/
def persistLedger (windowPersisted : Bool) (ledger : Ledger) : Program Unit :=
  let hasEntries := decide (ledger.entries ≠ []) || ledgerHasRecipientEntries ledger
  if windowPersisted || hasEntries then saveLedger ledger else pure ()

/-- The end of `__check_auth`: the verdicts over the snapshot, their events, the window. -/
def evaluate (env : Env) (authContexts : List Context) (snap : AuthSnapshot) :
    Program (Except Error Unit × List Event) := do
  let (verdicts, ledger) := decideContexts env.host.self (some snap.policy) snap.accountState
    snap.ledger env.timestamp authContexts
  let events ← emitVerdicts authContexts verdicts
  if verdicts.all Decision.isAllowed then
    persistLedger snap.windowPersisted ledger
    return (.ok (), events ++ ledger.merges.map emitWindowMerge)
  else
    match firstError verdicts with
    | some e => return (.error e, events)
    | none => Recorded.fail (.error .decisionInvariantViolation)

/-- `__check_auth`. -/
def checkAuth (env : Env) (signaturePayload signature : List UInt8) (authContexts : List Context) :
    Program (Except Error Unit × List Event) := do
  match ← instanceGet .agentPubkey State.agentPubkey with
  | none =>
    let events ← emitBlocked .notInitialized authContexts
    return (.error .notInitialized, events)
  | some agent =>
    if !env.host.ed25519Verify agent signaturePayload signature then Recorded.fail .signature
    else
      match ← loadSnapshot with
      | none =>
        let events ← emitBlocked .noPolicy authContexts
        return (.error .noPolicy, events)
      | some snap => evaluate env authContexts snap

/-- The body of `heartbeat`, once the account has authorized it. -/
def recordHeartbeat (now : U64) : Program (List Event) := do
  let last ← persistGet .lastHeartbeat State.lastHeartbeat
  if now = last.getD 0 then return []
  else
    persistSet .lastHeartbeat fun s => { s with lastHeartbeat := some now }
    let policy ← persistGet .policy State.policy
    let grace : U64 := (policy.map PolicyConfig.dmsGraceSecs).getD 0
    let expiresAt := if grace.val = 0 then 0 else now.saturatingAdd grace
    return [.heartbeat now expiresAt]

/-- The host asks the account: an `Err` of `__check_auth` aborts the transaction. -/
def approve (env : Env) (entry : AuthEntry) : Program (List Event) := do
  match ← checkAuth env entry.signaturePayload entry.signature entry.contexts with
  | (.ok (), events) => return events
  | (.error e, _) => Recorded.fail (.error e)

/-- `heartbeat`, with the `__check_auth` its `require_auth` is routed through. -/
def heartbeat (env : Env) (entry : AuthEntry) : Program (List Event) := do
  if heartbeatContext env.host.self ∉ entry.contexts then Recorded.fail (.auth env.host.self)
  else
    let authEvents ← approve env entry
    let events ← recordHeartbeat env.timestamp
    return authEvents ++ events

/-! ## What the storage accesses log -/

section

variable {s : State} {α : Type}

/-- The accesses of a `persist_get`: the read, and the TTL of an entry that is there. -/
def readLog (key : DataKey) (value : Option α) : List (Access DataKey) :=
  if value.isSome then [.read key, .read key] else [.read key]

@[simp] theorem mem_readLog {key : DataKey} {value : Option α} {a : Access DataKey} :
    a ∈ readLog key value ↔ a = .read key := by
  rw [readLog]
  split <;> simp

/-- The accesses of a `persist_set`. -/
def writeLog (key : DataKey) : List (Access DataKey) := [.write key, .read key]

/-- The helpers do what their names say, and log it. -/
theorem persistSet_does (key : DataKey) (set : State → State) :
    Does (persistSet key set) s () (set s) (writeLog key) :=
  (does_store key set s).bind (does_note _ _)

theorem persistGet_does (key : DataKey) {get : State → Option α} {value : Option α}
    (h : get s = value) : Does (persistGet key get) s value s (readLog key value) := by
  cases value with
  | none => exact (does_load key h).bind_pure rfl
  | some v => exact (does_load key h).bind ((does_note _ s).bind_pure rfl)

theorem loadWindow_does : Does loadWindow s s.loadWindow s (readLog .window s.window) := by
  rw [State.loadWindow]
  cases h : s.window with
  | none => exact (persistGet_does .window h).bind_pure rfl
  | some state => exact (persistGet_does .window h).bind_pure rfl

/-- What loading the snapshot touches, under a policy. -/
def snapshotLog (s : State) : List (Access DataKey) :=
  readLog .policy s.policy ++ (readLog .adminFrozen s.adminFrozen ++
    (readLog .lastHeartbeat s.lastHeartbeat ++ readLog .window s.window))

/-- The snapshot of a storage with the policy `cfg`. -/
def snapshot (s : State) (cfg : PolicyConfig) : AuthSnapshot where
  policy := cfg
  adminFrozen := s.frozenOrFalse
  lastHeartbeat := s.heartbeatOrZero
  windowPersisted := s.loadWindow.2
  ledger := s.loadWindow.1

/-- **The snapshot** reads its four keys, the policy first. -/
theorem loadSnapshot_does {cfg : PolicyConfig} (h : s.policy = some cfg) :
    Does loadSnapshot s (some (snapshot s cfg)) s (snapshotLog s) := by
  rw [snapshotLog, h]
  refine (persistGet_does .policy h).bind ?_
  refine (persistGet_does .adminFrozen rfl).bind ?_
  refine (persistGet_does .lastHeartbeat rfl).bind ?_
  exact loadWindow_does.bind_pure rfl

/-- Without a policy it reads no other. -/
theorem loadSnapshot_none (h : s.policy = none) :
    Does loadSnapshot s none s (readLog .policy s.policy) := by
  rw [h]
  exact (persistGet_does .policy h).bind_pure rfl

/-! ## What event emission logs -/

theorem emitAuth_does (allowed : Bool) (reason : Option Error) (ctx : Option Context) (i : ℕ) :
    Does (emitAuth allowed reason ctx i) s (AgentGuard.emitAuth s allowed reason ctx i) s
      (readLog .policyRevision s.policyRevision) := by
  have hrevision : Does currentRevision s s.currentRevision s
      (readLog .policyRevision s.policyRevision) :=
    (persistGet_does .policyRevision rfl).bind_pure rfl
  exact hrevision.bind_pure rfl

theorem emitVerdict_does (contexts : List Context) (i : ℕ) (verdict : Decision) :
    Does (emitVerdict contexts i verdict) s (AgentGuard.emitVerdict s contexts i verdict) s
      (readLog .policyRevision s.policyRevision) := by
  cases verdict with
  | allowed => exact emitAuth_does _ _ _ _
  | blocked e => exact emitAuth_does _ _ _ _

/-- **Every event of an authorization reads the revision counter.** -/
def eventLog (s : State) (n : ℕ) : List (Access DataKey) :=
  (List.replicate n (readLog .policyRevision s.policyRevision)).flatten

/-- Events read one key, however many there are. -/
theorem mem_eventLog {n : ℕ} {a : Access DataKey} :
    a ∈ eventLog s n ↔ n ≠ 0 ∧ a = .read .policyRevision := by
  simp [eventLog, List.mem_flatten, List.mem_replicate]

theorem emitBlocked_does (e : Error) (contexts : List Context) :
    Does (emitBlocked e contexts) s (AgentGuard.emitBlocked s e contexts) s
      (eventLog s contexts.length) := by
  rw [AgentGuard.emitBlocked, List.mapIdx_eq_zipIdx_map, ← List.length_zipIdx (i := 0)]
  exact does_mapM _ fun x _ => emitAuth_does _ _ _ _

/-- **The verdicts change nothing**, and read the revision once each. -/
theorem emitVerdicts_does (contexts : List Context) (verdicts : List Decision) :
    Does (emitVerdicts contexts verdicts) s
      (verdicts.mapIdx (AgentGuard.emitVerdict s contexts)) s (eventLog s verdicts.length) := by
  rw [List.mapIdx_eq_zipIdx_map, ← List.length_zipIdx (i := 0)]
  exact does_mapM _ fun x _ => emitVerdict_does _ _ _

/-! ## The authorization -/

/-- The accesses that persist a ledger. -/
def persistLog (windowPersisted : Bool) (ledger : Ledger) : List (Access DataKey) :=
  if windowPersisted || (decide (ledger.entries ≠ []) || ledgerHasRecipientEntries ledger) then
    writeLog .window
  else []

/-- A write-back accesses the window only. -/
theorem mem_persistLog {ledger : Ledger} {a : Access DataKey} :
    a ∈ persistLog s.loadWindow.2 ledger ↔
      persists s ledger = true ∧ (a = .write .window ∨ a = .read .window) := by
  have heq : persistLog s.loadWindow.2 ledger
      = if persists s ledger then writeLog .window else [] := by
    rw [persistLog, loadWindow_snd]
    rfl
  rw [heq]
  split_ifs with h <;> simp [writeLog, h]

theorem persistLedger_does (windowPersisted : Bool) (ledger : Ledger) :
    Does (persistLedger windowPersisted ledger) s ()
      (AgentGuard.persistLedger s windowPersisted ledger) (persistLog windowPersisted ledger) := by
  rw [persistLedger, AgentGuard.persistLedger, persistLog]
  split
  · exact persistSet_does _ _
  · exact does_pure () s

variable {env : Env} {signaturePayload signature : List UInt8} {contexts : List Context}
  {agent : Bytes32} {cfg : PolicyConfig}

/-- **What an approved authorization touches.** -/
def approvalLog (env : Env) (s : State) (contexts : List Context) : List (Access DataKey) :=
  [.read .agentPubkey] ++ (snapshotLog s ++ (eventLog s (authDecision env s contexts).1.length ++
    persistLog s.loadWindow.2 (authDecision env s contexts).2))

/-- The program decides as the plain entry point does. -/
theorem decide_snapshot (hcfg : s.policy = some cfg) :
    decideContexts env.host.self (some (snapshot s cfg).policy) (snapshot s cfg).accountState
      (snapshot s cfg).ledger env.timestamp contexts = authDecision env s contexts := by
  rw [authDecision, hcfg]
  rfl

/-- **An approval** writes the window it persists. -/
theorem evaluate_approved (hcfg : s.policy = some cfg)
    (hall : (authDecision env s contexts).1.all Decision.isAllowed = true) :
    Does (evaluate env contexts (snapshot s cfg)) s
      (.ok (), decisionEvents env s contexts
        ++ (authDecision env s contexts).2.merges.map emitWindowMerge)
      (s.admitted env contexts)
      (eventLog s (authDecision env s contexts).1.length ++
        persistLog s.loadWindow.2 (authDecision env s contexts).2) := by
  rw [evaluate, decide_snapshot hcfg, State.admitted, decisionEvents]
  generalize authDecision env s contexts = d at hall ⊢
  obtain ⟨verdicts, ledger⟩ := d
  refine (emitVerdicts_does contexts verdicts).bind ?_
  rw [if_pos hall]
  exact (persistLedger_does _ _).bind_pure rfl

/-- **A refusal** writes nothing. -/
theorem evaluate_refused (hcfg : s.policy = some cfg) {e : Error}
    (hall : (authDecision env s contexts).1.all Decision.isAllowed ≠ true)
    (hfirst : firstError (authDecision env s contexts).1 = some e) :
    Does (evaluate env contexts (snapshot s cfg)) s
      (.error e, decisionEvents env s contexts) s
      (eventLog s (authDecision env s contexts).1.length) := by
  rw [evaluate, decide_snapshot hcfg, decisionEvents]
  generalize authDecision env s contexts = d at hall hfirst ⊢
  obtain ⟨verdicts, ledger⟩ := d
  refine (emitVerdicts_does contexts verdicts).bind_pure ?_
  rw [if_neg hall, hfirst]

/-- With key, signature and policy in place the rest is the evaluation. -/
theorem checkAuth_signed {r : Except Error Unit × List Event} {s' : State}
    {log : List (Access DataKey)} (hkey : s.agentPubkey = some agent)
    (hsig : env.host.ed25519Verify agent signaturePayload signature = true)
    (hcfg : s.policy = some cfg)
    (h : Does (evaluate env contexts (snapshot s cfg)) s r s' log) :
    Does (checkAuth env signaturePayload signature contexts) s r s'
      ([.read .agentPubkey] ++ (snapshotLog s ++ log)) := by
  refine (does_load DataKey.agentPubkey hkey).bind ?_
  simp only [hsig, Bool.not_true, Bool.false_eq_true, if_false]
  exact (loadSnapshot_does hcfg).bind h

/-- Without a key only the events are left to read for, -/
theorem checkAuth_uninitialized (hkey : s.agentPubkey = none) :
    Does (checkAuth env signaturePayload signature contexts) s
      (.error .notInitialized, AgentGuard.emitBlocked s .notInitialized contexts) s
      ([.read .agentPubkey] ++ eventLog s contexts.length) :=
  (does_load DataKey.agentPubkey hkey).bind ((emitBlocked_does _ _).bind_pure rfl)

/-- and without a policy too. -/
theorem checkAuth_noPolicy (hkey : s.agentPubkey = some agent)
    (hsig : env.host.ed25519Verify agent signaturePayload signature = true)
    (hcfg : s.policy = none) :
    Does (checkAuth env signaturePayload signature contexts) s
      (.error .noPolicy, AgentGuard.emitBlocked s .noPolicy contexts) s
      ([.read .agentPubkey] ++ (readLog .policy s.policy ++ eventLog s contexts.length)) := by
  refine (does_load DataKey.agentPubkey hkey).bind ?_
  simp only [hsig, Bool.not_true, Bool.false_eq_true, if_false]
  exact (loadSnapshot_none hcfg).bind ((emitBlocked_does _ _).bind_pure rfl)

/-- **The traced `__check_auth` returns, leaves and emits what `__check_auth` does**; what an
approval touches is its `approvalLog`. -/
theorem checkAuth_does {outcome : AuthOutcome}
    (h : AgentGuard.checkAuth env s signaturePayload signature contexts = .ok outcome) :
    ∃ log, Does (checkAuth env signaturePayload signature contexts) s
      (outcome.result, outcome.events) outcome.state log ∧
        (outcome.result = .ok () → log = approvalLog env s contexts) := by
  cases checkAuth_returns h with
  | uninitialized hkey => exact ⟨_, checkAuth_uninitialized hkey, fun hok => by cases hok⟩
  | noPolicy agent hkey hsig hcfg =>
    exact ⟨_, checkAuth_noPolicy hkey hsig hcfg, fun hok => by cases hok⟩
  | approved agent cfg hkey hsig hgrants =>
    exact ⟨_, checkAuth_signed hkey hsig hgrants.policy
      (evaluate_approved hgrants.policy hgrants.allowed), fun _ => rfl⟩
  | refused agent cfg e hkey hsig hcfg hall hfirst =>
    exact ⟨_, checkAuth_signed hkey hsig hcfg (evaluate_refused hcfg hall hfirst),
      fun hok => by cases hok⟩

/-- **…and aborts when `__check_auth` does.** -/
theorem checkAuth_fails {a : Abort}
    (h : AgentGuard.checkAuth env s signaturePayload signature contexts = .error a) :
    Fails (checkAuth env signaturePayload signature contexts) s a := by
  cases hkey : s.agentPubkey with
  | none => simp [AgentGuard.checkAuth, hkey] at h
  | some agent =>
    by_cases hsig : env.host.ed25519Verify agent signaturePayload signature = true
    · cases hcfg : s.policy with
      | none => simp [AgentGuard.checkAuth, hkey, hsig, AuthSnapshot.load, hcfg] at h
      | some cfg =>
        rw [checkAuth_eq hkey hsig hcfg] at h
        split_ifs at h with hall
        cases hfirst : firstError (authDecision env s contexts).1 with
        | none => exact absurd (firstError_eq_none_iff.mp hfirst) hall
        | some e => simp [hfirst] at h
    · obtain rfl : a = .signature := by
        simpa [AgentGuard.checkAuth, hkey, hsig, eq_comm] using h
      refine (does_load DataKey.agentPubkey hkey).bind_fails ?_
      simp only [hsig, Bool.not_false, if_true]
      exact fails_fail _ s

/-! ## The approval -/

section

variable {entry : AuthEntry} {outcome : AuthOutcome}

theorem approve_does
    (h : AgentGuard.checkAuth env s entry.signaturePayload entry.signature entry.contexts
      = .ok outcome) (hok : outcome.result = .ok ()) :
    Does (approve env entry) s outcome.events outcome.state (approvalLog env s entry.contexts) := by
  obtain ⟨log, hdoes, hlog⟩ := checkAuth_does h
  rw [hlog hok, hok] at hdoes
  exact hdoes.bind_pure rfl

theorem approve_refused {e : Error}
    (h : AgentGuard.checkAuth env s entry.signaturePayload entry.signature entry.contexts
      = .ok outcome) (herr : outcome.result = .error e) :
    Fails (approve env entry) s (.error e) := by
  obtain ⟨log, hdoes, -⟩ := checkAuth_does h
  rw [herr] at hdoes
  exact hdoes.bind_fails (fails_fail _ _)

theorem approve_fails {a : Abort}
    (h : AgentGuard.checkAuth env s entry.signaturePayload entry.signature entry.contexts
      = .error a) : Fails (approve env entry) s a :=
  (checkAuth_fails h).bind

/-- **A returning run of `approve`** is an approval of `__check_auth`, and touches its
`approvalLog`. -/
theorem approve_run {events : List Event} {s' : State} {log : List (Access DataKey)}
    (h : (approve env entry).run (s, []) = .ok (events, s', log)) :
    AgentGuard.checkAuth env s entry.signaturePayload entry.signature entry.contexts
      = .ok ⟨.ok (), s', events⟩ ∧ log = approvalLog env s entry.contexts := by
  cases hcheck : AgentGuard.checkAuth env s entry.signaturePayload entry.signature
      entry.contexts with
  | error a => exact absurd h (approve_fails hcheck).not_ok
  | ok outcome =>
    cases hres : outcome.result with
    | error e => exact absurd h (approve_refused hcheck hres).not_ok
    | ok u =>
      obtain ⟨rfl, rfl, rfl⟩ := (approve_does hcheck hres).unique h
      exact ⟨by rw [← hres], rfl⟩

end

/-! ## The heartbeat -/

/-- What the body of `heartbeat` touches. -/
def beatLog (s : State) (now : U64) : List (Access DataKey) :=
  readLog .lastHeartbeat s.lastHeartbeat ++
    if now = s.heartbeatOrZero then [] else writeLog .lastHeartbeat ++ readLog .policy s.policy

/-- A heartbeat of the same second only reads the clock. -/
theorem mem_beatLog {now : U64} {a : Access DataKey} :
    a ∈ beatLog s now ↔ a = .read .lastHeartbeat ∨ now ≠ s.heartbeatOrZero ∧
      (a = .write .lastHeartbeat ∨ a = .read .lastHeartbeat ∨ a = .read .policy) := by
  rw [beatLog]
  split_ifs with h <;> simp [writeLog, h]

theorem recordHeartbeat_does (now : U64) :
    Does (recordHeartbeat now) s (AgentGuard.recordHeartbeat s now).2
      (AgentGuard.recordHeartbeat s now).1 (beatLog s now) := by
  refine (persistGet_does .lastHeartbeat rfl).bind ?_
  rw [AgentGuard.recordHeartbeat]
  by_cases h : now = s.heartbeatOrZero
  · have h' : now = s.lastHeartbeat.getD 0 := h
    rw [if_pos h', if_pos h, if_pos h]
    exact does_pure [] s
  · have h' : ¬now = s.lastHeartbeat.getD 0 := h
    rw [if_neg h', if_neg h, if_neg h]
    refine (persistSet_does _ _).bind ?_
    exact (persistGet_does .policy rfl).bind_pure rfl

/-- What a recorded heartbeat touches: its authorization, then the clock. -/
def heartbeatLog (env : Env) (s : State) (entry : AuthEntry) : List (Access DataKey) :=
  approvalLog env s entry.contexts ++ beatLog (s.admitted env entry.contexts) env.timestamp

/-- **An approved heartbeat**: the accesses of its authorization, then those of the clock. -/
theorem heartbeat_does {entry : AuthEntry} {s' : State} {events : List Event}
    (h : AgentGuard.heartbeat env s entry = .ok (s', events)) :
    Does (heartbeat env entry) s events s' (heartbeatLog env s entry) := by
  obtain ⟨outcome, hcheck, hok, rfl, rfl⟩ := heartbeat_ok h
  have hmem : heartbeatContext env.host.self ∈ entry.contexts := by
    by_contra hmem
    simp [AgentGuard.heartbeat, hmem] at h
  obtain ⟨cfg, -, hstate⟩ := checkAuth_ok hcheck hok
  rw [heartbeat, if_neg (not_not.mpr hmem), heartbeatLog, ← hstate]
  refine (approve_does hcheck hok).bind ?_
  exact (recordHeartbeat_does _).bind_pure rfl

theorem heartbeat_fails {entry : AuthEntry} {a : Abort}
    (h : AgentGuard.heartbeat env s entry = .error a) : Fails (heartbeat env entry) s a := by
  by_cases hmem : heartbeatContext env.host.self ∈ entry.contexts
  · rw [AgentGuard.heartbeat, if_neg (not_not.mpr hmem)] at h
    rw [heartbeat, if_neg (not_not.mpr hmem)]
    cases hcheck : AgentGuard.checkAuth env s entry.signaturePayload entry.signature
        entry.contexts with
    | error b =>
      obtain rfl : b = a := by simpa [hcheck, bind, Except.bind] using h
      exact (approve_fails hcheck).bind
    | ok outcome =>
      cases hres : outcome.result with
      | error e =>
        obtain rfl : a = .error e := by simpa [hcheck, bind, Except.bind, hres, eq_comm] using h
        exact (approve_refused hcheck hres).bind
      | ok u => simp [hcheck, bind, Except.bind, hres, pure, Except.pure] at h
  · obtain rfl : a = .auth env.host.self := by
      simpa [AgentGuard.heartbeat, hmem, eq_comm] using h
    rw [heartbeat, if_pos hmem]
    exact fails_fail _ s

/-- **A returning run of the traced `heartbeat`** is one of `heartbeat`. -/
theorem heartbeat_run {entry : AuthEntry} {events : List Event} {s' : State}
    {log : List (Access DataKey)}
    (h : (heartbeat env entry).run (s, []) = .ok (events, s', log)) :
    AgentGuard.heartbeat env s entry = .ok (s', events) ∧ log = heartbeatLog env s entry := by
  cases hbeat : AgentGuard.heartbeat env s entry with
  | error a => exact absurd h (heartbeat_fails hbeat).not_ok
  | ok r =>
    obtain ⟨rfl, rfl, rfl⟩ := (heartbeat_does hbeat).unique h
    exact ⟨rfl, rfl⟩

/-! ## The touched entries -/

/-- **What an approval touches**: the agent's key, the snapshot, the revision counter its events
read; and it writes the window when it persists it. -/
theorem mem_approvalLog (hlen : contexts.length ≤ maxAuthContexts) (hne : contexts ≠ [])
    {a : Access DataKey} :
    a ∈ approvalLog env s contexts ↔
      a ∈ [.read .agentPubkey, .read .policy, .read .adminFrozen, .read .lastHeartbeat,
        .read .window, .read .policyRevision] ∨
      (persists s (authDecision env s contexts).2 = true ∧ a = .write .window) := by
  have hcount : (authDecision env s contexts).1.length ≠ 0 := by
    rw [authDecision, length_decideContexts hlen]
    exact fun h => hne (List.length_eq_zero_iff.mp h)
  simp only [approvalLog, snapshotLog, List.mem_append, mem_readLog, mem_eventLog, mem_persistLog,
    List.mem_cons, List.not_mem_nil, or_false]
  constructor
  · rintro (rfl | (rfl | rfl | rfl | rfl) | ⟨-, rfl⟩ | ⟨hpersists, rfl | rfl⟩) <;> simp [*]
  · rintro ((rfl | rfl | rfl | rfl | rfl | rfl) | ⟨hpersists, rfl⟩) <;> simp [*]

/-- **What a heartbeat touches** beyond its authorization: it writes the clock when that moves. -/
theorem mem_heartbeatLog {entry : AuthEntry} (hlen : entry.contexts.length ≤ maxAuthContexts)
    (hne : entry.contexts ≠ []) {a : Access DataKey} :
    a ∈ heartbeatLog env s entry ↔ a ∈ approvalLog env s entry.contexts ∨
      (env.timestamp ≠ s.heartbeatOrZero ∧ a = .write .lastHeartbeat) := by
  have hclock : (s.admitted env entry.contexts).heartbeatOrZero = s.heartbeatOrZero := by
    rw [State.heartbeatOrZero, admitted_lastHeartbeat]
    rfl
  rw [heartbeatLog, List.mem_append, mem_beatLog, hclock, mem_approvalLog hlen hne]
  simp only [List.mem_cons, List.not_mem_nil, or_false]
  constructor
  · rintro (h | rfl | ⟨hmoves, rfl | rfl | rfl⟩)
    · exact .inl h
    all_goals simp [*]
  · rintro (h | ⟨hmoves, rfl⟩)
    · exact .inl h
    · simp [hmoves]

end

end Traced

end AgentGuard
