import AgentGuard.Contract.Validate

/-!
# Contract/Account — storage, events and the entry points of the guard account

`lib.rs`: the storage keys as one record, and every entry point as a function of the host
environment and the storage.  A panic, a failed `require_auth` or a bad signature aborts the call
and leaves the storage as it was.  Entry TTLs carry no value the code reads; `Contract/Rent` adds
them.
-/

namespace AgentGuard

open Machinery

/-! ## The host -/

/-- What a deployment fixes: the account's own address and the host's crypto and encoding. -/
structure Host where
  self : Address
  sha256 : List UInt8 → Bytes32
  ed25519Verify : Bytes32 → List UInt8 → List UInt8 → Bool
  policyCanonicalEncoding : PolicyConfig → List UInt8

/-- What one invocation sees of the host: the ledger timestamp, and which addresses' `require_auth`
succeeds. -/
structure Env where
  host : Host
  timestamp : U64
  authorized : Address → Bool

/-- Why a call did not return. -/
inductive Abort
  | error (e : Error)
  | auth (a : Address)
  | signature
deriving DecidableEq

/-! ## Storage -/

/-- The contract's storage, one field for each `DataKey`. -/
structure State where
  initialized : Option Bool
  admin : Option Address
  pendingAdmin : Option Address
  agentPubkey : Option Bytes32
  policy : Option PolicyConfig
  window : Option WindowState
  lastHeartbeat : Option U64
  adminFrozen : Option Bool
  autoFrozenAt : Option U64
  policyRevision : Option U64
deriving DecidableEq

namespace State

/-- The storage of a freshly deployed contract. -/
def empty : State := ⟨none, none, none, none, none, none, none, none, none, none⟩

/-- The in-memory ledger, and whether `DataKey::Window` was present at all. -/
def loadWindow (s : State) : Ledger × Bool :=
  match s.window with
  | some state => (Ledger.fromState state, true)
  | none => (Ledger.empty, false)

def saveLedger (s : State) (ledger : Ledger) : State := { s with window := some ledger.toState }

def currentRevision (s : State) : U64 := s.policyRevision.getD 0

def incrementRevision (s : State) : State :=
  { s with policyRevision := some (s.currentRevision.saturatingAdd 1) }

def heartbeatOrZero (s : State) : U64 := s.lastHeartbeat.getD 0

def frozenOrFalse (s : State) : Bool := s.adminFrozen.getD false

end State

/-- Everything the policy half of an authorization reads from storage. -/
structure AuthSnapshot where
  policy : PolicyConfig
  adminFrozen : Bool
  lastHeartbeat : U64
  windowPersisted : Bool
  ledger : Ledger

/-- Load the snapshot; `none` when no policy is installed. -/
def AuthSnapshot.load (s : State) : Option AuthSnapshot :=
  s.policy.map fun policy =>
    { policy
      adminFrozen := s.frozenOrFalse
      lastHeartbeat := s.heartbeatOrZero
      windowPersisted := s.loadWindow.2
      ledger := s.loadWindow.1 }

def AuthSnapshot.accountState (snap : AuthSnapshot) : AccountState :=
  ⟨snap.adminFrozen, snap.lastHeartbeat⟩

def ledgerHasRecipientEntries (ledger : Ledger) : Bool :=
  ledger.recipients.any fun r => r.entries ≠ []

/-! ## Events -/

/-- The contract events. -/
inductive Event
  | authChecked (result reason : Symbol) (contract : Option Address) (fnName : Option Symbol)
      (contextIndex : ℕ) (revision : U64)
  | heartbeat (time expiresAt : U64)
  | dmsAutoFrozen (time : U64)
  | initialized (by' : Address)
  | frozen (by' : Address)
  | unfrozen (by' : Address) (rearmedDms : Bool)
  | policySet (by' : Address) (revision : U64)
  | policyRevoked (by' : Address) (revision : U64)
  | paused (by' : Address) (revision : U64)
  | resumed (by' : Address) (revision : U64)
  | windowReset (by' : Address)
  | agentRotated (by' : Address) (oldFingerprint newFingerprint : List UInt8)
  | windowMerged (ledgerKind : Symbol) (mergedTs : U64) (mergedValue : I128)
  | adminRotationProposed (by' proposed : Address)
  | adminRotated (old new : Address)
  | adminRotationCancelled (by' cancelled : Address)
deriving DecidableEq

/-- The contract and function an `auth_checked` event names. -/
def contextTarget : Option Context → Option Address × Option Symbol
  | some (.contract c) => (some c.contract, some c.fnName)
  | _ => (none, none)

def emitAuth (s : State) (allowed : Bool) (reason : Option Error) (context : Option Context)
    (contextIndex : ℕ) : Event :=
  .authChecked (if allowed then "allowed" else "blocked") ((reason.map Error.reason).getD "")
    (contextTarget context).1 (contextTarget context).2 contextIndex s.currentRevision

def emitWindowMerge (merge : WindowMerge) : Event :=
  let ledgerKind :=
    match merge.kind with
    | .globalSpend => "global_spend"
    | .recipientSpend => "recipient_spend"
    | .protocolCalls => "protocol_calls"
  .windowMerged ledgerKind merge.mergedTs merge.mergedValue

/-- The same blocking event for every context. -/
def emitBlocked (s : State) (e : Error) (contexts : List Context) : List Event :=
  contexts.mapIdx fun i ctx => emitAuth s false (some e) (some ctx) i

/-- The event of one verdict; an aggregate verdict may have no context of its own. -/
def emitVerdict (s : State) (contexts : List Context) (i : ℕ) : Decision → Event
  | .allowed => emitAuth s true none contexts[i]? i
  | .blocked e => emitAuth s false (some e) contexts[i]? i

/-- The first eight bytes of a key's SHA-256. -/
def keyFingerprint (host : Host) (pubkey : Bytes32) : List UInt8 :=
  (host.sha256 pubkey.toList).toList.take 8

/-! ## Lifecycle and policy management -/

/-- A call's effect: it aborts, or leaves a storage and events behind. -/
abbrev Effect := Except Abort (State × List Event)

/-- `address.require_auth()`. -/
def requireAuth (env : Env) (a : Address) : Except Abort Unit :=
  if env.authorized a then .ok () else .error (.auth a)

/-- The stored admin, once it has authorized the call. -/
def adminOrPanic (env : Env) (s : State) : Except Abort Address :=
  match s.admin with
  | some a => do
    requireAuth env a
    return a
  | none => .error (.error .notInitialized)

def initializeAccount (env : Env) (s : State) (admin : Address) (agentPubkey : Bytes32) : Effect :=
  if s.initialized.getD false then .error (.error .alreadyInitialized)
  else do
    requireAuth env admin
    return ({ s with
      admin := some admin
      agentPubkey := some agentPubkey
      initialized := some true
      adminFrozen := some false
      lastHeartbeat := some 0 }, [.initialized admin])

/-- What `set_policy` stores: an edit keeps the window and the clock, a first install seeds both. -/
def installPolicy (s : State) (config : PolicyConfig) (now : U64) : State :=
  let firstInstall := s.policy.isNone
  let s := { s with policy := some config }.incrementRevision
  if firstInstall then { s.saveLedger Ledger.empty with lastHeartbeat := some now } else s

def setPolicy (env : Env) (s : State) (config : PolicyConfig) : Effect := do
  let admin ← adminOrPanic env s
  match validateConfig env.host.self config with
  | .error e => .error (.error e)
  | .ok () =>
    let s := installPolicy s config env.timestamp
    return (s, [.policySet admin s.currentRevision])

def resetWindow (env : Env) (s : State) : Effect := do
  let admin ← adminOrPanic env s
  return ({ s with window := none }, [.windowReset admin])

/-- Shared by `pause` and `resume`: flip the stored flag, bumping the revision when it changes. -/
def setPaused (env : Env) (s : State) (paused : Bool) : Effect := do
  let admin ← adminOrPanic env s
  match s.policy with
  | none => .error (.error .noPolicy)
  | some cfg =>
    let s :=
      if cfg.paused ≠ paused then
        { s with policy := some { cfg with paused } }.incrementRevision
      else s
    return (s, [if paused then .paused admin s.currentRevision
      else .resumed admin s.currentRevision])

def pause (env : Env) (s : State) : Effect := setPaused env s true

def resume (env : Env) (s : State) : Effect := setPaused env s false

def revokePolicy (env : Env) (s : State) : Effect := do
  let admin ← adminOrPanic env s
  let s := { s with policy := none, window := none }.incrementRevision
  return (s, [.policyRevoked admin s.currentRevision])

def rotateAgentKey (env : Env) (s : State) (newPubkey : Bytes32) : Effect := do
  let admin ← adminOrPanic env s
  match s.agentPubkey with
  | none => .error (.error .notInitialized)
  | some oldPubkey =>
    return ({ s with agentPubkey := some newPubkey },
      [.agentRotated admin (keyFingerprint env.host oldPubkey)
        (keyFingerprint env.host newPubkey)])

/-! ## Admin rotation -/

def proposeAdminRotation (env : Env) (s : State) (newAdmin : Address) : Effect := do
  let admin ← adminOrPanic env s
  if newAdmin = admin then .error (.error .invalidConfig)
  else return ({ s with pendingAdmin := some newAdmin }, [.adminRotationProposed admin newAdmin])

def confirmAdminRotation (env : Env) (s : State) : Effect :=
  match s.admin with
  | none => .error (.error .notInitialized)
  | some old =>
    match s.pendingAdmin with
    | none => .error (.error .noPendingAdmin)
    | some pending => do
      requireAuth env pending
      return ({ s with admin := some pending, pendingAdmin := none },
        [.adminRotated old pending])

def cancelAdminRotation (env : Env) (s : State) : Effect := do
  let admin ← adminOrPanic env s
  match s.pendingAdmin with
  | none => .error (.error .noPendingAdmin)
  | some pending =>
    return ({ s with pendingAdmin := none }, [.adminRotationCancelled admin pending])

/-! ## Custom account enforcement -/

/-- The first blocking verdict's error. -/
def firstError : List Decision → Option Error
  | [] => none
  | .allowed :: rest => firstError rest
  | .blocked e :: _ => some e

/-- What `__check_auth` returns, with the storage and events it leaves. -/
structure AuthOutcome where
  result : Except Error Unit
  state : State
  events : List Event

/-- Persist the ledger of an approved authorization: whenever the key was there, and otherwise when
there is a spend to keep. -/
def persistLedger (s : State) (windowPersisted : Bool) (ledger : Ledger) : State :=
  let hasEntries := decide (ledger.entries ≠ []) || ledgerHasRecipientEntries ledger
  if windowPersisted || hasEntries then s.saveLedger ledger else s

/-- `__check_auth`: the agent's signature, then the decision table over every context. -/
def checkAuth (env : Env) (s : State) (signaturePayload signature : List UInt8)
    (authContexts : List Context) : Except Abort AuthOutcome :=
  match s.agentPubkey with
  | none =>
    .ok ⟨.error .notInitialized, s, emitBlocked s .notInitialized authContexts⟩
  | some agent =>
    if !env.host.ed25519Verify agent signaturePayload signature then .error .signature
    else
      match AuthSnapshot.load s with
      | none => .ok ⟨.error .noPolicy, s, emitBlocked s .noPolicy authContexts⟩
      | some snap =>
        let (verdicts, ledger) := decideContexts env.host.self (some snap.policy)
          snap.accountState snap.ledger env.timestamp authContexts
        let events := verdicts.mapIdx (emitVerdict s authContexts)
        if verdicts.all Decision.isAllowed then
          .ok ⟨.ok (), persistLedger s snap.windowPersisted ledger,
            events ++ ledger.merges.map emitWindowMerge⟩
        else
          match firstError verdicts with
          | some e => .ok ⟨.error e, s, events⟩
          | none => .error (.error .decisionInvariantViolation)

/-! ## Dead-man switch and freeze -/

/-- The authorization entry the host evaluates when the account itself must authorize a call. -/
structure AuthEntry where
  signaturePayload : List UInt8
  signature : List UInt8
  contexts : List Context

/-- The context of a `heartbeat` call. -/
def heartbeatContext (self : Address) : Context := .contract ⟨self, "heartbeat", []⟩

/-- The body of `heartbeat`, once the account has authorized it. -/
def recordHeartbeat (s : State) (now : U64) : State × List Event :=
  if now = s.heartbeatOrZero then (s, [])
  else
    let grace : U64 := (s.policy.map PolicyConfig.dmsGraceSecs).getD 0
    let expiresAt := if grace.val = 0 then 0 else now.saturatingAdd grace
    ({ s with lastHeartbeat := some now }, [.heartbeat now expiresAt])

/-- `heartbeat`: the account's own `require_auth` is routed by the host through `__check_auth`, over
an authorization entry that names this call. -/
def heartbeat (env : Env) (s : State) (entry : AuthEntry) : Effect :=
  if heartbeatContext env.host.self ∉ entry.contexts then .error (.auth env.host.self)
  else do
    let outcome ← checkAuth env s entry.signaturePayload entry.signature entry.contexts
    match outcome.result with
    | .error e => .error (.error e)
    | .ok () =>
      let (s, events) := recordHeartbeat outcome.state env.timestamp
      return (s, outcome.events ++ events)

def freeze (env : Env) (s : State) : Effect := do
  let admin ← adminOrPanic env s
  return ({ s with adminFrozen := some true }, [.frozen admin])

/-- Record an expiry that has already happened, once. -/
def refreshDeadman (env : Env) (s : State) : Effect :=
  let grace : U64 := (s.policy.map PolicyConfig.dmsGraceSecs).getD 0
  let lastHeartbeat := s.heartbeatOrZero
  if 0 < grace.val ∧ lastHeartbeat.val ≠ 0 ∧
      (env.timestamp.saturatingSub lastHeartbeat).val > grace.val then
    if (s.autoFrozenAt.getD 0).val = 0 then
      .ok ({ s with autoFrozenAt := some env.timestamp }, [.dmsAutoFrozen env.timestamp])
    else .ok (s, [])
  else .ok (s, [])

def unfreeze (env : Env) (s : State) : Effect := do
  let admin ← adminOrPanic env s
  let rearmedDms := decide (s.heartbeatOrZero ≠ env.timestamp)
  return ({ s with adminFrozen := some false, lastHeartbeat := some env.timestamp },
    [.unfrozen admin rearmedDms])

/-! ## Reads -/

def policyHash (env : Env) (s : State) : Bytes32 :=
  match s.policy with
  -- the SHA-256 of the empty string, written out as `NO_POLICY_DIGEST`
  | none => #v[0xe3, 0xb0, 0xc4, 0x42, 0x98, 0xfc, 0x1c, 0x14, 0x9a, 0xfb, 0xf4, 0xc8, 0x99, 0x6f,
      0xb9, 0x24, 0x27, 0xae, 0x41, 0xe4, 0x64, 0x9b, 0x93, 0x4c, 0xa4, 0x95, 0x99, 0x1b, 0x78,
      0x52, 0xb8, 0x55]
  | some cfg => env.host.sha256 (env.host.policyCanonicalEncoding cfg)

def validatePolicy (env : Env) (config : PolicyConfig) : ValidationOutcome :=
  match firstFailingRule env.host.self config with
  | .ok () => .valid
  | .error rule => .invalid rule

/-- The `dms_health` read. -/
def readDmsHealth (env : Env) (s : State) : DmsHealthStatus :=
  match s.policy with
  | none => .ok
  | some cfg => dmsHealth env.timestamp s.heartbeatOrZero cfg

/-- Whether a spend limit is configured — the condition under which the reads prune. -/
def limitsSpend (cfg : PolicyConfig) : Bool :=
  0 < cfg.windowCap.val ∨ cfg.recipientWindowCaps ≠ []

/-- The local ledger copy of a read. -/
def pruneForRead (cfg : PolicyConfig) (ledger : Ledger) (now : U64) : Ledger :=
  if limitsSpend cfg then ledger.prune now cfg.windowSecs else ledger

def status (env : Env) (s : State) : Status :=
  let now := env.timestamp
  let grace : U64 := (s.policy.map PolicyConfig.dmsGraceSecs).getD 0
  { hasPolicy := s.policy.isSome
    policyRevision := s.currentRevision
    adminFrozen := s.frozenOrFalse
    heartbeatExpired := 0 < grace.val ∧ s.heartbeatOrZero.val ≠ 0 ∧
      (now.saturatingSub s.heartbeatOrZero).val > grace.val
    lastHeartbeat := s.heartbeatOrZero
    now
    paused := (s.policy.map PolicyConfig.paused).getD false
    windowRemaining := s.policy.bind fun cfg =>
      globalWindowRemaining cfg (pruneForRead cfg s.loadWindow.1 now)
    outsideActiveWindow := (s.policy.map fun cfg => outsideActiveWindow cfg now).getD false }

/-! ## Pre-flight -/

/-- The context of a SAC `transfer` call; the asset stands in for the sender. -/
def transferContext (asset dest : Address) (amount : I128) : Context :=
  .contract ⟨asset, "transfer", [.address asset, .address dest, .i128 amount]⟩

/-- A verdict as a read reports it. -/
def Decision.toCheckResult : Decision → CheckResult
  | .allowed => .allowed
  | .blocked e => .blocked e.reason

def checkDetailed (env : Env) (s : State) (asset dest : Address) (amount : I128) :
    Except Abort (CheckDetail × List Event) :=
  let call := transferContext asset dest amount
  match AuthSnapshot.load s with
  | none =>
    .ok (⟨.blocked Error.noPolicy.reason, none, none, none, none⟩,
      [emitAuth s false (some .noPolicy) (some call) 0])
  | some snap =>
    let ledger := pruneForRead snap.policy snap.ledger env.timestamp
    let (remainingWindow, perTxCap, effectiveWindowCap) := capMetrics snap.policy ledger dest
    let (verdicts, _) := decideContexts env.host.self (some snap.policy) snap.accountState ledger
      env.timestamp [call]
    match verdicts with
    | [] => .error (.error .decisionInvariantViolation)
    | verdict :: _ =>
      .ok (⟨verdict.toCheckResult, remainingWindow, perTxCap,
        effectivePerTxCap snap.policy asset, effectiveWindowCap⟩,
        [emitVerdict s [call] 0 verdict])

def check (env : Env) (s : State) (asset dest : Address) (amount : I128) :
    Except Abort (CheckResult × List Event) :=
  (checkDetailed env s asset dest amount).map fun (detail, events) => (detail.result, events)

def checkBatch (env : Env) (s : State) (asset : Address) (transfers : List BatchTransfer) :
    BatchCheckResult × List Event :=
  let contexts := transfers.map fun t => transferContext asset t.dest t.amount
  match AuthSnapshot.load s with
  | none =>
    (⟨contexts.map fun _ => .blocked Error.noPolicy.reason, false⟩,
      emitBlocked s .noPolicy contexts)
  | some snap =>
    let (decisions, _) := decideContexts env.host.self (some snap.policy) snap.accountState
      snap.ledger env.timestamp contexts
    (⟨decisions.map Decision.toCheckResult, decisions.all Decision.isAllowed⟩,
      decisions.mapIdx (emitVerdict s contexts))

end AgentGuard
