import AgentGuard.Contract.Events
import AgentGuard.Contract.Touches
import AgentGuard.Machinery.Lease

/-!
# Contract/Rent — the entry points over storage that lapses

Every persistent entry has a time to live.  The entry points once more, as programs over a storage
with leases: each persistent read and write goes through `persist_get` and `persist_set`, which
extend what they touch.  A transaction whose footprint does not restore an archived entry fails
before the contract runs, and is no call here.
-/

namespace AgentGuard

open Machinery

/-- The keys with a persistent entry that is there. -/
def State.stored (s : State) : DataKey → Bool
  | .policy => s.policy.isSome
  | .window => s.window.isSome
  | .lastHeartbeat => s.lastHeartbeat.isSome
  | .adminFrozen => s.adminFrozen.isSome
  | .autoFrozenAt => s.autoFrozenAt.isSome
  | .policyRevision => s.policyRevision.isSome
  | .initialized | .admin | .pendingAdmin | .agentPubkey => false

/-- What an invocation sees of the host, with the ledger it is in. -/
structure RentEnv extends Env where
  terms : LeaseTerms
  sequence : ℕ

/-- The contract's programs over storage with leases. -/
abbrev Rented := Leased DataKey Abort State

namespace Rented

variable (env : RentEnv)

/-! ## Persistent-storage helpers -/

/-- `extend_persistent_ttl`: always to the maximum, from whatever threshold. -/
def extendPersistentTtl (key : DataKey) (threshold : ℕ) : Rented Unit :=
  Leased.extendTtl env.terms env.sequence key threshold env.terms.maxTtl

/-- A write extends the entry it made, however long that still had. -/
def persistSet (key : DataKey) (set : State → State) : Rented Unit := do
  Leased.set env.terms env.sequence State.stored key set
  extendPersistentTtl env key env.terms.maxTtl

/-- A read extends an entry with less than half of its time left. -/
def persistGet {α : Type} (key : DataKey) (get : State → Option α) : Rented (Option α) := do
  match ← Leased.get env.terms env.sequence key get with
  | none => return none
  | some value =>
    extendPersistentTtl env key (env.terms.maxTtl / 2)
    return some value

/-- `env.storage().persistent().has`. -/
def persistHas (key : DataKey) : Rented Bool := Recorded.load key fun x => x.1.stored key

/-- The instance lives with the contract, and has no lease of its own here. -/
def instanceGet {α : Type} (key : DataKey) (get : State → Option α) : Rented (Option α) :=
  Recorded.load key fun x => get x.1

def instanceSet (key : DataKey) (set : State → State) : Rented Unit :=
  Recorded.store key fun x => (set x.1, x.2)

/-- `Window`, and whether the key was there. -/
def loadWindow : Rented (Ledger × Bool) := do
  match ← persistGet env .window State.window with
  | some state => return (Ledger.fromState state, true)
  | none => return (Ledger.empty, false)

def saveLedger (ledger : Ledger) : Rented Unit :=
  persistSet env .window fun s => { s with window := some ledger.toState }

/-- `AuthSnapshot::load`: without a policy nothing else is read. -/
def loadSnapshot : Rented (Option AuthSnapshot) := do
  match ← persistGet env .policy State.policy with
  | none => return none
  | some policy =>
    let adminFrozen ← persistGet env .adminFrozen State.adminFrozen
    let lastHeartbeat ← persistGet env .lastHeartbeat State.lastHeartbeat
    let (ledger, windowPersisted) ← loadWindow env
    return some
      { policy
        adminFrozen := adminFrozen.getD false
        lastHeartbeat := lastHeartbeat.getD 0
        windowPersisted
        ledger }

/-- A missing counter reads as `0`. -/
def currentRevision : Rented U64 := do
  let revision ← persistGet env .policyRevision State.policyRevision
  return revision.getD 0

def incrementRevision : Rented U64 := do
  let revision ← persistGet env .policyRevision State.policyRevision
  let next : U64 := (revision.getD 0).saturatingAdd 1
  persistSet env .policyRevision fun s => { s with policyRevision := some next }
  return next

/-! ## Event emission -/

/-- An event reads the revision it is stamped with, and so extends it. -/
def emitAuth (allowed : Bool) (reason : Option Error) (context : Option Context)
    (contextIndex : ℕ) : Rented Event := do
  let revision ← currentRevision env
  return .authChecked (if allowed then "allowed" else "blocked")
    ((reason.map Error.reason).getD "") (contextTarget context).1 (contextTarget context).2
    contextIndex revision

def emitBlocked (e : Error) (contexts : List Context) : Rented (List Event) :=
  contexts.zipIdx.mapM fun x => emitAuth env false (some e) (some x.1) x.2

def emitVerdict (contexts : List Context) (i : ℕ) : Decision → Rented Event
  | .allowed => emitAuth env true none contexts[i]? i
  | .blocked e => emitAuth env false (some e) contexts[i]? i

def emitVerdicts (contexts : List Context) (verdicts : List Decision) : Rented (List Event) :=
  verdicts.zipIdx.mapM fun x => emitVerdict env contexts x.2 x.1

/-! ## Lifecycle and policy management -/

/-- `require_auth` touches no entry of the contract. -/
def requireAuth (a : Address) : Rented Unit :=
  if env.authorized a then pure () else Recorded.fail (.auth a)

/-- `admin_or_panic`, over the instance. -/
def adminOrPanic : Rented Address := do
  match ← instanceGet .admin State.admin with
  | some a =>
    requireAuth env a
    return a
  | none => Recorded.fail (.error .notInitialized)

/-- `initialize`: the key and the admin go into the instance, freeze and clock into entries. -/
def initializeAccount (admin : Address) (agentPubkey : Bytes32) : Rented (List Event) := do
  let already ← instanceGet .initialized State.initialized
  if already.getD false then Recorded.fail (.error .alreadyInitialized)
  else
    requireAuth env admin
    instanceSet .admin fun s => { s with admin := some admin }
    instanceSet .agentPubkey fun s => { s with agentPubkey := some agentPubkey }
    instanceSet .initialized fun s => { s with initialized := some true }
    persistSet env .adminFrozen fun s => { s with adminFrozen := some false }
    persistSet env .lastHeartbeat fun s => { s with lastHeartbeat := some 0 }
    return [.initialized admin]

/-- A first install seeds the window and the clock. -/
def seedInstall (firstInstall : Bool) : Rented Unit :=
  if firstInstall then do
    saveLedger env Ledger.empty
    persistSet env .lastHeartbeat fun s => { s with lastHeartbeat := some env.timestamp }
  else pure ()

/-- `set_policy`: whether this is a first install is asked of the storage, before the write. -/
def setPolicy (config : PolicyConfig) : Rented (List Event) := do
  let admin ← adminOrPanic env
  match validateConfig env.host.self config with
  | .error e => Recorded.fail (.error e)
  | .ok () =>
    let firstInstall := !(← persistHas .policy)
    persistSet env .policy fun s => { s with policy := some config }
    let _ ← incrementRevision env
    seedInstall env firstInstall
    let revision ← currentRevision env
    return [.policySet admin revision]

/-- `reset_window`: the entry is removed, and its lease with it. -/
def resetWindow : Rented (List Event) := do
  let admin ← adminOrPanic env
  Leased.remove .window fun s => { s with window := none }
  return [.windowReset admin]

/-- `set_paused`: the policy is read, and written back when its flag changes. -/
def setPaused (paused : Bool) : Rented (List Event) := do
  let admin ← adminOrPanic env
  match ← persistGet env .policy State.policy with
  | none => Recorded.fail (.error .noPolicy)
  | some cfg =>
    if cfg.paused ≠ paused then
      persistSet env .policy fun s => { s with policy := some { cfg with paused } }
      let _ ← incrementRevision env
    let revision ← currentRevision env
    return [if paused then .paused admin revision else .resumed admin revision]

def pause : Rented (List Event) := setPaused env true

def resume : Rented (List Event) := setPaused env false

/-- `revoke_policy`: two entries are removed, the counter is written. -/
def revokePolicy : Rented (List Event) := do
  let admin ← adminOrPanic env
  Leased.remove .policy fun s => { s with policy := none }
  Leased.remove .window fun s => { s with window := none }
  let _ ← incrementRevision env
  let revision ← currentRevision env
  return [.policyRevoked admin revision]

def rotateAgentKey (newPubkey : Bytes32) : Rented (List Event) := do
  let admin ← adminOrPanic env
  match ← instanceGet .agentPubkey State.agentPubkey with
  | none => Recorded.fail (.error .notInitialized)
  | some oldPubkey =>
    instanceSet .agentPubkey fun s => { s with agentPubkey := some newPubkey }
    return [.agentRotated admin (keyFingerprint env.host oldPubkey)
      (keyFingerprint env.host newPubkey)]

/-! ## Admin rotation -/

def proposeAdminRotation (newAdmin : Address) : Rented (List Event) := do
  let admin ← adminOrPanic env
  if newAdmin = admin then Recorded.fail (.error .invalidConfig)
  else
    instanceSet .pendingAdmin fun s => { s with pendingAdmin := some newAdmin }
    return [.adminRotationProposed admin newAdmin]

def confirmAdminRotation : Rented (List Event) := do
  match ← instanceGet .admin State.admin with
  | none => Recorded.fail (.error .notInitialized)
  | some old =>
    match ← instanceGet .pendingAdmin State.pendingAdmin with
    | none => Recorded.fail (.error .noPendingAdmin)
    | some pending =>
      requireAuth env pending
      instanceSet .admin fun s => { s with admin := some pending }
      instanceSet .pendingAdmin fun s => { s with pendingAdmin := none }
      return [.adminRotated old pending]

def cancelAdminRotation : Rented (List Event) := do
  let admin ← adminOrPanic env
  match ← instanceGet .pendingAdmin State.pendingAdmin with
  | none => Recorded.fail (.error .noPendingAdmin)
  | some pending =>
    instanceSet .pendingAdmin fun s => { s with pendingAdmin := none }
    return [.adminRotationCancelled admin pending]

/-! ## Custom account enforcement -/

/-- The write-back at the end of `__check_auth`. -/
def persistLedger (windowPersisted : Bool) (ledger : Ledger) : Rented Unit :=
  let hasEntries := decide (ledger.entries ≠ []) || ledgerHasRecipientEntries ledger
  if windowPersisted || hasEntries then saveLedger env ledger else pure ()

/-- The part of `__check_auth` after the snapshot: every verdict emits, an approval writes back. -/
def evaluate (authContexts : List Context) (snap : AuthSnapshot) :
    Rented (Except Error Unit × List Event) := do
  let (verdicts, ledger) := decideContexts env.host.self (some snap.policy) snap.accountState
    snap.ledger env.timestamp authContexts
  let events ← emitVerdicts env authContexts verdicts
  if verdicts.all Decision.isAllowed then
    persistLedger env snap.windowPersisted ledger
    return (.ok (), events ++ ledger.merges.map emitWindowMerge)
  else
    match firstError verdicts with
    | some e => return (.error e, events)
    | none => Recorded.fail (.error .decisionInvariantViolation)

/-- `__check_auth`. -/
def checkAuth (signaturePayload signature : List UInt8) (authContexts : List Context) :
    Rented (Except Error Unit × List Event) := do
  match ← instanceGet .agentPubkey State.agentPubkey with
  | none =>
    let events ← emitBlocked env .notInitialized authContexts
    return (.error .notInitialized, events)
  | some agent =>
    if !env.host.ed25519Verify agent signaturePayload signature then Recorded.fail .signature
    else
      match ← loadSnapshot env with
      | none =>
        let events ← emitBlocked env .noPolicy authContexts
        return (.error .noPolicy, events)
      | some snap => evaluate env authContexts snap

/-! ## Dead-man switch and freeze -/

/-- The body of `heartbeat`: the policy is read only when the clock moves. -/
def recordHeartbeat : Rented (List Event) := do
  let last ← persistGet env .lastHeartbeat State.lastHeartbeat
  if env.timestamp = last.getD 0 then return []
  else
    persistSet env .lastHeartbeat fun s => { s with lastHeartbeat := some env.timestamp }
    let policy ← persistGet env .policy State.policy
    let grace : U64 := (policy.map PolicyConfig.dmsGraceSecs).getD 0
    let expiresAt := if grace.val = 0 then 0 else env.timestamp.saturatingAdd grace
    return [.heartbeat env.timestamp expiresAt]

/-- `heartbeat`, with the authorization the host asks the account for. -/
def heartbeat (entry : AuthEntry) : Rented (List Event) := do
  if heartbeatContext env.host.self ∉ entry.contexts then Recorded.fail (.auth env.host.self)
  else
    match ← checkAuth env entry.signaturePayload entry.signature entry.contexts with
    | (.error e, _) => Recorded.fail (.error e)
    | (.ok (), authEvents) =>
      let events ← recordHeartbeat env
      return authEvents ++ events

def freeze : Rented (List Event) := do
  let admin ← adminOrPanic env
  persistSet env .adminFrozen fun s => { s with adminFrozen := some true }
  return [.frozen admin]

/-- `refresh_deadman`: the record is read only past the grace. -/
def refreshDeadman : Rented (List Event) := do
  let policy ← persistGet env .policy State.policy
  let grace : U64 := (policy.map PolicyConfig.dmsGraceSecs).getD 0
  let heartbeat ← persistGet env .lastHeartbeat State.lastHeartbeat
  let lastHeartbeat := heartbeat.getD 0
  if 0 < grace.val ∧ lastHeartbeat.val ≠ 0 ∧
      (env.timestamp.saturatingSub lastHeartbeat).val > grace.val then
    let recorded ← persistGet env .autoFrozenAt State.autoFrozenAt
    if (recorded.getD 0).val = 0 then
      persistSet env .autoFrozenAt fun s => { s with autoFrozenAt := some env.timestamp }
      return [.dmsAutoFrozen env.timestamp]
    else return []
  else return []

/-- `unfreeze`: two writes, with the clock read in between. -/
def unfreeze : Rented (List Event) := do
  let admin ← adminOrPanic env
  persistSet env .adminFrozen fun s => { s with adminFrozen := some false }
  let last ← persistGet env .lastHeartbeat State.lastHeartbeat
  let rearmedDms := decide (last.getD 0 ≠ env.timestamp)
  persistSet env .lastHeartbeat fun s => { s with lastHeartbeat := some env.timestamp }
  return [.unfrozen admin rearmedDms]

/-! ## Reads -/

def readPolicy : Rented (Option PolicyConfig) := persistGet env .policy State.policy

/-- `policy_hash`: one read, whatever is installed. -/
def policyHash : Rented Bytes32 := do
  match ← persistGet env .policy State.policy with
  -- `NO_POLICY_DIGEST`
  | none => return AgentGuard.policyHash env.toEnv State.empty
  | some cfg => return env.host.sha256 (env.host.policyCanonicalEncoding cfg)

/-- `dms_health`: the clock is read only under a policy. -/
def readDmsHealth : Rented DmsHealthStatus := do
  match ← persistGet env .policy State.policy with
  | none => return .ok
  | some cfg =>
    let last ← persistGet env .lastHeartbeat State.lastHeartbeat
    return dmsHealth env.timestamp (last.getD 0) cfg

/-- What `status` takes from the policy: the pause flag, the headroom, the active window, the
grace. -/
def policyStatus : Option PolicyConfig → Rented (Bool × Option I128 × Bool × U64)
  | none => pure (false, none, false, 0)
  | some cfg => do
    let (ledger, _) ← loadWindow env
    return (cfg.paused, globalWindowRemaining cfg (pruneForRead cfg ledger env.timestamp),
      outsideActiveWindow cfg env.timestamp, cfg.dmsGraceSecs)

/-- `status`: every entry but the window is read with or without a policy. -/
def status : Rented Status := do
  let policy ← persistGet env .policy State.policy
  let policyRevision ← persistGet env .policyRevision State.policyRevision
  let adminFrozen ← persistGet env .adminFrozen State.adminFrozen
  let heartbeat ← persistGet env .lastHeartbeat State.lastHeartbeat
  let lastHeartbeat := heartbeat.getD 0
  let now := env.timestamp
  let (paused, windowRemaining, outsideActiveWindow, grace) ← policyStatus env policy
  return { hasPolicy := policy.isSome
           policyRevision := policyRevision.getD 0
           adminFrozen := adminFrozen.getD false
           heartbeatExpired := 0 < grace.val ∧ lastHeartbeat.val ≠ 0 ∧
             (now.saturatingSub lastHeartbeat).val > grace.val
           lastHeartbeat
           now
           paused
           windowRemaining
           outsideActiveWindow }

/-! ## Pre-flight -/

/-- `check_detailed`: the snapshot of an authorization, and the event of its verdict. -/
def checkDetailed (asset dest : Address) (amount : I128) :
    Rented (CheckDetail × List Event) := do
  let call := transferContext asset dest amount
  match ← loadSnapshot env with
  | none =>
    let event ← emitAuth env false (some .noPolicy) (some call) 0
    return (⟨.blocked Error.noPolicy.reason, none, none, none, none⟩, [event])
  | some snap =>
    let ledger := pruneForRead snap.policy snap.ledger env.timestamp
    let (remainingWindow, perTxCap, effectiveWindowCap) := capMetrics snap.policy ledger dest
    let (verdicts, _) := decideContexts env.host.self (some snap.policy) snap.accountState ledger
      env.timestamp [call]
    match verdicts with
    | [] => Recorded.fail (.error .decisionInvariantViolation)
    | verdict :: _ =>
      let event ← emitVerdict env [call] 0 verdict
      return (⟨verdict.toCheckResult, remainingWindow, perTxCap,
        effectivePerTxCap snap.policy asset, effectiveWindowCap⟩, [event])

def check (asset dest : Address) (amount : I128) : Rented (CheckResult × List Event) := do
  let (detail, events) ← checkDetailed env asset dest amount
  return (detail.result, events)

/-- `check_batch`: one snapshot for the whole run. -/
def checkBatch (asset : Address) (transfers : List BatchTransfer) :
    Rented (BatchCheckResult × List Event) := do
  let contexts := transfers.map fun t => transferContext asset t.dest t.amount
  match ← loadSnapshot env with
  | none =>
    let events ← emitBlocked env .noPolicy contexts
    return (⟨contexts.map fun _ => .blocked Error.noPolicy.reason, false⟩, events)
  | some snap =>
    let (decisions, _) := decideContexts env.host.self (some snap.policy) snap.accountState
      snap.ledger env.timestamp contexts
    let events ← emitVerdicts env contexts decisions
    return (⟨decisions.map Decision.toCheckResult, decisions.all Decision.isAllowed⟩, events)

end Rented

end AgentGuard
