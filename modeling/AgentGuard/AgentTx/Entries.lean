import AgentGuard.Contract.Touches
import Mathlib.Data.List.Find

/-!
# AgentTx/Entries — the guard's ledger entries, as the CLI names and reads them

The ledger stores a unit `DataKey` under the one-element vector of its variant name, and a
`#[contracttype]` record as a map from its field names, in their order.  `guardEntry` is the guard's
part of the ledger under this encoding.
-/

namespace AgentGuard.AgentTx

open Machinery

/-! ## Values, keys and entries -/

mutual

/-- A host value.  A value of another kind is kept as its encoding; so are `Vec(None)` and
`Map(None)`, which no contract value is. -/
inductive ScVal
  | void
  | bool (b : Bool)
  | u32 (n : U32)
  | u64 (n : U64)
  | i128 (n : I128)
  | symbol (name : Symbol)
  | address (a : Address)
  | vec (items : ScVec)
  | map (entries : ScMap)
  | ledgerKeyContractInstance
  | other (encoding : List UInt8)

inductive ScVec
  | nil
  | cons (head : ScVal) (tail : ScVec)

inductive ScMap
  | nil
  | cons (key val : ScVal) (tail : ScMap)

end

deriving instance DecidableEq for ScVal, ScVec, ScMap

def ScVec.ofList : List ScVal → ScVec
  | [] => .nil
  | v :: rest => .cons v (ofList rest)

/-- The map of a record, from its fields in the order of their names. -/
def ScMap.ofFields : List (Symbol × ScVal) → ScMap
  | [] => .nil
  | (name, v) :: rest => .cons (.symbol name) v (ofFields rest)

inductive ContractDataDurability
  | temporary
  | persistent
deriving DecidableEq

/-- A ledger key; one that names no contract data is kept as its encoding. -/
inductive LedgerKey
  | contractData (contract : Address) (key : ScVal) (durability : ContractDataDurability)
  | other (encoding : List UInt8)
deriving DecidableEq

/-- What a ledger entry holds. -/
inductive LedgerEntryData
  | contractData (contract : Address) (key : ScVal) (durability : ContractDataDurability)
      (val : ScVal)
  | other (encoding : List UInt8)
deriving DecidableEq

/-- The guard's persistent keys that `__check_auth` is declared to read. -/
inductive GuardKey
  | policy
  | window
  | lastHeartbeat
  | adminFrozen
deriving DecidableEq

def GuardKey.variant : GuardKey → Symbol
  | .policy => "Policy"
  | .window => "Window"
  | .lastHeartbeat => "LastHeartbeat"
  | .adminFrozen => "AdminFrozen"

/-- The encoding of a unit variant. -/
def unitVariant (name : Symbol) : ScVal := .vec (.cons (.symbol name) .nil)

def GuardKey.scval (key : GuardKey) : ScVal := unitVariant key.variant

def guardDataKey (guard : Address) (key : GuardKey) : LedgerKey :=
  .contractData guard key.scval .persistent

/-- A contract instance is a persistent entry under a reserved key. -/
def guardInstanceKey (guard : Address) : LedgerKey :=
  .contractData guard .ledgerKeyContractInstance .persistent

/-! ## The contract's side -/

/-- The name of a `DataKey` variant. -/
def dataKeyVariant : DataKey → Symbol
  | .initialized => "Initialized"
  | .admin => "Admin"
  | .pendingAdmin => "PendingAdmin"
  | .agentPubkey => "AgentPubkey"
  | .policy => "Policy"
  | .window => "Window"
  | .lastHeartbeat => "LastHeartbeat"
  | .adminFrozen => "AdminFrozen"
  | .autoFrozenAt => "AutoFrozenAt"
  | .policyRevision => "PolicyRevision"

/-- **The ledger entry that holds a storage key.** -/
def entryKey (guard : Address) (key : DataKey) : LedgerKey :=
  if key.inInstance then guardInstanceKey guard
  else .contractData guard (unitVariant (dataKeyVariant key)) .persistent

/-- The `DataKey` a `GuardKey` stands for. -/
def GuardKey.dataKey : GuardKey → DataKey
  | .policy => .policy
  | .window => .window
  | .lastHeartbeat => .lastHeartbeat
  | .adminFrozen => .adminFrozen

/-- **The CLI names the contract's own entries.** -/
theorem guardDataKey_eq (guard : Address) (key : GuardKey) :
    guardDataKey guard key = entryKey guard key.dataKey := by
  cases key <;> rfl

/-! ## Stored values -/

def addressesScVal (l : List Address) : ScVal := .vec (.ofList (l.map .address))

def recipientCapScVal (r : RecipientCap) : ScVal :=
  .map (.ofFields [("cap", .i128 r.cap), ("recipient", .address r.recipient)])

def assetCapScVal (a : AssetCap) : ScVal :=
  .map (.ofFields [("asset", .address a.asset), ("paused", .bool a.paused),
    ("per_tx_cap", .i128 a.perTxCap)])

def protocolRuleScVal (p : ProtocolRule) : ScVal :=
  .map (.ofFields [("contract", .address p.contract),
    ("fns", p.fns.elim .void fun fns => .vec (.ofList (fns.map .symbol))),
    ("paused", .bool p.paused)])

def policyConfigScVal (cfg : PolicyConfig) : ScVal :=
  .map (.ofFields [("active_from", .u64 cfg.activeFrom), ("active_until", .u64 cfg.activeUntil),
    ("allow_any_recipient", .bool cfg.allowAnyRecipient),
    ("asset_caps", .vec (.ofList (cfg.assetCaps.map assetCapScVal))),
    ("assets", addressesScVal cfg.assets),
    ("blocked_recipients", addressesScVal cfg.blockedRecipients),
    ("dms_grace_secs", .u64 cfg.dmsGraceSecs), ("paused", .bool cfg.paused),
    ("per_tx_cap", .i128 cfg.perTxCap),
    ("protocol_calls_per_window", .u32 cfg.protocolCallsPerWindow),
    ("protocols", .vec (.ofList (cfg.protocols.map protocolRuleScVal))),
    ("recipient_window_caps", .vec (.ofList (cfg.recipientWindowCaps.map recipientCapScVal))),
    ("recipients", addressesScVal cfg.recipients), ("window_cap", .i128 cfg.windowCap),
    ("window_secs", .u64 cfg.windowSecs)])

def spendEntryScVal (e : SpendEntry) : ScVal :=
  .map (.ofFields [("amount", .i128 e.value), ("ts", .u64 e.ts)])

def protocolCallEntryScVal (e : ProtocolCallEntry) : ScVal :=
  .map (.ofFields [("count", .u32 e.value), ("ts", .u64 e.ts)])

def recipientWindowScVal (r : RecipientWindowState) : ScVal :=
  .map (.ofFields [("entries", .vec (.ofList (r.entries.map spendEntryScVal))),
    ("recipient", .address r.recipient), ("total", .i128 r.total)])

def windowStateScVal (w : WindowState) : ScVal :=
  .map (.ofFields [("entries", .vec (.ofList (w.entries.map spendEntryScVal))),
    ("protocol_call_entries", .vec (.ofList (w.protocolCallEntries.map protocolCallEntryScVal))),
    ("recipients", .vec (.ofList (w.recipients.map recipientWindowScVal))),
    ("total", .i128 w.total)])

/-- The value of a persistent key, as stored. -/
def storedValue (s : State) : DataKey → Option ScVal
  | .policy => s.policy.map policyConfigScVal
  | .window => s.window.map windowStateScVal
  | .lastHeartbeat => s.lastHeartbeat.map .u64
  | .adminFrozen => s.adminFrozen.map .bool
  | .autoFrozenAt => s.autoFrozenAt.map .u64
  | .policyRevision => s.policyRevision.map .u64
  | .initialized | .admin | .pendingAdmin | .agentPubkey => none

/-- The keys with an entry of their own. -/
def persistentKeys : List DataKey :=
  [.policy, .window, .lastHeartbeat, .adminFrozen, .autoFrozenAt, .policyRevision]

/-- **The guard's part of the ledger**: its instance `inst`, and an entry for each persistent key in
the storage. -/
def guardEntry (guard : Address) (inst : ScVal) (s : State) (key : LedgerKey) : Option ScVal :=
  if key = guardInstanceKey guard then some inst
  else do
    let k ← persistentKeys.find? fun k => entryKey guard k = key
    storedValue s k

/-! ## Lookups -/

section

variable {guard : Address} {inst : ScVal} {s : State}

/-- Different keys have different names. -/
theorem dataKeyVariant_injective : Function.Injective dataKeyVariant := by
  intro k k' h
  cases k <;> cases k' <;> first | rfl | exact absurd h (by decide)

/-- **Persistent keys have entries of their own.** -/
theorem entryKey_inj {k k' : DataKey} (h : k.inInstance = false) (h' : k'.inInstance = false) :
    entryKey guard k = entryKey guard k' ↔ k = k' := by
  rw [entryKey, entryKey, h, h']
  simp only [Bool.false_eq_true, if_false, unitVariant, LedgerKey.contractData.injEq, true_and,
    ScVal.vec.injEq, ScVec.cons.injEq, ScVal.symbol.injEq, and_true]
  exact dataKeyVariant_injective.eq_iff

theorem entryKey_ne_instance {k : DataKey} (h : k.inInstance = false) :
    entryKey guard k ≠ guardInstanceKey guard := by
  rw [entryKey, h]
  simp [guardInstanceKey, unitVariant]

theorem guardEntry_instance : guardEntry guard inst s (guardInstanceKey guard) = some inst :=
  if_pos rfl

/-- **The ledger holds the storage.** -/
theorem guardEntry_guardDataKey (key : GuardKey) :
    guardEntry guard inst s (guardDataKey guard key) = storedValue s key.dataKey := by
  have hkey : key.dataKey.inInstance = false := by cases key <;> rfl
  have hpersistent : ∀ k ∈ persistentKeys, k.inInstance = false := by decide
  have hfind : (persistentKeys.find? fun k => entryKey guard k = entryKey guard key.dataKey)
      = some key.dataKey := by
    have hcongr : ∀ k ∈ persistentKeys,
        decide (entryKey guard k = entryKey guard key.dataKey) = decide (k = key.dataKey) :=
      fun k hk => decide_eq_decide.mpr (entryKey_inj (hpersistent k hk) hkey)
    rw [List.find?_congr hcongr]
    cases key <;> rfl
  rw [guardDataKey_eq, guardEntry, if_neg (entryKey_ne_instance hkey), hfind]
  rfl

end

end AgentGuard.AgentTx
