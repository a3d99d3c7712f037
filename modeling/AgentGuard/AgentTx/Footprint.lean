import AgentGuard.AgentTx.Entries

/-!
# AgentTx/Footprint — the storage footprint the CLI declares for the guard

The simulation behind a transaction never runs `__check_auth`, so the CLI adds the guard's entries
to the footprint from a table of its own.  Against the entries the contract really touches
(`Contract/Touches`) the table misses two accesses: the read of `PolicyRevision` behind every
`auth_checked` event, and the write of `Window` when a heartbeat is approved.
-/

namespace AgentGuard.AgentTx

open Machinery

/-! ## The table -/

/-- The kind of a call, which decides what it writes. -/
inductive CallKind
  | transfer
  | heartbeat
  | readOnly
deriving DecidableEq

inductive StorageTarget
  | persistent (key : GuardKey)
  | contractInstance
deriving DecidableEq

def StorageTarget.toLedgerKey (guard : Address) : StorageTarget → LedgerKey
  | .persistent key => guardDataKey guard key
  | .contractInstance => guardInstanceKey guard

inductive WriteCondition
  | always
  | never
  | onTransfer
  | onHeartbeat
deriving DecidableEq

def WriteCondition.isWritten (kind : CallKind) : WriteCondition → Bool
  | .always => true
  | .never => false
  | .onTransfer => kind = .transfer
  | .onHeartbeat => kind = .heartbeat

structure StorageKeyTouch where
  target : StorageTarget
  writtenOn : WriteCondition
deriving DecidableEq

/-- When each of the guard's entries is written. -/
def guardStorageTouches : List StorageKeyTouch :=
  [⟨.persistent .policy, .never⟩, ⟨.persistent .adminFrozen, .never⟩,
    ⟨.persistent .window, .onTransfer⟩, ⟨.persistent .lastHeartbeat, .onHeartbeat⟩,
    ⟨.contractInstance, .always⟩]

structure LedgerFootprint where
  readOnly : List LedgerKey
  readWrite : List LedgerKey
deriving DecidableEq

/-- One row of the table. -/
def declareTouch (guard : Address) (kind : CallKind) (fp : LedgerFootprint)
    (touch : StorageKeyTouch) : LedgerFootprint :=
  let key := touch.target.toLedgerKey guard
  if touch.writtenOn.isWritten kind then { fp with readWrite := fp.readWrite ++ [key] }
  else { fp with readOnly := fp.readOnly ++ [key] }

def guardFootprint (guard : Address) (kind : CallKind) : LedgerFootprint :=
  guardStorageTouches.foldl (declareTouch guard kind) ⟨[], []⟩

/-! ## The calls -/

/-- The call to authorize and submit. -/
inductive Call
  | transfer (token dest : Address) (amount : I128)
  | transferFrom (token source dest : Address) (amount : I128)
  | heartbeat
deriving DecidableEq

def Call.kind : Call → CallKind
  | .transfer .. | .transferFrom .. => .transfer
  | .heartbeat => .heartbeat

/-- The call the guard is asked to authorize. -/
def Call.invocation (guard : Address) : Call → ContractContext
  | .transfer token dest amount =>
    ⟨token, "transfer", [.address guard, .address dest, .i128 amount]⟩
  | .transferFrom token source dest amount =>
    ⟨token, "transfer_from", [.address source, .address guard, .address dest, .i128 amount]⟩
  | .heartbeat => ⟨guard, "heartbeat", []⟩

/-- The authorization entry of a call: its one invocation, with no sub-invocations. -/
def Call.authEntry (guard : Address) (signaturePayload signature : List UInt8) (call : Call) :
    AuthEntry :=
  ⟨signaturePayload, signature, [.contract (call.invocation guard)]⟩

/-- **The guard's part of a submitted call**: the approving `__check_auth`, and for a heartbeat the
entry point around it. -/
def Call.guardPart (env : Env) (signaturePayload signature : List UInt8) (call : Call) :
    Program (List Event) :=
  match call with
  | .heartbeat =>
    Traced.heartbeat env (Call.heartbeat.authEntry env.host.self signaturePayload signature)
  | .transfer .. | .transferFrom .. =>
    Traced.approve env (call.authEntry env.host.self signaturePayload signature)

/-! ## Coverage -/

/-- The footprint allows an access to the entry of a key. -/
def LedgerFootprint.Allows (fp : LedgerFootprint) (guard : Address) : Access DataKey → Prop
  | .read key => entryKey guard key ∈ fp.readOnly ∨ entryKey guard key ∈ fp.readWrite
  | .write key => entryKey guard key ∈ fp.readWrite

/-- The entry of a row holds a storage key. -/
def StorageTarget.holds (key : DataKey) : StorageTarget → Bool
  | .persistent k => k.dataKey = key
  | .contractInstance => key.inInstance

section

variable {guard : Address} {kind : CallKind} {key : DataKey}

theorem entryKey_eq_toLedgerKey_iff {target : StorageTarget} :
    entryKey guard key = target.toLedgerKey guard ↔ target.holds key = true := by
  cases target with
  | persistent k =>
    have hk : k.dataKey.inInstance = false := by cases k <;> rfl
    rw [StorageTarget.toLedgerKey, guardDataKey_eq, StorageTarget.holds, decide_eq_true_eq, eq_comm]
    by_cases hkey : key.inInstance = true
    · rw [entryKey.eq_def guard key, if_pos hkey]
      refine ⟨fun h => absurd h (entryKey_ne_instance hk), ?_⟩
      rintro rfl
      simp [hk] at hkey
    · exact entryKey_inj hk (by simpa using hkey)
  | contractInstance =>
    rw [StorageTarget.toLedgerKey, StorageTarget.holds]
    by_cases hkey : key.inInstance = true
    · simp [entryKey, hkey]
    · simp [hkey, @entryKey_ne_instance guard key (by simpa using hkey)]

/-- What the rows of a table declare, on top of a footprint. -/
theorem mem_foldl_declareTouch {k : LedgerKey} : ∀ (touches : List StorageKeyTouch)
    (fp : LedgerFootprint),
    (k ∈ (touches.foldl (declareTouch guard kind) fp).readOnly ↔ k ∈ fp.readOnly ∨
      ∃ t ∈ touches, t.writtenOn.isWritten kind = false ∧ k = t.target.toLedgerKey guard) ∧
    (k ∈ (touches.foldl (declareTouch guard kind) fp).readWrite ↔ k ∈ fp.readWrite ∨
      ∃ t ∈ touches, t.writtenOn.isWritten kind = true ∧ k = t.target.toLedgerKey guard)
  | [], fp => by simp
  | t :: touches, fp => by
    obtain ⟨hro, hrw⟩ := mem_foldl_declareTouch touches (declareTouch guard kind fp t)
    rw [List.foldl_cons, hro, hrw]
    cases h : t.writtenOn.isWritten kind with
    | false => simp [declareTouch, h, or_assoc]
    | true => simp [declareTouch, h, or_assoc]

/-- **The table allows a write** when a row that holds the key is written. -/
theorem allows_write_iff : (guardFootprint guard kind).Allows guard (.write key) ↔
    ∃ t ∈ guardStorageTouches, t.writtenOn.isWritten kind = true ∧ t.target.holds key = true := by
  rw [LedgerFootprint.Allows, guardFootprint, (mem_foldl_declareTouch _ _).2]
  simp only [List.not_mem_nil, false_or, entryKey_eq_toLedgerKey_iff]

/-- **The table allows a read** when it has a row that holds the key. -/
theorem allows_read_iff : (guardFootprint guard kind).Allows guard (.read key) ↔
    ∃ t ∈ guardStorageTouches, t.target.holds key = true := by
  rw [LedgerFootprint.Allows, guardFootprint, (mem_foldl_declareTouch _ _).1,
    (mem_foldl_declareTouch _ _).2]
  simp only [List.not_mem_nil, false_or, entryKey_eq_toLedgerKey_iff]
  constructor
  · rintro (⟨t, ht, -, hkey⟩ | ⟨t, ht, -, hkey⟩)
    · exact ⟨t, ht, hkey⟩
    · exact ⟨t, ht, hkey⟩
  · rintro ⟨t, ht, hkey⟩
    cases hw : t.writtenOn.isWritten kind with
    | false => exact .inl ⟨t, ht, hw, hkey⟩
    | true => exact .inr ⟨t, ht, hw, hkey⟩

/-- **What the table lets a call write**, by its rows. -/
theorem allows_write_iff_kind : (guardFootprint guard kind).Allows guard (.write key) ↔
    key.inInstance = true ∨ (key = .window ∧ kind = .transfer) ∨
      (key = .lastHeartbeat ∧ kind = .heartbeat) := by
  rw [allows_write_iff]
  cases kind <;> cases key <;> decide

/-- **What the table lets every call read**: all but two of the storage keys. -/
theorem allows_read_iff_ne : (guardFootprint guard kind).Allows guard (.read key) ↔
    key ≠ .autoFrozenAt ∧ key ≠ .policyRevision := by
  rw [allows_read_iff]
  cases key <;> decide

end

section

variable {env : Env} {s s' : State} {call : Call} {signaturePayload signature : List UInt8}
  {events : List Event} {log : List (Access DataKey)}

/-- A submitted call is a transfer or a heartbeat. -/
theorem Call.kind_eq_transfer_iff : call.kind = .transfer ↔ ¬call.kind = .heartbeat := by
  cases call <;> simp [Call.kind]

/-- **What the guard's part of a call touches**, when it succeeds. -/
theorem mem_guardPart (h : (call.guardPart env signaturePayload signature).run (s, [])
      = .ok (events, s', log)) {a : Access DataKey} :
    a ∈ log ↔
      a ∈ [.read .agentPubkey, .read .policy, .read .adminFrozen, .read .lastHeartbeat,
        .read .window, .read .policyRevision] ∨
      (persists s (authDecision env s [.contract (call.invocation env.host.self)]).2 = true ∧
        a = .write .window) ∨
      (call.kind = .heartbeat ∧ env.timestamp ≠ s.heartbeatOrZero ∧
        a = .write .lastHeartbeat) := by
  have hlen : (call.authEntry env.host.self signaturePayload signature).contexts.length
      ≤ maxAuthContexts := show 1 ≤ maxAuthContexts by decide
  have hne : (call.authEntry env.host.self signaturePayload signature).contexts ≠ [] := by
    simp [Call.authEntry]
  cases call with
  | heartbeat =>
    obtain ⟨-, rfl⟩ := Traced.heartbeat_run h
    rw [Traced.mem_heartbeatLog hlen hne, Traced.mem_approvalLog hlen hne, or_assoc]
    simp [Call.kind, Call.authEntry]
  | transfer token dest amount =>
    obtain ⟨-, rfl⟩ := Traced.approve_run h
    rw [Traced.mem_approvalLog hlen hne]
    simp [Call.kind, Call.authEntry]
  | transferFrom token source dest amount =>
    obtain ⟨-, rfl⟩ := Traced.approve_run h
    rw [Traced.mem_approvalLog hlen hne]
    simp [Call.kind, Call.authEntry]

/-- **The declared footprint never covers what the guard touches**, whatever call succeeds on
whatever storage: the revision counter behind the `auth_checked` event is read and not declared.
That, and the window an approved heartbeat writes, are the only accesses it misses. -/
theorem guardFootprint_never_covers
    (h : (call.guardPart env signaturePayload signature).run (s, []) = .ok (events, s', log)) :
    (¬∀ a ∈ log, (guardFootprint env.host.self call.kind).Allows env.host.self a) ∧
      ∀ a ∈ log, (guardFootprint env.host.self call.kind).Allows env.host.self a ↔
        a ≠ .read .policyRevision ∧ ¬(call.kind = .heartbeat ∧ a = .write .window) := by
  refine ⟨fun hall => ?_, fun a ha => ?_⟩
  · have hread := hall (.read .policyRevision) ((mem_guardPart h).mpr (.inl (by simp)))
    exact (allows_read_iff_ne.mp hread).2 rfl
  · rcases (mem_guardPart h).mp ha with hmem | ⟨-, rfl⟩ | ⟨hkind, -, rfl⟩
    · simp only [List.mem_cons, List.not_mem_nil, or_false] at hmem
      rcases hmem with rfl | rfl | rfl | rfl | rfl | rfl <;> simp [allows_read_iff_ne]
    · simp [allows_write_iff_kind, DataKey.inInstance, Call.kind_eq_transfer_iff]
    · simp [allows_write_iff_kind, hkind]

end

namespace Sample

open AgentGuard.Sample

/-- What an approved transfer of `10` touches, on a storage that holds every key it looks for. -/
def payLog : List (Access DataKey) :=
  [.read .agentPubkey, .read .policy, .read .policy, .read .adminFrozen, .read .adminFrozen,
    .read .lastHeartbeat, .read .lastHeartbeat, .read .window, .read .window,
    .read .policyRevision, .read .policyRevision, .write .window, .read .window]

/-- The transfer goes through on a reachable storage with a policy, and its read of
`PolicyRevision` is not declared. -/
theorem pay_undeclared :
    Reachable host 110 spent ∧ spent.policy = some capFifty ∧
      ∃ events s', ((Call.transfer asset payee 10).guardPart ((auth 120 []).env host) [] []).run
          (spent, []) = .ok (events, s', payLog) ∧
        ¬∀ a ∈ payLog, (guardFootprint self (Call.transfer asset payee 10).kind).Allows self a :=
  ⟨reachable_spent, by rfl, _, _, rfl, fun h =>
    (allows_read_iff_ne.mp (h (.read .policyRevision) (by decide))).2 rfl⟩

/-- What a heartbeat touches there: its approval writes the window back as well. -/
def beatLog : List (Access DataKey) :=
  payLog ++ [.read .lastHeartbeat, .read .lastHeartbeat, .write .lastHeartbeat,
    .read .lastHeartbeat, .read .policy, .read .policy]

/-- Neither the read of `PolicyRevision` nor the write of `Window` is declared for the heartbeat. -/
theorem beat_undeclared :
    (∃ events s', (Call.heartbeat.guardPart ((auth 120 []).env host) [] []).run (spent, [])
        = .ok (events, s', beatLog)) ∧
      (¬∀ a ∈ beatLog, (guardFootprint self .heartbeat).Allows self a) ∧
      ¬(guardFootprint self .heartbeat).Allows self (.write .window) := by
  have hrun : ∃ events s', (Call.heartbeat.guardPart ((auth 120 []).env host) [] []).run (spent, [])
      = .ok (events, s', beatLog) := ⟨_, _, rfl⟩
  obtain ⟨events, s', h⟩ := hrun
  obtain ⟨hnot, hiff⟩ := guardFootprint_never_covers h
  refine ⟨⟨events, s', h⟩, hnot, fun hallows => ?_⟩
  exact ((hiff (.write .window) (by decide)).mp hallows).2 ⟨rfl, rfl⟩

end Sample

end AgentGuard.AgentTx
