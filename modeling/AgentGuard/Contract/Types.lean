import AgentGuard.Machinery.RollingLedger

/-!
# Contract/Types — the policy model, host values and errors of the guard account

The data of `types.rs`, over the host types the contract is handed: addresses, symbols, untyped
argument values and authorization contexts.  Machine integers are `BoundedInt`s of the Rust types,
host vectors are lists.
-/

namespace AgentGuard

open Machinery

/-! ## Machine integers -/

/-- Rust's `i128`. -/
def i128 : IntRange :=
  ⟨-170141183460469231731687303715884105728, 170141183460469231731687303715884105727, by decide⟩

/-- Rust's `u64`. -/
def u64 : IntRange := ⟨0, 18446744073709551615, by decide⟩

/-- Rust's `u32`. -/
def u32 : IntRange := ⟨0, 4294967295, by decide⟩

abbrev I128 := BoundedInt i128
abbrev U64 := BoundedInt u64
abbrev U32 := BoundedInt u32

@[simp] theorem i128_lo : i128.lo = -170141183460469231731687303715884105728 := rfl
@[simp] theorem i128_hi : i128.hi = 170141183460469231731687303715884105727 := rfl
@[simp] theorem u64_lo : u64.lo = 0 := rfl
@[simp] theorem u64_hi : u64.hi = 18446744073709551615 := rfl
@[simp] theorem u32_lo : u32.lo = 0 := rfl
@[simp] theorem u32_hi : u32.hi = 4294967295 := rfl

@[simp] theorem I128.val_zero : (0 : I128).val = 0 := rfl
@[simp] theorem U64.val_zero : (0 : U64).val = 0 := rfl
@[simp] theorem U32.val_zero : (0 : U32).val = 0 := rfl
@[simp] theorem U32.val_one : (1 : U32).val = 1 := rfl

theorem U64.nonneg (x : U64) : 0 ≤ x.val := x.lo_le
theorem U32.nonneg (x : U32) : 0 ≤ x.val := x.lo_le

theorem U32.val_clamp {x : ℤ} (h : 0 ≤ x) : (BoundedInt.clamp x : U32).val = min u32.hi x := by
  rw [BoundedInt.val_clamp]
  exact max_eq_right (le_min (by decide) h)

/-! ## Bounds -/

/-- Hard bound on rolling-window entries. -/
def maxWindowEntries : ℕ := 8192

/-- Hard bound on the contexts evaluated in one authorization. -/
def maxAuthContexts : ℕ := 64

def maxPolicyAssets : ℕ := 256
def maxPolicyProtocols : ℕ := 256
def maxRecipientEntries : ℕ := 256
def maxAssetCapEntries : ℕ := 256

/-- Upper bound on `window_secs`: 3 650 days. -/
def maxWindowSecs : ℤ := 315360000

/-- Upper bound on `dms_grace_secs`. -/
def maxDmsGraceSecs : ℤ := maxWindowSecs

/-- Share of the grace after which the dead-man switch warns, in percent. -/
def dmsWarnThresholdPercent : ℤ := 80

/-! ## Host values -/

/-- A host address: an account key or a contract id. -/
inductive Address
  | account (id : BitVec 256)
  | contract (id : BitVec 256)
deriving DecidableEq

abbrev Symbol := String

/-- A 32-byte string: a public key or a digest. -/
abbrev Bytes32 := Vector UInt8 32

/-- An untyped call argument.  Only addresses and `i128`s are ever decoded; any other host value is
kept as its encoding. -/
inductive Val
  | address (a : Address)
  | i128 (n : I128)
  | other (encoding : List UInt8)
deriving DecidableEq

/-- `Address::try_from_val`. -/
def Val.toAddress? : Val → Option Address
  | .address a => some a
  | _ => none

/-- `i128::try_from_val`. -/
def Val.toI128? : Val → Option I128
  | .i128 n => some n
  | _ => none

/-- One call the account is asked to authorize. -/
structure ContractContext where
  contract : Address
  fnName : Symbol
  args : List Val
deriving DecidableEq

inductive Context
  | contract (c : ContractContext)
  | createContractHostFn
  | createContractWithCtorHostFn
deriving DecidableEq

/-! ## The policy -/

/-- Per-recipient rolling-window cap override; a cap of `0` is disabled. -/
structure RecipientCap where
  recipient : Address
  cap : I128
deriving DecidableEq

/-- Per-asset per-transaction cap override and pause flag. -/
structure AssetCap where
  asset : Address
  perTxCap : I128
  paused : Bool
deriving DecidableEq

/-- A protocol contract; `fns = none` allows any function. -/
structure ProtocolRule where
  contract : Address
  fns : Option (List Symbol)
  paused : Bool
deriving DecidableEq

/-- The policy an admin installs on the account. -/
structure PolicyConfig where
  perTxCap : I128
  windowSecs : U64
  windowCap : I128
  assets : List Address
  protocols : List ProtocolRule
  recipients : List Address
  recipientWindowCaps : List RecipientCap
  blockedRecipients : List Address
  assetCaps : List AssetCap
  allowAnyRecipient : Bool
  activeFrom : U64
  activeUntil : U64
  paused : Bool
  dmsGraceSecs : U64
  protocolCallsPerWindow : U32
deriving DecidableEq

/-- A call, parsed into the form the decision engine reasons about. -/
inductive ParsedCall
  | assetTransfer (asset dest : Address) (amount : I128)
  | assetOther (asset : Address) (fname : Symbol)
  | protocol (contract : Address) (fname : Symbol)
  | selfCall (fname : Symbol)
  | createContract
  | unknown (contract : Address) (fname : Symbol)
deriving DecidableEq

/-! ## The stored window -/

abbrev SpendEntry := Stamped u64 i128
abbrev ProtocolCallEntry := Stamped u64 u32

/-- Rolling spend ledger of one recipient, as stored. -/
structure RecipientWindowState where
  recipient : Address
  total : I128
  entries : List SpendEntry
deriving DecidableEq

/-- The rolling spend ledger and protocol-call counts, as stored. -/
structure WindowState where
  total : I128
  entries : List SpendEntry
  recipients : List RecipientWindowState
  protocolCallEntries : List ProtocolCallEntry
deriving DecidableEq

/-! ## Errors and results -/

/-- Contract errors and decision reasons. -/
inductive Error
  | unauthorized | alreadyInitialized | notInitialized | invalidConfig | invalidAmount
  | noPendingAdmin
  | adminFrozen | heartbeatExpired | noPolicy | paused | outsideActiveWindow
  | assetNotAllowed | recipientNotAllowed | perTxCapExceeded | windowCapExceeded
  | protocolNotAllowed | functionNotAllowed | assetFnNotAllowed | unknownContract
  | selfFunctionNotAllowed | createContractNotAllowed | recipientBlocked
  | protocolCallRateExceeded | decisionInvariantViolation | tooManyAuthContexts
deriving DecidableEq

/-- The stable reason name of an error. -/
def Error.reason : Error → Symbol
  | .unauthorized => "unauthorized"
  | .alreadyInitialized => "already_initialized"
  | .notInitialized => "not_initialized"
  | .invalidConfig => "invalid_config"
  | .invalidAmount => "invalid_amount"
  | .noPendingAdmin => "no_pending_admin"
  | .adminFrozen => "admin_frozen"
  | .heartbeatExpired => "heartbeat_expired"
  | .noPolicy => "no_policy"
  | .paused => "paused"
  | .outsideActiveWindow => "outside_active_window"
  | .assetNotAllowed => "asset_not_allowed"
  | .recipientNotAllowed => "recipient_not_allowed"
  | .recipientBlocked => "recipient_blocked"
  | .perTxCapExceeded => "per_tx_cap_exceeded"
  | .windowCapExceeded => "window_cap_exceeded"
  | .protocolNotAllowed => "protocol_not_allowed"
  | .functionNotAllowed => "function_not_allowed"
  | .assetFnNotAllowed => "asset_fn_not_allowed"
  | .unknownContract => "unknown_contract"
  | .selfFunctionNotAllowed => "self_function_not_allowed"
  | .createContractNotAllowed => "create_contract_not_allowed"
  | .protocolCallRateExceeded => "protocol_call_rate_exceeded"
  | .decisionInvariantViolation => "decision_invariant_violation"
  | .tooManyAuthContexts => "too_many_auth_contexts"

/-- The rule of `validate_config` that rejected a policy. -/
inductive PolicyRuleId
  | amountSign | windowRequiresWidth | activeWindowOrder | selfAddressInList
  | duplicateAddressInList | duplicateRecipientCap | recipientListTooLong | recipientCapSign
  | recipientAllowAndBlocked | protocolContractDuplicate | protocolFnListInvalid
  | durationExceedsBound | assetListTooLong | protocolListTooLong | perTxCapExceedsWindowCap
  | assetCapListTooLong | assetCapUnknownAsset | duplicateAssetCap
deriving DecidableEq

/-- Dead-man switch health. -/
inductive DmsHealthStatus
  | ok | warn | expired
deriving DecidableEq

/-- Outcome of the `validate_policy` read. -/
inductive ValidationOutcome
  | valid
  | invalid (rule : PolicyRuleId)
deriving DecidableEq

/-- Verdict of a pre-flight `check`. -/
inductive CheckResult
  | allowed
  | blocked (reason : Symbol)
deriving DecidableEq

/-- Pre-flight verdict with cap headroom. -/
structure CheckDetail where
  result : CheckResult
  remainingWindow : Option I128
  perTxCap : Option I128
  effectivePerTxCap : Option I128
  effectiveWindowCap : Option I128
deriving DecidableEq

/-- One transfer of a batch pre-flight. -/
structure BatchTransfer where
  dest : Address
  amount : I128
deriving DecidableEq

structure BatchCheckResult where
  verdicts : List CheckResult
  admissible : Bool
deriving DecidableEq

/-- Operational snapshot of the account. -/
structure Status where
  hasPolicy : Bool
  policyRevision : U64
  adminFrozen : Bool
  heartbeatExpired : Bool
  lastHeartbeat : U64
  now : U64
  paused : Bool
  windowRemaining : Option I128
  outsideActiveWindow : Bool
deriving DecidableEq

end AgentGuard
