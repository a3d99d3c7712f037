import AgentGuard.AgentTx.Merge
import AgentGuard.AgentTx.Process

/-!
# AgentTx/Envelope — the transaction, its authorization entry and its signatures

What the CLI builds around one invocation: the guard's authorization entry, signed over the
preimage the host hands to `__check_auth`, the transaction, and its signature.  Hashing, signing and
the XDR codec are parameters (`Crates`).  Fields that are the same in every transaction the CLI
builds (no memo, no preconditions) are left out.
-/

namespace AgentGuard.AgentTx

open Machinery

/-! ## XDR types -/

/-- `SorobanAuthorizationEntry` of an address with one root invocation and no sub-invocations. -/
structure SorobanAuthorizationEntry where
  address : Address
  nonce : I64
  signatureExpirationLedger : U32
  signature : List UInt8
  rootInvocation : ContractContext
deriving DecidableEq

/-- `HashIdPreimage::SorobanAuthorization`, over the same kind of root invocation. -/
structure AuthPreimage where
  networkId : Bytes32
  nonce : I64
  signatureExpirationLedger : U32
  invocation : ContractContext
deriving DecidableEq

/-- An `InvokeHostFunction` operation that calls a contract. -/
structure Operation where
  invocation : ContractContext
  auth : List SorobanAuthorizationEntry
deriving DecidableEq

structure SorobanResources where
  footprint : LedgerFootprint
  instructions : U32
  diskReadBytes : U32
  writeBytes : U32
deriving DecidableEq

structure SorobanTransactionData where
  resources : SorobanResources
  resourceFee : I64
deriving DecidableEq

structure Transaction where
  sourceAccount : Bytes32
  fee : U32
  seqNum : I64
  operations : List Operation
  data : SorobanTransactionData
deriving DecidableEq

/-- A signature, with the last bytes of the key that made it. -/
structure DecoratedSignature where
  hint : List UInt8
  signature : List UInt8
deriving DecidableEq

structure TransactionEnvelope where
  tx : Transaction
  signatures : List DecoratedSignature
deriving DecidableEq

/-- What the CLI reads of a fetched ledger entry: the sequence number of an account, or the values
in a contract instance's storage that are byte strings. -/
inductive FetchedEntry
  | account (seqNum : I64)
  | contractInstance (storage : List (Option (List UInt8)))
  | contractData
  | other

/-- The third-party code the CLI calls. -/
structure Crates extends JsonCrate where
  sha256 : List UInt8 → Bytes32
  /-- `SigningKey::from_bytes(seed).verifying_key()`. -/
  verifyingKey : Bytes32 → Bytes32
  /-- `SigningKey::from_bytes(seed).sign`. -/
  sign : Bytes32 → List UInt8 → List UInt8
  /-- `str::parse::<ScAddress>`. -/
  parseScAddress : String → Except String Address
  preimageXdr : AuthPreimage → List UInt8
  transactionXdr : Transaction → List UInt8
  envelopeBase64 : TransactionEnvelope → String
  ledgerKeyBase64 : LedgerKey → String
  /-- The base-64 XDR of `LedgerKey::Account`. -/
  accountKeyBase64 : BitVec 256 → String
  /-- `LedgerEntryData::from_xdr_base64`, as the account and instance reads look at it. -/
  decodeFetched : String → Option FetchedEntry
  /-- The same, as the policy and status reads look at it. -/
  decodeEntry : String → Option LedgerEntryData
  /-- `SorobanTransactionData::from_xdr_base64`. -/
  decodeData : String → Option SorobanTransactionData
  /-- `DiagnosticEvent::from_xdr_base64`, with the event's data. -/
  decodeEvent : String → Option (DiagnosticEvent × ScVal)
  /-- How `scval_str` writes a value of a kind the model keeps as its encoding. -/
  renderOther : List UInt8 → String

/-- The event decoder, without the data. -/
def Crates.decode (crates : Crates) (encoded : String) : Option DiagnosticEvent :=
  (crates.decodeEvent encoded).map Prod.fst

/-! ## Constants -/

def inclusionFeeFallback : U32 := 100

/-- Stroops added for the guard keys the simulation may not have priced. -/
def guardKeyFeeBump : U32 := 100000

def calculateFee (minResourceFee inclusionFee : U32) : U32 :=
  (minResourceFee.saturatingAdd inclusionFee).saturatingAdd guardKeyFeeBump

/-! ## Keys and nonces -/

def accountStrkey (pubkey : Bytes32) : String := strkeyEncode verAccount pubkey.toList

def contractStrkey (id : Bytes32) : String := strkeyEncode verContract id.toList

/-- The bytes of an id, most significant first. -/
def idBytes (id : BitVec 256) : Bytes32 :=
  Vector.ofFn fun i => UInt8.ofNat ((id.toNat / 256 ^ (31 - i.val)) % 256)

/-- Decode a secret to its seed. -/
def secretToSeed (secret : String) : Process Bytes32 :=
  match decodeStrkey secret with
  | .ok (version, seed) =>
    if version = verSecret then .done seed
    else exitWith "not an account secret seed (expected leading character 'S')"
  | .error err =>
    exitWith ("invalid secret seed: " ++ err
      ++ "; expected a 56-character StrKey secret seed (S...)")

/-- `n as i64`, of an unsigned 64-bit value. -/
def asI64 (n : ℕ) : I64 :=
  BoundedInt.clamp (if n % 2 ^ 64 < 2 ^ 63 then (n % 2 ^ 64 : ℕ) else (n % 2 ^ 64 : ℕ) - 2 ^ 64)

/-- The latest ledger in the high 32 bits, entropy in the low 32. -/
def authNonce (latestLedger entropy : U32) : I64 :=
  asI64 ((latestLedger.val.toNat <<< 32) ||| entropy.val.toNat)

def freshAuthNonce (latestLedger : U32) : Process I64 :=
  .ask .entropy fun drawn =>
    match drawn with
    | .ok entropy => .done (authNonce latestLedger entropy)
    | .error e => exitWith ("cannot draw an auth nonce: OS RNG failed: " ++ e)

section

variable (crates : Crates)

/-! ## Building -/

/-- The guard's authorization entry: the agent's signature over the digest of the preimage. -/
def buildAuthEntry (guard : Address) (invocation : ContractContext) (nonce : I64) (sigExp : U32)
    (networkId seed : Bytes32) : SorobanAuthorizationEntry :=
  let payload : AuthPreimage := ⟨networkId, nonce, sigExp, invocation⟩
  let digest := crates.sha256 (crates.preimageXdr payload)
  ⟨guard, nonce, sigExp, crates.sign seed digest.toList, invocation⟩

def invokeOp (invocation : ContractContext) (auth : List SorobanAuthorizationEntry) : Operation :=
  ⟨invocation, auth⟩

/-- The envelope that is simulated: the table's footprint, no resources and no signature. -/
def buildInitialEnvelope (source : Bytes32) (seq : I64) (op : Operation) (guard : Address)
    (kind : CallKind) : TransactionEnvelope :=
  { tx :=
      { sourceAccount := source
        fee := inclusionFeeFallback
        seqNum := seq
        operations := [op]
        data := ⟨⟨guardFootprint guard kind, 0, 0, 0⟩, 0⟩ }
    signatures := [] }

/-- The hash the agent signs and the network reports: over network, envelope type and body. -/
def txHash (tx : Transaction) (networkId : Bytes32) : Bytes32 :=
  crates.sha256 (networkId.toList ++ [0, 0, 0, 2] ++ crates.transactionXdr tx)

def signEnvelope (env : TransactionEnvelope) (networkId seed : Bytes32) : TransactionEnvelope :=
  let digest := txHash crates env.tx networkId
  let hint := (crates.verifyingKey seed).toList.drop 28
  { tx := env.tx, signatures := [⟨hint, crates.sign seed digest.toList⟩] }

/-! ## Account and guard reads -/

def accountSeq (rpc : RpcClient) (account : String) : Process I64 :=
  match crates.parseScAddress account with
  | .error e => .halt (.panicked ("account address: " ++ e))
  | .ok (.contract _) => .halt (.panicked "expected account address")
  | .ok (.account id) => do
    let res ← rpcOrExit crates.toJsonCrate (← post crates.toJsonCrate rpc "getLedgerEntries"
      (.obj [("keys", .arr [.str (crates.accountKeyBase64 id)])]))
    let entry ← expect "ledger entry xdr" (((res.index "entries").item 0).index "xdr").asStr
    match ← expect "XDR decode" (crates.decodeFetched entry) with
    | .account seqNum => return seqNum
    | _ => .halt (.panicked "unexpected ledger entry")

/-- The first value in the instance storage that is 32 bytes long. -/
def agentKeyOf (storage : List (Option (List UInt8))) : Option Bytes32 :=
  storage.findSome? fun bytes => bytes.bind fun bytes =>
    if h : bytes.length = 32 then some ⟨⟨bytes⟩, h⟩ else none

def registeredAgentPubkey (rpc : RpcClient) (guard : Address) : Process Bytes32 := do
  let res ← rpcOrExit crates.toJsonCrate (← post crates.toJsonCrate rpc "getLedgerEntries"
    (.obj [("keys", .arr [.str (crates.ledgerKeyBase64 (guardInstanceKey guard))])]))
  let entry ← expect "guard instance ledger entry XDR"
    (((res.index "entries").item 0).index "xdr").asStr
  match ← expect "XDR decode" (crates.decodeFetched entry) with
  | .contractInstance storage =>
    expect "registered agent public key not found in guard instance storage" (agentKeyOf storage)
  | .contractData =>
    .halt (.panicked "guard instance ledger entry did not contain a contract instance")
  | _ => .halt (.panicked "unexpected guard instance ledger entry")

/-- The inclusion fee and where it came from: the override, the network, or the fallback. -/
def resolveInclusionFee (rpc : RpcClient) (overrideFee : Option U32) : Process (U32 × String) :=
  match overrideFee with
  | some fee => return (fee, "explicit --inclusion-fee override")
  | none => do
    match ← inclusionFee crates.toJsonCrate rpc with
    | .ok (some fee) => return (fee, "RPC getFeeStats inclusionFee.mode")
    | .ok none =>
      eprintLine ("warning: RPC fee statistics did not include an inclusion fee; using fallback "
        ++ toString inclusionFeeFallback.val ++ " stroops")
      return (inclusionFeeFallback, "fallback constant (fee statistics unavailable)")
    | .error error =>
      eprintLine ("warning: could not read the network inclusion fee ("
        ++ error.display crates.toJsonCrate ++ "); using fallback "
        ++ toString inclusionFeeFallback.val ++ " stroops")
      return (inclusionFeeFallback, "fallback constant (fee statistics unavailable)")

end

end AgentGuard.AgentTx
