import Mathlib.Data.List.Basic

/-!
# AgentTx/Network — named networks and endpoints

`network.rs`: a preset is an RPC endpoint and the passphrase that goes with it.  Resolving the
endpoint flags keeps the two together: without an explicit passphrase, what is resolved is one
preset's endpoint with the same preset's passphrase (`resolveEndpoint_paired`).
-/

namespace AgentGuard.AgentTx

/-! ## Strings -/

/-- `str::to_ascii_lowercase`. -/
def toAsciiLowercase (s : String) : String := .ofList (s.toList.map Char.toLower)

/-- `str::split_once`: what stands before and after the first occurrence of `pat`. -/
def splitOnce (pat : List Char) : List Char → Option (List Char × List Char)
  | [] => if pat.isEmpty then some ([], []) else none
  | c :: cs =>
    if pat.isPrefixOf (c :: cs) then some ([], (c :: cs).drop pat.length)
    else (splitOnce pat cs).map fun (before, after) => (c :: before, after)

/-! ## Presets -/

/-- A named Soroban network. -/
inductive Network
  | testnet | futurenet | mainnet
deriving DecidableEq

def defaultNetwork : Network := .testnet

namespace Network

def name : Network → String
  | testnet => "testnet"
  | futurenet => "futurenet"
  | mainnet => "mainnet"

def names : List String := ["testnet", "futurenet", "mainnet"]

/-- The error quotes the value in lower case. -/
def parse (value : String) : Except String Network :=
  let other := toAsciiLowercase value
  if other = "testnet" then .ok testnet
  else if other = "futurenet" then .ok futurenet
  else if other = "mainnet" then .ok mainnet
  else
    .error ("invalid --network '" ++ other ++ "': not a named network; expected one of "
      ++ ", ".intercalate names)

def rpcUrl : Network → String
  | testnet => "https://soroban-testnet.stellar.org"
  | futurenet => "https://rpc-futurenet.stellar.org"
  | mainnet => "https://soroban.stellar.org"

def passphrase : Network → String
  | testnet => "Test SDF Network ; September 2015"
  | futurenet => "Test SDF Future Network ; October 2022"
  | mainnet => "Public Global Stellar Network ; September 2015"

/-- `rpc_url()` without its `https://`. -/
def host : Network → String
  | testnet => "soroban-testnet.stellar.org"
  | futurenet => "rpc-futurenet.stellar.org"
  | mainnet => "soroban.stellar.org"

/-- Which preset a URL points at, compared by host. -/
def fromRpcUrl (url : String) : Option Network :=
  let rest := ((splitOnce "://".toList url.toList).map Prod.snd).getD url.toList
  let host := toAsciiLowercase (.ofList (rest.takeWhile fun c => c ∉ ['/', '?', '#']))
  if host = testnet.host then some testnet
  else if host = futurenet.host then some futurenet
  else if host = mainnet.host then some mainnet
  else none

end Network

/-! ## Endpoints -/

/-- An endpoint resolved from the endpoint flags; `network` is `none` for a custom URL. -/
structure Endpoint where
  network : Option Network
  rpcUrl : String
  passphrase : String
  passphraseSource : String
deriving DecidableEq

/-- Where a passphrase came from, when it need not have been given. -/
def passphraseSourceOr (passphrase : Option String) (source : String) : String :=
  if passphrase.isSome then "explicit --network-passphrase" else source

/-- Turn the three endpoint flags into one answer. -/
def resolveEndpoint (network rpcUrl passphrase : Option String) : Except String Endpoint :=
  match network, rpcUrl with
  | some name, some url =>
    match Network.parse name with
    | .error message => .error message
    | .ok preset =>
      .error ("conflicting network selection: --network '" ++ preset.name ++ "' and --rpc-url '"
        ++ url ++ "' both name an endpoint; use --network alone for its preset URL, or drop "
        ++ "--network to connect to '" ++ url ++ "'")
  | some name, none =>
    match Network.parse name with
    | .error message => .error message
    | .ok preset =>
      .ok ⟨some preset, preset.rpcUrl, passphrase.getD preset.passphrase,
        passphraseSourceOr passphrase "--network preset"⟩
  | none, some url =>
    let preset := Network.fromRpcUrl url
    if preset.isNone && passphrase.isNone then
      .error "custom --rpc-url requires an explicit --network-passphrase"
    else
      .ok ⟨preset, url, passphrase.getD (preset.getD defaultNetwork).passphrase,
        passphraseSourceOr passphrase "recognized --rpc-url preset"⟩
  | none, none =>
    .ok ⟨some defaultNetwork, defaultNetwork.rpcUrl, passphrase.getD defaultNetwork.passphrase,
      passphraseSourceOr passphrase "default testnet preset"⟩

/-- A preset's own URL points at it. -/
theorem fromRpcUrl_rpcUrl (n : Network) : Network.fromRpcUrl n.rpcUrl = some n := by
  cases n <;> decide

/-- **What parses is a preset's name**, in any case. -/
theorem parse_eq_ok_iff {value : String} {n : Network} :
    Network.parse value = .ok n ↔ toAsciiLowercase value = n.name := by
  rw [Network.parse]
  cases n <;> simp only [Network.name] <;> split_ifs with h₁ h₂ h₃ <;> simp_all

/-- **Endpoint and passphrase stay together**: unless a passphrase is given, what is resolved is the
endpoint of one network with the passphrase of that network. -/
theorem resolveEndpoint_paired {network rpcUrl : Option String} {e : Endpoint}
    (h : resolveEndpoint network rpcUrl none = .ok e) :
    ∃ n, e.network = some n ∧ Network.fromRpcUrl e.rpcUrl = some n ∧
      e.passphrase = n.passphrase := by
  cases network with
  | some name =>
    cases rpcUrl with
    | some url => cases hname : Network.parse name <;> simp [resolveEndpoint, hname] at h
    | none =>
      cases hname : Network.parse name with
      | error message => simp [resolveEndpoint, hname] at h
      | ok preset =>
        obtain rfl : _ = e := by simpa only [resolveEndpoint, hname, Except.ok.injEq] using h
        exact ⟨preset, rfl, fromRpcUrl_rpcUrl preset, rfl⟩
  | none =>
    cases rpcUrl with
    | some url =>
      cases hpreset : Network.fromRpcUrl url with
      | none => simp [resolveEndpoint, hpreset] at h
      | some preset =>
        obtain rfl : _ = e := by
          simpa only [resolveEndpoint, hpreset, Option.isNone_some, Bool.false_and,
            Bool.false_eq_true, if_false, Except.ok.injEq] using h
        exact ⟨preset, rfl, hpreset, rfl⟩
    | none =>
      obtain rfl : _ = e := by simpa only [resolveEndpoint, Except.ok.injEq] using h
      exact ⟨defaultNetwork, rfl, fromRpcUrl_rpcUrl _, rfl⟩

end AgentGuard.AgentTx
