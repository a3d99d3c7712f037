import AgentGuard.AgentTx.Submit

/-!
# AgentTx/Request — from the command line to a command

`parse_request` reads the flags of a subcommand, resolves the endpoint, the guard and the secret and
checks every address, before `main` builds a client.  The flag loop turns tokens into settings that
overwrite one another; the rest reads the settings.  Help texts are left out, so a command starts
where `main` has ruled out a request for help and the `guards` commands.
-/

namespace AgentGuard.AgentTx

open Machinery

/-! ## Flags -/

/-- The flags every command over the network takes, in the order the errors list them. -/
def endpointFlags : List String :=
  ["--network", "--rpc-url", "--rpc-timeout", "--network-passphrase"]

def validFlagsForSubcommand (cmd : String) : List String :=
  if cmd = "preflight" then
    ["--guard", "--asset", "--token", "--to", "--amount", "--secret", "--agent-secret",
      "--agent-secret-file"] ++ endpointFlags
      ++ ["--inclusion-fee", "--expect-blocked", "--json", "-h", "--help"]
  else if cmd = "transfer" then
    ["--guard", "--token", "--asset", "--to", "--amount", "--agent-secret", "--agent-secret-file",
      "--secret"] ++ endpointFlags
      ++ ["--inclusion-fee", "--expect-blocked", "--json", "-h", "--help"]
  else if cmd = "transfer-from" then
    ["--guard", "--token", "--asset", "--from", "--to", "--amount", "--agent-secret",
      "--agent-secret-file", "--secret"] ++ endpointFlags
      ++ ["--inclusion-fee", "--expect-blocked", "--json", "-h", "--help"]
  else if cmd = "heartbeat" then
    ["--guard", "--agent-secret", "--agent-secret-file", "--secret"] ++ endpointFlags
      ++ ["--inclusion-fee", "--json", "-h", "--help"]
  else if cmd = "status" ∨ cmd = "policy" then
    "--guard" :: endpointFlags ++ ["--json", "-h", "--help"]
  else if cmd = "check" then
    ["--guard", "--asset", "--token", "--to", "--amount"] ++ endpointFlags
      ++ ["--json", "-h", "--help"]
  else []

def transferOnlyFlags : List String :=
  ["--token", "--asset", "--to", "--from", "--amount", "--expect-blocked"]

/-- `Cli::unknown`, for a command with flags of its own too. -/
def unknownFlag (cmd flag : String) : String :=
  let valid := validFlagsForSubcommand cmd
  if valid.isEmpty then (Cli.mk cmd []).unknown flag
  else
    "unknown argument for \x60" ++ cmd ++ "\x60: " ++ flag ++ "; valid flags: "
      ++ ", ".intercalate valid

/-- The error about a token that is no flag of the subcommand. -/
def refusedFlag (cmd flag : String) : String :=
  let valid := "(valid flags: " ++ ", ".intercalate (validFlagsForSubcommand cmd) ++ ")"
  if cmd = "heartbeat" ∧ flag ∈ transferOnlyFlags then
    "transfer-only flag '" ++ flag ++ "' is not valid for \x60heartbeat\x60 " ++ valid
  else if cmd = "transfer" ∧ flag = "--from" then
    "flag '--from' is only valid for \x60transfer-from\x60, not \x60transfer\x60 " ++ valid
  else unknownFlag cmd flag

def parseAmount (raw : String) : Except String I128 :=
  match parseInt i128 raw with
  | .ok n => .ok n
  | .error e =>
    .error ("invalid --amount '" ++ raw ++ "': " ++ e
      ++ "; expected an integer i128 in whole units")

def parseInclusionFeeFlag (raw : String) : Except String U32 :=
  match parseInt u32 raw with
  | .ok n => .ok n
  | .error e =>
    .error ("invalid --inclusion-fee '" ++ raw ++ "': " ++ e ++ "; expected stroops as u32")

/-- What one flag sets. -/
inductive Setting
  | guard (value : String)
  | token (field value : String)
  | source (value : String)
  | dest (value : String)
  | amount (n : I128)
  | inclusionFee (n : U32)
  | secret (field value : String)
  | secretFile (field path : String)
  | network (value : String)
  | rpcUrl (value : String)
  | passphrase (value : String)
  | rpcTimeout (secs : U64)
  | expectBlocked
  | json
deriving DecidableEq

/-- A secret on the command line; `-` stands for stdin. -/
def secretSetting (field value : String) : Setting :=
  if value = "-" then .secretFile field value else .secret field value

/-- How a flag is read. -/
inductive FlagForm
  | help
  | switch (setting : Setting)
  | valued (expected : String) (read : String → Except String Setting)
  | unknown

/-- The arms of the flag loop. -/
def flagTable : List (String × FlagForm) :=
  [("-h", .help), ("--help", .help),
    ("--guard", .valued "contract ID 'C...'" fun v => .ok (.guard v)),
    ("--token", .valued "contract ID 'C...'" fun v => .ok (.token "--token" v)),
    ("--asset", .valued "contract ID 'C...'" fun v => .ok (.token "--asset" v)),
    ("--from", .valued "account ID 'G...' or contract ID 'C...'" fun v => .ok (.source v)),
    ("--to", .valued "recipient account ID 'G...' or contract ID 'C...'" fun v => .ok (.dest v)),
    ("--amount", .valued "integer i128" fun v => (parseAmount v).map .amount),
    ("--inclusion-fee", .valued "stroops as u32" fun v =>
      (parseInclusionFeeFlag v).map .inclusionFee),
    ("--agent-secret", .valued "secret seed 'S...'" fun v =>
      .ok (secretSetting "--agent-secret" v)),
    ("--secret", .valued "secret seed 'S...'" fun v => .ok (secretSetting "--secret" v)),
    ("--agent-secret-file", .valued "file path or '-' for stdin" fun v =>
      .ok (.secretFile "--agent-secret-file" v)),
    ("--network", .valued "testnet | futurenet | mainnet" fun v => .ok (.network v)),
    ("--rpc-url", .valued "endpoint URL e.g. https://..." fun v => .ok (.rpcUrl v)),
    ("--network-passphrase", .valued "passphrase string" fun v => .ok (.passphrase v)),
    ("--rpc-timeout", .valued "whole seconds e.g. 30" fun v =>
      (parseRpcTimeout v).map .rpcTimeout),
    ("--expect-blocked", .switch .expectBlocked), ("--json", .switch .json)]

def flagForm (flag : String) : FlagForm :=
  ((flagTable.find? fun row => row.1 = flag).map Prod.snd).getD .unknown

/-- The variables of the flag loop. -/
structure Flags where
  guard : Option String := none
  token : Option String := none
  tokenField : String := ""
  source : Option String := none
  dest : Option String := none
  amount : Option I128 := none
  secret : Option String := none
  secretField : String := ""
  secretFile : Option String := none
  rawSecretOnArgv : Bool := false
  network : Option String := none
  rpcUrl : Option String := none
  passphrase : Option String := none
  rpcTimeout : U64 := defaultRpcTimeout
  expectBlocked : Bool := false
  json : Bool := false
  inclusionFeeOverride : Option U32 := none

def Flags.set (flags : Flags) : Setting → Flags
  | .guard value => { flags with guard := some value }
  | .token field value => { flags with tokenField := field, token := some value }
  | .source value => { flags with source := some value }
  | .dest value => { flags with dest := some value }
  | .amount n => { flags with amount := some n }
  | .inclusionFee n => { flags with inclusionFeeOverride := some n }
  | .secret field value =>
    { flags with secretField := field, rawSecretOnArgv := true, secret := some value }
  | .secretFile field path => { flags with secretField := field, secretFile := some path }
  | .network value => { flags with network := some value }
  | .rpcUrl value => { flags with rpcUrl := some value }
  | .passphrase value => { flags with passphrase := some value }
  | .rpcTimeout secs => { flags with rpcTimeout := secs }
  | .expectBlocked => { flags with expectBlocked := true }
  | .json => { flags with json := true }

/-- The flag loop of `parse_request`. -/
def parseFlags (cmd : String) (flags : Flags) : List String → Except String Flags
  | [] => .ok flags
  | flag :: rest =>
    if flag ∉ validFlagsForSubcommand cmd then .error (refusedFlag cmd flag)
    else
      match flagForm flag with
      | .help =>
        .error ("help requested for \x60" ++ cmd ++ "\x60 (see \x60agent-tx " ++ cmd
          ++ " --help\x60)")
      | .switch setting => parseFlags cmd (flags.set setting) rest
      | .valued expected read =>
        match rest with
        | [] => .error (missingValue flag expected)
        | value :: rest =>
          match read value with
          | .error message => .error message
          | .ok setting => parseFlags cmd (flags.set setting) rest
      | .unknown => .error (unknownFlag cmd flag)

/-! ## Secrets -/

/-- `str::trim_end`. -/
def trimEnd (s : String) : String :=
  .ofList (s.toList.reverse.dropWhile isWhitespace).reverse

/-- Read the secret from a file, or from stdin for `-`. -/
def readSecretFromFile (path : String) : Process (Except String String) :=
  if path = "-" then
    .ask .readStdin fun (read : Except String String) => .done (match read with
      | .ok raw => .ok (trimEnd raw)
      | .error e => .error ("failed to read agent secret from stdin: " ++ e))
  else
    .ask (.readFile path) fun (read : Except String String) => .done (match read with
      | .ok raw => .ok (trimEnd raw)
      | .error e => .error ("failed to read agent secret from file '" ++ path ++ "': " ++ e))

def signs (cmd : String) : Bool := cmd = "transfer" || cmd = "transfer-from" || cmd = "heartbeat"

def secretOnArgvWarning : String :=
  "warning: passing the secret key via --agent-secret exposes it in the process table (argv) and "
    ++ "shell history; prefer AGENT_SECRET env var or --agent-secret-file <path>"

/-- The field a secret is blamed under, once it is known where it came from. -/
def Flags.secretFieldOr (flags : Flags) (fallback : String) : String :=
  if flags.secretField.isEmpty then fallback else flags.secretField

/-- The last checks on a secret: what there is is one, and a command that signs has one. -/
def checkSecret (cmd field : String) : Option String → Except String (Option String)
  | some secret => do
    let _ ← validateKey field .secret secret
    return some secret
  | none =>
    if signs cmd then
      .error ("missing --agent-secret (or AGENT_SECRET; expected secret seed 'S...'): \x60" ++ cmd
        ++ "\x60 signs and submits, so it requires the registered agent's secret seed")
    else .ok none

/-- The secret: from a file, from the command line or from the environment. -/
def findSecret (cmd : String) (flags : Flags) : Process (Except String (Option String)) :=
  match flags.secretFile with
  | some path => do
    match ← readSecretFromFile path with
    | .error message => return .error message
    | .ok secret => return checkSecret cmd (flags.secretFieldOr "--agent-secret-file") (some secret)
  | none =>
    match flags.secret with
    | some secret =>
      return checkSecret cmd (flags.secretFieldOr "--agent-secret (or AGENT_SECRET)") (some secret)
    | none => do
      let secret : Option String ← Session.query (Query.env "AGENT_SECRET")
      return checkSecret cmd (flags.secretFieldOr "--agent-secret (or AGENT_SECRET)") secret

/-- A secret on the command line is warned of, whether it is used or not. -/
def resolveSecret (cmd : String) (flags : Flags) : Process (Except String (Option String)) := do
  if flags.rawSecretOnArgv then eprintLine secretOnArgvWarning
  findSecret cmd flags

/-! ## Requests -/

structure Request where
  guard : Address
  token : Option Address
  source : Option Address
  dest : Option Address
  amount : Option I128
  secret : Option String
  endpoint : Endpoint
  rpcTimeout : U64
  expectBlocked : Bool
  json : Bool
  inclusionFeeOverride : Option U32

section

variable (crates : Crates)

/-- Check a StrKey, and parse it into the XDR address type. -/
def validateAddress (field : String) (kind : KeyKind) (value : String) : Except String Address := do
  let _ ← validateKey field kind value
  match crates.parseScAddress value with
  | .ok address => return address
  | .error e =>
    .error ("internal error: " ++ field ++ " '" ++ value
      ++ "': passed StrKey validation but failed to parse: " ++ e)

/-- The subcommands with a token and a recipient. -/
def spends (cmd : String) : Bool :=
  cmd = "preflight" || cmd = "transfer" || cmd = "transfer-from" || cmd = "check"

def requireFlag {α : Type} (message : String) : Option α → Except String α
  | some a => .ok a
  | none => .error message

/-- The sender of a `transfer-from`, which no other subcommand takes. -/
def parseSource (cmd : String) (flags : Flags) : Except String (Option Address) :=
  if cmd = "transfer-from" then do
    let raw ← requireFlag ("missing --from (expected account ID 'G...' or contract ID 'C...'): "
      ++ "\x60transfer-from\x60 requires it") flags.source
    return some (← validateAddress crates "--from" .recipient raw)
  else if flags.source.isSome then .error "--from is only valid for \x60transfer-from\x60"
  else .ok none

/-- The spelling of the token flag a complaint names: the one used, or the subcommand's own. -/
def Flags.tokenFieldFor (flags : Flags) (cmd : String) : String :=
  if flags.tokenField.isEmpty then if cmd = "transfer" then "--token" else "--asset"
  else flags.tokenField

/-- Token, sender and recipient of a spend, once its flags are complete. -/
def parseSpend (cmd : String) (flags : Flags) :
    Except String (Option Address × Option Address × Option Address) :=
  if spends cmd then do
    let tokenField := flags.tokenFieldFor cmd
    let raw ← requireFlag ("missing " ++ tokenField ++ " (expected contract ID 'C...'): \x60" ++ cmd
      ++ "\x60 requires it") flags.token
    let token ← validateAddress crates tokenField .contract raw
    let source ← parseSource crates cmd flags
    let raw ← requireFlag ("missing --to (expected recipient account ID 'G...' or contract ID "
      ++ "'C...'): \x60" ++ cmd ++ "\x60 requires it") flags.dest
    let dest ← validateAddress crates "--to" .recipient raw
    let _ ← requireFlag ("missing --amount (expected integer i128): \x60" ++ cmd
      ++ "\x60 requires it") flags.amount
    return (some token, source, some dest)
  else .ok (none, none, none)

/-- The guard flag, or what the registry has for it. -/
def guardArgument : Option String → Process (Except String String)
  | some value => return resolveGuard (some value) none
  | none => .ask .registry fun (file : RegistryFile) => .done (resolveGuard none file)

/-- What is left of `parse_request` once endpoint, guard and secret are there. -/
def assemble (cmd : String) (flags : Flags) (endpoint : Endpoint) (guard : Address)
    (secret : Option String) : Except String Request := do
  let (token, source, dest) ← parseSpend crates cmd flags
  return { guard, token, source, dest, secret, endpoint
           amount := flags.amount
           rpcTimeout := flags.rpcTimeout
           expectBlocked := flags.expectBlocked
           json := flags.json
           inclusionFeeOverride := flags.inclusionFeeOverride }

/-- The flags of a subcommand, collected and then checked. -/
def parseRequest (cmd : String) (argv : List String) : Process (Except String Request) :=
  match parseFlags cmd {} argv with
  | .error message => return .error message
  | .ok flags =>
    match resolveEndpoint flags.network flags.rpcUrl flags.passphrase with
    | .error message => return .error message
    | .ok endpoint => do
      match (← guardArgument flags.guard).bind (validateAddress crates "--guard" .contract) with
      | .error message => return .error message
      | .ok guard =>
        match ← resolveSecret cmd flags with
        | .error message => return .error message
        | .ok secret => return assemble crates cmd flags endpoint guard secret

/-! ## Commands -/

/-- The reminder a network owes the operator. -/
def Network.notice : Network → Option String
  | .mainnet => some ("warning: mainnet selected — this contract is unaudited and gates fund "
      ++ "movement; do not use it with real funds (see SECURITY.md)")
  | .testnet | .futurenet => none

namespace Request

variable (request : Request)

def notice : Option String := request.endpoint.network.bind Network.notice

def rpc : RpcClient := ⟨request.endpoint.rpcUrl, request.rpcTimeout⟩

def reporter : Reporter := ⟨request.json, request.endpoint.network⟩

def args : Args where
  rpc := request.rpc
  passphrase := request.endpoint.passphrase
  passphraseSource := request.endpoint.passphraseSource
  guard := request.guard
  secret := request.secret
  expectBlocked := request.expectBlocked
  reporter := request.reporter
  inclusionFeeOverride := request.inclusionFeeOverride

end Request

def missingArgument {α : Type} (cmd : String) : Process α :=
  exitWith ("missing required argument for \x60" ++ cmd ++ "\x60 (see \x60agent-tx " ++ cmd
    ++ " --help\x60)")

/-- Token, recipient and amount, which `main` takes out of the request once more. -/
def spendTarget (cmd : String) (request : Request) : Process (Address × Address × I128) :=
  match request.token, request.dest, request.amount with
  | some token, some dest, some amount => return (token, dest, amount)
  | _, _, _ => missingArgument cmd

/-- A command that may fail with a message. -/
def orExit (p : Process (Except String Unit)) : Process Unit := do
  match ← p with
  | .ok () => return ()
  | .error message => exitWith message

/-- `run`, and the exit code of its outcome. -/
def runToExit (call : Call) (args : Args) : Process Unit := do
  let outcome ← run crates call args
  .halt (.exit (outcome.exitCode args.expectBlocked))

/-- `preflight`, and its exit code. -/
def preflightToExit (call : Call) (args : Args) : Process Unit := do
  match ← preflight crates call args with
  | .ok () => .halt (.exit 0)
  | .error code => .halt (.exit code)

/-- The last part of `main`: the subcommand on its request. -/
def dispatch (cmd : String) (request : Request) : Process Unit :=
  if cmd = "status" then orExit (printStatus crates request.rpc request.guard)
  else if cmd = "policy" then orExit (cmdPolicy crates request.rpc request.guard request.reporter)
  else if cmd = "check" then do
    let (asset, dest, amount) ← spendTarget cmd request
    cmdCheck crates request.rpc request.guard asset dest amount request.reporter
  else if cmd = "preflight" then do
    let (token, dest, amount) ← spendTarget cmd request
    preflightToExit crates (.transfer token dest amount) request.args
  else if cmd = "transfer" then do
    let (token, dest, amount) ← spendTarget cmd request
    runToExit crates (.transfer token dest amount) request.args
  else if cmd = "transfer-from" then
    match request.token, request.source, request.dest, request.amount with
    | some token, some source, some dest, some amount =>
      runToExit crates (.transferFrom token source dest amount) request.args
    | _, _, _, _ => missingArgument cmd
  else if cmd = "heartbeat" then runToExit crates .heartbeat request.args
  else exitWith ("unknown subcommand '" ++ cmd ++ "' (see \x60agent-tx --help\x60)")

def subcommands : List String :=
  ["preflight", "transfer", "transfer-from", "heartbeat", "status", "policy", "check"]

/-- What `main` says before a command starts. -/
def announce (cmd : String) (request : Request) : Process Unit := do
  match request.notice with
  | some notice => eprintLine notice
  | none => pure ()
  if cmd = "preflight" then request.reporter.line "send=no (preflight only)"

/-- `main`, from the check of the subcommand on. -/
def runCommand (cmd : String) (rest : List String) : Process Unit :=
  if cmd ∉ subcommands then
    exitWith ("unknown subcommand '" ++ cmd ++ "' (see \x60agent-tx --help\x60)")
  else do
    match ← parseRequest crates cmd rest with
    | .error message => exitWith message
    | .ok request =>
      announce cmd request
      dispatch crates cmd request

end

end AgentGuard.AgentTx
