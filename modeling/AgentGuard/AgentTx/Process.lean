import AgentGuard.AgentTx.Network
import AgentGuard.AgentTx.Registry
import AgentGuard.AgentTx.Report
import AgentGuard.AgentTx.Status
import AgentGuard.Machinery.Session

/-!
# AgentTx/Process — the CLI as a process: requests, output and exits

What `agent-tx` does outside its own memory is a query: an HTTP request, a line on one of the two
output streams, four random bytes, a pause, a file, a variable.  A command is a `Session` over these
queries that ends with a value, an exit code or a panic, so what is proved of its runs holds for
every endpoint, however it answers.
-/

namespace AgentGuard.AgentTx

open Machinery

/-- Rust's `i64`. -/
def i64 : IntRange := ⟨-9223372036854775808, 9223372036854775807, by decide⟩

abbrev I64 := BoundedInt i64

@[simp] theorem i64_lo : i64.lo = -9223372036854775808 := rfl
@[simp] theorem i64_hi : i64.hi = 9223372036854775807 := rfl

/-! ## Numbers -/

/-- The loop of `from_str_radix`: the error that is met first is the one that is reported. -/
def parseDigits (R : IntRange) (negative : Bool) (acc : ℤ) : List Char → Except String ℤ
  | [] => .ok acc
  | c :: cs =>
    if !c.isDigit then .error "invalid digit found in string"
    else
      let digit : ℤ := (c.toNat - '0'.toNat : ℕ)
      let next := if negative then 10 * acc - digit else 10 * acc + digit
      if next < R.lo then .error "number too small to fit in target type"
      else if R.hi < next then .error "number too large to fit in target type"
      else parseDigits R negative next cs

/-- `str::parse` of a machine integer. -/
def parseInt (R : IntRange) (raw : String) : Except String (BoundedInt R) :=
  let digits : Except String (Bool × List Char) :=
    match raw.toList with
    | [] => .error "cannot parse integer from empty string"
    | ['+'] | ['-'] => .error "invalid digit found in string"
    | '+' :: cs => .ok (false, cs)
    | '-' :: cs => if R.lo < 0 then .ok (true, cs) else .error "invalid digit found in string"
    | cs => .ok (false, cs)
  do
    let (negative, cs) ← digits
    return BoundedInt.clamp (← parseDigits R negative 0 cs)

namespace Json

/-- `value[i]`: what is not there reads as `null`. -/
def item (v : Json) (i : ℕ) : Json := (v.asArray.bind fun items => items[i]?).getD .null

/-- `value.as_u64()`; the text of a JSON number has no sign `+`. -/
def asU64 : Json → Option U64
  | .num text => parseU64 text
  | _ => none

end Json

/-- `hex::encode`. -/
def hexEncode (bytes : List UInt8) : String := String.join (bytes.map fun b => hexPadded 2 b.toNat)

/-! ## Queries -/

/-- What an HTTP request comes to: the transport failed (in time, or by running out of it), or a
status with a body, which may stop short. -/
inductive HttpReply
  | transport (timedOut : Bool) (message : String)
  | response (status : ℕ) (body : Except (Bool × String) String)

/-- What the process asks of the outside. -/
inductive Query
  | http (url : String) (timeout : U64) (method : String) (params : Json)
  | stdout (text : String)
  | stderr (text : String)
  | entropy
  | sleep (secs : ℕ)
  | readFile (path : String)
  | readStdin
  | env (name : String)
  | registry

/-- How the outside answers. -/
def Query.Answer : Query → Type
  | .http .. => HttpReply
  | .stdout _ | .stderr _ | .sleep _ => Unit
  | .entropy => Except String U32
  | .readFile _ | .readStdin => Except String String
  | .env _ => Option String
  | .registry => RegistryFile

/-- How a process ends that does not return. -/
inductive Stop
  | exit (code : ℕ)
  | panicked (message : String)
deriving DecidableEq

abbrev Process := Session Query.Answer Stop

abbrev Log := List (Exchange Query.Answer)

/-- `println!`. -/
def printLine (text : String) : Process Unit := .ask (.stdout text) fun _ => .done ()

/-- `eprintln!`. -/
def eprintLine (text : String) : Process Unit := .ask (.stderr text) fun _ => .done ()

def exitWith {α : Type} (message : String) : Process α := do
  eprintLine ("Error: " ++ message)
  .halt (.exit 1)

/-- `.expect(message)`, on what may be missing. -/
def expect {α : Type} (message : String) : Option α → Process α
  | some a => .done a
  | none => .halt (.panicked message)

/-! ## The RPC client -/

inductive RpcFailureKind
  | timeout | transport | http | jsonRpc | invalidResponse
deriving DecidableEq

structure RpcError where
  method : String
  kind : RpcFailureKind
  httpStatus : Option ℕ
  jsonRpcCode : Option Json
  message : String

namespace RpcError

def label (e : RpcError) : String :=
  match e.kind with
  | .timeout => "RPC TIMEOUT"
  | .transport => "TRANSPORT FAILURE"
  | .http => "HTTP RPC FAILURE"
  | .jsonRpc => "JSON-RPC REJECTION"
  | .invalidResponse => "INVALID RPC RESPONSE"

def exitCode (e : RpcError) : ℕ :=
  match e.kind with
  | .timeout | .transport | .http => 3
  | .jsonRpc | .invalidResponse => 4

def isTimeout (e : RpcError) : Bool := e.kind = .timeout

end RpcError

/-- The JSON library: reading a text, and writing a value (members in the order they are listed). -/
structure JsonCrate where
  parse : String → Except String Json
  render : Json → String

section

variable (crate : JsonCrate)

def RpcError.display (e : RpcError) : String :=
  "RPC " ++ e.method ++ " failed"
    ++ (e.httpStatus.map fun status => " (HTTP status " ++ toString status ++ ")").getD ""
    ++ (e.jsonRpcCode.map fun code => " (JSON-RPC code " ++ crate.render code ++ ")").getD ""
    ++ ": " ++ e.message

/-- What `Rpc::post` makes of a reply. -/
def classifyReply (rpc : RpcClient) (method : String) (reply : HttpReply) : Except RpcError Json :=
  let timeout : RpcError :=
    ⟨method, .timeout, none, none, "no response from " ++ rpc.url ++ " within "
      ++ toString rpc.timeout.val ++ "s. The endpoint may be down or overloaded: retry, raise "
      ++ "--rpc-timeout <secs>, or pick another endpoint with --network/--rpc-url"⟩
  match reply with
  | .transport true _ => .error timeout
  | .transport false message => .error ⟨method, .transport, none, none, message⟩
  | .response _ (.error (true, _)) => .error timeout
  | .response status (.error (false, message)) =>
    .error ⟨method, .invalidResponse, some status, none, message⟩
  | .response status (.ok body) =>
    match crate.parse body with
    | .error message =>
      .error ⟨method, .invalidResponse, some status, none,
        "response is not valid JSON: " ++ message⟩
    | .ok json =>
      match json.get "error" with
      | some err =>
        .error ⟨method, .jsonRpc, some status, err.get "code",
          ((err.get "message").bind Json.asStr).getD (crate.render err)⟩
      | none =>
        if ¬(200 ≤ status ∧ status < 300) then
          .error ⟨method, .http, some status, none, crate.render json⟩
        else
          match json.get "result" with
          | some result => .ok result
          | none =>
            .error ⟨method, .invalidResponse, some status, none,
              "response did not contain a result"⟩

/-- One JSON-RPC request. -/
def post (rpc : RpcClient) (method : String) (params : Json) : Process (Except RpcError Json) :=
  .ask (.http rpc.url rpc.timeout method params) fun reply =>
    .done (classifyReply crate rpc method reply)

/-- Print the classified failure, with a hint when there is one, and exit with its code. -/
def rpcExit {α : Type} (error : RpcError) (hint : Option String) : Process α := do
  eprintLine ("RESULT: " ++ error.label)
  eprintLine (error.display crate)
  match hint with
  | some hint => eprintLine hint
  | none => pure ()
  .halt (.exit error.exitCode)

def rpcOrExit {α : Type} : Except RpcError α → Process α
  | .ok value => .done value
  | .error error => rpcExit crate error none

def latestLedger (rpc : RpcClient) : Process U32 := do
  let res ← rpcOrExit crate (← post crate rpc "getLatestLedger" (.obj []))
  let sequence ← expect "latest ledger sequence" (res.index "sequence").asU64
  return asU32 sequence

def simulate (rpc : RpcClient) (envelope : String) : Process Json := do
  rpcOrExit crate (← post crate rpc "simulateTransaction" (.obj [("transaction", .str envelope)]))

def send (rpc : RpcClient) (envelope : String) : Process (Except RpcError Json) :=
  post crate rpc "sendTransaction" (.obj [("transaction", .str envelope)])

def getTx (rpc : RpcClient) (hash : String) : Process (Except RpcError Json) :=
  post crate rpc "getTransaction" (.obj [("hash", .str hash)])

/-- The fee under one name of the fee statistics: a text, or a number. -/
def inclusionFeeField (stats : Json) (field : String) : Option U32 :=
  let value := (stats.index "inclusionFee").index field
  (value.asStr.bind fun fee => (parseInt u32 fee).toOption).or
    (value.asU64.bind fun fee => BoundedInt.ofInt? fee.val)

def parseInclusionFee (stats : Json) : Option U32 :=
  ["mode", "p50", "min"].findSome? (inclusionFeeField stats)

def inclusionFee (rpc : RpcClient) : Process (Except RpcError (Option U32)) := do
  return (← post crate rpc "getFeeStats" (.obj [])).map parseInclusionFee

/-! ## Reports -/

/-- How a run reports itself. -/
structure Reporter where
  json : Bool
  network : Option Network

/-- One line of the report for people. -/
def Reporter.line (reporter : Reporter) (text : String) : Process Unit :=
  if reporter.json then eprintLine text else printLine text

def Outcome.word : Outcome → String
  | .allowed => "allowed"
  | .blocked => "blocked"
  | .failed => "failed"

namespace RunReport

/-- A run without a verdict, or whose submission failed. -/
def failed (reason : String) : RunReport := new .failed (some reason)

def withLedger (report : RunReport) (ledger : U32) : RunReport :=
  { report with ledger := some ledger }

def withNetwork (report : RunReport) (network : Option Network) : RunReport :=
  { report with network := network.map Network.name }

def withTxHash (report : RunReport) (hash : String) : RunReport :=
  { report with txHash := some hash }

/-- A field that is left out when there is nothing in it. -/
def optionalField (name : String) (value : Option Json) : List (String × Json) :=
  (value.map fun v => (name, v)).toList

/-- The object as it reaches stdout. -/
def toJson (report : RunReport) : String :=
  crate.render (.obj (("outcome", .str report.outcome.word) ::
    (optionalField "reason" (report.reason.map .str)
      ++ optionalField "tx_hash" (report.txHash.map .str)
      ++ optionalField "ledger" (report.ledger.map fun n => .num (toString n.val))
      ++ optionalField "network" (report.network.map .str))))

end RunReport

/-- The structured object, under `--json` only. -/
def Reporter.emit (reporter : Reporter) (report : RunReport) : Process Unit :=
  if reporter.json then printLine (report.toJson crate) else pure ()

/-- A verdict, with the network and the ledger the run knows of. -/
def Reporter.complete (reporter : Reporter) (report : RunReport) (ledger : Option U32) :
    RunReport :=
  match ledger with
  | some ledger => (report.withNetwork reporter.network).withLedger ledger
  | none => report.withNetwork reporter.network

end

end AgentGuard.AgentTx
