import AgentGuard.AgentTx.Envelope

/-!
# AgentTx/Submit — simulating, submitting and following a call

`run` signs a call, simulates it with the real `__check_auth`, and only then submits it and polls
for its fate; `preflight` and `check` stop at the simulation.  Each is a process that prints its
report for people line by line and one object for programs.  `run` is cut at the points where it can
end: `refused`, `unblocked`, `prepare`, `submit` and the rounds of the poll.  The lines behind
`AGENT_TX_DEBUG` are left out.
-/

namespace AgentGuard.AgentTx

open Machinery

structure Args where
  rpc : RpcClient
  passphrase : String
  passphraseSource : String
  guard : Address
  secret : Option String
  expectBlocked : Bool
  reporter : Reporter
  inclusionFeeOverride : Option U32

/-- Outcome of the submission. -/
inductive RunOutcome
  | simulationBlocked (policyBlock : Bool) (errorCode errorMessage : Option String)
      (events : Option (List Json))
  | simulationSuccessUnexpectedBlock
  | sendError (message : String)
  | emptyHash (message : String)
  | transactionSuccess (hash status : String)
  | transactionFailure (hash : String) (resultXdr : Option String)
  | transactionTimeout (hash : String)

def RunOutcome.exitCode (expectBlocked : Bool) : RunOutcome → ℕ
  | .simulationBlocked policyBlock .. => if policyBlock && expectBlocked then 0 else 1
  | .simulationSuccessUnexpectedBlock | .sendError _ | .emptyHash _ | .transactionTimeout _ => 1
  | .transactionSuccess .. => 0
  | .transactionFailure .. => if expectBlocked then 0 else 1

/-- `str::contains`. -/
def containsStr (s pat : String) : Bool := (splitOnce pat.toList s.toList).isSome

def mapSubmissionError (err : String) : String :=
  if containsStr err "tx_insufficient_fee" || containsStr err "insufficient" then
    "Submission failed due to insufficient fee (tx_insufficient_fee). Fix: Resubmit with a higher "
      ++ "fee or use --fee-multiplier <VAL> (see README.md Troubleshooting)."
  else if containsStr err "tx_bad_seq" || containsStr err "seq" then
    "Submission failed due to sequence number collision/mismatch (tx_bad_seq). Fix: Ensure account "
      ++ "sequence is up-to-date and resubmit (see README.md Troubleshooting)."
  else if containsStr err "tx_too_early" then
    "Submission failed because transaction is too early (tx_too_early). Fix: Wait for the next "
      ++ "ledger or check node time sync (see README.md Troubleshooting)."
  else if containsStr err "tx_late_expiration" then
    "Submission failed because transaction/signature expiration passed (tx_late_expiration). Fix: "
      ++ "Increase signature expiration ledger delta --sig-expiration-ledgers <VAL> (see README.md "
      ++ "Troubleshooting)."
  else
    "Submission failed: " ++ err
      ++ ". Refer to README.md Troubleshooting section for exact remediation flags."

section

variable (crates : Crates)

/-! ## Values, for people -/

mutual

def scvalStr : ScVal → String
  | .void => "()"
  | .bool b => if b then "true" else "false"
  | .u32 n => toString n.val
  | .u64 n => toString n.val
  | .i128 n => toString n.val
  | .symbol name => name
  | .address (.account id) => accountStrkey (idBytes id)
  | .address (.contract id) => contractStrkey (idBytes id)
  | .vec items => "[" ++ ", ".intercalate (scvecStrs items) ++ "]"
  | .map entries => "\x7b" ++ ", ".intercalate (scmapStrs entries) ++ "\x7d"
  | .ledgerKeyContractInstance => "<instance>"
  | .other encoding => crates.renderOther encoding

def scvecStrs : ScVec → List String
  | .nil => []
  | .cons head tail => scvalStr head :: scvecStrs tail

def scmapStrs : ScMap → List String
  | .nil => []
  | .cons key val tail => (scvalStr key ++ ": " ++ scvalStr val) :: scmapStrs tail

end

/-- One diagnostic event; one that does not decode is fatal. -/
def printEvent (reporter : Reporter) (event : Json) : Process Unit :=
  match eventXdr event with
  | none => pure ()
  | some encoded => do
    let (event, data) ← expect "XDR decode" (crates.decodeEvent encoded)
    let contract := (event.contractId.map fun id => contractStrkey (idBytes id)).getD "host"
    reporter.line ("  event [" ++ contract ++ "] topics=("
      ++ ", ".intercalate (event.topics.map (scvalStr crates)) ++ ") data="
      ++ scvalStr crates data)

def printEvents (reporter : Reporter) (events : List Json) : Process Unit :=
  events.forM (printEvent crates reporter)

/-- The events of a response, under their heading. -/
def printSimulationEvents (reporter : Reporter) (sim : Json) : Process Unit :=
  match simulationEvents sim with
  | some events => do
    reporter.line "  diagnostic events:"
    printEvents crates reporter events
  | none => pure ()

def emitReport (args : Args) (report : RunReport) (latest : U32) : Process Unit :=
  args.reporter.emit crates.toJsonCrate (args.reporter.complete report (some latest))

/-- SHA-256 of the passphrase. -/
def networkIdOf (args : Args) : Bytes32 := crates.sha256 (utf8Bytes args.passphrase)

/-! ## `preflight` -/

/-- The first half of `preflight`: who signs, if anyone, and what is simulated. -/
def preflightEnvelope (call : Call) (args : Args) :
    Process (Bool × U32 × TransactionEnvelope) := do
  let seed ← match args.secret with
    | some secret => some <$> secretToSeed secret
    | none => pure none
  let sourcePk ← match seed with
    | some seed => pure (crates.verifyingKey seed)
    | none => registeredAgentPubkey crates args.rpc args.guard
  let seq := (← accountSeq crates args.rpc (accountStrkey sourcePk)).saturatingAdd 1
  let latest ← latestLedger crates.toJsonCrate args.rpc
  let sigExp := latest.saturatingAdd 10000
  let invocation := call.invocation args.guard
  let auth ← match seed with
    | some seed => do
      let nonce ← freshAuthNonce latest
      pure [buildAuthEntry crates args.guard invocation nonce sigExp (networkIdOf crates args) seed]
    | none => pure []
  return (seed.isSome, latest,
    buildInitialEnvelope sourcePk seq (invokeOp invocation auth) args.guard call.kind)

/-- A simulation with an error message. -/
def preflightRefused (args : Args) (signed : Bool) (sim : Json) (message : String)
    (report : RunReport) (latest : U32) : Process (Except ℕ Unit) := do
  let policyBlock := isGuardAuthCheckedBlock crates.decode sim args.guard
  if policyBlock then args.reporter.line "BLOCKED (pre-broadcast, guard auth_checked):"
  else if signed then
    args.reporter.line "TRANSACTION REJECTED (pre-broadcast, not a guard policy block):"
  else args.reporter.line "RESULT: INDETERMINATE (unsigned simulation failed):"
  args.reporter.line ("  message: " ++ message)
  printSimulationEvents crates args.reporter sim
  args.reporter.line "  broadcast: no"
  emitReport crates args report latest
  if policyBlock && args.expectBlocked then return .ok ()
  else return .error (if signed then 1 else 2)

/-- A simulation without one: quote the fee `run` would pay. -/
def preflightAdmitted (args : Args) (signed : Bool) (sim : Json) (report : RunReport)
    (latest : U32) : Process (Except ℕ Unit) := do
  let minFeeText ← expect "simulation minResourceFee" (sim.index "minResourceFee").asStr
  let minFee ← expect "simulation fee" (parseInt u32 minFeeText).toOption
  let (inclusionFee, feeSource) ← resolveInclusionFee crates args.rpc args.inclusionFeeOverride
  let fee := calculateFee minFee inclusionFee
  if signed then args.reporter.line "RESULT: ALLOWED (preflight only)"
  else
    args.reporter.line "RESULT: INDETERMINATE (unsigned simulation)"
    args.reporter.line "  limitation: provide --secret to run signed __check_auth simulation"
  args.reporter.line ("network passphrase source: " ++ args.passphraseSource)
  args.reporter.line ("inclusion fee source: " ++ feeSource)
  args.reporter.line ("estimated fee: " ++ toString fee.val ++ " stroops")
  args.reporter.line "broadcast: no"
  emitReport crates args report latest
  if signed then return .ok () else return .error 2

def preflight (call : Call) (args : Args) : Process (Except ℕ Unit) := do
  let (signed, latest, env) ← preflightEnvelope crates call args
  let sim ← simulate crates.toJsonCrate args.rpc (crates.envelopeBase64 env)
  -- an unsigned run never establishes admission
  let report := if signed then simulationReport crates.decode sim
    else .failed "unsigned_simulation"
  match simulationErrorMessage crates.render sim with
  | some message => preflightRefused crates args signed sim message report latest
  | none => preflightAdmitted crates args signed sim report latest

/-! ## `run` -/

/-- The simulation carries an error: report it, and do not submit. -/
def refused (args : Args) (sim : Json) (message : String) (latest : U32) :
    Process RunOutcome := do
  let policyBlock := isGuardAuthCheckedBlock crates.decode sim args.guard
  if policyBlock then args.reporter.line "BLOCKED (pre-broadcast, guard auth_checked):"
  else args.reporter.line "TRANSACTION REJECTED (pre-broadcast, not a guard policy block):"
  args.reporter.line ("  message: " ++ message)
  printSimulationEvents crates args.reporter sim
  args.reporter.line "  broadcast: no"
  emitReport crates args (simulationReport crates.decode sim) latest
  return .simulationBlocked policyBlock ((sim.index "error").index "code").asStr (some message)
    (simulationEvents sim)

/-- A block was expected and did not come. -/
def unblocked (args : Args) (latest : U32) : Process RunOutcome := do
  args.reporter.line "expected a block, but the enforced simulation succeeded"
  emitReport crates args (.failed "expect_block_unmet") latest
  return .simulationSuccessUnexpectedBlock

/-- What a run knows when it comes to the simulation. -/
structure Signing where
  seed : Bytes32
  latest : U32
  /-- The envelope that is simulated. -/
  initial : TransactionEnvelope

/-- The first half of `run`: the signed call, ready for simulation. -/
def signCall (call : Call) (args : Args) : Process Signing := do
  let secret ← match args.secret with
    | some secret => pure secret
    | none => exitWith ("missing --agent-secret: signing requires the registered agent's secret "
      ++ "seed (expected secret seed 'S...'; or set AGENT_SECRET env var)")
  let seed ← secretToSeed secret
  let sourcePk := crates.verifyingKey seed
  let networkId := networkIdOf crates args
  args.reporter.line ("network id: " ++ hexEncode networkId.toList)
  args.reporter.line ("network passphrase source: " ++ args.passphraseSource)
  -- the account entry stores the last-used sequence
  let seq := (← accountSeq crates args.rpc (accountStrkey sourcePk)).saturatingAdd 1
  let latest ← latestLedger crates.toJsonCrate args.rpc
  let sigExp := latest.saturatingAdd 10000
  let invocation := call.invocation args.guard
  let nonce ← freshAuthNonce latest
  let auth := [buildAuthEntry crates args.guard invocation nonce sigExp networkId seed]
  return ⟨seed, latest,
    buildInitialEnvelope sourcePk seq (invokeOp invocation auth) args.guard call.kind⟩

/-- The object behind `MACHINE_OUTPUT`, its members in the order of their names. -/
def machineOutput (simMinFee fee : U32) (data : SorobanTransactionData) : Json :=
  .obj [("bump", .num (toString guardKeyFeeBump.val)), ("final_fee", .num (toString fee.val)),
    ("simulated", .obj [("disk_read_bytes", .num (toString data.resources.diskReadBytes.val)),
      ("instructions", .num (toString data.resources.instructions.val)),
      ("min_resource_fee", .num (toString simMinFee.val)),
      ("simulated_resource_fee", .num (toString data.resourceFee.val)),
      ("write_bytes", .num (toString data.resources.writeBytes.val))])]

/-- The simulated resources with the guard's entries merged in and the allowance added. -/
def provision (call : Call) (args : Args) (data : SorobanTransactionData) :
    SorobanTransactionData :=
  { resources :=
      { data.resources with
        footprint := mergeGuardFootprint data.resources.footprint args.guard call.kind }
    resourceFee := data.resourceFee.saturatingAdd 100000 }

/-- The transaction that is submitted: the simulated one, with the simulated resources. -/
def prepare (call : Call) (args : Args) (signing : Signing) (sim : Json) :
    Process TransactionEnvelope := do
  let encoded ← expect "simulation transactionData" (sim.index "transactionData").asStr
  let data ← expect "XDR decode" (crates.decodeData encoded)
  let minFeeText ← expect "minResourceFee" (sim.index "minResourceFee").asStr
  let minFee ← expect "fee" (parseInt u32 minFeeText).toOption
  args.reporter.line "SIMULATION ESTIMATE (pre-submit, simulated values):"
  args.reporter.line ("  min_resource_fee: " ++ toString minFee.val)
  args.reporter.line ("  simulated_resource_fee: " ++ toString data.resourceFee.val)
  args.reporter.line ("  instructions: " ++ toString data.resources.instructions.val)
  args.reporter.line ("  disk_read_bytes: " ++ toString data.resources.diskReadBytes.val)
  args.reporter.line ("  write_bytes: " ++ toString data.resources.writeBytes.val)
  args.reporter.line "  note: these are simulated estimates, not on-chain actuals"
  let (inclusionFee, feeSource) ← resolveInclusionFee crates args.rpc args.inclusionFeeOverride
  let fee := calculateFee minFee inclusionFee
  args.reporter.line ("inclusion fee source: " ++ feeSource)
  args.reporter.line ("MACHINE_OUTPUT: " ++ crates.render (machineOutput minFee fee data))
  let tx := { signing.initial.tx with fee, data := provision call args data }
  return signEnvelope crates ⟨tx, []⟩ (networkIdOf crates args) signing.seed

/-- One round of the poll; `none` to go on. -/
def pollRound (args : Args) (hash : String) (latest : U32) : Process (Option RunOutcome) := do
  Session.query (Query.sleep 3)
  match ← getTx crates.toJsonCrate args.rpc hash with
  | .error e =>
    if e.isTimeout then
      eprintLine (e.display crates.toJsonCrate ++ "; still polling tx=" ++ hash)
      return none
    else rpcExit crates.toJsonCrate e none
  | .ok gt =>
    let st := (gt.index "status").asStr.getD "PENDING"
    if st = "SUCCESS" then
      args.reporter.line ("RESULT: ALLOWED tx=" ++ hash)
      emitReport crates args (RunReport.allowed.withTxHash hash) latest
      return some (.transactionSuccess hash st)
    else if st = "FAILED" then
      args.reporter.line ("RESULT: FAILED tx=" ++ hash)
      let resultXdr := (gt.index "resultXdr").asStr
      match resultXdr with
      | some errx => args.reporter.line ("  resultXdr: " ++ errx)
      | none => pure ()
      emitReport crates args ((RunReport.failed "tx_failed").withTxHash hash) latest
      return some (.transactionFailure hash resultXdr)
    else return none

/-- Rounds of the poll before the run gives up. -/
def pollRounds : ℕ := 20

/-- Follow a submitted transaction. -/
def follow (args : Args) (hash : String) (latest : U32) : Process RunOutcome := do
  match ← Session.attempts pollRounds (pollRound crates args hash latest) with
  | some outcome => return outcome
  | none =>
    args.reporter.line ("RESULT: TIMEOUT tx=" ++ hash)
    emitReport crates args ((RunReport.failed "timeout").withTxHash hash) latest
    return .transactionTimeout hash

/-- A submission the endpoint did not take. -/
def unsent (args : Args) (human : String) (latest : U32) : Process Unit := do
  eprintLine ("Error: " ++ human)
  emitReport crates args (.failed "submission_failed") latest

/-- Submit the signed transaction, once. -/
def submit (args : Args) (env : TransactionEnvelope) (latest : U32) : Process RunOutcome := do
  match ← send crates.toJsonCrate args.rpc (crates.envelopeBase64 env) with
  | .error e =>
    if e.isTimeout then
      -- the endpoint may have relayed the transaction before stalling
      rpcExit crates.toJsonCrate e (some ("The transaction may still have been accepted: check tx "
        ++ hexEncode (txHash crates env.tx (networkIdOf crates args)).toList
        ++ " (getTransaction) before resubmitting"))
    else rpcExit crates.toJsonCrate e none
  | .ok sent =>
    match sent.get "error" with
    | some err =>
      let human := mapSubmissionError (crates.render err)
      unsent crates args human latest
      return .sendError human
    | none =>
      let hash := (sent.index "hash").asStr.getD ""
      if hash.isEmpty then
        let human := mapSubmissionError (crates.render sent)
        unsent crates args human latest
        return .emptyHash human
      else
        args.reporter.line ("submitted: hash=" ++ hash ++ " status="
          ++ (sent.index "status").asStr.getD "?")
        follow crates args hash latest

def run (call : Call) (args : Args) : Process RunOutcome := do
  let signing ← signCall crates call args
  let sim ← simulate crates.toJsonCrate args.rpc (crates.envelopeBase64 signing.initial)
  match simulationErrorMessage crates.render sim with
  | some message => refused crates args sim message signing.latest
  | none =>
    if args.expectBlocked then unblocked crates args signing.latest
    else do
      let env ← prepare crates call args signing sim
      submit crates args env signing.latest

/-! ## The reads -/

/-- The reason topic of the first event that ends in a symbol. -/
def printDiagnosticReason (reporter : Reporter) : List Json → Process Unit
  | [] => pure ()
  | event :: rest =>
    match (event.index "xdr").asStr with
    | none => printDiagnosticReason reporter rest
    | some encoded => do
      let (decoded, _) ← expect "XDR decode" (crates.decodeEvent encoded)
      match decoded.topics.getLast? with
      | some (.symbol reason) =>
        if 2 ≤ decoded.topics.length then reporter.line ("diagnostic_reason: " ++ reason)
        else printDiagnosticReason reporter rest
      | _ => printDiagnosticReason reporter rest

/-- `check`: a simulation without authorization, from a source that need not exist. -/
def cmdCheck (rpc : RpcClient) (guard asset dest : Address) (amount : I128) (reporter : Reporter) :
    Process Unit := do
  let invocation := (Call.transfer asset dest amount).invocation guard
  let env := buildInitialEnvelope (Vector.replicate 32 0) 0 (invokeOp invocation []) guard .transfer
  let sim ← simulate crates.toJsonCrate rpc (crates.envelopeBase64 env)
  let report := reporter.complete (simulationReport crates.decode sim) none
  match sim.get "error" with
  | some err =>
    let reason := ((err.index "code").asStr.or err.asStr).getD "unknown"
    reporter.line "result: blocked"
    reporter.line ("reason: " ++ reason)
    match simulationEvents sim with
    | some events => printDiagnosticReason crates reporter events
    | none => pure ()
  | none =>
    reporter.line "result: allowed"
    match (sim.index "minResourceFee").asStr with
    | some fee => reporter.line ("estimated_fee_stroops: " ++ fee)
    | none => pure ()
  reporter.emit crates.toJsonCrate report

def printPolicy (reporter : Reporter) (rendered : Option String) : Process Unit :=
  if reporter.json then
    printLine (crates.render (.obj [("policy", (rendered.map Json.str).getD .null)]))
  else printLine (rendered.getD "null")

def cmdPolicy (rpc : RpcClient) (guard : Address) (reporter : Reporter) :
    Process (Except String Unit) := do
  let res ← rpcOrExit crates.toJsonCrate (← post crates.toJsonCrate rpc "getLedgerEntries"
    (.obj [("keys", .arr [.str (crates.ledgerKeyBase64 (guardDataKey guard .policy))])]))
  match (res.index "entries").asArray with
  | none => return .error "no entries in response"
  | some [] =>
    printPolicy crates reporter none
    return .ok ()
  | some (entry :: _) =>
    match (entry.index "xdr").asStr with
    | none => return .error "missing xdr"
    | some encoded =>
      match ← expect "XDR decode" (crates.decodeEntry encoded) with
      | .contractData _ _ _ .void =>
        printPolicy crates reporter none
        return .ok ()
      | .contractData _ _ _ val =>
        printPolicy crates reporter (some (scvalStr crates val))
        return .ok ()
      | .other _ => return .error "unexpected ledger entry type"

/-- The entries of a response, decoded up to the first without an `xdr`. -/
def decodeEntries : List Json → Process (Except String (List LedgerEntryData))
  | [] => return .ok []
  | entry :: rest =>
    match (entry.index "xdr").asStr with
    | none => return .error "missing xdr"
    | some encoded => do
      let decoded ← expect "XDR decode" (crates.decodeEntry encoded)
      return (← decodeEntries rest).map (decoded :: ·)

/-- `status`, over the report of `Status`. -/
def printStatus (rpc : RpcClient) (guard : Address) : Process (Except String Unit) := do
  let res ← rpcOrExit crates.toJsonCrate (← post crates.toJsonCrate rpc "getLedgerEntries"
    (.obj [("keys", .arr ((statusKeys guard).map fun key => .str (crates.ledgerKeyBase64 key)))]))
  match (res.index "entries").asArray with
  | none => return .error "no entries in response"
  | some entries =>
    match ← decodeEntries crates entries with
    | .error message => return .error message
    | .ok entries => do
      let latest ← latestLedger crates.toJsonCrate rpc
      let report := statusReport entries latest
      printLine "\x7b"
      printLine ("  \"has_policy\": " ++ toString report.hasPolicy ++ ",")
      printLine ("  \"admin_frozen\": " ++ toString report.adminFrozen ++ ",")
      printLine ("  \"heartbeat_expired\": " ++ toString report.heartbeatExpired ++ ",")
      printLine ("  \"last_heartbeat\": " ++ toString report.lastHeartbeat.val ++ ",")
      printLine ("  \"now\": " ++ toString report.now.val)
      printLine "\x7d"
      return .ok ()

end

/-! ## A small setup -/

namespace Sample

/-- The secret of 32 zero bytes. -/
def secret : String := "SAAAAAAAAAAAAAAAAAAAAAAAAAAAAAAAAAAAAAAAAAAAAAAAAAAABSU2"

/-- Libraries that hash and encode to constants, and read a body by its name. -/
def crates : Crates where
  parse body :=
    let result : Option Json :=
      if body = "entries" then some (.obj [("entries", .arr [.obj [("xdr", .str "account")]])])
      else if body = "ledger" then some (.obj [("sequence", .num "7")])
      else if body = "simulated" then
        some (.obj [("transactionData", .str "data"), ("minResourceFee", .str "5")])
      else if body = "sent" then some (.obj [("hash", .str "abcd")])
      else if body = "success" then some (.obj [("status", .str "SUCCESS")])
      else none
    (result.map fun value => .ok (.obj [("result", value)])).getD (.error "not a body")
  render _ := ""
  sha256 _ := Vector.replicate 32 0
  verifyingKey seed := seed
  sign _ _ := []
  parseScAddress _ := .ok (.account 0)
  preimageXdr _ := []
  transactionXdr _ := []
  envelopeBase64 _ := "envelope"
  ledgerKeyBase64 _ := "key"
  accountKeyBase64 _ := "key"
  decodeFetched _ := some (.account 41)
  decodeEntry _ := none
  decodeData _ := some ⟨⟨⟨[], []⟩, 0, 0, 0⟩, 5⟩
  decodeEvent _ := none
  renderOther _ := ""

/-- An endpoint that takes every transaction, and reports success at the first poll. -/
def endpoint (_ : Log) : (q : Query) → q.Answer
  | .http _ _ method _ => HttpReply.response 200 (.ok
      (if method = "getLedgerEntries" then "entries"
      else if method = "getLatestLedger" then "ledger"
      else if method = "simulateTransaction" then "simulated"
      else if method = "sendTransaction" then "sent"
      else "success"))
  | .stdout _ | .stderr _ | .sleep _ => ()
  | .entropy => (.ok 9 : Except String U32)
  | .readFile _ | .readStdin => (.ok "" : Except String String)
  | .env _ => (none : Option String)
  | .registry => (none : RegistryFile)

/-- A run for programs, on the testnet. -/
def args : Args where
  rpc := ⟨"https://soroban-testnet.stellar.org", 30⟩
  passphrase := "Test SDF Network ; September 2015"
  passphraseSource := "default testnet preset"
  guard := .contract 0
  secret := some secret
  expectBlocked := false
  reporter := ⟨true, some .testnet⟩
  inclusionFeeOverride := some 100

/-- The log of a heartbeat, and the way it ends. -/
def beat : Log × Except Stop RunOutcome := Session.play endpoint [] (run crates .heartbeat args)

theorem beat_runs : (run crates .heartbeat args).Runs beat.1 beat.2 := Session.play_runs _ _ _

end Sample

end AgentGuard.AgentTx
