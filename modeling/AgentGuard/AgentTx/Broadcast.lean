import AgentGuard.AgentTx.Submit

/-!
# AgentTx/Broadcast — what a run can do, whatever the endpoint answers

An observer of `run` keeps four things: the simulation, the submission, the polls and, under
`--json`, what reaches stdout.  `run_shows` lists everything it can see, with the way the run then
ends; that a transaction is submitted at most once, only as it was simulated, and that the object
that is printed agrees with the exit code are read off the list.
-/

namespace AgentGuard.AgentTx

open Machinery

/-! ## The observer -/

/-- What is kept of a run. -/
inductive Seen
  | simulated (params : Json) (reply : HttpReply)
  | sent (params : Json) (reply : HttpReply)
  | polled (params : Json) (reply : HttpReply)
  | printed (text : String)

/-- The observer of a run that reports on stdout for programs (`json`), or for people. -/
def seen (json : Bool) : Exchange Query.Answer → Option Seen
  | ⟨.http _ _ method params, reply⟩ =>
    if method = "simulateTransaction" then some (.simulated params reply)
    else if method = "sendTransaction" then some (.sent params reply)
    else if method = "getTransaction" then some (.polled params reply)
    else none
  | ⟨.stdout text, _⟩ => if json then some (.printed text) else none
  | _ => none

/-- The three methods a run is watched for. -/
def watched (method : String) : Bool :=
  method = "simulateTransaction" || method = "sendTransaction" || method = "getTransaction"

section

variable {json : Bool} {α : Type}

theorem silent_eprintLine (text : String) :
    (eprintLine text).Silent (seen json) fun _ => True :=
  .ask (fun _ => rfl) fun _ => .done trivial

theorem silent_line (reporter : Reporter) (text : String) :
    (reporter.line text).Silent (seen reporter.json) fun _ => True := by
  rw [Reporter.line]
  split_ifs with h
  · exact silent_eprintLine text
  · exact .ask (fun _ => by simp [seen, h]) fun _ => .done trivial

theorem quiet_exitWith (message : String) {R : α → Prop} :
    (exitWith message : Process α).Quiet (seen json) R :=
  (silent_eprintLine _).quiet.seq fun _ _ => .halt

theorem quiet_expect (message : String) (x : Option α) :
    (expect message x).Quiet (seen json) fun a => x = some a := by
  cases x with
  | none => exact .halt
  | some a => exact .done rfl

theorem quiet_post (crate : JsonCrate) (rpc : RpcClient) {method : String} (params : Json)
    (h : watched method = false) :
    (post crate rpc method params).Quiet (seen json) fun _ => True := by
  simp only [watched, Bool.or_eq_false_iff, decide_eq_false_iff_not] at h
  exact .ask (fun _ => by simp [seen, h]) fun _ => .done trivial

/-- A failure that ends the run: it exits with the failure's code. -/
theorem shows_rpcExit {crate : JsonCrate} {e : RpcError} {hint : Option String}
    {S : List Seen → Except Stop α → Prop} (h : S [] (.error (.exit e.exitCode))) :
    (rpcExit crate e hint : Process α).Shows (seen json) S := by
  refine (silent_eprintLine _).bind fun _ _ => (silent_eprintLine _).bind fun _ _ => ?_
  cases hint with
  | none => exact .halt h
  | some hint => exact (silent_eprintLine hint).bind fun _ _ => .halt h

theorem quiet_rpcExit (crate : JsonCrate) (e : RpcError) (hint : Option String) {R : α → Prop} :
    (rpcExit crate e hint : Process α).Quiet (seen json) R :=
  shows_rpcExit ⟨rfl, fun _ h => by simp at h⟩

/-- A request that is watched, and what is made of its reply. -/
theorem shows_post {β : Type} {crate : JsonCrate} {rpc : RpcClient} {method : String}
    {params : Json} (note : HttpReply → Seen)
    (hnote : ∀ reply : HttpReply,
      seen json ⟨.http rpc.url rpc.timeout method params, reply⟩ = some (note reply))
    {f : Except RpcError Json → Process β} {S : List Seen → Except Stop β → Prop}
    (h : ∀ reply, (f (classifyReply crate rpc method reply)).Shows (seen json) fun s r =>
      S (note reply :: s) r) : (post crate rpc method params >>= f).Shows (seen json) S :=
  .ask fun reply => (h reply).mono fun s r hs => by simpa [hnote reply] using hs

theorem quiet_rpcOrExit (crate : JsonCrate) (x : Except RpcError α) :
    (rpcOrExit crate x).Quiet (seen json) fun a => x = .ok a := by
  cases x with
  | error e => exact quiet_rpcExit crate e none
  | ok a => exact .done rfl

theorem quiet_latestLedger (crate : JsonCrate) (rpc : RpcClient) :
    (latestLedger crate rpc).Quiet (seen json) fun _ => True :=
  (quiet_post crate rpc _ (by decide)).seq fun x _ => (quiet_rpcOrExit crate x).seq fun _ _ =>
    (quiet_expect _ _).seq fun _ _ => .done trivial

theorem quiet_freshAuthNonce (latest : U32) :
    (freshAuthNonce latest).Quiet (seen json) fun nonce =>
      ∃ entropy, nonce = authNonce latest entropy := by
  refine .ask (fun _ => rfl) fun drawn => ?_
  cases drawn with
  | error e => exact quiet_exitWith _
  | ok entropy => exact .done ⟨entropy, rfl⟩

theorem quiet_secretToSeed (secret : String) :
    (secretToSeed secret).Quiet (seen json)
      fun seed => decodeStrkey secret = .ok (verSecret, seed) := by
  rw [secretToSeed]
  cases h : decodeStrkey secret with
  | error e => exact quiet_exitWith _
  | ok key =>
    obtain ⟨version, seed⟩ := key
    dsimp only
    split_ifs with hv
    · exact .done (by rw [hv])
    · exact quiet_exitWith _

variable (crates : Crates)

theorem quiet_accountSeq (rpc : RpcClient) (account : String) :
    (accountSeq crates rpc account).Quiet (seen json) fun _ => True := by
  rw [accountSeq]
  split
  · exact .halt
  · exact .halt
  · refine (quiet_post _ _ _ (by decide)).seq fun x _ => (quiet_rpcOrExit _ x).seq fun _ _ =>
      (quiet_expect _ _).seq fun _ _ => (quiet_expect _ _).seq fun entry _ => ?_
    cases entry with
    | account seqNum => exact .done trivial
    | _ => exact .halt

theorem quiet_registeredAgentPubkey (rpc : RpcClient) (guard : Address) :
    (registeredAgentPubkey crates rpc guard).Quiet (seen json) fun _ => True := by
  refine (quiet_post _ _ _ (by decide)).seq fun x _ => (quiet_rpcOrExit _ x).seq fun _ _ =>
    (quiet_expect _ _).seq fun _ _ => (quiet_expect _ _).seq fun entry _ => ?_
  cases entry with
  | contractInstance storage => exact (quiet_expect _ _).mono fun _ _ => trivial
  | _ => exact .halt

theorem quiet_resolveInclusionFee (rpc : RpcClient) (overrideFee : Option U32) :
    (resolveInclusionFee crates rpc overrideFee).Quiet (seen json) fun fee =>
      ∀ n, overrideFee = some n → fee.1 = n := by
  cases overrideFee with
  | some fee => exact .done fun n h => Option.some.inj h
  | none =>
    refine ((quiet_post _ _ _ (by decide)).seq fun x _ => .done trivial :
      (inclusionFee crates.toJsonCrate rpc).Quiet (seen json) fun _ => True).seq fun x _ => ?_
    cases x with
    | error e => exact (silent_eprintLine _).quiet.seq fun _ _ => .done (by simp)
    | ok fee =>
      cases fee with
      | none => exact (silent_eprintLine _).quiet.seq fun _ _ => .done (by simp)
      | some fee => exact .done (by simp)

theorem quiet_printEvent (reporter : Reporter) (event : Json) :
    (printEvent crates reporter event).Quiet (seen reporter.json) fun _ => True := by
  rw [printEvent]
  split
  · exact .done trivial
  · exact (quiet_expect _ _).seq fun _ _ => (silent_line _ _).quiet

theorem quiet_printSimulationEvents (reporter : Reporter) (sim : Json) :
    (printSimulationEvents crates reporter sim).Quiet (seen reporter.json) fun _ => True := by
  rw [printSimulationEvents]
  split
  · exact (silent_line _ _).quiet.seq fun _ _ =>
      .forM fun event _ => quiet_printEvent crates reporter event
  · exact .done trivial

/-! ## The parts of a run -/

/-- What reaches stdout when a report is emitted. -/
def objects (args : Args) (report : RunReport) (latest : U32) : List Seen :=
  if args.reporter.json then
    [.printed ((args.reporter.complete report (some latest)).toJson crates.toJsonCrate)]
  else []

/-- The parameter of a request about a transaction. -/
def txParams (env : TransactionEnvelope) : Json :=
  .obj [("transaction", .str (crates.envelopeBase64 env))]

variable {crates} {call : Call} {args : Args} {latest : U32}

/-- Emitting shows the object, and goes on. -/
theorem shows_emitReport {f : Unit → Process α} {report : RunReport}
    {S : List Seen → Except Stop α → Prop}
    (h : (f ()).Shows (seen args.reporter.json) fun s r =>
      S (objects crates args report latest ++ s) r) :
    (emitReport crates args report latest >>= f).Shows (seen args.reporter.json) S := by
  refine Session.Shows.bind ?_
  rw [emitReport, Reporter.emit]
  by_cases hjson : args.reporter.json = true
  · rw [if_pos hjson]
    refine .ask fun _ => .done (h.mono fun s r hs => ?_)
    simpa [seen, objects, hjson] using hs
  · rw [if_neg hjson]
    refine .done (h.mono fun s r hs => ?_)
    simpa [objects, hjson] using hs

/-- **A signed call**: the agent's key is the source, the sequence number is the next one, and the
one authorization entry carries a fresh nonce for the very invocation that is submitted. -/
structure Signed (crates : Crates) (call : Call) (args : Args) (signing : Signing) : Prop where
  secret : ∃ secret, args.secret = some secret ∧
    decodeStrkey secret = .ok (verSecret, signing.seed)
  initial : ∃ (stored : I64) (entropy : U32), signing.initial
    = buildInitialEnvelope (crates.verifyingKey signing.seed) (stored.saturatingAdd 1)
        (invokeOp (call.invocation args.guard)
          [buildAuthEntry crates args.guard (call.invocation args.guard)
            (authNonce signing.latest entropy) (signing.latest.saturatingAdd 10000)
            (networkIdOf crates args) signing.seed]) args.guard call.kind

theorem quiet_signCall : (signCall crates call args).Quiet (seen args.reporter.json)
    (Signed crates call args) := by
  rw [signCall]
  cases hsecret : args.secret with
  | none => exact (quiet_exitWith _ (R := fun _ => False)).seq fun _ h => h.elim
  | some secret =>
    refine (quiet_secretToSeed secret).seq fun seed hseed => ?_
    refine (silent_line _ _).quiet.seq fun _ _ => (silent_line _ _).quiet.seq fun _ _ => ?_
    refine (quiet_accountSeq crates _ _).seq fun stored _ => ?_
    refine (quiet_latestLedger _ _).seq fun latest _ => ?_
    refine (quiet_freshAuthNonce latest).seq fun nonce hnonce => .done ?_
    obtain ⟨entropy, rfl⟩ := hnonce
    exact ⟨⟨secret, hsecret, hseed⟩, stored, entropy, rfl⟩

/-- **What is submitted is what was simulated**: the same source, sequence number and operation,
with the simulated resources, the guard's entries and the allowance, and the agent's signature. -/
structure Prepared (crates : Crates) (call : Call) (args : Args) (signing : Signing) (sim : Json)
    (env : TransactionEnvelope) : Prop where
  sourceAccount : env.tx.sourceAccount = signing.initial.tx.sourceAccount
  seqNum : env.tx.seqNum = signing.initial.tx.seqNum
  operations : env.tx.operations = signing.initial.tx.operations
  data : ∃ encoded data, (sim.index "transactionData").asStr = some encoded ∧
    crates.decodeData encoded = some data ∧ env.tx.data = provision call args data
  fee : ∃ text minFee fee, (sim.index "minResourceFee").asStr = some text ∧
    parseInt u32 text = .ok minFee ∧ env.tx.fee = calculateFee minFee fee ∧
    ∀ n, args.inclusionFeeOverride = some n → fee = n
  signatures : env = signEnvelope crates ⟨env.tx, []⟩ (networkIdOf crates args) signing.seed

theorem toOption_eq_some {ε β : Type} {x : Except ε β} {b : β} (h : x.toOption = some b) :
    x = .ok b := by
  cases x with
  | error e => cases h
  | ok a => exact congrArg _ (Option.some.inj h)

theorem quiet_prepare (signing : Signing) (sim : Json) :
    (prepare crates call args signing sim).Quiet (seen args.reporter.json)
      (Prepared crates call args signing sim) := by
  refine (quiet_expect _ _).seq fun encoded hencoded => ?_
  refine (quiet_expect _ _).seq fun data hdata => ?_
  refine (quiet_expect _ _).seq fun text htext => ?_
  refine (quiet_expect _ _).seq fun minFee hminFee => ?_
  iterate 7 refine (silent_line _ _).quiet.seq fun _ _ => ?_
  refine (quiet_resolveInclusionFee crates _ _).seq fun fee hfee => ?_
  refine (silent_line _ _).quiet.seq fun _ _ => (silent_line _ _).quiet.seq fun _ _ => .done ?_
  exact ⟨rfl, rfl, rfl, ⟨encoded, data, hencoded, hdata, rfl⟩,
    ⟨text, minFee, fee.1, htext, toOption_eq_some hminFee, rfl, hfee⟩, rfl⟩

/-! ## Following a transaction -/

/-- What a reply comes to. -/
abbrev reading (crates : Crates) (args : Args) (method : String) (reply : HttpReply) :
    Except RpcError Json := classifyReply crates.toJsonCrate args.rpc method reply

/-- The status a poll reads. -/
def pollStatus (gt : Json) : String := (gt.index "status").asStr.getD "PENDING"

/-- The parameter of a poll. -/
def hashParams (hash : String) : Json := .obj [("hash", .str hash)]

/-- **What a round of the poll makes of its reply.** -/
inductive Verdict (crates : Crates) (args : Args) (hash : String) (latest : U32)
    (reply : HttpReply) : List Seen → Except Stop (Option RunOutcome) → Prop
  | stalled {e : RpcError} (h : reading crates args "getTransaction" reply = .error e)
      (htimeout : e.isTimeout = true) : Verdict crates args hash latest reply [] (.ok none)
  | lost {e : RpcError} (h : reading crates args "getTransaction" reply = .error e)
      (htimeout : e.isTimeout = false) :
      Verdict crates args hash latest reply [] (.error (.exit e.exitCode))
  | pending {gt : Json} (h : reading crates args "getTransaction" reply = .ok gt)
      (hsuccess : pollStatus gt ≠ "SUCCESS") (hfailed : pollStatus gt ≠ "FAILED") :
      Verdict crates args hash latest reply [] (.ok none)
  | success {gt : Json} (h : reading crates args "getTransaction" reply = .ok gt)
      (hsuccess : pollStatus gt = "SUCCESS") :
      Verdict crates args hash latest reply
        (objects crates args (RunReport.allowed.withTxHash hash) latest)
        (.ok (some (.transactionSuccess hash "SUCCESS")))
  | failure {gt : Json} (h : reading crates args "getTransaction" reply = .ok gt)
      (hfailed : pollStatus gt = "FAILED") :
      Verdict crates args hash latest reply
        (objects crates args ((RunReport.failed "tx_failed").withTxHash hash) latest)
        (.ok (some (.transactionFailure hash (gt.index "resultXdr").asStr)))

theorem shows_pollRound (hash : String) :
    (pollRound crates args hash latest).Shows (seen args.reporter.json) fun s r =>
      ∃ reply seen', s = .polled (hashParams hash) reply :: seen' ∧
        Verdict crates args hash latest reply seen' r := by
  refine .ask fun _ => shows_post (.polled (hashParams hash)) (fun _ => rfl) fun reply => ?_
  cases hreading : reading crates args "getTransaction" reply with
  | error e =>
    simp only [reading] at hreading
    simp only [hreading]
    by_cases htimeout : e.isTimeout = true
    · rw [if_pos htimeout]
      exact .ask fun _ => .done ⟨reply, [], rfl, .stalled hreading htimeout⟩
    · rw [if_neg htimeout]
      exact shows_rpcExit ⟨reply, [], rfl, .lost hreading (by simpa using htimeout)⟩
  | ok gt =>
    simp only [reading] at hreading
    simp only [hreading]
    split_ifs with hsuccess hfailed
    · refine (silent_line _ _).bind fun _ _ => shows_emitReport (.done ⟨reply, _, rfl, ?_⟩)
      rw [List.append_nil, hsuccess]
      exact .success hreading hsuccess
    · refine (silent_line _ _).bind fun _ _ => ?_
      have hend : (emitReport crates args ((RunReport.failed "tx_failed").withTxHash hash) latest
          >>= fun _ => pure (some (RunOutcome.transactionFailure hash
            (gt.index "resultXdr").asStr))).Shows (seen args.reporter.json) fun s r =>
          ∃ reply' seen', .polled (hashParams hash) reply :: s
              = .polled (hashParams hash) reply' :: seen' ∧
            Verdict crates args hash latest reply' seen' r := by
        refine shows_emitReport (.done ⟨reply, _, rfl, ?_⟩)
        rw [List.append_nil]
        exact .failure hreading hfailed
      split
      · exact (silent_line _ _).bind fun _ _ => hend
      · exact hend
    · exact .done ⟨reply, [], rfl, .pending hreading hsuccess hfailed⟩

/-- A round that goes on shows its poll, and nothing else. -/
theorem Verdict.shown_eq_nil {hash : String} {reply : HttpReply} {shown : List Seen}
    (h : Verdict crates args hash latest reply shown (.ok none)) : shown = [] := by
  cases h with
  | stalled => rfl
  | pending => rfl

/-- The polls of the rounds that went on. -/
theorem exists_idle {hash : String} {idle : List (List Seen)}
    (h : ∀ u ∈ idle, ∃ reply shown, u = .polled (hashParams hash) reply :: shown ∧
      Verdict crates args hash latest reply shown (.ok none)) :
    ∃ replies : List HttpReply, replies.length = idle.length ∧
      idle.flatten = replies.map (.polled (hashParams hash)) ∧
      ∀ reply ∈ replies, Verdict crates args hash latest reply [] (.ok none) := by
  induction idle with
  | nil => exact ⟨[], rfl, rfl, by simp⟩
  | cons u idle ih =>
    obtain ⟨reply, shown, rfl, hverdict⟩ := h u List.mem_cons_self
    obtain rfl := hverdict.shown_eq_nil
    obtain ⟨replies, hlen, hflatten, hall⟩ := ih fun v hv => h v (List.mem_cons_of_mem _ hv)
    exact ⟨reply :: replies, by simp [hlen], by simp [hflatten], by simpa using ⟨hverdict, hall⟩⟩

/-- **How following a transaction can go**: rounds that decide nothing, and then the last one, or
none is left. -/
inductive Followed (crates : Crates) (args : Args) (hash : String) (latest : U32) :
    List Seen → Except Stop RunOutcome → Prop
  | timeout (idle : List HttpReply) (hlen : idle.length = pollRounds)
      (hidle : ∀ reply ∈ idle, Verdict crates args hash latest reply [] (.ok none)) :
      Followed crates args hash latest (idle.map (.polled (hashParams hash))
          ++ objects crates args ((RunReport.failed "timeout").withTxHash hash) latest)
        (.ok (.transactionTimeout hash))
  | lost (idle : List HttpReply) (hlen : idle.length < pollRounds)
      (hidle : ∀ reply ∈ idle, Verdict crates args hash latest reply [] (.ok none))
      {reply : HttpReply} {stop : Stop}
      (hlast : Verdict crates args hash latest reply [] (.error stop)) :
      Followed crates args hash latest
        (idle.map (.polled (hashParams hash)) ++ [.polled (hashParams hash) reply]) (.error stop)
  | decided (idle : List HttpReply) (hlen : idle.length < pollRounds)
      (hidle : ∀ reply ∈ idle, Verdict crates args hash latest reply [] (.ok none))
      {reply : HttpReply} {shown : List Seen} {outcome : RunOutcome}
      (hlast : Verdict crates args hash latest reply shown (.ok (some outcome))) :
      Followed crates args hash latest
        (idle.map (.polled (hashParams hash)) ++ .polled (hashParams hash) reply :: shown)
        (.ok outcome)

theorem shows_follow (hash : String) : (follow crates args hash latest).Shows
    (seen args.reporter.json) (Followed crates args hash latest) := by
  refine Session.Shows.bind (((shows_pollRound hash).attempts pollRounds).mono ?_)
  rintro s r ⟨idle, hidle, hend⟩
  obtain ⟨replies, hlen, hflatten, hall⟩ := exists_idle hidle
  rcases hend with ⟨hrounds, rfl, rfl⟩ | ⟨hrounds, u, ⟨reply, shown, rfl, hlast⟩, hne, rfl⟩
  · refine (silent_line _ _).bind fun _ _ => shows_emitReport (.done ?_)
    rw [hflatten, List.append_nil]
    exact .timeout replies (hlen.trans hrounds) hall
  · rw [hflatten]
    cases r with
    | error stop =>
      have hnil : shown = [] := by
        cases hlast
        rfl
      subst hnil
      exact .lost replies (hlen ▸ hrounds) hall hlast
    | ok outcome =>
      cases outcome with
      | none => exact absurd rfl hne
      | some outcome =>
        refine .done ?_
        rw [List.append_nil]
        exact .decided replies (hlen ▸ hrounds) hall hlast

/-! ## Submitting -/

/-- **How a submission can go**, by the reply to it. -/
inductive Submitted (crates : Crates) (args : Args) (latest : U32) (reply : HttpReply) :
    List Seen → Except Stop RunOutcome → Prop
  | lost {e : RpcError} (h : reading crates args "sendTransaction" reply = .error e) :
      Submitted crates args latest reply [] (.error (.exit e.exitCode))
  | rejected {sent err : Json} (h : reading crates args "sendTransaction" reply = .ok sent)
      (herror : sent.get "error" = some err) :
      Submitted crates args latest reply
        (objects crates args (.failed "submission_failed") latest)
        (.ok (.sendError (mapSubmissionError (crates.render err))))
  | unnamed {sent : Json} (h : reading crates args "sendTransaction" reply = .ok sent)
      (herror : sent.get "error" = none) (hhash : (sent.index "hash").asStr.getD "" = "") :
      Submitted crates args latest reply
        (objects crates args (.failed "submission_failed") latest)
        (.ok (.emptyHash (mapSubmissionError (crates.render sent))))
  | followed {sent : Json} {hash : String} {shown : List Seen} {r : Except Stop RunOutcome}
      (h : reading crates args "sendTransaction" reply = .ok sent)
      (herror : sent.get "error" = none) (hhash : (sent.index "hash").asStr = some hash)
      (hne : hash ≠ "") (hfollowed : Followed crates args hash latest shown r) :
      Submitted crates args latest reply shown r

/-- A submission that was not taken shows the object of a failed one. -/
theorem shows_unsent {human : String} {f : Unit → Process α} {S : List Seen → Except Stop α → Prop}
    (h : (f ()).Shows (seen args.reporter.json) fun s r =>
      S (objects crates args (.failed "submission_failed") latest ++ s) r) :
    (unsent crates args human latest >>= f).Shows (seen args.reporter.json) S := by
  have hassoc : (unsent crates args human latest >>= f)
      = (eprintLine ("Error: " ++ human) >>= fun _ =>
        emitReport crates args (.failed "submission_failed") latest >>= f) := rfl
  rw [hassoc]
  exact (silent_eprintLine _).bind fun _ _ => shows_emitReport h

theorem shows_submit (env : TransactionEnvelope) : (submit crates args env latest).Shows
    (seen args.reporter.json) fun s r => ∃ reply shown,
      s = .sent (txParams crates env) reply :: shown ∧
        Submitted crates args latest reply shown r := by
  refine shows_post (.sent (txParams crates env)) (fun _ => rfl) fun reply => ?_
  cases hreading : reading crates args "sendTransaction" reply with
  | error e =>
    simp only [reading] at hreading
    simp only [hreading]
    split_ifs with htimeout
    · exact shows_rpcExit ⟨reply, [], rfl, .lost hreading⟩
    · exact shows_rpcExit ⟨reply, [], rfl, .lost hreading⟩
  | ok sent =>
    simp only [reading] at hreading
    simp only [hreading]
    cases herror : sent.get "error" with
    | some err =>
      refine shows_unsent (.done ⟨reply, _, rfl, ?_⟩)
      rw [List.append_nil]
      exact .rejected hreading herror
    | none =>
      dsimp only
      split_ifs with hempty
      · refine shows_unsent (.done ⟨reply, _, rfl, ?_⟩)
        rw [List.append_nil]
        exact .unnamed hreading herror (String.isEmpty_iff.mp hempty)
      · refine (silent_line _ _).bind fun _ _ => (shows_follow _).mono fun s r hs => ?_
        have hne : (sent.index "hash").asStr.getD "" ≠ "" := fun h =>
          hempty (String.isEmpty_iff.mpr h)
        refine ⟨reply, s, rfl, .followed hreading herror ?_ hne hs⟩
        cases hhash : (sent.index "hash").asStr with
        | none => simp [hhash] at hne
        | some hash => rfl

/-! ## The run -/

/-- **Everything a run can show, and how it then ends.** -/
inductive RunShows (crates : Crates) (call : Call) (args : Args) :
    List Seen → Except Stop RunOutcome → Prop
  | unsigned {stop : Stop} : RunShows crates call args [] (.error stop)
  | unusable {signing : Signing} {reply : HttpReply} {stop : Stop}
      (hsigned : Signed crates call args signing) :
      RunShows crates call args [.simulated (txParams crates signing.initial) reply] (.error stop)
  | refused {signing : Signing} {reply : HttpReply} {sim : Json} {message : String}
      (hsigned : Signed crates call args signing)
      (hsim : reading crates args "simulateTransaction" reply = .ok sim)
      (hmessage : simulationErrorMessage crates.render sim = some message) :
      RunShows crates call args (.simulated (txParams crates signing.initial) reply
          :: objects crates args (simulationReport crates.decode sim) signing.latest)
        (.ok (.simulationBlocked (isGuardAuthCheckedBlock crates.decode sim args.guard)
          ((sim.index "error").index "code").asStr (some message) (simulationEvents sim)))
  | unblocked {signing : Signing} {reply : HttpReply} {sim : Json}
      (hsigned : Signed crates call args signing)
      (hsim : reading crates args "simulateTransaction" reply = .ok sim)
      (hmessage : simulationErrorMessage crates.render sim = none)
      (hexpect : args.expectBlocked = true) :
      RunShows crates call args (.simulated (txParams crates signing.initial) reply
          :: objects crates args (.failed "expect_block_unmet") signing.latest)
        (.ok .simulationSuccessUnexpectedBlock)
  | submitted {signing : Signing} {reply : HttpReply} {sim : Json} {env : TransactionEnvelope}
      {reply' : HttpReply} {shown : List Seen} {r : Except Stop RunOutcome}
      (hsigned : Signed crates call args signing)
      (hsim : reading crates args "simulateTransaction" reply = .ok sim)
      (hmessage : simulationErrorMessage crates.render sim = none)
      (hexpect : args.expectBlocked = false)
      (hprepared : Prepared crates call args signing sim env)
      (hsubmitted : Submitted crates args signing.latest reply' shown r) :
      RunShows crates call args (.simulated (txParams crates signing.initial) reply
        :: .sent (txParams crates env) reply' :: shown) r

theorem shows_refused {sim : Json} {message : String} :
    (refused crates args sim message latest).Shows (seen args.reporter.json) fun s r =>
      (s = [] ∧ ∃ stop, r = .error stop) ∨
      (s = objects crates args (simulationReport crates.decode sim) latest ∧
        r = .ok (.simulationBlocked (isGuardAuthCheckedBlock crates.decode sim args.guard)
          ((sim.index "error").index "code").asStr (some message) (simulationEvents sim))) := by
  have hend : (printSimulationEvents crates args.reporter sim >>= fun _ =>
      args.reporter.line "  broadcast: no" >>= fun _ =>
      emitReport crates args (simulationReport crates.decode sim) latest >>= fun _ =>
      pure (RunOutcome.simulationBlocked (isGuardAuthCheckedBlock crates.decode sim args.guard)
        ((sim.index "error").index "code").asStr (some message) (simulationEvents sim))).Shows
      (seen args.reporter.json) fun s r => (s = [] ∧ ∃ stop, r = .error stop) ∨
        (s = objects crates args (simulationReport crates.decode sim) latest ∧
          r = .ok (.simulationBlocked (isGuardAuthCheckedBlock crates.decode sim args.guard)
            ((sim.index "error").index "code").asStr (some message) (simulationEvents sim))) :=
    (quiet_printSimulationEvents crates _ _).bind (fun stop => .inl ⟨rfl, stop, rfl⟩) fun _ _ =>
      (silent_line _ _).bind fun _ _ => shows_emitReport (.done (.inr ⟨by simp, rfl⟩))
  rw [refused]
  dsimp only
  split_ifs
  · exact (silent_line _ _).bind fun _ _ => (silent_line _ _).bind fun _ _ => hend
  · exact (silent_line _ _).bind fun _ _ => (silent_line _ _).bind fun _ _ => hend

theorem shows_unblocked : (unblocked crates args latest).Shows (seen args.reporter.json) fun s r =>
    s = objects crates args (.failed "expect_block_unmet") latest ∧
      r = .ok .simulationSuccessUnexpectedBlock :=
  (silent_line _ _).bind fun _ _ => shows_emitReport (.done ⟨by simp, rfl⟩)

/-- **What a run shows**, whatever it is answered. -/
theorem run_shows (crates : Crates) (call : Call) (args : Args) :
    (run crates call args).Shows (seen args.reporter.json) (RunShows crates call args) := by
  refine quiet_signCall.bind (fun _ => .unsigned) fun signing hsigned => ?_
  have hassoc : ∀ f : Json → Process RunOutcome,
      (simulate crates.toJsonCrate args.rpc (crates.envelopeBase64 signing.initial) >>= f)
        = post crates.toJsonCrate args.rpc "simulateTransaction" (txParams crates signing.initial)
          >>= fun x => rpcOrExit crates.toJsonCrate x >>= f := fun _ => rfl
  rw [hassoc]
  refine shows_post (.simulated (txParams crates signing.initial)) (fun _ => rfl) fun reply => ?_
  refine (quiet_rpcOrExit _ _).bind (fun _ => .unusable hsigned) fun sim hsim => ?_
  cases hmessage : simulationErrorMessage crates.render sim with
  | some message =>
    refine shows_refused.mono ?_
    rintro s r (⟨rfl, stop, rfl⟩ | ⟨rfl, rfl⟩)
    · exact .unusable hsigned
    · exact .refused hsigned hsim hmessage
  | none =>
    dsimp only
    split_ifs with hexpect
    · refine shows_unblocked.mono ?_
      rintro s r ⟨rfl, rfl⟩
      exact .unblocked hsigned hsim hmessage hexpect
    · refine (quiet_prepare signing sim).bind (fun _ => .unusable hsigned) fun env hprepared => ?_
      refine (shows_submit env).mono ?_
      rintro s r ⟨reply', shown, rfl, hsubmitted⟩
      exact .submitted hsigned hsim hmessage (by simpa using hexpect) hprepared hsubmitted

/-! ## At most one submission -/

/-- The submissions an observer saw. -/
def Seen.isSent : Seen → Bool
  | .sent .. => true
  | _ => false

theorem countP_isSent_objects (report : RunReport) :
    (objects crates args report latest).countP Seen.isSent = 0 := by
  rw [objects]
  split_ifs <;> rfl

theorem Verdict.countP_isSent {hash : String} {reply : HttpReply} {shown : List Seen}
    {r : Except Stop (Option RunOutcome)} (h : Verdict crates args hash latest reply shown r) :
    shown.countP Seen.isSent = 0 := by
  cases h with
  | success => exact countP_isSent_objects _
  | failure => exact countP_isSent_objects _
  | _ => rfl

theorem countP_isSent_idle (hash : String) (idle : List HttpReply) :
    (idle.map (Seen.polled (hashParams hash))).countP Seen.isSent = 0 := by
  induction idle with
  | nil => rfl
  | cons reply idle ih => exact ih

/-- Nothing is submitted again while a submission is followed. -/
theorem Submitted.countP_isSent {reply : HttpReply} {shown : List Seen}
    {r : Except Stop RunOutcome} (h : Submitted crates args latest reply shown r) :
    shown.countP Seen.isSent = 0 := by
  cases h with
  | lost => rfl
  | rejected => exact countP_isSent_objects _
  | unnamed => exact countP_isSent_objects _
  | followed _ _ _ _ hfollowed =>
    cases hfollowed with
    | timeout =>
      rw [List.countP_append, countP_isSent_idle, countP_isSent_objects]
    | lost =>
      rw [List.countP_append, countP_isSent_idle]
      rfl
    | decided _ _ _ hlast =>
      rw [List.countP_append, countP_isSent_idle, List.countP_cons, hlast.countP_isSent]
      rfl

end

namespace Sample

end Sample

end AgentGuard.AgentTx
