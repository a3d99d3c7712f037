import AgentGuard.AgentTx.Broadcast

/-!
# AgentTx/Fate — the outcome of a run, the polls behind it and the object it prints

Read off `run_shows`: a run asks at most twenty times, only about the hash it was given, and never
again after an answer that decides; the outcome is what that answer said; and under `--json` a run
that returns prints one object, which agrees with the outcome and the exit code, while a run that
exits on the way prints none.
-/

namespace AgentGuard.AgentTx

open Machinery

/-! ## Polls -/

/-- A poll, with its reply. -/
def Seen.polled? : Seen → Option (Json × HttpReply)
  | .polled params reply => some (params, reply)
  | _ => none

/-- The status a reply to a poll carries. -/
def pollSays (crates : Crates) (args : Args) (reply : HttpReply) : Option String :=
  (reading crates args "getTransaction" reply).toOption.map pollStatus

/-- A reply decides a poll. -/
def Decisive (crates : Crates) (args : Args) (reply : HttpReply) : Prop :=
  pollSays crates args reply = some "SUCCESS" ∨ pollSays crates args reply = some "FAILED"

section

variable {crates : Crates} {call : Call} {args : Args} {latest : U32} {hash : String}

theorem filterMap_polled?_objects (report : RunReport) :
    (objects crates args report latest).filterMap Seen.polled? = [] := by
  rw [objects]
  split_ifs <;> rfl

theorem filterMap_polled?_idle (idle : List HttpReply) :
    (idle.map (Seen.polled (hashParams hash))).filterMap Seen.polled?
      = idle.map fun reply => (hashParams hash, reply) := by
  rw [List.filterMap_map]
  exact congrFun List.filterMap_eq_map' idle

theorem Verdict.filterMap_polled? {reply : HttpReply} {shown : List Seen}
    {r : Except Stop (Option RunOutcome)} (h : Verdict crates args hash latest reply shown r) :
    shown.filterMap Seen.polled? = [] := by
  cases h with
  | success => exact filterMap_polled?_objects _
  | failure => exact filterMap_polled?_objects _
  | _ => rfl

/-- What a round makes of its reply, by what the reply says. -/
theorem Verdict.means {reply : HttpReply} {shown : List Seen}
    {r : Except Stop (Option RunOutcome)} (h : Verdict crates args hash latest reply shown r) :
    (pollSays crates args reply = some "SUCCESS" ↔
        r = .ok (some (.transactionSuccess hash "SUCCESS"))) ∧
      (pollSays crates args reply = some "FAILED" ↔
        ∃ x, r = .ok (some (.transactionFailure hash x))) := by
  cases h with
  | stalled h => simp [pollSays, h, Except.toOption]
  | lost h => simp [pollSays, h, Except.toOption]
  | pending h hsuccess hfailed => simp [pollSays, h, Except.toOption, hsuccess, hfailed]
  | success h hsuccess => simp [pollSays, h, Except.toOption, hsuccess]
  | failure h hfailed => simp [pollSays, h, Except.toOption, hfailed]

theorem Verdict.not_decisive {reply : HttpReply} {shown : List Seen}
    (h : Verdict crates args hash latest reply shown (.ok none)) :
    ¬Decisive crates args reply := by
  rintro (hsaid | hsaid)
  · exact absurd (h.means.1.mp hsaid) (by simp)
  · exact absurd (h.means.2.mp hsaid) (by simp)

/-- **The polls of a followed transaction**, and what its end says about them. -/
structure Polls (crates : Crates) (args : Args) (hash : String) (polls : List (Json × HttpReply))
    (r : Except Stop RunOutcome) : Prop where
  length_le : polls.length ≤ pollRounds
  params : ∀ p ∈ polls, p.1 = hashParams hash
  idle : ∀ p ∈ polls.dropLast, ¬Decisive crates args p.2
  success : r = .ok (.transactionSuccess hash "SUCCESS") ↔
    ∃ p ∈ polls, pollSays crates args p.2 = some "SUCCESS"
  failure : (∃ x, r = .ok (.transactionFailure hash x)) ↔
    ∃ p ∈ polls, pollSays crates args p.2 = some "FAILED"
  timeout : r = .ok (.transactionTimeout hash) →
    polls.length = pollRounds ∧ ∀ p ∈ polls, ¬Decisive crates args p.2

theorem not_decisive_idle {idle : List HttpReply}
    (hidle : ∀ reply ∈ idle, Verdict crates args hash latest reply [] (.ok none)) :
    ∀ p ∈ idle.map fun reply => (hashParams hash, reply), ¬Decisive crates args p.2 := by
  intro p hp
  obtain ⟨reply, hreply, rfl⟩ := List.mem_map.mp hp
  exact (hidle reply hreply).not_decisive

theorem mem_idle_or_last {idle : List HttpReply} {reply : HttpReply} {P : HttpReply → Prop}
    (hidle : ∀ p ∈ idle.map fun reply => (hashParams hash, reply), ¬P p.2) :
    (∃ p ∈ (idle.map fun reply => (hashParams hash, reply)) ++ [(hashParams hash, reply)],
      P p.2) ↔ P reply := by
  constructor
  · rintro ⟨p, hp, hsaid⟩
    rcases List.mem_append.mp hp with hp | hp
    · exact absurd hsaid (hidle p hp)
    · obtain rfl := List.mem_singleton.mp hp
      exact hsaid
  · exact fun h => ⟨(hashParams hash, reply), by simp, h⟩

/-- The polls up to a last round that ended the poll. -/
theorem polls_of_last {idle : List HttpReply} {reply : HttpReply} {shown : List Seen}
    {r : Except Stop RunOutcome} {r' : Except Stop (Option RunOutcome)}
    (hlen : idle.length < pollRounds)
    (hidle : ∀ reply ∈ idle, Verdict crates args hash latest reply [] (.ok none))
    (hlast : Verdict crates args hash latest reply shown r')
    (hr : ∀ outcome, r = .ok outcome ↔ r' = .ok (some outcome)) :
    Polls crates args hash ((idle.map fun reply => (hashParams hash, reply))
      ++ [(hashParams hash, reply)]) r := by
  have hnot := not_decisive_idle hidle
  refine ⟨by simpa using hlen, ?_, ?_, ?_, ?_, ?_⟩
  · intro p hp
    rcases List.mem_append.mp hp with hp | hp
    · obtain ⟨_, -, rfl⟩ := List.mem_map.mp hp
      rfl
    · rw [List.mem_singleton.mp hp]
  · rw [List.dropLast_concat]
    exact hnot
  · rw [mem_idle_or_last (P := fun reply => pollSays crates args reply = some "SUCCESS")
      fun p hp h => hnot p hp (.inl h), hlast.means.1, hr]
  · rw [mem_idle_or_last (P := fun reply => pollSays crates args reply = some "FAILED")
      fun p hp h => hnot p hp (.inr h), hlast.means.2]
    exact exists_congr fun x => hr _
  · intro h
    rw [hr] at h
    subst h
    cases hlast

theorem Followed.polls {shown : List Seen} {r : Except Stop RunOutcome}
    (h : Followed crates args hash latest shown r) :
    Polls crates args hash (shown.filterMap Seen.polled?) r := by
  cases h with
  | timeout idle hlen hidle =>
    have hnot := not_decisive_idle hidle
    rw [List.filterMap_append, filterMap_polled?_idle, filterMap_polled?_objects, List.append_nil]
    refine ⟨by simp [hlen], by simp, fun p hp => hnot p (List.mem_of_mem_dropLast hp), ?_, ?_,
      fun _ => ⟨by simp [hlen], hnot⟩⟩
    · simp only [Except.ok.injEq, reduceCtorEq, false_iff]
      rintro ⟨p, hp, hsaid⟩
      exact hnot p hp (.inl hsaid)
    · simp only [Except.ok.injEq, reduceCtorEq, exists_const, false_iff]
      rintro ⟨p, hp, hsaid⟩
      exact hnot p hp (.inr hsaid)
  | @lost idle hlen hidle reply stop hlast =>
    rw [List.filterMap_append, filterMap_polled?_idle]
    exact polls_of_last hlen hidle hlast (by simp)
  | @decided idle hlen hidle reply shown outcome hlast =>
    have hseen : Seen.polled? (.polled (hashParams hash) reply)
        = some (hashParams hash, reply) := rfl
    rw [List.filterMap_append, filterMap_polled?_idle, List.filterMap_cons_some hseen,
      hlast.filterMap_polled?]
    exact polls_of_last hlen hidle hlast (by simp)

end

/-- The transaction an outcome names. -/
def RunOutcome.hash? : RunOutcome → Option String
  | .transactionSuccess hash _ | .transactionFailure hash _ | .transactionTimeout hash => some hash
  | _ => none

section

variable {crates : Crates} {call : Call} {args : Args} {latest : U32} {t : Log}
  {r : Except Stop RunOutcome}

/-- What reached stdout. -/
def stdout (t : Log) : List String :=
  t.filterMap fun e =>
    match e.query with
    | .stdout text => some text
    | _ => none

def Seen.printed? : Seen → Option String
  | .printed text => some text
  | _ => none

/-- Under `--json` an observer sees all of stdout. -/
theorem stdout_eq (t : Log) : stdout t = (t.filterMap (seen true)).filterMap Seen.printed? := by
  rw [stdout, List.filterMap_filterMap]
  refine List.filterMap_congr fun e _ => ?_
  obtain ⟨q, x⟩ := e
  cases q with
  | http url timeout method params =>
    simp only [seen]
    split_ifs <;> rfl
  | _ => rfl

/-- **A printed object that agrees with the outcome**: its verdict, its hash, and the exit code. -/
structure Agrees (args : Args) (report : RunReport) (outcome : RunOutcome) : Prop where
  network : report.network = args.reporter.network.map Network.name
  ledger : report.ledger.isSome
  txHash : report.txHash = outcome.hash?
  blocked : report.outcome = .blocked ↔ ∃ policyBlock code message events,
    outcome = .simulationBlocked policyBlock code message events
  allowed : report.outcome = .allowed ↔ ∃ hash status, outcome = .transactionSuccess hash status
  exitCode : outcome.exitCode args.expectBlocked = 0 ↔
    if args.expectBlocked then ∃ code message events,
      outcome = .simulationBlocked true code message events
    else report.outcome = .allowed

/-- **What the end of a run prints**: one object when it returns, and nothing when it exits. -/
inductive Prints (crates : Crates) (args : Args) : List String → Except Stop RunOutcome → Prop
  | exits (stop : Stop) : Prints crates args [] (.error stop)
  | returns {report : RunReport} {outcome : RunOutcome} (h : Agrees args report outcome) :
      Prints crates args [report.toJson crates.toJsonCrate] (.ok outcome)

theorem printed_objects (hjson : args.reporter.json = true) (report : RunReport) :
    (objects crates args report latest).filterMap Seen.printed?
      = [(args.reporter.complete report (some latest)).toJson crates.toJsonCrate] := by
  rw [objects, if_pos hjson]
  rfl

/-- An object that is emitted agrees with the outcome when its verdict and its hash do. -/
theorem prints_complete {report : RunReport} {outcome : RunOutcome}
    (hjson : args.reporter.json = true) (htxHash : report.txHash = outcome.hash?)
    (hblocked : report.outcome = .blocked ↔ ∃ policyBlock code message events,
      outcome = .simulationBlocked policyBlock code message events)
    (hallowed : report.outcome = .allowed ↔
      ∃ hash status, outcome = .transactionSuccess hash status)
    (hexit : outcome.exitCode args.expectBlocked = 0 ↔
      if args.expectBlocked then ∃ code message events,
        outcome = .simulationBlocked true code message events
      else report.outcome = .allowed) :
    Prints crates args ((objects crates args report latest).filterMap Seen.printed?)
      (.ok outcome) := by
  rw [printed_objects hjson]
  exact .returns ⟨rfl, rfl, htxHash, hblocked, hallowed, hexit⟩

/-- **What a verdict of the poll prints** agrees with it; a run that expects a block does not get
here. -/
theorem Verdict.prints {hash : String} {reply : HttpReply} {shown : List Seen}
    {outcome : RunOutcome} (hjson : args.reporter.json = true)
    (hexpect : args.expectBlocked = false)
    (h : Verdict crates args hash latest reply shown (.ok (some outcome))) :
    Prints crates args (shown.filterMap Seen.printed?) (.ok outcome) := by
  cases h with
  | success =>
    exact prints_complete hjson rfl
      (by simp [RunReport.withTxHash, RunReport.allowed, RunReport.new])
      (by simp [RunReport.withTxHash, RunReport.allowed, RunReport.new])
      (by simp [hexpect, RunOutcome.exitCode, RunReport.withTxHash, RunReport.allowed,
        RunReport.new])
  | failure =>
    exact prints_complete hjson rfl
      (by simp [RunReport.withTxHash, RunReport.failed, RunReport.new])
      (by simp [RunReport.withTxHash, RunReport.failed, RunReport.new])
      (by simp [hexpect, RunOutcome.exitCode, RunReport.withTxHash, RunReport.failed,
        RunReport.new])

theorem printed_idle {hash : String} (idle : List HttpReply) :
    (idle.map (Seen.polled (hashParams hash))).filterMap Seen.printed? = [] := by
  induction idle with
  | nil => rfl
  | cons reply idle ih => exact ih

theorem Followed.prints {hash : String} {shown : List Seen} (hjson : args.reporter.json = true)
    (hexpect : args.expectBlocked = false) (h : Followed crates args hash latest shown r) :
    Prints crates args (shown.filterMap Seen.printed?) r := by
  cases h with
  | timeout =>
    rw [List.filterMap_append, printed_idle, List.nil_append]
    exact prints_complete hjson rfl
      (by simp [RunReport.withTxHash, RunReport.failed, RunReport.new])
      (by simp [RunReport.withTxHash, RunReport.failed, RunReport.new])
      (by simp [hexpect, RunOutcome.exitCode, RunReport.withTxHash, RunReport.failed,
        RunReport.new])
  | lost =>
    rw [List.filterMap_append, printed_idle]
    exact .exits _
  | decided _ _ _ hlast =>
    rw [List.filterMap_append, printed_idle, List.filterMap_cons_none rfl]
    exact hlast.prints hjson hexpect

/-- A run that could not submit, or whose submission was not taken, prints a failure. -/
theorem prints_failed {reason : String} {outcome : RunOutcome} (hjson : args.reporter.json = true)
    (hhash : outcome.hash? = none) (hexit : outcome.exitCode args.expectBlocked = 1)
    (hblocked : ∀ policyBlock code message events,
      outcome ≠ .simulationBlocked policyBlock code message events) :
    Prints crates args ((objects crates args (.failed reason) latest).filterMap Seen.printed?)
      (.ok outcome) := by
  refine prints_complete hjson hhash.symm ?_ ?_ ?_
  · simp [RunReport.failed, RunReport.new, hblocked]
  · simp only [RunReport.failed, RunReport.new, reduceCtorEq, false_iff, not_exists]
    rintro hash status rfl
    cases hhash
  · simp [hexit, RunReport.failed, RunReport.new, hblocked]

theorem Submitted.prints {reply : HttpReply} {shown : List Seen} (hjson : args.reporter.json = true)
    (hexpect : args.expectBlocked = false) (h : Submitted crates args latest reply shown r) :
    Prints crates args (shown.filterMap Seen.printed?) r := by
  cases h with
  | lost => exact .exits _
  | rejected => exact prints_failed hjson rfl rfl (by simp)
  | unnamed => exact prints_failed hjson rfl rfl (by simp)
  | followed _ _ _ _ hfollowed => exact hfollowed.prints hjson hexpect

/-- A response with an error message is reported as blocked. -/
theorem outcome_of_message {sim : Json} {message : String}
    (h : simulationErrorMessage crates.render sim = some message) :
    (simulationReport crates.decode sim).outcome = .blocked := by
  rw [outcome_simulationReport.1]
  rw [simulationErrorMessage] at h
  cases herror : sim.get "error" with
  | none => simp [herror] at h
  | some error => rfl

theorem txHash_simulationReport (sim : Json) :
    (simulationReport crates.decode sim).txHash = none := by
  rw [simulationReport]
  cases sim.get "error" <;> rfl

/-- **One object, which tells the outcome.**  Under `--json` a run that returns puts exactly one
line on stdout, an object that agrees with the outcome — `blocked` when the simulation carried an
error, `allowed` when the transaction succeeded, `failed` otherwise, with the hash of an accepted
submission — and with the exit code: `0` means `allowed`, or a block by the guard when one was
expected.  A run that exits on the way puts nothing there. -/
theorem run_reports (hjson : args.reporter.json = true) (h : (run crates call args).Runs t r) :
    Prints crates args (stdout t) r := by
  have hshows := run_shows crates call args t r h
  rw [hjson] at hshows
  rw [stdout_eq]
  generalize t.filterMap (seen true) = s at hshows ⊢
  cases hshows with
  | unsigned => exact .exits _
  | unusable => exact .exits _
  | @refused _ _ sim _ _ _ hmessage =>
    have hblocked := outcome_of_message hmessage
    refine prints_complete hjson (txHash_simulationReport sim) ?_ ?_ ?_
    · simp [hblocked]
    · simp [hblocked]
    · cases args.expectBlocked <;> simp [hblocked, RunOutcome.exitCode]
  | unblocked => exact prints_failed hjson rfl rfl (by simp)
  | submitted _ _ _ hexpect _ hsubmitted =>
    rw [List.filterMap_cons_none rfl, List.filterMap_cons_none rfl]
    exact hsubmitted.prints hjson hexpect

end

namespace Sample

/-- The heartbeat prints one object. -/
theorem beat_reports : (stdout beat.1).length = 1 ∧ Prints crates args (stdout beat.1) beat.2 := by
  have hjson : args.reporter.json = true := rfl
  have hprints := run_reports hjson beat_runs
  have hlength : (stdout beat.1).length = 1 := by decide +kernel
  exact ⟨hlength, hprints⟩

end Sample

end AgentGuard.AgentTx
