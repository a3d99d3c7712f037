import AgentGuard.AgentTx.Fate

/-!
# AgentTx/Quote — what a preflight says

`preflight` simulates the transaction `run` would simulate, and stops there.  `preflight_shows`
lists everything an observer can see of it: the simulation, the object, and nothing else.  Without a
secret the object is never a verdict; with one it is the simulation's, and the exit code follows.
-/

namespace AgentGuard.AgentTx

open Machinery

section

variable {crates : Crates} {call : Call} {args : Args} {latest : U32}

/-- **What a preflight simulates**: with a secret what `run` would; without one the same call from
the registered agent, with no authorization. -/
structure Preflighted (crates : Crates) (call : Call) (args : Args)
    (p : Bool × U32 × TransactionEnvelope) : Prop where
  signed : p.1 = args.secret.isSome
  run : p.1 = true → ∃ signing, Signed crates call args signing ∧ p.2.1 = signing.latest ∧
    p.2.2 = signing.initial
  unsigned : p.1 = false → ∃ source seq,
    p.2.2 = buildInitialEnvelope source seq (invokeOp (call.invocation args.guard) []) args.guard
      call.kind

theorem quiet_preflightEnvelope : (preflightEnvelope crates call args).Quiet
    (seen args.reporter.json) (Preflighted crates call args) := by
  rw [preflightEnvelope]
  cases hsecret : args.secret with
  | none =>
    refine (quiet_registeredAgentPubkey crates _ _).seq fun source _ => ?_
    refine (quiet_accountSeq crates _ _).seq fun stored _ => ?_
    refine (quiet_latestLedger _ _).seq fun latest _ => .done ?_
    exact ⟨by simp [hsecret], by simp, fun _ => ⟨source, _, rfl⟩⟩
  | some secret =>
    have hseed : (some <$> secretToSeed secret : Process (Option Bytes32)).Quiet
        (seen args.reporter.json) fun seed =>
          ∃ s, seed = some s ∧ decodeStrkey secret = .ok (verSecret, s) :=
      (quiet_secretToSeed secret).seq fun s hs => .done ⟨s, rfl, hs⟩
    refine hseed.seq fun seed hs => ?_
    obtain ⟨s, rfl, hs⟩ := hs
    refine (quiet_accountSeq crates _ _).seq fun stored _ => ?_
    refine (quiet_latestLedger _ _).seq fun latest _ => ?_
    refine (quiet_freshAuthNonce latest).seq fun nonce hnonce => .done ?_
    obtain ⟨entropy, rfl⟩ := hnonce
    exact ⟨by simp [hsecret], fun _ => ⟨⟨s, latest, _⟩,
      ⟨⟨secret, hsecret, hs⟩, stored, entropy, rfl⟩, rfl, rfl⟩, by simp⟩

/-- The verdict of a preflight. -/
def preflightReport (crates : Crates) (args : Args) (sim : Json) : RunReport :=
  if args.secret.isSome then simulationReport crates.decode sim else .failed "unsigned_simulation"

/-- The way a preflight ends. -/
def preflightExit (crates : Crates) (args : Args) (sim : Json) : Except ℕ Unit :=
  match simulationErrorMessage crates.render sim with
  | some _ =>
    if isGuardAuthCheckedBlock crates.decode sim args.guard && args.expectBlocked then .ok ()
    else .error (if args.secret.isSome then 1 else 2)
  | none => if args.secret.isSome then .ok () else .error 2

/-- **Everything a preflight can show, and how it then ends.** -/
inductive PreflightShows (crates : Crates) (call : Call) (args : Args) :
    List Seen → Except Stop (Except ℕ Unit) → Prop
  | stopped {stop : Stop} : PreflightShows crates call args [] (.error stop)
  | unusable {p : Bool × U32 × TransactionEnvelope} {reply : HttpReply} {stop : Stop}
      (hp : Preflighted crates call args p) :
      PreflightShows crates call args [.simulated (txParams crates p.2.2) reply] (.error stop)
  | answered {p : Bool × U32 × TransactionEnvelope} {reply : HttpReply} {sim : Json}
      (hp : Preflighted crates call args p)
      (hsim : reading crates args "simulateTransaction" reply = .ok sim) :
      PreflightShows crates call args (.simulated (txParams crates p.2.2) reply
          :: objects crates args (preflightReport crates args sim) p.2.1)
        (.ok (preflightExit crates args sim))

/-- What a second half of a preflight shows: the object, or nothing when it halts before it. -/
def ShowsReport (crates : Crates) (args : Args) (report : RunReport) (latest : U32)
    (res : Except ℕ Unit) (s : List Seen) (r : Except Stop (Except ℕ Unit)) : Prop :=
  (s = [] ∧ ∃ stop, r = .error stop) ∨ (s = objects crates args report latest ∧ r = .ok res)

theorem shows_preflightRefused {signed : Bool} {sim : Json} {message : String}
    {report : RunReport} :
    (preflightRefused crates args signed sim message report latest).Shows (seen args.reporter.json)
      (ShowsReport crates args report latest
        (if isGuardAuthCheckedBlock crates.decode sim args.guard && args.expectBlocked then .ok ()
          else .error (if signed then 1 else 2))) := by
  have hend : (printSimulationEvents crates args.reporter sim >>= fun _ =>
      args.reporter.line "  broadcast: no" >>= fun _ =>
      emitReport crates args report latest >>= fun _ =>
      (if isGuardAuthCheckedBlock crates.decode sim args.guard && args.expectBlocked then
        pure (.ok ())
      else pure (.error (if signed then 1 else 2)) : Process (Except ℕ Unit))).Shows
      (seen args.reporter.json) (ShowsReport crates args report latest
        (if isGuardAuthCheckedBlock crates.decode sim args.guard && args.expectBlocked then .ok ()
          else .error (if signed then 1 else 2))) := by
    refine (quiet_printSimulationEvents crates _ _).bind (fun stop => .inl ⟨rfl, stop, rfl⟩)
      fun _ _ => (silent_line _ _).bind fun _ _ => shows_emitReport ?_
    split_ifs
    · exact .done (.inr ⟨by simp, rfl⟩)
    · exact .done (.inr ⟨by simp, rfl⟩)
    · exact .done (.inr ⟨by simp, rfl⟩)
  rw [preflightRefused]
  dsimp only
  by_cases hpolicy : isGuardAuthCheckedBlock crates.decode sim args.guard = true
  · rw [if_pos hpolicy]
    exact (silent_line _ _).bind fun _ _ => (silent_line _ _).bind fun _ _ => hend
  · rw [if_neg hpolicy]
    cases signed with
    | true => exact (silent_line _ _).bind fun _ _ => (silent_line _ _).bind fun _ _ => hend
    | false => exact (silent_line _ _).bind fun _ _ => (silent_line _ _).bind fun _ _ => hend

theorem shows_preflightAdmitted {signed : Bool} {sim : Json} {report : RunReport} :
    (preflightAdmitted crates args signed sim report latest).Shows (seen args.reporter.json)
      (ShowsReport crates args report latest (if signed then .ok () else .error 2)) := by
  have hhalt : ∀ stop, ShowsReport crates args report latest
      (if signed then .ok () else .error 2) [] (.error stop) := fun stop => .inl ⟨rfl, stop, rfl⟩
  refine (quiet_expect _ _).bind hhalt fun text _ => ?_
  refine (quiet_expect _ _).bind hhalt fun minFee _ => ?_
  refine (quiet_resolveInclusionFee crates _ _).bind hhalt fun fee _ => ?_
  dsimp only
  cases signed with
  | true =>
    refine (silent_line _ _).bind fun _ _ => ?_
    iterate 4 refine (silent_line _ _).bind fun _ _ => ?_
    exact shows_emitReport (.done (.inr ⟨by simp, rfl⟩))
  | false =>
    refine (silent_line _ _).bind fun _ _ => ?_
    iterate 5 refine (silent_line _ _).bind fun _ _ => ?_
    exact shows_emitReport (.done (.inr ⟨by simp, rfl⟩))

/-- **What a preflight shows**, whatever it is answered. -/
theorem preflight_shows (crates : Crates) (call : Call) (args : Args) :
    (preflight crates call args).Shows (seen args.reporter.json)
      (PreflightShows crates call args) := by
  refine quiet_preflightEnvelope.bind (fun _ => .stopped) fun p hp => ?_
  have hassoc : ∀ f : Json → Process (Except ℕ Unit),
      (simulate crates.toJsonCrate args.rpc (crates.envelopeBase64 p.2.2) >>= f)
        = post crates.toJsonCrate args.rpc "simulateTransaction" (txParams crates p.2.2)
          >>= fun x => rpcOrExit crates.toJsonCrate x >>= f := fun _ => rfl
  obtain ⟨signed, latest, env⟩ := p
  obtain rfl : signed = args.secret.isSome := hp.signed
  dsimp only
  rw [hassoc]
  refine shows_post (.simulated (txParams crates env)) (fun _ => rfl) fun reply => ?_
  refine (quiet_rpcOrExit _ _).bind (fun _ => .unusable hp) fun sim hsim => ?_
  have hanswer := PreflightShows.answered hp hsim
  rw [preflightExit] at hanswer
  cases hmessage : simulationErrorMessage crates.render sim with
  | some message =>
    refine shows_preflightRefused.mono ?_
    rintro s r (⟨rfl, stop, rfl⟩ | ⟨rfl, rfl⟩)
    · exact .unusable hp
    · simpa only [hmessage, preflightReport] using hanswer
  | none =>
    refine shows_preflightAdmitted.mono ?_
    rintro s r (⟨rfl, stop, rfl⟩ | ⟨rfl, rfl⟩)
    · exact .unusable hp
    · simpa only [hmessage, preflightReport] using hanswer

/-- **What a preflight concludes** from a simulation: the verdict of the simulation when it was
signed, and no verdict otherwise, so a block only for an error; exit code `0` for an admitted signed
call, or for a block by the guard that was expected. -/
structure Concludes (crates : Crates) (args : Args) (sim : Json) (report : RunReport)
    (res : Except ℕ Unit) : Prop where
  signed : args.secret.isSome = true →
    report.outcome = (simulationReport crates.decode sim).outcome ∧
    report.reason = (simulationReport crates.decode sim).reason
  blocked : sim.get "error" ≠ some .null → (report.outcome = .blocked ↔
    args.secret.isSome = true ∧ (simulationErrorMessage crates.render sim).isSome)
  unsigned : args.secret = none → report.outcome = .failed ∧
    report.reason = some "unsigned_simulation"
  exitZero : res = .ok () ↔ if (simulationErrorMessage crates.render sim).isSome then
      isGuardAuthCheckedBlock crates.decode sim args.guard = true ∧ args.expectBlocked = true
    else args.secret.isSome = true
  exitCode : ∀ code, res = .error code → code = if args.secret.isSome then 1 else 2

theorem concludes_of_answer (sim : Json) (latest : U32) :
    Concludes crates args sim
      (args.reporter.complete (preflightReport crates args sim) (some latest))
      (preflightExit crates args sim) := by
  refine ⟨fun h => ?_, fun hnull => ?_, fun h => ?_, ?_, fun code => ?_⟩
  · rw [preflightReport, if_pos h]
    exact ⟨rfl, rfl⟩
  · have hmessage := @simulationErrorMessage_isSome_iff crates.render sim hnull
    have hblocked := (@outcome_simulationReport crates.decode sim).1.trans hmessage.symm
    change (preflightReport crates args sim).outcome = .blocked ↔ _
    rw [preflightReport]
    split_ifs with h
    · simp only [hblocked, h, true_and]
    · simp [RunReport.failed, RunReport.new, h]
  · simp [preflightReport, h, Reporter.complete, RunReport.withNetwork, RunReport.withLedger,
      RunReport.failed, RunReport.new]
  · rw [preflightExit]
    cases simulationErrorMessage crates.render sim with
    | none => cases args.secret.isSome <;> simp
    | some message =>
      cases isGuardAuthCheckedBlock crates.decode sim args.guard <;>
        cases args.expectBlocked <;> simp
  · rw [preflightExit]
    cases simulationErrorMessage crates.render sim with
    | none => cases args.secret.isSome <;> grind
    | some message => dsimp only; split_ifs <;> grind

/-- The simulation among the visible exchanges: what was simulated, and the reply. -/
def Seen.simulation? : Seen → Option (Json × HttpReply)
  | .simulated params reply => some (params, reply)
  | _ => none

/-- An object is no simulation. -/
theorem filterMap_simulation?_objects (report : RunReport) :
    (objects crates args report latest).filterMap Seen.simulation? = [] := by
  rw [objects]
  split_ifs <;> rfl

/-- **A preflight submits nothing and concludes only what it may.**  In every run of `preflight`
nothing is submitted or polled; when it returns, it made one simulation, of the transaction it
stands for, under `--json` stdout holds exactly one object, and object and exit code are those the
simulation allows; when it exits on the way stdout is empty. -/
theorem preflight_concludes {t : Log} {r : Except Stop (Except ℕ Unit)}
    (h : (preflight crates call args).Runs t r) :
    (∀ x ∈ t.filterMap (seen args.reporter.json), x.isSent = false ∧ x.polled? = none) ∧
      ((∃ stop, r = .error stop) ∧ (args.reporter.json = true → stdout t = []) ∨
        ∃ res p reply sim report, r = .ok res ∧ Preflighted crates call args p ∧
          (t.filterMap (seen args.reporter.json)).filterMap Seen.simulation?
            = [(txParams crates p.2.2, reply)] ∧
          reading crates args "simulateTransaction" reply = .ok sim ∧
          (args.reporter.json = true → stdout t = [report.toJson crates.toJsonCrate]) ∧
          Concludes crates args sim report res) := by
  have hshows := preflight_shows crates call args t r h
  have hstdout : args.reporter.json = true → stdout t
      = (t.filterMap (seen args.reporter.json)).filterMap Seen.printed? := fun hjson => by
    rw [hjson, stdout_eq]
  generalize t.filterMap (seen args.reporter.json) = s at hshows hstdout ⊢
  cases hshows with
  | stopped => exact ⟨by simp, .inl ⟨⟨_, rfl⟩, hstdout⟩⟩
  | unusable =>
    exact ⟨by simp [Seen.isSent, Seen.polled?], .inl ⟨⟨_, rfl⟩, hstdout⟩⟩
  | @answered p reply sim hp hsim =>
    refine ⟨?_, .inr ⟨_, p, reply, sim, _, rfl, hp, ?_, hsim, fun hjson => ?_,
      concludes_of_answer sim p.2.1⟩⟩
    · intro x hx
      rcases List.mem_cons.mp hx with rfl | hx
      · exact ⟨rfl, rfl⟩
      · rw [objects] at hx
        split_ifs at hx
        · rw [List.mem_singleton.mp hx]
          exact ⟨rfl, rfl⟩
        · exact absurd hx List.not_mem_nil
    · exact congrArg ((txParams crates p.2.2, reply) :: ·) (filterMap_simulation?_objects _)
    · rw [hstdout hjson, List.filterMap_cons_none rfl, printed_objects hjson]

end

namespace Sample

/-- The preflight of a heartbeat, and the way it ends. -/
def preflighted : Log × Except Stop (Except ℕ Unit) :=
  Session.play endpoint [] (preflight crates .heartbeat args)

/-- A signed preflight of the heartbeat: the object is `allowed`, the exit code `0`. -/
theorem preflighted_concludes :
    (stdout preflighted.1).length = 1 ∧ ∃ sim report res, preflighted.2 = .ok res ∧
      Concludes crates args sim report res := by
  have hlength : (stdout preflighted.1).length = 1 := by decide +kernel
  have hjson : args.reporter.json = true := rfl
  obtain ⟨-, ⟨-, hnil⟩ | ⟨res, -, -, sim, report, hres, -, -, -, -, hconcludes⟩⟩ :=
    preflight_concludes (Session.play_runs endpoint (preflight crates .heartbeat args) [])
  · have := hnil hjson
    rw [preflighted, this] at hlength
    cases hlength
  · exact ⟨hlength, sim, report, res, hres, hconcludes⟩

end Sample

end AgentGuard.AgentTx
