import AgentGuard.AgentTx.Dispatch
import AgentGuard.AgentTx.Quote

/-!
# AgentTx/Typed — what is submitted is what was typed

The whole way from a command line to a submission.  Of the subcommands three can submit, each at
most one transaction, and what that transaction calls, with whose authorization, can be read off the
command line (`command_submits_typed`).
-/

namespace AgentGuard.AgentTx

open Machinery

section

variable {crates : Crates} {cmd : String}

/-! ## What is submitted -/

/-- The submissions of a log. -/
def sentParams : Exchange Query.Answer → Option Json
  | ⟨.http _ _ method params, _⟩ => if method = "sendTransaction" then some params else none
  | _ => none

def Seen.sent? : Seen → Option Json
  | .sent params _ => some params
  | _ => none

/-- An observer of a run sees its submissions. -/
theorem sentParams_eq (json : Bool) (e : Exchange Query.Answer) :
    sentParams e = (seen json e).bind Seen.sent? := by
  obtain ⟨q, x⟩ := e
  cases q with
  | http url timeout method params =>
    simp only [sentParams, seen]
    split_ifs with h₁ h₂ h₃ h₄ <;> first | rfl | simp_all
  | stdout text => cases json <;> rfl
  | _ => rfl

theorem filterMap_sent?_objects {args : Args} {report : RunReport} {latest : U32} :
    (objects crates args report latest).filterMap Seen.sent? = [] := by
  rw [objects]
  split_ifs <;> rfl

/-- What is shown without a submission. -/
theorem filterMap_sent?_eq_nil {shown : List Seen} (h : shown.countP Seen.isSent = 0) :
    shown.filterMap Seen.sent? = [] := by
  refine List.filterMap_eq_nil_iff.mpr fun x hx => ?_
  cases x with
  | sent params reply => exact absurd rfl (List.countP_eq_zero.mp h _ hx)
  | _ => rfl

/-- **What a run submits**: nothing, or the transaction it prepared. -/
theorem shows_sentParams_run (call : Call) (args : Args) :
    (run crates call args).Shows sentParams fun s _ => s = [] ∨
      ∃ signing sim env, s = [txParams crates env] ∧ args.expectBlocked = false ∧
        Signed crates call args signing ∧ Prepared crates call args signing sim env := by
  refine ((run_shows crates call args).coarsen Seen.sent? (sentParams_eq _)).mono ?_
  rintro s r ⟨s', hshows, rfl⟩
  cases hshows with
  | unsigned => exact .inl rfl
  | unusable => exact .inl rfl
  | refused => exact .inl filterMap_sent?_objects
  | unblocked => exact .inl filterMap_sent?_objects
  | @submitted signing _ sim env reply shown _ hsigned _ _ hexpect hprepared hsubmitted =>
    refine .inr ⟨signing, sim, env, ?_, hexpect, hsigned, hprepared⟩
    have hsent : Seen.sent? (.sent (txParams crates env) reply) = some (txParams crates env) := rfl
    rw [List.filterMap_cons_none rfl, List.filterMap_cons_some hsent,
      filterMap_sent?_eq_nil hsubmitted.countP_isSent]

theorem quiet_sentParams_preflight (call : Call) (args : Args) :
    (preflight crates call args).Shows sentParams fun s _ => s = [] := by
  refine ((preflight_shows crates call args).coarsen Seen.sent? (sentParams_eq _)).mono ?_
  rintro s r ⟨s', hshows, rfl⟩
  cases hshows with
  | stopped => rfl
  | unusable => rfl
  | answered => exact filterMap_sent?_objects

/-! ### The commands that only read -/

theorem quiet_sentParams_post (crate : JsonCrate) (rpc : RpcClient) {method : String}
    (params : Json) (h : method ≠ "sendTransaction") :
    (post crate rpc method params).Quiet sentParams fun _ => True :=
  .ask (fun _ => if_neg h) fun _ => .done trivial

theorem quiet_sentParams_exitWith {α : Type} (message : String) {R : α → Prop} :
    (exitWith message : Process α).Quiet sentParams R :=
  (quiet_exitWith message).coarsen Seen.sent? (sentParams_eq true)

theorem quiet_sentParams_expect {α : Type} (message : String) (x : Option α) :
    (expect message x).Quiet sentParams fun _ => True :=
  ((quiet_expect message x).coarsen Seen.sent? (sentParams_eq true)).mono
    fun _ _ => trivial

theorem quiet_sentParams_rpcOrExit {α : Type} (crate : JsonCrate) (x : Except RpcError α) :
    (rpcOrExit crate x).Quiet sentParams fun _ => True :=
  ((quiet_rpcOrExit crate x).coarsen Seen.sent? (sentParams_eq true)).mono
    fun _ _ => trivial

theorem quiet_sentParams_printLine (text : String) :
    (printLine text).Quiet sentParams fun _ => True :=
  .ask (fun _ => rfl) fun _ => .done trivial

theorem quiet_sentParams_line (reporter : Reporter) (text : String) :
    (reporter.line text).Quiet sentParams fun _ => True :=
  (silent_line reporter text).quiet.coarsen Seen.sent? (sentParams_eq _)

theorem quiet_sentParams_orExit {p : Process (Except String Unit)}
    (h : p.Quiet sentParams fun _ => True) : (orExit p).Quiet sentParams fun _ => True := by
  refine h.seq fun x _ => ?_
  cases x with
  | ok u => exact .done trivial
  | error message => exact quiet_sentParams_exitWith message

theorem quiet_sentParams_printDiagnosticReason (reporter : Reporter) (events : List Json) :
    (printDiagnosticReason crates reporter events).Quiet sentParams fun _ => True := by
  induction events with
  | nil => exact .done trivial
  | cons event rest ih =>
    rw [printDiagnosticReason]
    cases (event.index "xdr").asStr with
    | none => exact ih
    | some encoded =>
      refine (quiet_sentParams_expect _ _).seq fun decoded _ => ?_
      dsimp only
      split
      · split_ifs
        · exact quiet_sentParams_line _ _
        · exact ih
      · exact ih

theorem quiet_sentParams_cmdCheck (rpc : RpcClient) (guard asset dest : Address) (amount : I128)
    (reporter : Reporter) :
    (cmdCheck crates rpc guard asset dest amount reporter).Quiet sentParams fun _ => True := by
  have hemit (report : RunReport) :
      (reporter.emit crates.toJsonCrate report).Quiet sentParams fun _ => True := by
    rw [Reporter.emit]
    split_ifs
    · exact quiet_sentParams_printLine _
    · exact .done trivial
  refine ((quiet_sentParams_post _ _ _ (by decide)).seq fun x _ =>
    quiet_sentParams_rpcOrExit _ x : (simulate crates.toJsonCrate rpc _).Quiet sentParams
      fun _ => True).seq fun sim _ => ?_
  dsimp only
  cases sim.get "error" with
  | some err =>
    refine (quiet_sentParams_line _ _).seq fun _ _ => (quiet_sentParams_line _ _).seq fun _ _ => ?_
    cases simulationEvents sim with
    | some events =>
      exact (quiet_sentParams_printDiagnosticReason _ events).seq fun _ _ => hemit _
    | none => exact hemit _
  | none =>
    refine (quiet_sentParams_line _ _).seq fun _ _ => ?_
    cases (sim.index "minResourceFee").asStr with
    | some fee => exact (quiet_sentParams_line _ _).seq fun _ _ => hemit _
    | none => exact hemit _

theorem quiet_sentParams_cmdPolicy (rpc : RpcClient) (guard : Address) (reporter : Reporter) :
    (cmdPolicy crates rpc guard reporter).Quiet sentParams fun _ => True := by
  have hprint (rendered : Option String) :
      (printPolicy crates reporter rendered).Quiet sentParams fun _ => True := by
    rw [printPolicy]
    split_ifs
    · exact quiet_sentParams_printLine _
    · exact quiet_sentParams_printLine _
  refine (quiet_sentParams_post _ _ _ (by decide)).seq fun x _ =>
    (quiet_sentParams_rpcOrExit _ x).seq fun res _ => ?_
  split
  · exact .done trivial
  · exact (hprint _).seq fun _ _ => .done trivial
  · split
    · exact .done trivial
    · refine (quiet_sentParams_expect _ _).seq fun entry _ => ?_
      split
      · exact (hprint _).seq fun _ _ => .done trivial
      · exact (hprint _).seq fun _ _ => .done trivial
      · exact .done trivial

theorem quiet_sentParams_decodeEntries (entries : List Json) :
    (decodeEntries crates entries).Quiet sentParams fun _ => True := by
  induction entries with
  | nil => exact .done trivial
  | cons entry rest ih =>
    rw [decodeEntries]
    cases (entry.index "xdr").asStr with
    | none => exact .done trivial
    | some encoded =>
      exact (quiet_sentParams_expect _ _).seq fun _ _ => ih.seq fun _ _ => .done trivial

theorem quiet_sentParams_printStatus (rpc : RpcClient) (guard : Address) :
    (printStatus crates rpc guard).Quiet sentParams fun _ => True := by
  refine (quiet_sentParams_post _ _ _ (by decide)).seq fun x _ =>
    (quiet_sentParams_rpcOrExit _ x).seq fun res _ => ?_
  split
  · exact .done trivial
  · refine (quiet_sentParams_decodeEntries _).seq fun decoded _ => ?_
    cases decoded with
    | error message => exact .done trivial
    | ok entries =>
      refine ((quiet_latestLedger _ _).coarsen Seen.sent? (sentParams_eq true)).seq
        fun latest _ => ?_
      iterate 7 refine (quiet_sentParams_printLine _).seq fun _ _ => ?_
      exact .done trivial

/-! ## The typed call -/

/-- **The call a command line types**, by its subcommand and its flags. -/
inductive TypedCall (flags : Flags) : String → Call → Prop
  | transfer {tokenValue destValue : String} {id : BitVec 256} {dest : Address} {amount : I128}
      (htoken : flags.token = some tokenValue) (hid : Names tokenValue (.contract id))
      (hdest : flags.dest = some destValue) (hnames : Names destValue dest)
      (hamount : flags.amount = some amount) :
      TypedCall flags "transfer" (.transfer (.contract id) dest amount)
  | transferFrom {tokenValue sourceValue destValue : String} {id : BitVec 256}
      {source dest : Address} {amount : I128}
      (htoken : flags.token = some tokenValue) (hid : Names tokenValue (.contract id))
      (hsource : flags.source = some sourceValue) (hsourceNames : Names sourceValue source)
      (hdest : flags.dest = some destValue) (hnames : Names destValue dest)
      (hamount : flags.amount = some amount) :
      TypedCall flags "transfer-from" (.transferFrom (.contract id) source dest amount)
  | heartbeat : TypedCall flags "heartbeat" .heartbeat

/-- **A submission as it was typed**: the call, authorized for the guard and signed by one key, over
the passphrase of the resolved endpoint. -/
structure TypedSubmission (crates : Crates) (cmd : String) (rest : List String)
    (env : TransactionEnvelope) (flags : Flags) (guard : Address) (call : Call) : Prop where
  read : parseFlags cmd {} rest = .ok flags
  expectBlocked : flags.expectBlocked = false
  guardNamed : ∀ value, flags.guard = some value → Names value guard
  typed : TypedCall flags cmd call
  authorized : ∃ endpoint seed nonce sigExp,
    resolveEndpoint flags.network flags.rpcUrl flags.passphrase = .ok endpoint ∧
    env.tx.sourceAccount = crates.verifyingKey seed ∧
    env.tx.operations = [invokeOp (call.invocation guard)
      [buildAuthEntry crates guard (call.invocation guard) nonce sigExp
        (crates.sha256 (utf8Bytes endpoint.passphrase)) seed]] ∧
    env = signEnvelope crates ⟨env.tx, []⟩ (crates.sha256 (utf8Bytes endpoint.passphrase)) seed

/-- The call of an accepted request is the typed one. -/
theorem Accepted.typedCall (hparse : ParsesStrKeys crates) {rest : List String} {flags : Flags}
    {request : Request} (h : Accepted crates cmd rest flags request) {call : Call}
    (hasks : request.Asks cmd (.submit call)) : TypedCall flags cmd call := by
  cases hasks with
  | heartbeat => exact .heartbeat
  | transfer htoken hdest hamount =>
    rcases parseSpend_ok hparse h.spend with ⟨-, hok⟩ | ⟨hspends, -⟩
    · obtain ⟨tokenValue, id, htoken', hid, hsome⟩ := hok.token
      obtain ⟨destValue, dest, hdest', hnames, hsome'⟩ := hok.dest
      obtain rfl := Option.some.inj (htoken.symm.trans hsome)
      obtain rfl := Option.some.inj (hdest.symm.trans hsome')
      exact .transfer htoken' hid hdest' hnames (h.amount.symm.trans hamount)
    · exact absurd hspends (by decide)
  | transferFrom htoken hsource hdest hamount =>
    rcases parseSpend_ok hparse h.spend with ⟨-, hok⟩ | ⟨hspends, -⟩
    · obtain ⟨tokenValue, id, htoken', hid, hsome⟩ := hok.token
      obtain ⟨destValue, dest, hdest', hnames, hsome'⟩ := hok.dest
      obtain rfl := Option.some.inj (htoken.symm.trans hsome)
      obtain rfl := Option.some.inj (hdest.symm.trans hsome')
      rcases parseSource_ok hparse hok.source with
        ⟨-, value, address, hvalue, hnames', hs⟩ | ⟨hne, -⟩
      · obtain rfl := Option.some.inj (hsource.symm.trans hs)
        exact .transferFrom htoken' hid hvalue hnames' hdest' hnames (h.amount.symm.trans hamount)
      · exact absurd rfl hne
    · exact absurd hspends (by decide)

/-- What is prepared for an accepted request is the typed submission. -/
theorem Accepted.typedSubmission (hparse : ParsesStrKeys crates) {rest : List String}
    {flags : Flags} {request : Request} (h : Accepted crates cmd rest flags request) {call : Call}
    (hasks : request.Asks cmd (.submit call)) {signing : Signing} {sim : Json}
    {env : TransactionEnvelope} (hexpect : request.args.expectBlocked = false)
    (hsigned : Signed crates call request.args signing)
    (hprepared : Prepared crates call request.args signing sim env) :
    TypedSubmission crates cmd rest env flags request.guard call := by
  obtain ⟨value, hgiven, hvalue⟩ := h.guard
  obtain ⟨stored, entropy, hinitial⟩ := hsigned.initial
  refine ⟨h.read, h.expectBlocked.symm.trans hexpect, fun v hv => ?_, h.typedCall hparse hasks,
    request.endpoint, signing.seed, authNonce signing.latest entropy,
    signing.latest.saturatingAdd 10000, h.endpoint, ?_, ?_, hprepared.signatures⟩
  · rw [← hgiven v hv]
    exact ((validateAddress_eq_ok_iff hparse (by simp)).mp hvalue).1
  · rw [hprepared.sourceAccount, hinitial]
    rfl
  · rw [hprepared.operations, hinitial]
    rfl

/-- What the command of a request submits. -/
theorem Command.shows_sentParams (request : Request) (command : Command) :
    (command.process crates request).Shows sentParams fun s _ => s = [] ∨
      ∃ call signing sim env, command = .submit call ∧ s = [txParams crates env] ∧
        request.args.expectBlocked = false ∧ Signed crates call request.args signing ∧
        Prepared crates call request.args signing sim env := by
  cases command with
  | status =>
    exact Session.Shows.mono (quiet_sentParams_orExit (quiet_sentParams_printStatus _ _))
      fun _ _ h => .inl h.1
  | policy =>
    exact Session.Shows.mono (quiet_sentParams_orExit (quiet_sentParams_cmdPolicy _ _ _))
      fun _ _ h => .inl h.1
  | check asset dest amount =>
    exact Session.Shows.mono (quiet_sentParams_cmdCheck _ _ _ _ _ _) fun _ _ h => .inl h.1
  | preflight call =>
    refine Session.Shows.bind ((quiet_sentParams_preflight call request.args).mono ?_)
    rintro s r rfl
    cases r with
    | error stop => exact .inl rfl
    | ok res => cases res <;> exact .halt (.inl rfl)
  | submit call =>
    refine Session.Shows.bind ((shows_sentParams_run call request.args).mono ?_)
    rintro s r (rfl | ⟨signing, sim, env, rfl, h⟩)
    · cases r with
      | error stop => exact .inl rfl
      | ok outcome => exact .halt (.inl rfl)
    · have hsubmits : ∃ call' signing sim env', Command.submit call = .submit call' ∧
          [txParams crates env] = [txParams crates env'] ∧ request.args.expectBlocked = false ∧
          Signed crates call' request.args signing ∧
          Prepared crates call' request.args signing sim env' :=
        ⟨call, signing, sim, env, rfl, rfl, h⟩
      cases r with
      | error stop => exact .inr hsubmits
      | ok outcome => exact .halt (.inr hsubmits)

/-- Without a request nothing is submitted. -/
theorem Offline.sentParams {t : Log} (h : Offline t) : t.filterMap sentParams = [] := by
  rw [Offline, List.filterMap_eq_nil_iff] at h
  refine List.filterMap_eq_nil_iff.mpr fun e he => ?_
  have := h e he
  obtain ⟨q, x⟩ := e
  cases q with
  | http url timeout method params => cases this
  | _ => rfl

/-- What a subcommand submits. -/
theorem submissions_of_runs (hparse : ParsesStrKeys crates) {rest : List String} {t : Log}
    {r : Except Stop Unit} (h : (runCommand crates cmd rest).Runs t r) :
    t.filterMap sentParams = [] ∨ ∃ env flags guard call,
      t.filterMap sentParams = [txParams crates env] ∧
        TypedSubmission crates cmd rest env flags guard call := by
  cases taken_of_runs hparse h with
  | refused hoffline => exact .inl hoffline.sentParams
  | @accepted flags request command t t' r hoffline haccepted hwf hasks hruns =>
    rw [List.filterMap_append, hoffline.sentParams, List.nil_append]
    rcases Command.shows_sentParams request command t' r hruns with
      hnone | ⟨call, signing, sim, env, rfl, hsent, hexpect, hsigned, hprepared⟩
    · exact .inl hnone
    · exact .inr ⟨env, flags, request.guard, call, hsent,
        haccepted.typedSubmission hparse hasks hexpect hsigned hprepared⟩

/-- **What is submitted is what was typed.**  In every run of a subcommand at most one transaction
is submitted; a command line that submits is a `transfer`, a `transfer-from` or a `heartbeat`
without `--expect-blocked`, and the transaction calls just what its flags name, with the
authorization of the guard they name, over the passphrase of the endpoint they resolve to, signed
with the one key that authorizes it. -/
theorem command_submits_typed (hparse : ParsesStrKeys crates) {rest : List String} {t : Log}
    {r : Except Stop Unit} (h : (runCommand crates cmd rest).Runs t r) :
    (t.filterMap sentParams).length ≤ 1 ∧ ∀ params ∈ t.filterMap sentParams,
      ∃ env flags guard call, params = txParams crates env ∧
        TypedSubmission crates cmd rest env flags guard call := by
  rcases submissions_of_runs hparse h with hnone | ⟨env, flags, guard, call, hsent, htyped⟩
  · simp [hnone]
  · rw [hsent]
    refine ⟨le_refl 1, fun params hparams => ?_⟩
    obtain rfl := List.mem_singleton.mp hparams
    exact ⟨env, flags, guard, call, rfl, htyped⟩

end

namespace Sample

/-- A transfer of 5. -/
def transferred : Log × Except Stop Unit :=
  Session.play endpoint [] (runCommand parsing "transfer" transferFlags)

/-- The typed transfer is submitted. -/
theorem transfer_typed : (transferred.1.filterMap sentParams).length = 1 ∧
    ∃ env flags guard call,
      TypedSubmission parsing "transfer" transferFlags env flags guard call := by
  have hlength : (transferred.1.filterMap sentParams).length = 1 := by decide +kernel
  obtain ⟨-, hall⟩ := command_submits_typed parsing_parsesStrKeys
    (Session.play_runs endpoint (runCommand parsing "transfer" transferFlags) [])
  obtain ⟨params, hparams⟩ := List.length_eq_one_iff.mp hlength
  obtain ⟨env, flags, guard, call, -, htyped⟩ := hall params (by
    rw [transferred] at hparams
    rw [hparams]
    exact List.mem_singleton.mpr rfl)
  exact ⟨hlength, env, flags, guard, call, htyped⟩

end Sample

end AgentGuard.AgentTx
