import AgentGuard.Contract.Deny

/-!
# Contract/Preflight — the pre-flight reads agree with enforcement

`check`, `check_detailed` and `check_batch` rebuild the contexts themselves and prune in other
places than `__check_auth` does.  They agree with it all the same: pruning twice is pruning once,
and the sender of a transfer is never read.
-/

namespace AgentGuard

open Machinery

/-! ## Verdicts -/

theorem firstError_eq_none_iff {verdicts : List Decision} :
    firstError verdicts = none ↔ verdicts.all Decision.isAllowed = true := by
  induction verdicts with
  | nil => simp [firstError]
  | cons verdict verdicts ih =>
    cases verdict with
    | allowed => simpa [firstError, Decision.isAllowed] using ih
    | blocked e => simp [firstError, Decision.isAllowed]

/-- The reason of the first blocked entry of a pre-flight answer. -/
def firstReason : List CheckResult → Option Symbol
  | [] => none
  | .allowed :: rest => firstReason rest
  | .blocked reason :: _ => some reason

theorem firstReason_map (verdicts : List Decision) :
    firstReason (verdicts.map Decision.toCheckResult) = (firstError verdicts).map Error.reason := by
  induction verdicts with
  | nil => rfl
  | cons verdict verdicts ih =>
    cases verdict with
    | allowed => exact ih
    | blocked e => rfl

/-- `__check_auth` returns `Err(e)`. -/
def Refuses (env : Env) (s : State) (signaturePayload signature : List UInt8)
    (contexts : List Context) (e : Error) : Prop :=
  ∃ outcome, checkAuth env s signaturePayload signature contexts = .ok outcome ∧
    outcome.result = .error e

section

variable {env : Env} {s : State} {signaturePayload signature : List UInt8} {agent : Bytes32}
  {cfg : PolicyConfig} {contexts : List Context}

/-- **With a policy, the answer of `__check_auth` is the first blocking verdict.** -/
theorem refuses_iff (hkey : s.agentPubkey = some agent)
    (hsig : env.host.ed25519Verify agent signaturePayload signature = true)
    (hcfg : s.policy = some cfg) (e : Error) :
    Refuses env s signaturePayload signature contexts e
      ↔ firstError (authDecision env s contexts).1 = some e := by
  rw [Refuses, checkAuth_eq hkey hsig hcfg]
  cases hfirst : firstError (authDecision env s contexts).1 with
  | none =>
    rw [if_pos (firstError_eq_none_iff.mp hfirst)]
    simp
  | some e' =>
    have hblocked : ¬(authDecision env s contexts).1.all Decision.isAllowed = true := fun hall => by
      simp [firstError_eq_none_iff.mpr hall] at hfirst
    rw [if_neg hblocked]
    simp

theorem approves_iff_firstError (hkey : s.agentPubkey = some agent)
    (hsig : env.host.ed25519Verify agent signaturePayload signature = true)
    (hcfg : s.policy = some cfg) :
    Approves env s signaturePayload signature contexts
      ↔ firstError (authDecision env s contexts).1 = none := by
  rw [approves_iff_grants hkey hsig, firstError_eq_none_iff]
  exact ⟨fun ⟨_, hgrants⟩ => hgrants.allowed, fun hall => ⟨cfg, hcfg, hall⟩⟩

/-- Without a policy every request is refused, an empty one too. -/
theorem checkAuth_noPolicy (hkey : s.agentPubkey = some agent)
    (hsig : env.host.ed25519Verify agent signaturePayload signature = true)
    (hcfg : s.policy = none) (contexts : List Context) :
    ¬Approves env s signaturePayload signature contexts ∧
      ∀ e, Refuses env s signaturePayload signature contexts e ↔ e = .noPolicy := by
  have hcheck : checkAuth env s signaturePayload signature contexts
      = .ok ⟨.error .noPolicy, s, emitBlocked s .noPolicy contexts⟩ := by
    simp [checkAuth, hkey, hsig, AuthSnapshot.load, hcfg]
  refine ⟨?_, fun e => ⟨?_, fun he => ⟨_, hcheck, by rw [he]⟩⟩⟩
  · rintro ⟨outcome, hout, hok⟩
    obtain rfl := Except.ok.inj (hcheck.symm.trans hout)
    simp at hok
  · rintro ⟨outcome, hout, herr⟩
    obtain rfl := Except.ok.inj (hcheck.symm.trans hout)
    exact (Except.error.inj herr).symm

end

/-! ## The ledger and the contexts of a read -/

section

variable {l : Ledger} {t now : U64}

/-- **An earlier prune is absorbed by a later one.** -/
theorem Ledger.Rep.prune_prune (h : l.Rep t) {now now' : U64} (hnow : now.val ≤ now'.val)
    (windowSecs : U64) :
    (l.prune now windowSecs).prune now' windowSecs = l.prune now' windowSecs := by
  have hpruned := h.prune now windowSecs
  have hmono := horizon_mono hnow windowSecs
  have hsingle : ((l.prune now windowSecs).prune now' windowSecs).single
      = (l.prune now' windowSecs).single := by
    rw [hpruned.single_prune, h.single_prune, h.single_prune,
      Rolling.keepAfter_keepAfter h.single.ordered.positive hmono]
  have hcalls : ((l.prune now windowSecs).prune now' windowSecs).calls
      = (l.prune now' windowSecs).calls := by
    rw [hpruned.calls_prune, h.calls_prune, h.calls_prune,
      Rolling.keepAfter_keepAfter h.calls.positive hmono]
  have hrecipients : ((l.prune now windowSecs).prune now' windowSecs).recipients
      = (l.prune now' windowSecs).recipients := by
    rw [hpruned.recipients_prune, h.recipients_prune, h.recipients_prune, List.map_map]
    refine List.map_congr_left fun r hr => ?_
    have htwice := Rolling.keepAfter_keepAfter (h.recipients r hr).ordered.positive hmono
    exact congrArg (RecipientLedger.withSingle r) htwice
  have htotal := congrArg Rolling.total hsingle
  have hentries := congrArg Rolling.entries hsingle
  have hcount := congrArg Rolling.total hcalls
  have hcallEntries := congrArg Rolling.entries hcalls
  exact Ledger.mk.injEq .. ▸ ⟨htotal, hentries, hrecipients, hcallEntries, hcount, rfl⟩

/-- A read's own prune is absorbed by the one of the engine. -/
theorem pruneFor_pruneForRead (h : l.Rep t) (cfg : PolicyConfig) (now : U64) :
    pruneFor cfg (pruneForRead cfg l now) now = pruneFor cfg l now := by
  rw [pruneForRead]
  split_ifs with hread
  · have hlimits : limitsWindow cfg = true := by
      simp only [limitsSpend, limitsWindow, decide_eq_true_eq] at hread ⊢
      exact hread.imp_right .inl
    rw [pruneFor, pruneFor, if_pos hlimits, if_pos hlimits, h.prune_prune le_rfl]
  · rfl

/-- The loop reads a context only through its parse. -/
theorem evalContexts_congr {self : Address} {cfg : PolicyConfig} :
    ∀ {contexts contexts' : List Context} {st : Staging},
      parseAll self cfg contexts = parseAll self cfg contexts' →
        evalContexts self cfg l now st contexts = evalContexts self cfg l now st contexts'
  | [], [], _, _ => rfl
  | [], _ :: _, _, h => by simp [parseAll] at h
  | _ :: _, [], _, h => by simp [parseAll] at h
  | ctx :: contexts, ctx' :: contexts', st, h => by
    rw [parseAll, parseAll, List.map_cons, List.map_cons, List.cons.injEq] at h
    rw [evalContexts, evalContexts, h.1]
    dsimp only
    rw [evalContexts_congr h.2]

/-- **Verdicts depend on the pruned ledger and the parsed calls only.** -/
theorem decideContexts_congr {self : Address} {policy : Option PolicyConfig} {state : AccountState}
    {l' : Ledger} {contexts contexts' : List Context}
    (hledger : ∀ cfg, policy = some cfg → pruneFor cfg l now = pruneFor cfg l' now)
    (hparse : ∀ cfg, parseAll self cfg contexts = parseAll self cfg contexts')
    (hlen : contexts.length = contexts'.length) :
    (decideContexts self policy state l now contexts).1
      = (decideContexts self policy state l' now contexts').1 := by
  have hblock : ∀ e, blockAll contexts e = blockAll contexts' e := fun e => by
    rw [blockAll, blockAll, List.map_const', List.map_const', hlen]
  unfold decideContexts
  rw [hlen]
  split_ifs
  · rfl
  · exact hblock _
  · cases policy with
    | none => exact hblock _
    | some cfg =>
      dsimp only
      cases accountError cfg state now with
      | some e => exact hblock e
      | none =>
        dsimp only
        rw [hledger cfg rfl, evalContexts_congr (hparse cfg)]

theorem length_evalContexts (self : Address) (cfg : PolicyConfig) (contexts : List Context) :
    ∀ st : Staging, (evalContexts self cfg l now st contexts).1.length = contexts.length := by
  induction contexts with
  | nil => exact fun st => rfl
  | cons ctx contexts ih => exact fun st => congrArg (· + 1) (ih _)

/-- Every context gets its verdict. -/
theorem length_decideContexts {self : Address} {policy : Option PolicyConfig}
    {state : AccountState} {contexts : List Context} (hlen : contexts.length ≤ maxAuthContexts) :
    (decideContexts self policy state l now contexts).1.length = contexts.length := by
  cases hopen : openPolicy policy state now with
  | none =>
    obtain ⟨e, he⟩ := decideContexts_closed self hlen hopen
    rw [he, blockAll, List.length_map]
  | some cfg =>
    rw [decideContexts_open hlen hopen]
    dsimp only
    split_ifs <;> exact length_evalContexts self cfg contexts _

/-- A SAC `transfer` call with any sender. -/
def transferCall (asset : Address) (sender : Val) (dest : Address) (amount : I128) : Context :=
  .contract ⟨asset, "transfer", [sender, .address dest, .i128 amount]⟩

/-- The contexts of a payment run, whoever the senders are. -/
def Corresponds (asset : Address) : List BatchTransfer → List Context → Prop :=
  List.Forall₂ fun transfer ctx =>
    ∃ sender, ctx = transferCall asset sender transfer.dest transfer.amount

/-- **The sender is never read.** -/
theorem parseCall_transferCall (self asset : Address) (sender : Val) (dest : Address)
    (amount : I128) (cfg : PolicyConfig) :
    parseCall self (transferCall asset sender dest amount) cfg
      = parseCall self (transferContext asset dest amount) cfg := rfl

theorem Corresponds.parseAll {asset : Address} {transfers : List BatchTransfer}
    {contexts : List Context} (h : Corresponds asset transfers contexts) (self : Address)
    (cfg : PolicyConfig) :
    parseAll self cfg (transfers.map fun t => transferContext asset t.dest t.amount)
      = AgentGuard.parseAll self cfg contexts := by
  induction h with
  | nil => rfl
  | cons hctx _ ih =>
    obtain ⟨sender, rfl⟩ := hctx
    exact congrArg₂ List.cons (parseCall_transferCall self asset sender _ _ cfg).symm ih

end

/-! ## Agreement -/

section

variable {env : Env} {s : State} {t : U64} {signaturePayload signature : List UInt8}
  {agent : Bytes32}

/-- **`check_detailed` is the verdict of the engine on one transfer**, with the caps beside it. -/
theorem checkDetailed_eq (hinv : s.Inv env.host env.timestamp) {cfg : PolicyConfig}
    (hcfg : s.policy = some cfg) (asset dest : Address) (amount : I128) (sender : Val) :
    ∃ verdict events,
      (authDecision env s [transferCall asset sender dest amount]).1 = [verdict] ∧
      checkDetailed env s asset dest amount
        = .ok (⟨verdict.toCheckResult,
          (capMetrics cfg (pruneForRead cfg s.loadWindow.1 env.timestamp) dest).1,
          (capMetrics cfg (pruneForRead cfg s.loadWindow.1 env.timestamp) dest).2.1,
          effectivePerTxCap cfg asset,
          (capMetrics cfg (pruneForRead cfg s.loadWindow.1 env.timestamp) dest).2.2⟩, events) := by
  have hsame : (decideContexts env.host.self (some cfg) ⟨s.frozenOrFalse, s.heartbeatOrZero⟩
        (pruneForRead cfg s.loadWindow.1 env.timestamp) env.timestamp
        [transferContext asset dest amount]).1
      = (authDecision env s [transferCall asset sender dest amount]).1 := by
    rw [authDecision, hcfg]
    refine decideContexts_congr (fun cfg' hcfg' => ?_) (fun cfg' => rfl) rfl
    obtain rfl := Option.some.inj hcfg'
    exact pruneFor_pruneForRead hinv.ledger cfg env.timestamp
  obtain ⟨verdict, hverdict⟩ :
      ∃ v, (authDecision env s [transferCall asset sender dest amount]).1 = [v] :=
    List.length_eq_one_iff.mp (length_decideContexts (by simp [maxAuthContexts]))
  simp only [checkDetailed, AuthSnapshot.load, hcfg, Option.map_some, AuthSnapshot.accountState,
    hsame, hverdict]
  exact ⟨verdict, _, rfl, rfl⟩

/-- One transfer. -/
theorem checkDetailed_agrees (hinv : s.Inv env.host env.timestamp)
    (hkey : s.agentPubkey = some agent)
    (hsig : env.host.ed25519Verify agent signaturePayload signature = true)
    (asset dest : Address) (amount : I128) (sender : Val) :
    ∃ detail events, checkDetailed env s asset dest amount = .ok (detail, events) ∧
      check env s asset dest amount = .ok (detail.result, events) ∧
      (detail.result = .allowed ↔
        Approves env s signaturePayload signature [transferCall asset sender dest amount]) ∧
      ∀ reason, detail.result = .blocked reason ↔
        ∃ e, Refuses env s signaturePayload signature [transferCall asset sender dest amount] e ∧
          e.reason = reason := by
  cases hcfg : s.policy with
  | none =>
    obtain ⟨hno, hrefuses⟩ := checkAuth_noPolicy hkey hsig hcfg
      [transferCall asset sender dest amount]
    have hdetailed : checkDetailed env s asset dest amount
        = .ok (⟨.blocked Error.noPolicy.reason, none, none, none, none⟩,
          [emitAuth s false (some .noPolicy) (some (transferContext asset dest amount)) 0]) := by
      simp [checkDetailed, AuthSnapshot.load, hcfg]
    refine ⟨_, _, hdetailed, by rw [check, hdetailed]; rfl, ⟨by simp, fun h => absurd h hno⟩,
      fun reason => ?_⟩
    simp [hrefuses]
  | some cfg =>
    obtain ⟨verdict, events, hverdict, hdetailed⟩ :=
      checkDetailed_eq hinv hcfg asset dest amount sender
    refine ⟨_, events, hdetailed, by rw [check, hdetailed]; rfl, ?_, fun reason => ?_⟩
    · rw [approves_iff_firstError hkey hsig hcfg, hverdict]
      cases verdict <;> simp [Decision.toCheckResult, firstError]
    · simp only [refuses_iff hkey hsig hcfg, hverdict]
      cases verdict <;> simp [Decision.toCheckResult, firstError]

/-- A payment run. -/
theorem checkBatch_agrees (hkey : s.agentPubkey = some agent)
    (hsig : env.host.ed25519Verify agent signaturePayload signature = true) {asset : Address}
    {transfers : List BatchTransfer} {contexts : List Context}
    (h : Corresponds asset transfers contexts) :
    ((checkBatch env s asset transfers).1.admissible = true ↔
        Approves env s signaturePayload signature contexts) ∧
      (∀ e, Refuses env s signaturePayload signature contexts e →
        firstReason (checkBatch env s asset transfers).1.verdicts = some e.reason ∨
          transfers = [] ∧ s.policy = none ∧ e = .noPolicy) ∧
      (maxAuthContexts < transfers.length → s.policy.isSome →
        (checkBatch env s asset transfers).1.verdicts
          = [.blocked Error.tooManyAuthContexts.reason]) ∧
      (s.policy = none → (checkBatch env s asset transfers).1.verdicts
        = transfers.map fun _ => .blocked Error.noPolicy.reason) := by
  cases hcfg : s.policy with
  | none =>
    obtain ⟨hno, hrefuses⟩ := checkAuth_noPolicy hkey hsig hcfg contexts
    have hbatch : (checkBatch env s asset transfers).1
        = ⟨transfers.map fun _ => .blocked Error.noPolicy.reason, false⟩ := by
      simp [checkBatch, AuthSnapshot.load, hcfg, Function.comp_def]
    rw [hbatch]
    refine ⟨⟨by simp, fun h => absurd h hno⟩, fun e he => ?_, by simp, fun _ => rfl⟩
    obtain rfl := (hrefuses e).mp he
    cases transfers with
    | nil => exact .inr ⟨rfl, rfl, rfl⟩
    | cons transfer transfers => exact .inl rfl
  | some cfg =>
    have hlen : (transfers.map fun t => transferContext asset t.dest t.amount).length
        = contexts.length := (List.length_map ..).trans h.length_eq
    have hsame : (decideContexts env.host.self (some cfg) ⟨s.frozenOrFalse, s.heartbeatOrZero⟩
          s.loadWindow.1 env.timestamp
          (transfers.map fun t => transferContext asset t.dest t.amount)).1
        = (authDecision env s contexts).1 := by
      rw [authDecision, hcfg]
      exact decideContexts_congr (fun _ _ => rfl) (fun cfg' => h.parseAll env.host.self cfg') hlen
    have hbatch : (checkBatch env s asset transfers).1
        = ⟨(authDecision env s contexts).1.map Decision.toCheckResult,
          (authDecision env s contexts).1.all Decision.isAllowed⟩ := by
      simp only [checkBatch, AuthSnapshot.load, hcfg, Option.map_some, AuthSnapshot.accountState,
        hsame]
    rw [hbatch]
    refine ⟨?_, fun e he => .inl ?_, fun hlong _ => ?_, by simp⟩
    · rw [approves_iff_firstError hkey hsig hcfg, firstError_eq_none_iff]
    · rw [firstReason_map, (refuses_iff hkey hsig hcfg e).mp he]
      rfl
    · have hlong' : contexts.length > maxAuthContexts := h.length_eq ▸ hlong
      rw [authDecision, decideContexts_oversized _ _ _ _ _ hlong']
      rfl

/-- **Pre-flight agrees with enforcement.**  In every reachable, initialized state: `check` and
`check_detailed` say what `__check_auth` would; `check_batch` admits what it would approve, and its
first blocked entry names the error it would return — only an empty run without a policy is refused
with no entry to say so, since without one every transfer gets a `no_policy` of its own, where a
policy answers a run that is too long once; and none of the three changes the storage. -/
theorem preflight_agrees (hreach : Reachable env.host t s) (ht : t.val ≤ env.timestamp.val)
    (hkey : s.agentPubkey = some agent)
    (hsig : env.host.ed25519Verify agent signaturePayload signature = true) :
    (∀ asset dest amount sender,
      ∃ detail events, checkDetailed env s asset dest amount = .ok (detail, events) ∧
        check env s asset dest amount = .ok (detail.result, events) ∧
        (detail.result = .allowed ↔
          Approves env s signaturePayload signature [transferCall asset sender dest amount]) ∧
        ∀ reason, detail.result = .blocked reason ↔
          ∃ e, Refuses env s signaturePayload signature [transferCall asset sender dest amount] e ∧
            e.reason = reason) ∧
      (∀ asset transfers contexts, Corresponds asset transfers contexts →
        ((checkBatch env s asset transfers).1.admissible = true ↔
            Approves env s signaturePayload signature contexts) ∧
          (∀ e, Refuses env s signaturePayload signature contexts e →
            firstReason (checkBatch env s asset transfers).1.verdicts = some e.reason ∨
              transfers = [] ∧ s.policy = none ∧ e = .noPolicy) ∧
          (maxAuthContexts < transfers.length → s.policy.isSome →
            (checkBatch env s asset transfers).1.verdicts
              = [.blocked Error.tooManyAuthContexts.reason]) ∧
          (s.policy = none → (checkBatch env s asset transfers).1.verdicts
            = transfers.map fun _ => .blocked Error.noPolicy.reason)) ∧
      ∀ authorized asset dest amount transfers,
        step env.host s ⟨env.timestamp, authorized, .check asset dest amount⟩ = s ∧
          step env.host s ⟨env.timestamp, authorized, .checkDetailed asset dest amount⟩ = s ∧
          step env.host s ⟨env.timestamp, authorized, .checkBatch asset transfers⟩ = s := by
  have hinv := hreach.inv.mono ht
  refine ⟨checkDetailed_agrees hinv hkey hsig,
    fun asset transfers contexts h => checkBatch_agrees hkey hsig h,
    fun authorized asset dest amount transfers => ⟨?_, ?_, rfl⟩⟩
  · simp only [step, Action.effect]
    cases check _ s asset dest amount <;> rfl
  · simp only [step, Action.effect]
    cases checkDetailed _ s asset dest amount <;> rfl

end

namespace Sample

/-- **An empty run without a policy** is refused with `NoPolicy`, and no verdict names it; and
without a policy a run of `65` gets a verdict each, not one aggregate. -/
theorem no_policy_batches :
    Reachable host 1 fresh ∧
      Refuses ((auth 5 []).env host) fresh [] [] [] .noPolicy ∧
      firstReason (checkBatch ((auth 5 []).env host) fresh asset []).1.verdicts = none ∧
      (checkBatch ((auth 5 []).env host) fresh asset
        (List.replicate 65 ⟨payee, 1⟩)).1.verdicts.length = 65 :=
  ⟨reachable_fresh, ⟨_, by rfl, by rfl⟩, by rfl, by rfl⟩

/-- With `20` of `50` spent, `check` allows `30` more, whoever the sender. -/
theorem spent_check :
    (checkBatch ((auth 120 []).env host) spent asset [⟨payee, 10⟩, ⟨payee, 20⟩]).1.admissible
        = true ∧
      ∀ sender,
        Approves ((auth 120 []).env host) spent [] [] [transferCall asset sender payee 30] := by
  refine ⟨by decide, fun sender => ?_⟩
  obtain ⟨detail, events, hdetailed, -, hallowed, -⟩ :=
    (preflight_agrees (t := 110) reachable_spent (show (110 : U64).val ≤ (120 : U64).val by decide)
      (show spent.agentPubkey = some _ from rfl)
      (show ((auth 120 []).env host).host.ed25519Verify _ [] [] = true by rfl)).1
      asset payee 30 sender
  refine hallowed.mp ?_
  have hsome : checkDetailed ((auth 120 []).env host) spent asset payee 30
      = .ok (⟨.allowed, some 30, none, none, some 50⟩,
        [emitAuth spent true none (some (pay 30)) 0]) := by rfl
  obtain ⟨rfl, -⟩ := Prod.mk.inj (Except.ok.inj (hsome.symm.trans hdetailed))
  rfl

end Sample

end AgentGuard
