import AgentGuard.Contract.Preflight
import Mathlib.Data.List.Nodup

/-!
# Contract/Verdicts — the verdict of a single context

`decide` answers for every context.  A closed gate answers for all of them with one error; past the
gates a context is held to its own rules, and a transfer that passes them is blocked exactly when
it exceeds a rolling cap (`Exceeds`) on top of what passed before it in the same request.
-/

namespace AgentGuard

open Machinery

/-! ## Reasons -/

/-- Every contract error. -/
def Error.all : List Error :=
  [.unauthorized, .alreadyInitialized, .notInitialized, .invalidConfig, .invalidAmount,
    .noPendingAdmin, .adminFrozen, .heartbeatExpired, .noPolicy, .paused, .outsideActiveWindow,
    .assetNotAllowed, .recipientNotAllowed, .perTxCapExceeded, .windowCapExceeded,
    .protocolNotAllowed, .functionNotAllowed, .assetFnNotAllowed, .unknownContract,
    .selfFunctionNotAllowed, .createContractNotAllowed, .recipientBlocked,
    .protocolCallRateExceeded, .decisionInvariantViolation, .tooManyAuthContexts]

/-- **A reason names its error.** -/
theorem Error.reason_injective : Function.Injective Error.reason := by
  have hnodup : (Error.all.map Error.reason).Nodup := by decide
  intro a b h
  exact List.inj_on_of_nodup_map hnodup (by cases a <;> decide) (by cases b <;> decide) h

/-- A reported reason is the reason of the verdict. -/
theorem toCheckResult_eq_blocked_iff {verdict : Decision} {e : Error} :
    verdict.toCheckResult = .blocked e.reason ↔ verdict = .blocked e := by
  cases verdict with
  | allowed => simp [Decision.toCheckResult]
  | blocked e' => simp [Decision.toCheckResult, Error.reason_injective.eq_iff]

/-! ## Gates -/

/-- The errors that answer for a whole request. -/
def Error.IsGate : Error → Prop
  | .tooManyAuthContexts | .adminFrozen | .noPolicy | .heartbeatExpired | .paused
  | .outsideActiveWindow => True
  | _ => False

/-- The account gate a request meets first, if one is closed. -/
def gateError (cfg : PolicyConfig) (state : AccountState) (now : U64) : Option Error :=
  if state.adminFrozen then some .adminFrozen else accountError cfg state now

section

variable {self : Address} {cfg : PolicyConfig} {state : AccountState} {l : Ledger} {now t : U64}
  {contexts : List Context} {st : Staging}

theorem isGate_of_gateError {e : Error} (h : gateError cfg state now = some e) : e.IsGate := by
  rw [gateError, accountError] at h
  split_ifs at h
  all_goals
    obtain rfl := Option.some.inj h
    trivial

theorem openPolicy_of_gateError (h : gateError cfg state now = none) :
    openPolicy (some cfg) state now = some cfg := by
  rw [gateError] at h
  split_ifs at h with hf
  exact openPolicy_eq_some_iff.mpr ⟨rfl, by simpa using hf, h⟩

/-- **The verdicts of a request**: the closed gate's error for every context, or the loop's. -/
theorem verdicts_eq (hlen : contexts.length ≤ maxAuthContexts) :
    (decideContexts self (some cfg) state l now contexts).1
      = match gateError cfg state now with
        | some e => blockAll contexts e
        | none =>
          (evalContexts self cfg (pruneFor cfg l now) now Staging.empty contexts).1 := by
  cases hgate : gateError cfg state now with
  | none =>
    rw [decideContexts_open hlen (openPolicy_of_gateError hgate)]
    dsimp only
    split_ifs <;> rfl
  | some e =>
    rw [gateError] at hgate
    unfold decideContexts
    rw [if_neg (not_lt.mpr hlen)]
    split_ifs at hgate ⊢
    · rw [← Option.some.inj hgate]
    · simp only [hgate]

end

/-! ## One call -/

section

variable {cfg : PolicyConfig} {l : Ledger} {now : U64} {st : Staging} {asset dest : Address}
  {amount : I128} {calls : List ParsedCall}

/-- **A transfer that breaks a rule of its own** is blocked for it, and stages nothing. -/
theorem evalTransfer_of_not_permitted (l : Ledger) (now : U64) (st : Staging)
    (h : ¬Permitted cfg (.assetTransfer asset dest amount)) :
    ∃ e, evalTransfer cfg l now st asset dest amount = (.blocked e, st) ∧ ¬e.IsGate ∧
      e ≠ .windowCapExceeded := by
  obtain ⟨e, hmem, he⟩ := evalTransfer_refused l now st h
  refine ⟨e, he, ?_⟩
  simp only [transferErrors, List.mem_cons, List.not_mem_nil, or_false] at hmem
  rcases hmem with rfl | rfl | rfl | rfl | rfl <;> simp [Error.IsGate]

theorem evalWindow_blocked (h : (evalWindow cfg l now st dest amount).1 ≠ .allowed) :
    evalWindow cfg l now st dest amount = (.blocked .windowCapExceeded, st) := by
  rw [evalWindow] at h ⊢
  dsimp only at h ⊢
  split_ifs at h ⊢ <;> first | rfl | exact absurd rfl h

/-- **A refused call stages nothing**; it is never refused for a gate's reason, and for the window's
only as a transfer that kept its own rules. -/
theorem evalCall_of_not_allowed {c : ParsedCall} (h : (evalCall cfg l now st c).1 ≠ .allowed) :
    ∃ e, evalCall cfg l now st c = (.blocked e, st) ∧ ¬e.IsGate ∧
      (e = .windowCapExceeded →
        ∃ asset dest amount, c = .assetTransfer asset dest amount ∧ Permitted cfg c) := by
  cases c with
  | selfCall fname =>
    rw [evalCall] at h ⊢
    split_ifs at h ⊢
    · exact absurd rfl h
    · exact ⟨_, rfl, by simp [Error.IsGate], by simp⟩
  | createContract => exact ⟨_, rfl, by simp [Error.IsGate], by simp⟩
  | unknown contract fname => exact ⟨_, rfl, by simp [Error.IsGate], by simp⟩
  | assetOther asset fname =>
    rw [evalCall]
    split_ifs <;> exact ⟨_, rfl, by simp [Error.IsGate], by simp⟩
  | assetTransfer asset dest amount =>
    rw [evalCall] at h ⊢
    by_cases hp : Permitted cfg (.assetTransfer asset dest amount)
    · rw [evalTransfer_of_permitted hp] at h ⊢
      exact ⟨_, evalWindow_blocked h, by simp [Error.IsGate],
        fun _ => ⟨asset, dest, amount, rfl, hp⟩⟩
    · obtain ⟨e, he, hgate, hne⟩ := evalTransfer_of_not_permitted l now st hp
      exact ⟨e, he, hgate, fun heq => absurd heq hne⟩
  | protocol contract fname =>
    rw [evalCall, evalProtocol] at h ⊢
    cases hrule : cfg.protocols.find? fun rule => rule.contract = contract with
    | none => exact ⟨_, rfl, by simp [Error.IsGate], by simp⟩
    | some rule =>
      simp only [hrule] at h ⊢
      split_ifs at h ⊢
      · exact ⟨_, rfl, by simp [Error.IsGate], by simp⟩
      · exact ⟨_, rfl, by simp [Error.IsGate], by simp⟩
      · exact ⟨_, rfl, by simp [Error.IsGate], by simp⟩
      · exact absurd rfl h
      · exact absurd rfl h

/-- **The transfer exceeds a rolling cap**, on top of the ledger and of `calls`. -/
def Exceeds (cfg : PolicyConfig) (l : Ledger) (calls : List ParsedCall) (dest : Address)
    (amount : I128) : Prop :=
  (0 < cfg.windowCap.val ∧
      cfg.windowCap.val < l.total.val + globalDemand cfg calls + amount.val) ∨
    ∃ cap, recipientOverrideCap cfg dest = some cap ∧
      cap.val < (l.meter dest).total.val + recipientDemand cfg dest calls + amount.val

theorem exceeds_iff (hst : Staged cfg now calls st) :
    Exceeds cfg l calls dest amount ↔ ¬WindowRoom cfg l st dest amount := by
  rw [Exceeds, WindowRoom, hst.pending, hst.staged, not_and_or]
  simp only [not_forall, not_le, exists_prop]

open Classical in
/-- **The verdict of a permitted transfer.** -/
theorem evalTransfer_verdict (hst : Staged cfg now calls st)
    (hperm : ∀ c ∈ calls, Permitted cfg c)
    (h : Permitted cfg (.assetTransfer asset dest amount)) :
    (evalTransfer cfg l now st asset dest amount).1
      = if Exceeds cfg l calls dest amount then .blocked .windowCapExceeded else .allowed := by
  have hgn : 0 ≤ st.pending.val := hst.pending ▸ globalDemand_nonneg hperm
  have hrn : 0 ≤ (amountOf st.pendingRecipients st.pendingRecipientAmounts dest).val :=
    hst.staged dest ▸ recipientDemand_nonneg hperm dest
  rw [evalTransfer_of_permitted h, evalWindow_eq hgn hst.parallel hrn h.2.1.le]
  by_cases hroom : WindowRoom cfg l st dest amount
  · rw [if_pos hroom, if_neg fun hx => (exceeds_iff hst).mp hx hroom]
  · rw [if_neg hroom, if_pos ((exceeds_iff hst).mpr hroom)]

end

/-! ## One context among others -/

/-- The calls before the `i`-th that were allowed. -/
def allowedBefore (calls : List ParsedCall) (verdicts : List Decision) (i : ℕ) :
    List ParsedCall :=
  (((calls.zip verdicts).take i).filter fun cv => cv.2.isAllowed).map Prod.fst

theorem allowedBefore_succ (c : ParsedCall) (calls : List ParsedCall) (verdict : Decision)
    (verdicts : List Decision) (i : ℕ) :
    allowedBefore (c :: calls) (verdict :: verdicts) (i + 1)
      = (if verdict.isAllowed then [c] else []) ++ allowedBefore calls verdicts i := by
  by_cases h : verdict.isAllowed = true <;> simp [allowedBefore, h]

section

variable {cfg : PolicyConfig} {l : Ledger} {now : U64}

/-- **The verdict of a context depends on the allowed ones before it**: what is staged when the loop
gets there is what they ask for. -/
theorem evalContexts_getElem? (self : Address) (contexts : List Context) :
    ∀ {calls : List ParsedCall} {st : Staging}, Staged cfg now calls st →
      (∀ c ∈ calls, Permitted cfg c) → Fits cfg l calls → 0 ≤ l.total.val →
      (∀ r, 0 ≤ (l.meter r).total.val) →
      ∀ (i : ℕ) (ctx : Context), contexts[i]? = some ctx →
      let verdicts := (evalContexts self cfg l now st contexts).1
      let before := calls ++ allowedBefore (parseAll self cfg contexts) verdicts i
      ∃ st', Staged cfg now before st' ∧ (∀ c ∈ before, Permitted cfg c) ∧
        verdicts[i]? = some (evalCall cfg l now st' (parseCall self ctx cfg)).1 := by
  induction contexts with
  | nil => simp
  | cons ctx contexts ih =>
    intro calls st hst hperm hfits hl hm i ctx' hi
    cases i with
    | zero =>
      obtain rfl : ctx = ctx' := by simpa using hi
      exact ⟨st, by simpa [allowedBefore] using hst, by simpa [allowedBefore] using hperm, rfl⟩
    | succ i =>
      have hi' : contexts[i]? = some ctx' := by simpa using hi
      have hspec := evalCall_spec hst hperm hfits hl hm (parseCall self ctx cfg)
      simp only [evalContexts, parseAll, List.map_cons, allowedBefore_succ,
        List.getElem?_cons_succ, ← List.append_assoc]
      by_cases hall : (evalCall cfg l now st (parseCall self ctx cfg)).1.isAllowed = true
      · obtain ⟨hst', hperm', hfits'⟩ := hspec.extends hperm hall
        rw [if_pos hall]
        exact ih hst' hperm' hfits' hl hm i ctx' hi'
      -- a refused call leaves the staging as it was
      · have hne : (evalCall cfg l now st (parseCall self ctx cfg)).1 ≠ .allowed := fun heq =>
          hall (by rw [heq]; rfl)
        obtain ⟨e, he, -, -⟩ := evalCall_of_not_allowed hne
        rw [if_neg hall, List.append_nil, he]
        exact ih hst hperm hfits hl hm i ctx' hi'

end

/-! ## A refused context consumes nothing -/

/-- The contexts that were allowed, in order. -/
def allowedContexts (contexts : List Context) (verdicts : List Decision) : List Context :=
  ((contexts.zip verdicts).filter fun cv => cv.2.isAllowed).map Prod.fst

section

variable {self : Address} {cfg : PolicyConfig} {state : AccountState} {l : Ledger} {now : U64}

theorem allowedContexts_cons (ctx : Context) (contexts : List Context) (verdict : Decision)
    (verdicts : List Decision) :
    allowedContexts (ctx :: contexts) (verdict :: verdicts)
      = (if verdict.isAllowed then [ctx] else []) ++ allowedContexts contexts verdicts := by
  by_cases h : verdict.isAllowed = true <;> simp [allowedContexts, h]

theorem length_allowedContexts_le (contexts : List Context) (verdicts : List Decision) :
    (allowedContexts contexts verdicts).length ≤ contexts.length := by
  rw [allowedContexts, List.length_map]
  exact (List.length_filter_le _ _).trans (by rw [List.length_zip]; exact Nat.min_le_left _ _)

/-- **The loop over the allowed contexts alone** allows every one of them, and stages the same. -/
theorem evalContexts_allowedContexts (contexts : List Context) : ∀ st : Staging,
    let result := evalContexts self cfg l now st contexts
    evalContexts self cfg l now st (allowedContexts contexts result.1)
      = ((allowedContexts contexts result.1).map fun _ => .allowed, result.2) := by
  induction contexts with
  | nil => exact fun st => rfl
  | cons ctx contexts ih =>
    intro st
    simp only [evalContexts, allowedContexts_cons]
    by_cases hall : (evalCall cfg l now st (parseCall self ctx cfg)).1 = .allowed
    · have hstep : evalCall cfg l now st (parseCall self ctx cfg)
          = (.allowed, (evalCall cfg l now st (parseCall self ctx cfg)).2) := Prod.ext hall rfl
      rw [hstep]
      simp only [Decision.isAllowed, if_true, List.singleton_append, evalContexts, List.map_cons]
      rw [hstep]
      dsimp only
      rw [ih]
    -- a refused call leaves the staging as it was, so the loop goes on as if it were not there
    · obtain ⟨e, he, -, -⟩ := evalCall_of_not_allowed hall
      simp only [he, Decision.isAllowed, Bool.false_eq_true, if_false, List.nil_append]
      exact ih st

/-- The loop over a longer list answers for its beginning first. -/
theorem evalContexts_append (contexts rest : List Context) : ∀ st : Staging,
    evalContexts self cfg l now st (contexts ++ rest)
      = let result := evalContexts self cfg l now st contexts
        (result.1 ++ (evalContexts self cfg l now result.2 rest).1,
          (evalContexts self cfg l now result.2 rest).2) := by
  induction contexts with
  | nil => exact fun st => rfl
  | cons ctx contexts ih =>
    intro st
    simp only [List.cons_append, evalContexts, ih]

/-- **The verdicts of the first contexts are the first verdicts.** -/
theorem take_evalContexts (contexts : List Context) (i : ℕ) (st : Staging) :
    (evalContexts self cfg l now st contexts).1.take i
      = (evalContexts self cfg l now st (contexts.take i)).1 := by
  by_cases hi : i ≤ contexts.length
  · have happ : (evalContexts self cfg l now st (contexts.take i ++ contexts.drop i)).1 = _ :=
      congrArg Prod.fst (evalContexts_append _ _ st)
    rw [List.take_append_drop] at happ
    rw [happ]
    exact List.take_left' (by rw [length_evalContexts, List.length_take, min_eq_left hi])
  · have hlong : contexts.length ≤ i := by omega
    rw [List.take_of_length_le hlong, List.take_of_length_le]
    rwa [length_evalContexts]

/-- **Blocked contexts consume nothing.**  Past the account gates, whatever the ledger, a request
gets one verdict for each context; the contexts that were allowed are all allowed when they are
asked for without the others; and requests that begin alike are answered alike as far as they do. -/
theorem blocked_consume_nothing {contexts : List Context} (hgate : gateError cfg state now = none)
    (hlen : contexts.length ≤ maxAuthContexts) :
    let verdicts := (decideContexts self (some cfg) state l now contexts).1
    let allowed := allowedContexts contexts verdicts
    verdicts.length = contexts.length ∧
      (decideContexts self (some cfg) state l now allowed).1 = allowed.map (fun _ => .allowed) ∧
      ∀ other : List Context, other.length ≤ maxAuthContexts → ∀ i : ℕ,
        contexts.take i = other.take i →
          verdicts.take i = (decideContexts self (some cfg) state l now other).1.take i := by
  have hverdicts : ∀ cs : List Context, cs.length ≤ maxAuthContexts →
      (decideContexts self (some cfg) state l now cs).1
        = (evalContexts self cfg (pruneFor cfg l now) now Staging.empty cs).1 := fun cs hcs => by
    rw [verdicts_eq hcs, hgate]
  intro verdicts allowed
  refine ⟨length_decideContexts hlen, ?_, fun other hother i htake => ?_⟩
  · have hshort : allowed.length ≤ maxAuthContexts :=
      (length_allowedContexts_le contexts verdicts).trans hlen
    have hsame : allowed = allowedContexts contexts
        (evalContexts self cfg (pruneFor cfg l now) now Staging.empty contexts).1 := by
      rw [← hverdicts contexts hlen]
    rw [hverdicts allowed hshort, hsame, evalContexts_allowedContexts]
  · rw [show verdicts = _ from hverdicts contexts hlen, hverdicts other hother, take_evalContexts,
      take_evalContexts, htake]

end

namespace Sample

/-- Under a cap of `50`, after `20`: the second transfer does not fit, the third does, and still
does without it. -/
theorem refused_consumes_nothing :
    let verdicts := (decideContexts self (some capFifty) ⟨false, 0⟩ spent.loadWindow.1 120
      [pay 20, pay 20, pay 10]).1
    verdicts = [.allowed, .blocked .windowCapExceeded, .allowed] ∧
      (decideContexts self (some capFifty) ⟨false, 0⟩ spent.loadWindow.1 120
        (allowedContexts [pay 20, pay 20, pay 10] verdicts)).1 = [.allowed, .allowed] := by
  have hverdicts : (decideContexts self (some capFifty) ⟨false, 0⟩ spent.loadWindow.1 120
      [pay 20, pay 20, pay 10]).1 = [.allowed, .blocked .windowCapExceeded, .allowed] := by decide
  refine ⟨hverdicts, ?_⟩
  have h := (@blocked_consume_nothing self capFifty ⟨false, 0⟩ spent.loadWindow.1 120
    [pay 20, pay 20, pay 10] (by decide) (by decide)).2.1
  rw [hverdicts] at h ⊢
  exact h

end Sample

end AgentGuard
