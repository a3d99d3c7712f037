import AgentGuard.Contract.Demand
import Mathlib.Algebra.BigOperators.Group.List.Lemmas

/-!
# Contract/Decide — one authorization, as a transition on the meters

`decide` forgets on every meter up to the policy's horizon and then, when the request is granted,
charges every meter with its demand (`Charged`).  Nothing else happens to the ledger: this is the
only thing the theorems about runs know about the engine.
-/

namespace AgentGuard

open Machinery

/-! ## The commit -/

/-- **`l'` is `l` with every meter charged with its demand.** -/
structure Charged (cfg : PolicyConfig) (now : U64) (calls : List ParsedCall) (l l' : Ledger) :
    Prop where
  single : l'.single = l.single.charge maxWindowEntries now (globalDemand cfg calls)
  meter : ∀ r, l'.meter r = (l.meter r).charge maxWindowEntries now (recipientDemand cfg r calls)
  untouched : (∀ r, recipientDemand cfg r calls = 0) → l'.recipients = l.recipients
  calls : l'.calls = l.calls.charge maxWindowEntries now (callDemand cfg calls)
  distinct : (l.recipients.map RecipientLedger.recipient).Nodup →
    (l'.recipients.map RecipientLedger.recipient).Nodup

section

variable (now : U64)

/-- The global admissions run through the global meter alone. -/
theorem foldl_admitSpend (admission : List SpendEntry) :
    ∀ l : Ledger, (∀ e ∈ admission, e.ts = now) →
      let l' := admission.foldl (fun l e => l.admitSpend e.ts e.value) l
      l'.single = l.single.recordAll maxWindowEntries now (admission.map Stamped.value) ∧
        l'.recipients = l.recipients ∧ l'.calls = l.calls := by
  induction admission with
  | nil => exact fun l _ => ⟨rfl, rfl, rfl⟩
  | cons e admission ih =>
    intro l h
    obtain ⟨h1, h2, h3⟩ := ih (l.admitSpend e.ts e.value) fun e' he' => h e' (by simp [he'])
    refine ⟨?_, h2, h3⟩
    obtain rfl := h e (by simp)
    exact h1

/-- **The staged recipients**, one aggregated admission each. -/
theorem foldl_admitForRecipient (rs : List Address) :
    ∀ (as : List I128) (l : Ledger), rs.Nodup → rs.length = as.length →
      (∀ r ∈ rs, 0 < (amountOf rs as r).val) →
      let l' := (rs.zip as).foldl (fun l ra => l.admitForRecipient now ra.1 ra.2) l
      (∀ r, l'.meter r = (l.meter r).charge maxWindowEntries now (amountOf rs as r).val) ∧
        l'.single = l.single ∧ l'.calls = l.calls ∧
        ((l.recipients.map RecipientLedger.recipient).Nodup →
          (l'.recipients.map RecipientLedger.recipient).Nodup) := by
  induction rs with
  | nil => exact fun as l _ _ _ => ⟨fun r => by simp [amountOf], rfl, rfl, fun h => h⟩
  | cons r rs ih =>
    intro as l hnd hlen hpos
    cases as with
    | nil => simp at hlen
    | cons a as =>
      obtain ⟨hr, hnd'⟩ := List.nodup_cons.mp hnd
      have htail : ∀ r' ∈ rs, amountOf (r :: rs) (a :: as) r' = amountOf rs as r' :=
        fun r' hr' => by
          have hne : r ≠ r' := fun h => hr (h ▸ hr')
          rw [amountOf, if_neg hne]
      have ha : 0 < a.val := by simpa [amountOf] using hpos r (by simp)
      obtain ⟨hmeter, hsingle, hcalls, hdistinct⟩ := ih as (l.admitForRecipient now r a) hnd'
        (by simpa using hlen) fun r' hr' => htail r' hr' ▸ hpos r' (by simp [hr'])
      refine ⟨fun r' => (hmeter r').trans ?_, hsingle, hcalls,
        fun h => hdistinct (nodup_admitToRecipients now r a h)⟩
      have hfirst : (l.admitForRecipient now r a).meter r'
          = if r = r' then ((l.meter r).record maxWindowEntries now a).1 else l.meter r' :=
        meterOf_admitToRecipients now r a l.recipients r'
      by_cases h : r = r'
      · subst h
        rw [hfirst, if_pos rfl, amountOf_of_notMem hr, amountOf, if_pos rfl, I128.val_zero,
          Rolling.charge_zero, Rolling.charge_val ha]
      · rw [hfirst, if_neg h, amountOf, if_neg h]

/-- The call counter, one at a time. -/
theorem foldl_admitProtocolCall (n : ℕ) (l : Ledger) :
    let l' := (List.range n).foldl (fun l _ => l.admitProtocolCall now) l
    l'.calls = l.calls.recordAll maxWindowEntries now (List.replicate n 1) ∧
      l'.single = l.single ∧ l'.recipients = l.recipients := by
  induction n with
  | zero => exact ⟨rfl, rfl, rfl⟩
  | succ n ih =>
    obtain ⟨h1, h2, h3⟩ := ih
    rw [List.range_succ, List.foldl_append, List.foldl_cons, List.foldl_nil]
    refine ⟨?_, h2, h3⟩
    rw [List.replicate_succ', Rolling.recordAll, List.foldl_append, List.foldl_cons,
      List.foldl_nil, ← Rolling.recordAll, ← h1]
    rfl

end

section

variable {cfg : PolicyConfig} {now : U64} {calls : List ParsedCall} {st : Staging}

/-- The staged admissions of one instant are one charge of the global demand. -/
theorem Staged.recordAll_admission (hst : Staged cfg now calls st) (l : SingleLedger) :
    l.recordAll maxWindowEntries now (st.admission.map Stamped.value)
      = l.charge maxWindowEntries now (globalDemand cfg calls) := by
  have hsum : ((st.admission.map Stamped.value).map BoundedInt.val).sum
      = globalDemand cfg calls := by
    rw [List.map_map]
    exact hst.admission
  have hpos : ∀ x ∈ st.admission.map Stamped.value, 0 < x.val := fun x hx => by
    obtain ⟨e, he, rfl⟩ := List.mem_map.mp hx
    exact (hst.instant e he).2
  have hfit : globalDemand cfg calls ≤ i128.hi := hst.pending ▸ st.pending.le_hi
  rw [Rolling.recordAll_eq_charge (by decide) (by decide) _ _ hpos (hsum ▸ hfit), hsum]

/-- The staged calls, one by one, are one charge of the call demand. -/
theorem Staged.recordAll_calls (hst : Staged cfg now calls st)
    (hlen : calls.length ≤ maxAuthContexts) (l : ProtocolCallLedger) :
    l.recordAll maxWindowEntries now (List.replicate st.pendingProtocolCalls.val.toNat 1)
      = l.charge maxWindowEntries now (callDemand cfg calls) := by
  have hfit : callDemand cfg calls ≤ u32.hi := callDemand_le hlen
  have hcount : st.pendingProtocolCalls.val = callDemand cfg calls := by
    rw [hst.calls, min_eq_right hfit]
  have hnn := st.pendingProtocolCalls.nonneg
  have hsum : ((List.replicate st.pendingProtocolCalls.val.toNat (1 : U32)).map
      BoundedInt.val).sum = callDemand cfg calls := by
    rw [List.map_replicate, List.sum_replicate, U32.val_one, ← hcount]
    simpa using hnn
  have hpos : ∀ x ∈ List.replicate st.pendingProtocolCalls.val.toNat (1 : U32), 0 < x.val :=
    fun x hx => by
      rw [List.eq_of_mem_replicate hx]
      decide
  rw [Rolling.recordAll_eq_charge (by decide) (by decide) _ _ hpos (hsum ▸ hfit), hsum]

/-- **The commit charges every meter with its demand, once.** -/
theorem commit_charged (hst : Staged cfg now calls st) (hlen : calls.length ≤ maxAuthContexts)
    (l : Ledger) : Charged cfg now calls l (commit l now st) := by
  obtain ⟨hs1, hs2, hs3⟩ := foldl_admitSpend now st.admission l fun e he => (hst.instant e he).1
  obtain ⟨hr1, hr2, hr3, hr4⟩ := foldl_admitForRecipient now st.pendingRecipients
    st.pendingRecipientAmounts (st.admission.foldl (fun l e => l.admitSpend e.ts e.value) l)
    hst.nodup hst.parallel fun r hr => by rw [hst.staged]; exact hst.positive r hr
  obtain ⟨hc1, hc2, hc3⟩ := foldl_admitProtocolCall now
    st.pendingProtocolCalls.val.toNat _
  refine ⟨hc2.trans (hr2.trans (hs1.trans (hst.recordAll_admission _))), fun r => ?_, fun h => ?_,
    hc1.trans ?_, fun h => ?_⟩
  · rw [Ledger.meter, commit, hc3, ← Ledger.meter, hr1, hst.staged, Ledger.meter, hs2,
      ← Ledger.meter]
  · have hnil : st.pendingRecipients = [] :=
      List.eq_nil_iff_forall_not_mem.mpr fun r hr => (hst.positive r hr).ne' (h r)
    rw [commit, hc3, hnil]
    exact hs2
  · rw [hst.recordAll_calls hlen, hr3, hs3]
  · rw [commit, hc3]
    exact hr4 (by rw [hs2]; exact h)

end

section

variable {cfg : PolicyConfig} {now : U64} {calls : List ParsedCall} {l l' : Ledger}

/-- A demand that fits leaves the total within `i128`. -/
theorem Fits.global_le (h : Fits cfg l calls) (hperm : ∀ c ∈ calls, Permitted cfg c) :
    l.total.val + globalDemand cfg calls ≤ i128.hi :=
  l.total.add_le_hi_of_room (globalDemand_nonneg hperm) h.global cfg.windowCap.le_hi

theorem Fits.recipient_le (h : Fits cfg l calls) (hperm : ∀ c ∈ calls, Permitted cfg c)
    (r : Address) : (l.meter r).total.val + recipientDemand cfg r calls ≤ i128.hi := by
  refine (l.meter r).total.add_le_hi_of_room (recipientDemand_nonneg hperm r) (fun hpos => ?_)
    le_rfl
  obtain ⟨cap, hcap⟩ := override_of_recipientDemand_pos hpos
  exact (h.recipient r cap hcap hpos).trans cap.le_hi

/-- **A granted request keeps the invariant.** -/
theorem Charged.rep (hc : Charged cfg now calls l l') (h : l.Rep now) (hfits : Fits cfg l calls)
    (hperm : ∀ c ∈ calls, Permitted cfg c) (hlen : calls.length ≤ maxAuthContexts) :
    l'.Rep now := by
  refine Ledger.Rep.of_meters ?_ (fun r => ?_) (hc.distinct h.distinct) ?_
  · rw [hc.single]
    exact h.single.charge (by decide) (by decide) (globalDemand_nonneg hperm)
      (hfits.global_le hperm)
  · rw [hc.meter]
    exact (h.meter r).charge (by decide) (by decide) (recipientDemand_nonneg hperm r)
      (hfits.recipient_le hperm r)
  · have hcalls : Ordered maxWindowEntries now.val l'.calls.entries := by
      rw [hc.calls]
      exact Ordered.charge (by decide) (by decide) h.calls (callDemand_le hlen)
    exact hcalls

end

/-! ## The account gates -/

/-- The policy that gets to decide: one is installed, and no account gate is closed. -/
def openPolicy (policy : Option PolicyConfig) (state : AccountState) (now : U64) :
    Option PolicyConfig :=
  if state.adminFrozen then none
  else policy.filter fun cfg => (accountError cfg state now).isNone

/-- How far back a request forgets. -/
def pruneHorizon (cfg : PolicyConfig) (now : U64) : ℤ :=
  if limitsWindow cfg then horizon now cfg.windowSecs else -1

theorem limitsWindow_of_windowCap {cfg : PolicyConfig} (h : 0 < cfg.windowCap.val) :
    limitsWindow cfg = true := by simp [limitsWindow, h]

theorem limitsWindow_of_recipientCap {cfg : PolicyConfig} {rc : RecipientCap}
    (h : rc ∈ cfg.recipientWindowCaps) : limitsWindow cfg = true := by
  simp [limitsWindow, List.ne_nil_of_mem h]

theorem limitsWindow_of_calls {cfg : PolicyConfig} (h : 0 < cfg.protocolCallsPerWindow.val) :
    limitsWindow cfg = true := by simp [limitsWindow, h]

theorem pruneHorizon_lt {cfg : PolicyConfig} {now : U64} (hnow : now.val < u64.hi) :
    pruneHorizon cfg now < now.val := by
  have := now.nonneg
  rw [pruneHorizon]
  split_ifs
  · exact horizon_lt hnow
  · omega

namespace Ledger.Rep

variable {l : Ledger} {t : U64}

theorem single_pruneFor (h : l.Rep t) (cfg : PolicyConfig) (now : U64) :
    (pruneFor cfg l now).single = l.single.keepAfter (pruneHorizon cfg now) := by
  rw [pruneFor, pruneHorizon]
  split_ifs
  · exact h.single_prune
  · exact (keepAfter_neg_one _).symm

theorem meter_pruneFor (h : l.Rep t) (cfg : PolicyConfig) (now : U64) (r : Address) :
    (pruneFor cfg l now).meter r = (l.meter r).keepAfter (pruneHorizon cfg now) := by
  rw [pruneFor, pruneHorizon]
  split_ifs
  · exact h.meter_prune r
  · exact (keepAfter_neg_one _).symm

theorem calls_pruneFor (h : l.Rep t) (cfg : PolicyConfig) (now : U64) :
    (pruneFor cfg l now).calls = l.calls.keepAfter (pruneHorizon cfg now) := by
  rw [pruneFor, pruneHorizon]
  split_ifs
  · exact h.calls_prune
  · exact (keepAfter_neg_one _).symm

theorem pruneFor (h : l.Rep t) (cfg : PolicyConfig) (now : U64) :
    (AgentGuard.pruneFor cfg l now).Rep t := by
  rw [AgentGuard.pruneFor]
  split_ifs
  · exact h.prune now cfg.windowSecs
  · exact h

end Ledger.Rep

section

variable {self : Address} {policy : Option PolicyConfig} {state : AccountState} {l : Ledger}
  {now t : U64} {contexts : List Context} {cfg : PolicyConfig}

/-- The calls of a request, as the engine parses them. -/
def parseAll (self : Address) (cfg : PolicyConfig) (contexts : List Context) : List ParsedCall :=
  contexts.map fun ctx => parseCall self ctx cfg

/-- **A closed gate blocks every context**, whatever is in the ledger, and leaves that alone. -/
theorem decideContexts_closed (self : Address) (hlen : contexts.length ≤ maxAuthContexts)
    (h : openPolicy policy state now = none) :
    ∃ e, ∀ l, decideContexts self policy state l now contexts = (blockAll contexts e, l) := by
  unfold decideContexts
  by_cases hf : state.adminFrozen = true
  · exact ⟨.adminFrozen, fun l => by rw [if_neg (not_lt.mpr hlen), if_pos hf]⟩
  cases policy with
  | none => exact ⟨.noPolicy, fun l => by rw [if_neg (not_lt.mpr hlen), if_neg hf]⟩
  | some cfg =>
    cases he : accountError cfg state now with
    | some e => exact ⟨e, fun l => by simp only [if_neg (not_lt.mpr hlen), if_neg hf, he]⟩
    | none => simp [openPolicy, hf, he] at h

/-- An oversized request is refused as a whole. -/
theorem decideContexts_oversized (self : Address) (policy : Option PolicyConfig)
    (state : AccountState) (l : Ledger) (now : U64) (h : maxAuthContexts < contexts.length) :
    decideContexts self policy state l now contexts = ([.blocked .tooManyAuthContexts], l) := by
  unfold decideContexts
  rw [if_pos h]

/-- **Past the gates** the request is pruned for, evaluated and, if granted, committed. -/
theorem decideContexts_open (hlen : contexts.length ≤ maxAuthContexts)
    (h : openPolicy policy state now = some cfg) :
    decideContexts self policy state l now contexts
      = let result := evalContexts self cfg (pruneFor cfg l now) now Staging.empty contexts
        if result.1.all Decision.isAllowed then
          (result.1, commit (pruneFor cfg l now) now result.2)
        else (result.1, pruneFor cfg l now) := by
  by_cases hf : state.adminFrozen = true
  · simp [openPolicy, hf] at h
  · rw [openPolicy, if_neg hf, Option.filter_eq_some_iff] at h
    obtain ⟨rfl, he⟩ := h
    rw [Option.isNone_iff_eq_none] at he
    simp [decideContexts, not_lt.mpr hlen, hf, he]

/-- The loop, started on a pruned ledger with nothing staged. -/
theorem evalContexts_pruned (self : Address) (cfg : PolicyConfig) (now : U64)
    (contexts : List Context) (hl : l.Rep t) :
    let result := evalContexts self cfg (pruneFor cfg l now) now Staging.empty contexts
    (result.1.all Decision.isAllowed = true
        ↔ (∀ c ∈ parseAll self cfg contexts, Permitted cfg c) ∧
          Fits cfg (pruneFor cfg l now) (parseAll self cfg contexts)) ∧
      (result.1.all Decision.isAllowed = true →
        Staged cfg now (parseAll self cfg contexts) result.2) := by
  have hrep := hl.pruneFor cfg now
  exact evalContexts_spec self contexts (staged_empty cfg now) (by simp) (fits_nil cfg _)
    hrep.single.total_nonneg fun r => (hrep.meter r).total_nonneg

/-- **Exactly when a request is granted.** -/
theorem decideContexts_granted_iff (hl : l.Rep t) (hlen : contexts.length ≤ maxAuthContexts)
    (h : openPolicy policy state now = some cfg) :
    (decideContexts self policy state l now contexts).1.all Decision.isAllowed = true
      ↔ (∀ c ∈ parseAll self cfg contexts, Permitted cfg c) ∧
        Fits cfg (pruneFor cfg l now) (parseAll self cfg contexts) := by
  rw [← (evalContexts_pruned self cfg now contexts hl).1, decideContexts_open hlen h]
  dsimp only
  split_ifs <;> rfl

/-- **What a granted request does to the ledger.** -/
theorem decideContexts_charged (hl : l.Rep t) (hlen : contexts.length ≤ maxAuthContexts)
    (h : openPolicy policy state now = some cfg)
    (hall : (decideContexts self policy state l now contexts).1.all Decision.isAllowed = true) :
    Charged cfg now (parseAll self cfg contexts) (pruneFor cfg l now)
      (decideContexts self policy state l now contexts).2 := by
  rw [decideContexts_open hlen h] at hall ⊢
  dsimp only at hall ⊢
  split_ifs at hall ⊢ with hyes
  · have hstaged := (evalContexts_pruned self cfg now contexts hl).2 hyes
    exact commit_charged hstaged (by simpa [parseAll] using hlen) _
  · exact absurd hall hyes

/-- **Whatever the verdict, the invariant stands.** -/
theorem decideContexts_rep (hl : l.Rep now) :
    (decideContexts self policy state l now contexts).2.Rep now := by
  by_cases hlen : contexts.length ≤ maxAuthContexts
  · cases h : openPolicy policy state now with
    | none =>
      obtain ⟨e, he⟩ := decideContexts_closed self hlen h
      rw [he]
      exact hl
    | some cfg =>
      by_cases hall :
          (decideContexts self policy state l now contexts).1.all Decision.isAllowed = true
      · obtain ⟨hperm, hfits⟩ := (decideContexts_granted_iff hl hlen h).mp hall
        exact (decideContexts_charged hl hlen h hall).rep (hl.pruneFor cfg now) hfits hperm
          (by simpa [parseAll] using hlen)
      · rw [decideContexts_open hlen h] at hall ⊢
        dsimp only at hall ⊢
        split_ifs at hall ⊢
        · contradiction
        · exact hl.pruneFor cfg now
  · rw [decideContexts_oversized _ _ _ _ _ (not_le.mp hlen)]
    exact hl

end

end AgentGuard
