import AgentGuard.Contract.Invariant

/-!
# Contract/Batching — cutting and reordering a request changes nothing

A request is a demand on each meter, and demands add up.  So it makes no difference whether contexts
are decided as one batch or in pieces at the same instant, in whichever order: the pieces are all
granted exactly when the batch is, and leave the same meters behind.
-/

namespace AgentGuard

open Machinery

/-- Decide sub-batches one after another, each on the ledger the last one left. -/
def decideAll (self : Address) (policy : Option PolicyConfig) (state : AccountState) (now : U64) :
    Ledger → List (List Context) → List (List Decision) × Ledger
  | ledger, [] => ([], ledger)
  | ledger, batch :: batches =>
    let (verdicts, ledger) := decideContexts self policy state ledger now batch
    let (rest, ledger) := decideAll self policy state now ledger batches
    (verdicts :: rest, ledger)

/-- **Two ledgers with the same meters**: total and entries of the global window, of the call
counter and of every recipient. -/
structure SameMeters (l l' : Ledger) : Prop where
  single : l.single = l'.single
  meter : ∀ r, l.meter r = l'.meter r
  calls : l.calls = l'.calls

/-! ## Demands do not depend on the order -/

section

variable {cfg : PolicyConfig} {calls calls' : List ParsedCall}

theorem globalDemand_perm (h : calls.Perm calls') :
    globalDemand cfg calls = globalDemand cfg calls' := by
  rw [globalDemand, globalDemand, (h.map _).sum_eq]

theorem recipientDemand_perm (h : calls.Perm calls') (r : Address) :
    recipientDemand cfg r calls = recipientDemand cfg r calls' := by
  rw [recipientDemand, recipientDemand, (h.map _).sum_eq]

theorem callDemand_perm (h : calls.Perm calls') :
    callDemand cfg calls = callDemand cfg calls' := by
  rw [callDemand, callDemand, (h.map _).sum_eq]

theorem Fits.perm {l : Ledger} (h : calls.Perm calls') (hfits : Fits cfg l calls) :
    Fits cfg l calls' where
  global := globalDemand_perm h ▸ hfits.global
  recipient r := recipientDemand_perm h r ▸ hfits.recipient r
  calls := callDemand_perm h ▸ hfits.calls

end

/-! ## Accrual -/

/-- **`l` is `base` after demands of this instant**, however they were batched. -/
structure Accrued (cfg : PolicyConfig) (now : U64) (calls : List ParsedCall) (base l : Ledger) :
    Prop where
  single : l.single = base.single.charge maxWindowEntries now (globalDemand cfg calls)
  meter : ∀ r, l.meter r = (base.meter r).charge maxWindowEntries now (recipientDemand cfg r calls)
  calls : l.calls = base.calls.charge maxWindowEntries now (callDemand cfg calls)

/-- Nothing of the ledger is older than the horizon of a request. -/
structure Pruned (cfg : PolicyConfig) (now : U64) (base : Ledger) : Prop where
  single : ∀ e ∈ base.single.entries, pruneHorizon cfg now < e.ts.val
  meter : ∀ r, ∀ e ∈ (base.meter r).entries, pruneHorizon cfg now < e.ts.val
  calls : ∀ e ∈ base.calls.entries, pruneHorizon cfg now < e.ts.val

section

variable {cfg : PolicyConfig} {now : U64} {calls rest : List ParsedCall} {base l l' : Ledger}

theorem pruned_pruneFor {t : U64} (h : l.Rep t) : Pruned cfg now (pruneFor cfg l now) where
  single := by rw [h.single_pruneFor]; exact Rolling.lt_of_mem_keepAfter
  meter r := by rw [h.meter_pruneFor]; exact Rolling.lt_of_mem_keepAfter
  calls := by rw [h.calls_pruneFor]; exact Rolling.lt_of_mem_keepAfter

theorem Accrued.refl (cfg : PolicyConfig) (now : U64) (l : Ledger) : Accrued cfg now [] l l where
  single := by rw [globalDemand_nil, Rolling.charge_zero]
  meter r := by rw [recipientDemand_nil, Rolling.charge_zero]
  calls := by rw [callDemand_nil, Rolling.charge_zero]

/-- **The next piece finds nothing to forget.** -/
theorem Accrued.pruneFor (h : Accrued cfg now calls base l) (hl : l.Rep now)
    (hbase : Pruned cfg now base) (hnow : now.val < u64.hi) :
    Accrued cfg now calls base (pruneFor cfg l now) where
  single := by
    rw [hl.single_pruneFor, h.single]
    exact Rolling.keepAfter_charge (by decide) hbase.single (pruneHorizon_lt hnow)
  meter r := by
    rw [hl.meter_pruneFor, h.meter]
    exact Rolling.keepAfter_charge (by decide) (hbase.meter r) (pruneHorizon_lt hnow)
  calls := by
    rw [hl.calls_pruneFor, h.calls]
    exact Rolling.keepAfter_charge (by decide) hbase.calls (pruneHorizon_lt hnow)

/-- **Charging a piece more.** -/
theorem Accrued.charged (h : Accrued cfg now calls base l) (hc : Charged cfg now rest l l')
    (hbase : base.Rep now) (hperm : ∀ c ∈ calls ++ rest, Permitted cfg c)
    (hfits : Fits cfg base (calls ++ rest)) (hlen : (calls ++ rest).length ≤ maxAuthContexts) :
    Accrued cfg now (calls ++ rest) base l' := by
  obtain ⟨hcalls, hrest⟩ := List.forall_mem_append.mp hperm
  refine ⟨?_, fun r => ?_, ?_⟩
  · have hle := hfits.global_le hperm
    have hnn : 0 ≤ base.total.val := hbase.single.total_nonneg
    rw [globalDemand_append] at hle ⊢
    rw [hc.single, h.single, Rolling.charge_charge (by decide) (by decide)
      (globalDemand_nonneg hcalls) (globalDemand_nonneg hrest) (by omega)]
  · have hle := hfits.recipient_le hperm r
    have hnn := (hbase.meter r).total_nonneg
    rw [recipientDemand_append] at hle ⊢
    rw [hc.meter, h.meter, Rolling.charge_charge (by decide) (by decide)
      (recipientDemand_nonneg hcalls r) (recipientDemand_nonneg hrest r) (by omega)]
  · have hle : callDemand cfg (calls ++ rest) ≤ u32.hi := callDemand_le hlen
    rw [callDemand_append] at hle ⊢
    rw [hc.calls, h.calls, Rolling.charge_charge (by decide) (by decide)
      (callDemand_nonneg cfg calls) (callDemand_nonneg cfg rest) hle]

/-! ### What the meters say by then -/

theorem Accrued.total_eq (h : Accrued cfg now calls base l) (hbase : base.Rep now)
    (hperm : ∀ c ∈ calls, Permitted cfg c) (hfits : Fits cfg base calls) :
    l.total.val = base.total.val + globalDemand cfg calls := by
  have hle := hfits.global_le hperm
  have hnn : 0 ≤ base.total.val := hbase.single.total_nonneg
  have hval := congrArg (fun m => m.total.val) h.single
  rw [Rolling.val_total_charge (by decide) (globalDemand_nonneg hperm) (by omega)] at hval
  exact hval.trans (min_eq_right hle)

theorem Accrued.meter_total_eq (h : Accrued cfg now calls base l) (hbase : base.Rep now)
    (hperm : ∀ c ∈ calls, Permitted cfg c) (hfits : Fits cfg base calls) (r : Address) :
    (l.meter r).total.val = (base.meter r).total.val + recipientDemand cfg r calls := by
  have hle := hfits.recipient_le hperm r
  have hnn := (hbase.meter r).total_nonneg
  rw [h.meter, Rolling.val_total_charge (by decide) (recipientDemand_nonneg hperm r) (by omega)]
  exact min_eq_right hle

theorem Accrued.protocolCallTotal_eq (h : Accrued cfg now calls base l)
    (hlen : calls.length ≤ maxAuthContexts) :
    l.protocolCallTotal.val
      = min u32.hi (base.protocolCallTotal.val + callDemand cfg calls) := by
  have hval := congrArg (fun m => m.total.val) h.calls
  rw [Rolling.val_total_charge (by decide) (callDemand_nonneg cfg calls) (callDemand_le hlen)]
    at hval
  exact hval

/-- What fits on the base with all that has accrued fits on what has accrued. -/
theorem Accrued.fits_of_append (h : Accrued cfg now calls base l) (hbase : base.Rep now)
    (hperm : ∀ c ∈ calls, Permitted cfg c) (hfits : Fits cfg base calls)
    (hlen : calls.length ≤ maxAuthContexts) (hf : Fits cfg base (calls ++ rest)) :
    Fits cfg l rest where
  global hpos := by
    have := globalDemand_nonneg hperm
    have := hf.global (by rw [globalDemand_append]; omega)
    rw [globalDemand_append] at this
    rw [h.total_eq hbase hperm hfits]
    omega
  recipient r cap hcap hpos := by
    have := recipientDemand_nonneg hperm r
    have := hf.recipient r cap hcap (by rw [recipientDemand_append]; omega)
    rw [recipientDemand_append] at this
    rw [h.meter_total_eq hbase hperm hfits]
    omega
  calls hpos := by
    have := callDemand_nonneg cfg calls
    have := hf.calls (by rw [callDemand_append]; omega)
    rw [callDemand_append] at this
    rw [h.protocolCallTotal_eq hlen]
    omega

/-- And back: a meter of which the piece asks nothing was checked before. -/
theorem Accrued.append_fits (h : Accrued cfg now calls base l) (hbase : base.Rep now)
    (hperm : ∀ c ∈ calls ++ rest, Permitted cfg c) (hfits : Fits cfg base calls)
    (hlen : calls.length ≤ maxAuthContexts) (hf : Fits cfg l rest) :
    Fits cfg base (calls ++ rest) := by
  obtain ⟨hcalls, hrest⟩ := List.forall_mem_append.mp hperm
  refine ⟨fun hpos => ?_, fun r cap hcap hpos => ?_, fun hpos => ?_⟩
  · rw [globalDemand_append] at hpos ⊢
    rcases (globalDemand_nonneg hrest).eq_or_lt with hz | hlt
    · rw [← hz, add_zero] at hpos ⊢
      exact hfits.global hpos
    · have := hf.global hlt
      rw [h.total_eq hbase hcalls hfits] at this
      omega
  · rw [recipientDemand_append] at hpos ⊢
    rcases (recipientDemand_nonneg hrest r).eq_or_lt with hz | hlt
    · rw [← hz, add_zero] at hpos ⊢
      exact hfits.recipient r cap hcap hpos
    · have := hf.recipient r cap hcap hlt
      rw [h.meter_total_eq hbase hcalls hfits] at this
      omega
  · rw [callDemand_append] at hpos ⊢
    rcases (callDemand_nonneg cfg rest).eq_or_lt with hz | hlt
    · rw [← hz, add_zero] at hpos ⊢
      exact hfits.calls hpos
    · have := hf.calls hlt
      rw [h.protocolCallTotal_eq hlen] at this
      omega

/-- **A piece fits on what has accrued exactly when the whole fits on the base.** -/
theorem Accrued.fits_iff (h : Accrued cfg now calls base l) (hbase : base.Rep now)
    (hperm : ∀ c ∈ calls ++ rest, Permitted cfg c) (hfits : Fits cfg base calls)
    (hlen : (calls ++ rest).length ≤ maxAuthContexts) :
    Fits cfg l rest ↔ Fits cfg base (calls ++ rest) := by
  have hcalls := (List.forall_mem_append.mp hperm).1
  have hlen' : calls.length ≤ maxAuthContexts := by
    rw [List.length_append] at hlen
    omega
  exact ⟨h.append_fits hbase hperm hfits hlen', h.fits_of_append hbase hcalls hfits hlen'⟩

/-! ## Pieces -/

variable {self : Address} {policy : Option PolicyConfig} {state : AccountState}

theorem parseAll_append (self : Address) (cfg : PolicyConfig) (contexts contexts' : List Context) :
    parseAll self cfg (contexts ++ contexts')
      = parseAll self cfg contexts ++ parseAll self cfg contexts' := List.map_append

/-- **One piece**, decided on a ledger that prunes to what has accrued. -/
theorem decideContexts_piece (self : Address) (hopen : openPolicy policy state now = some cfg)
    (hbase : base.Rep now) (hl : l.Rep now) (h : Accrued cfg now calls base (pruneFor cfg l now))
    (hperm : ∀ c ∈ calls, Permitted cfg c) (hfits : Fits cfg base calls) (batch : List Context)
    (hlen : (calls ++ parseAll self cfg batch).length ≤ maxAuthContexts) :
    ((decideContexts self policy state l now batch).1.all Decision.isAllowed = true
        ↔ (∀ c ∈ parseAll self cfg batch, Permitted cfg c) ∧
          Fits cfg base (calls ++ parseAll self cfg batch)) ∧
      ((decideContexts self policy state l now batch).1.all Decision.isAllowed = true →
        Accrued cfg now (calls ++ parseAll self cfg batch) base
          (decideContexts self policy state l now batch).2) := by
  have hbatch : batch.length ≤ maxAuthContexts := by
    rw [List.length_append, parseAll, List.length_map] at hlen
    omega
  have hboth : (∀ c ∈ parseAll self cfg batch, Permitted cfg c) →
      ∀ c ∈ calls ++ parseAll self cfg batch, Permitted cfg c := fun hp =>
    List.forall_mem_append.mpr ⟨hperm, hp⟩
  have hiff : (decideContexts self policy state l now batch).1.all Decision.isAllowed = true
      ↔ (∀ c ∈ parseAll self cfg batch, Permitted cfg c) ∧
        Fits cfg base (calls ++ parseAll self cfg batch) :=
    (decideContexts_granted_iff hl hbatch hopen).trans
      (and_congr_right fun hp => h.fits_iff hbase (hboth hp) hfits hlen)
  refine ⟨hiff, fun hall => ?_⟩
  obtain ⟨hp, hf⟩ := hiff.mp hall
  exact h.charged (decideContexts_charged hl hbatch hopen hall) hbase (hboth hp) hf hlen

/-- **All pieces**, by induction on how many follow the first. -/
theorem decideAll_spec (self : Address) (hopen : openPolicy policy state now = some cfg)
    (hbase : base.Rep now) (hpruned : Pruned cfg now base) (hnow : now.val < u64.hi)
    (batches : List (List Context)) :
    ∀ {batch : List Context} {calls : List ParsedCall} {l : Ledger}, l.Rep now →
      Accrued cfg now calls base (pruneFor cfg l now) → (∀ c ∈ calls, Permitted cfg c) →
      Fits cfg base calls →
      (calls ++ parseAll self cfg (batch :: batches).flatten).length ≤ maxAuthContexts →
      let result := decideAll self policy state now l (batch :: batches)
      let pieces := parseAll self cfg (batch :: batches).flatten
      ((∀ verdicts ∈ result.1, verdicts.all Decision.isAllowed = true)
          ↔ (∀ c ∈ pieces, Permitted cfg c) ∧ Fits cfg base (calls ++ pieces)) ∧
        ((∀ verdicts ∈ result.1, verdicts.all Decision.isAllowed = true) →
          Accrued cfg now (calls ++ pieces) base result.2) := by
  induction batches with
  | nil =>
    intro batch calls l hl h hperm hfits hlen
    rw [List.flatten_singleton] at hlen ⊢
    simpa [decideAll] using decideContexts_piece self hopen hbase hl h hperm hfits batch hlen
  | cons next batches ih =>
    intro batch calls l hl h hperm hfits hlen
    dsimp only
    rw [List.flatten_cons, parseAll_append, ← List.append_assoc] at hlen ⊢
    obtain ⟨hiff, hnext⟩ := decideContexts_piece self hopen hbase hl h hperm hfits batch
      (by rw [List.length_append] at hlen; omega)
    rw [decideAll]
    simp only [List.forall_mem_cons, List.forall_mem_append]
    by_cases hall : (decideContexts self policy state l now batch).1.all Decision.isAllowed = true
    · obtain ⟨hp, hf⟩ := hiff.mp hall
      have hrep : (decideContexts self policy state l now batch).2.Rep now :=
        decideContexts_rep hl
      have hrest := ih hrep ((hnext hall).pruneFor hrep hpruned hnow)
        (List.forall_mem_append.mpr ⟨hperm, hp⟩) hf hlen
      refine ⟨?_, fun hgranted => hrest.2 hgranted.2⟩
      rw [and_iff_right hall, hrest.1, and_iff_right hp]
    -- a piece is refused: then so is the whole, which fits only if its beginning does
    · refine ⟨⟨fun hgranted => absurd hgranted.1 hall, fun ⟨⟨hp, hprest⟩, hf⟩ => ?_⟩,
        fun hgranted => absurd hgranted.1 hall⟩
      exact absurd (hiff.mpr ⟨hp, hf.of_append hprest⟩) hall

/-- Past a closed gate only empty pieces pass, and nothing moves. -/
theorem decideAll_closed (self : Address) (h : openPolicy policy state now = none)
    (batches : List (List Context)) :
    ∀ l : Ledger, batches.flatten.length ≤ maxAuthContexts →
      ((∀ verdicts ∈ (decideAll self policy state now l batches).1,
          verdicts.all Decision.isAllowed = true) ↔ batches.flatten = []) ∧
        (decideAll self policy state now l batches).2 = l := by
  induction batches with
  | nil => exact fun l _ => ⟨by simp [decideAll], rfl⟩
  | cons batch batches ih =>
    intro l hlen
    rw [List.flatten_cons, List.length_append] at hlen
    obtain ⟨e, he⟩ := decideContexts_closed self
      (show batch.length ≤ maxAuthContexts by omega) h
    obtain ⟨hiff, hsame⟩ := ih l (by omega)
    simp only [decideAll, he, List.forall_mem_cons, List.flatten_cons, List.append_eq_nil_iff]
    refine ⟨and_congr ?_ hiff, hsame⟩
    cases batch with
    | nil => simp [blockAll]
    | cons ctx batch => simp [blockAll, Decision.isAllowed]

/-- **Batching and ordering give the agent nothing.**  For every policy, ledger in shape and account
state, for every list of contexts and every way of cutting a permutation of it into pieces: the
whole is granted if and only if every piece is, and then both leave the same meters. -/
theorem decideContexts_batching (hl : l.Rep now) (hnow : now.val < u64.hi - maxWindowSecs)
    {contexts : List Context} (hlen : contexts.length ≤ maxAuthContexts) {batch : List Context}
    {batches : List (List Context)} (hperm : (batch :: batches).flatten.Perm contexts) :
    ((decideContexts self policy state l now contexts).1.all Decision.isAllowed = true
        ↔ ∀ verdicts ∈ (decideAll self policy state now l (batch :: batches)).1,
          verdicts.all Decision.isAllowed = true) ∧
      ((decideContexts self policy state l now contexts).1.all Decision.isAllowed = true →
        SameMeters (decideContexts self policy state l now contexts).2
          (decideAll self policy state now l (batch :: batches)).2) := by
  have hnow' : now.val < u64.hi := hnow.trans (by decide)
  have hlen' : (batch :: batches).flatten.length ≤ maxAuthContexts := hperm.length_eq ▸ hlen
  cases hopen : openPolicy policy state now with
  | none =>
    obtain ⟨e, he⟩ := decideContexts_closed self hlen hopen
    obtain ⟨hiff, hsame⟩ := decideAll_closed self hopen (batch :: batches) l hlen'
    rw [hiff, hsame, he]
    refine ⟨?_, fun _ => ⟨rfl, fun _ => rfl, rfl⟩⟩
    have hnil : (batch :: batches).flatten = [] ↔ contexts = [] := by
      rw [← List.length_eq_zero_iff, hperm.length_eq, List.length_eq_zero_iff]
    rw [hnil]
    cases contexts with
    | nil => simp [blockAll]
    | cons ctx contexts => simp [blockAll, Decision.isAllowed]
  | some cfg =>
    have hcalls : (parseAll self cfg (batch :: batches).flatten).Perm
        (parseAll self cfg contexts) := hperm.map _
    have hbase := hl.pruneFor cfg now
    have hwhole := decideContexts_piece self hopen hbase hl (Accrued.refl cfg now _) (by simp)
      (fits_nil cfg _) contexts (by simpa [parseAll] using hlen)
    have hparts := decideAll_spec self hopen hbase (pruned_pruneFor hl) hnow' batches hl
      (Accrued.refl cfg now _) (by simp) (fits_nil cfg _)
      (show ([] ++ parseAll self cfg (batch :: batches).flatten).length ≤ maxAuthContexts by
        rwa [List.nil_append, parseAll, List.length_map])
    dsimp only at hparts
    rw [List.nil_append] at hwhole hparts
    have hiff := hwhole.1.trans (and_congr
      ⟨fun h c hc => h c (hcalls.mem_iff.mp hc), fun h c hc => h c (hcalls.mem_iff.mpr hc)⟩
      ⟨fun h => h.perm hcalls.symm, fun h => h.perm hcalls⟩)
    refine ⟨?_, fun hall => ?_⟩
    · rw [hiff, hparts.1]
    · have hall' := hparts.2 (hparts.1.mpr (hiff.mp hall))
      have haccrued := hwhole.2 hall
      refine ⟨?_, fun r => ?_, ?_⟩
      · rw [haccrued.single, hall'.single, globalDemand_perm hcalls]
      · rw [haccrued.meter, hall'.meter, recipientDemand_perm hcalls]
      · rw [haccrued.calls, hall'.calls, callDemand_perm hcalls]

end

/-- Two transfers and a protocol call, at once and in two reordered pieces. -/
theorem Sample.spent_batching :
    (decideContexts self (some capFifty) ⟨false, 100⟩ spent.loadWindow.1 120
        [pay 10, use, pay 20]).1.all Decision.isAllowed = true ∧
      SameMeters
        (decideContexts self (some capFifty) ⟨false, 100⟩ spent.loadWindow.1 120
          [pay 10, use, pay 20]).2
        (decideAll self (some capFifty) ⟨false, 100⟩ 120 spent.loadWindow.1
          [[pay 20], [use, pay 10]]).2 := by
  have hl : spent.loadWindow.1.Rep 120 :=
    (reachable_spent.inv.mono (show (110 : U64).val ≤ (120 : U64).val by decide)).ledger
  have hall : (decideContexts self (some capFifty) ⟨false, 100⟩ spent.loadWindow.1 120
      [pay 10, use, pay 20]).1.all Decision.isAllowed = true := by decide
  exact ⟨hall, (decideContexts_batching hl (by decide) (by decide) (by decide)).2 hall⟩

end AgentGuard
