import AgentGuard.Machinery.RollingLedger

/-!
# Machinery/Meter — a rolling ledger as a meter

A meter forgets and counts.  `keepAfter x` forgets everything up to `x` and takes it off the total;
`charge now a` counts `a` at `now`, and nothing when `a` is nothing.  Two laws make meters compose:
charges of one instant add up (`charge_charge`), and forgetting up to the past of a charge commutes
with it (`keepAfter_charge`).
-/

namespace Machinery

variable {T V : IntRange}

/-- The exact sum of the values recorded up to `x`. -/
def sumUpTo (x : ℤ) (l : List (Stamped T V)) : ℤ := valueSum (l.filter fun e => e.ts.val ≤ x)

theorem sumUpTo_add_sumAfter (x : ℤ) (l : List (Stamped T V)) :
    sumUpTo x l + sumAfter x l = valueSum l := by
  induction l with
  | nil => rfl
  | cons e l ih =>
    by_cases he : e.ts.val ≤ x
    · simp only [sumUpTo, sumAfter, List.filter_cons, he, decide_true, if_true, valueSum_cons,
        not_lt.mpr he, decide_false, Bool.false_eq_true, if_false] at ih ⊢
      omega
    · simp only [sumUpTo, sumAfter, List.filter_cons, he, decide_false, Bool.false_eq_true,
        if_false, valueSum_cons, not_le.mp he, decide_true, if_true] at ih ⊢
      omega

theorem sumUpTo_nonneg {l : List (Stamped T V)} (h : ∀ e ∈ l, 0 < e.value.val) (x : ℤ) :
    0 ≤ sumUpTo x l :=
  valueSum_nonneg fun e he => h e (List.mem_of_mem_filter he)

/-- A ledger that counts right: its entries are in shape and its total is their sum. -/
structure Rolling.Sound (bound : ℕ) (now : ℤ) (l : Rolling T V) : Prop where
  ordered : Ordered bound now l.entries
  exact : l.Exact

theorem Rolling.Sound.mono {bound : ℕ} {now now' : ℤ} {l : Rolling T V} (h : l.Sound bound now)
    (hn : now ≤ now') : l.Sound bound now' := ⟨h.ordered.mono hn, h.exact⟩

theorem Rolling.Sound.total_nonneg {bound : ℕ} {now : ℤ} {l : Rolling T V}
    (h : l.Sound bound now) : 0 ≤ l.total.val :=
  h.exact.symm ▸ valueSum_nonneg h.ordered.positive

/-- Counting a sound ledger again finds what it says. -/
theorem Rolling.Sound.recount {bound : ℕ} {now : ℤ} {l : Rolling T V} (h : l.Sound bound now) :
    (⟨BoundedInt.clamp (valueSum l.entries), l.entries⟩ : Rolling T V) = l := by
  refine Rolling.ext (BoundedInt.ext ?_) rfl
  have hexact : l.total.val = valueSum l.entries := h.exact
  rw [← hexact, BoundedInt.val_clamp_of_mem l.total.lo_le l.total.le_hi]

/-! ## Forgetting -/

/-- Forget the entries up to `x`, taking them off the total. -/
def Rolling.keepAfter (x : ℤ) (l : Rolling T V) : Rolling T V :=
  ⟨BoundedInt.clamp (l.total.val - sumUpTo x l.entries), l.entries.filter fun e => x < e.ts.val⟩

@[simp] theorem Rolling.entries_keepAfter (x : ℤ) (l : Rolling T V) :
    (l.keepAfter x).entries = l.entries.filter fun e => x < e.ts.val := rfl

/-- Taking off what was recorded stops only at the bottom of the range. -/
theorem Rolling.val_total_keepAfter {l : Rolling T V} (h : ∀ e ∈ l.entries, 0 < e.value.val)
    (x : ℤ) : (l.keepAfter x).total.val = max V.lo (l.total.val - sumUpTo x l.entries) := by
  have hnn := sumUpTo_nonneg h x
  have hhi := l.total.le_hi
  show max V.lo (min V.hi (l.total.val - sumUpTo x l.entries)) = _
  rw [min_eq_right (by omega)]

theorem valueSum_keepAfter (x : ℤ) (l : Rolling T V) :
    valueSum (l.keepAfter x).entries = sumAfter x l.entries := rfl

theorem filter_lt_filter_lt (x y : ℤ) (l : List (Stamped T V)) :
    (l.filter fun e => x < e.ts.val).filter (fun e => y < e.ts.val)
      = l.filter fun e => max x y < e.ts.val := by
  rw [List.filter_filter]
  refine List.filter_congr fun e _ => ?_
  rw [← Bool.decide_and]
  exact decide_eq_decide.mpr ⟨fun h => max_lt h.2 h.1, fun h => ⟨(max_lt_iff.mp h).2,
    (max_lt_iff.mp h).1⟩⟩

/-- **What a meter still knows after forgetting.** -/
theorem sumAfter_keepAfter (x y : ℤ) (l : Rolling T V) :
    sumAfter y (l.keepAfter x).entries = sumAfter (max x y) l.entries := by
  rw [Rolling.entries_keepAfter, sumAfter, filter_lt_filter_lt, ← sumAfter]

/-- **Nothing to forget.** -/
theorem Rolling.keepAfter_of_lt {l : Rolling T V} {x : ℤ} (h : ∀ e ∈ l.entries, x < e.ts.val) :
    l.keepAfter x = l := by
  have hall : l.entries.filter (fun e => x < e.ts.val) = l.entries :=
    List.filter_eq_self.mpr fun e he => by simpa using h e he
  have hnone : sumUpTo x l.entries = 0 := by
    have := sumUpTo_add_sumAfter x l.entries
    rw [sumAfter, hall] at this
    omega
  refine Rolling.ext (BoundedInt.ext ?_) hall
  show max V.lo (min V.hi (l.total.val - sumUpTo x l.entries)) = _
  rw [hnone, sub_zero, min_eq_right l.total.le_hi, max_eq_right l.total.lo_le]

theorem Rolling.lt_of_mem_keepAfter {l : Rolling T V} {x : ℤ} :
    ∀ e ∈ (l.keepAfter x).entries, x < e.ts.val := fun e he => by
  simpa using (List.mem_filter.mp he).2

/-- **Forgetting less first changes nothing.** -/
theorem Rolling.keepAfter_keepAfter {l : Rolling T V} (h : ∀ e ∈ l.entries, 0 < e.value.val)
    {x y : ℤ} (hxy : x ≤ y) : (l.keepAfter x).keepAfter y = l.keepAfter y := by
  have hkept : ∀ e ∈ (l.keepAfter x).entries, 0 < e.value.val := fun e he =>
    h e (List.mem_of_mem_filter he)
  refine Rolling.ext (BoundedInt.ext ?_) ?_
  · have hlate := sumUpTo_add_sumAfter y (l.keepAfter x).entries
    rw [valueSum_keepAfter, sumAfter_keepAfter, max_eq_right hxy] at hlate
    have hx := sumUpTo_add_sumAfter x l.entries
    have hy := sumUpTo_add_sumAfter y l.entries
    have hnn := sumUpTo_nonneg hkept y
    rw [Rolling.val_total_keepAfter hkept, Rolling.val_total_keepAfter h,
      Rolling.val_total_keepAfter h]
    omega
  · rw [Rolling.entries_keepAfter, Rolling.entries_keepAfter, filter_lt_filter_lt,
      max_eq_right hxy, Rolling.entries_keepAfter]

/-- In time order, what is up to `x` is a prefix. -/
theorem Ordered.prefixed {bound : ℕ} {now : ℤ} {l : List (Stamped T V)} (h : Ordered bound now l)
    (x : ℤ) : Prefixed (fun e => decide (e.ts.val ≤ x)) l :=
  h.sorted.imp fun hab hb => by
    simp only [decide_eq_true_eq] at hb ⊢
    omega

/-- **Forgetting is dropping a prefix**, one saturating subtraction for each entry dropped. -/
theorem Rolling.keepAfter_eq_dropWhile {bound : ℕ} {now : ℤ} {l : Rolling T V}
    (h : Ordered bound now l.entries) (x : ℤ) :
    (⟨((l.entries.takeWhile fun e => decide (e.ts.val ≤ x)).map Stamped.value).foldl
        BoundedInt.saturatingSub l.total,
      l.entries.dropWhile fun e => decide (e.ts.val ≤ x)⟩ : Rolling T V) = l.keepAfter x := by
  have hpre := h.prefixed x
  refine Rolling.ext (BoundedInt.ext ?_) ?_
  · have hdropped : ∀ e ∈ l.entries.filter fun e => decide (e.ts.val ≤ x), 0 ≤ e.value.val :=
      fun e he => (h.positive e (List.mem_of_mem_filter he)).le
    rw [hpre.takeWhile_eq_filter, Rolling.val_total_keepAfter h.positive,
      val_foldl_values hdropped, sumUpTo]
  · rw [hpre.dropWhile_eq_filter]
    refine List.filter_congr fun e _ => ?_
    rw [← decide_not]
    exact decide_eq_decide.mpr not_le

/-! ## Dropping a prefix -/

/-- Drop the `p`-prefix, one saturating subtraction for each entry. -/
def Rolling.dropPrefix (p : Stamped T V → Bool) (l : Rolling T V) : Rolling T V :=
  ⟨((l.entries.takeWhile p).map Stamped.value).foldl BoundedInt.saturatingSub l.total,
    l.entries.dropWhile p⟩

/-- **A weaker shape than `Sound`**: entries in time order, ties and any number of them allowed, and
a total that counts them exactly. -/
structure Rolling.Chronological (l : Rolling T V) : Prop where
  sorted : l.entries.Pairwise fun a b => a.ts.val ≤ b.ts.val
  nonneg : ∀ e ∈ l.entries, 0 ≤ e.value.val
  exact : l.Exact

theorem Rolling.Sound.chronological {bound : ℕ} {now : ℤ} {l : Rolling T V}
    (h : l.Sound bound now) : l.Chronological where
  sorted := h.ordered.sorted.imp le_of_lt
  nonneg := fun e he => (h.ordered.positive e he).le
  exact := h.exact

/-- **Dropping a prefix keeps an exact total exact**, as long as nothing negative was counted. -/
theorem Rolling.Exact.dropPrefix {l : Rolling T V} (hlo : V.lo ≤ 0) (h : l.Exact)
    (hnn : ∀ e ∈ l.entries, 0 ≤ e.value.val) (p : Stamped T V → Bool) :
    (l.dropPrefix p).Exact := by
  have hsplit : valueSum (l.entries.takeWhile p) + valueSum (l.entries.dropWhile p)
      = l.total.val := by
    rw [← valueSum_append, List.takeWhile_append_dropWhile]
    exact h.symm
  have hdropped : ∀ e ∈ l.entries.takeWhile p, 0 ≤ e.value.val := fun e he =>
    hnn e ((List.takeWhile_prefix p).mem he)
  have hkept : 0 ≤ valueSum (l.entries.dropWhile p) :=
    valueSum_nonneg_of_nonneg fun e he => hnn e ((List.dropWhile_suffix p).mem he)
  show (((l.entries.takeWhile p).map Stamped.value).foldl BoundedInt.saturatingSub l.total).val
    = valueSum (l.entries.dropWhile p)
  rw [val_foldl_values hdropped, max_eq_right (by omega)]
  omega

/-- Two exact ledgers with the same entries are the same. -/
theorem Rolling.Exact.ext {l m : Rolling T V} (h : l.Exact) (h' : m.Exact)
    (he : l.entries = m.entries) : l = m := by
  refine Rolling.ext (BoundedInt.ext ?_) he
  have hm : m.total.val = valueSum m.entries := h'
  rw [hm, ← he]
  exact h

theorem Rolling.Chronological.dropPrefix {l : Rolling T V} (hlo : V.lo ≤ 0) (h : l.Chronological)
    (p : Stamped T V → Bool) : (l.dropPrefix p).Chronological where
  sorted := h.sorted.sublist (List.dropWhile_suffix p).sublist
  nonneg := fun e he => h.nonneg e ((List.dropWhile_suffix p).mem he)
  exact := h.exact.dropPrefix hlo h.nonneg p

/-- **Dropping less first changes nothing.** -/
theorem Rolling.Chronological.dropPrefix_dropPrefix {l : Rolling T V} (hlo : V.lo ≤ 0)
    (h : l.Chronological) {p q : Stamped T V → Bool} (hpq : ∀ e, p e = true → q e = true) :
    (l.dropPrefix p).dropPrefix q = l.dropPrefix q := by
  have htwice := ((h.dropPrefix hlo p).dropPrefix hlo q).exact
  exact htwice.ext (h.dropPrefix hlo q).exact (dropWhile_dropWhile_of_imp hpq l.entries)

/-! ## Forgetting keeps the shape -/

theorem Ordered.keepAfter {bound : ℕ} {now : ℤ} {l : Rolling T V} (h : Ordered bound now l.entries)
    (x : ℤ) : Ordered bound now (l.keepAfter x).entries := h.sublist List.filter_sublist

/-- An exact total stays exact: what is taken off is what is forgotten. -/
theorem Rolling.Sound.keepAfter {bound : ℕ} {now : ℤ} {l : Rolling T V} (hlo : V.lo ≤ 0)
    (h : l.Sound bound now) (x : ℤ) : (l.keepAfter x).Sound bound now where
  ordered := h.ordered.keepAfter x
  exact := by
    have hsplit := sumUpTo_add_sumAfter x l.entries
    have hafter := sumAfter_nonneg h.ordered.positive x
    have hexact : l.total.val = valueSum l.entries := h.exact
    rw [Rolling.Exact, Rolling.val_total_keepAfter h.ordered.positive, valueSum_keepAfter]
    omega

/-! ## Counting -/

/-- Count `a` at `now`; counting nothing leaves the ledger alone. -/
def Rolling.charge (bound : ℕ) (l : Rolling T V) (now : BoundedInt T) (a : ℤ) : Rolling T V :=
  if 0 < a then (l.record bound now (BoundedInt.clamp a)).1 else l

section

variable {bound : ℕ} {now : BoundedInt T} {l : Rolling T V} {a b : ℤ}

@[simp] theorem Rolling.charge_zero : l.charge bound now 0 = l := if_neg (lt_irrefl 0)

theorem Rolling.charge_of_pos (ha : 0 < a) :
    l.charge bound now a = (l.record bound now (BoundedInt.clamp a)).1 := if_pos ha

/-- Counting a machine integer records it. -/
theorem Rolling.charge_val {x : BoundedInt V} (hx : 0 < x.val) :
    l.charge bound now x.val = (l.record bound now x).1 := by
  have hclamp : (BoundedInt.clamp x.val : BoundedInt V) = x :=
    BoundedInt.ext (BoundedInt.val_clamp_of_mem x.lo_le x.le_hi)
  rw [Rolling.charge_of_pos hx, hclamp]

/-- A charge in range is recorded as it is. -/
theorem val_clamp_charge (hlo : V.lo ≤ 0) (ha : 0 ≤ a) (hhi : a ≤ V.hi) :
    (BoundedInt.clamp a : BoundedInt V).val = a :=
  BoundedInt.val_clamp_of_mem (hlo.trans ha) hhi

/-- **The total grows by the charge, up to saturation.** -/
theorem Rolling.val_total_charge (hlo : V.lo ≤ 0) (ha : 0 ≤ a) (hhi : a ≤ V.hi) :
    (l.charge bound now a).total.val = min V.hi (l.total.val + a) := by
  rcases ha.eq_or_lt with rfl | hpos
  · have := l.total.le_hi
    simp [this]
  · have hv := val_clamp_charge hlo ha hhi
    rw [Rolling.charge_of_pos hpos, total_record,
      BoundedInt.val_saturatingAdd_of_nonneg _ (by omega), hv]

theorem Ordered.charge (hb : 0 < bound) (hlo : V.lo ≤ 0) (h : Ordered bound now.val l.entries)
    (hhi : a ≤ V.hi) : Ordered bound now.val (l.charge bound now a).entries := by
  rw [Rolling.charge]
  split_ifs with ha
  · refine (admits_record hb l now _).ordered h ?_
    rwa [val_clamp_charge hlo ha.le hhi]
  · exact h

/-- **Charges keep a total exact as long as it fits.** -/
theorem Rolling.Sound.charge (hb : 0 < bound) (hlo : V.lo ≤ 0) (h : l.Sound bound now.val)
    (ha : 0 ≤ a) (hfit : l.total.val + a ≤ V.hi) : (l.charge bound now a).Sound bound now.val where
  ordered := h.ordered.charge hb hlo (by have := h.total_nonneg; omega)
  exact := by
    have hnn := h.total_nonneg
    have hexact : l.total.val = valueSum l.entries := h.exact
    have hv := val_clamp_charge (V := V) hlo ha (by omega)
    rw [Rolling.Exact, Rolling.val_total_charge hlo ha (by omega), min_eq_right hfit]
    rcases ha.eq_or_lt with rfl | hpos
    · simpa using hexact
    · rw [Rolling.charge_of_pos hpos, (admits_record hb l now _).valueSum_eq h.ordered.positive
        (by omega) (by omega), hv, hexact]

/-- A total that fits grows by the charge. -/
theorem Rolling.Sound.val_total_charge (hlo : V.lo ≤ 0) (h : l.Sound bound now.val) (ha : 0 ≤ a)
    (hfit : l.total.val + a ≤ V.hi) : (l.charge bound now a).total.val = l.total.val + a := by
  have hnn := h.total_nonneg
  rw [Rolling.val_total_charge hlo ha (by omega), min_eq_right hfit]

/-- Up to saturation the sum of the entries grows by the charge. -/
theorem Rolling.min_valueSum_charge (hb : 0 < bound) (hlo : V.lo ≤ 0)
    (hpos : ∀ e ∈ l.entries, 0 < e.value.val) (hhi : a ≤ V.hi) (ha : 0 ≤ a) :
    min V.hi (valueSum (l.charge bound now a).entries)
      = min V.hi (valueSum l.entries + a) := by
  rcases ha.eq_or_lt with rfl | hapos
  · simp
  · have hv := val_clamp_charge hlo ha hhi
    rw [Rolling.charge_of_pos hapos, (admits_record hb l now _).min_valueSum hpos (by omega), hv]

/-- **A charge is known from then on, and nothing else is lost.** -/
theorem Rolling.Sound.le_sumAfter_charge (hb : 0 < bound) (hlo : V.lo ≤ 0)
    (h : l.Sound bound now.val) (ha : 0 ≤ a) (hfit : l.total.val + a ≤ V.hi) (x : ℤ) :
    sumAfter x l.entries + (if x < now.val then a else 0)
      ≤ sumAfter x (l.charge bound now a).entries := by
  have hexact : l.total.val = valueSum l.entries := h.exact
  have hnn := h.total_nonneg
  rcases ha.eq_or_lt with rfl | hpos
  · simp
  · have hv := val_clamp_charge (V := V) hlo ha (by omega)
    have := (admits_record hb l now (BoundedInt.clamp a)).le_sumAfter h.ordered (by omega)
      (by omega) x
    rwa [hv, ← Rolling.charge_of_pos hpos] at this

/-- **Without a merge a charge is all that happens.** -/
theorem Rolling.Sound.sumAfter_charge (hb : 0 < bound) (hlo : V.lo ≤ 0)
    (h : l.Sound bound now.val) (ha : 0 ≤ a) (hfit : l.total.val + a ≤ V.hi)
    (hroom : 0 < a → ¬Full bound now l.entries) (x : ℤ) :
    sumAfter x (l.charge bound now a).entries
      = sumAfter x l.entries + if x < now.val then a else 0 := by
  have hexact : l.total.val = valueSum l.entries := h.exact
  have hnn := h.total_nonneg
  rcases ha.eq_or_lt with rfl | hpos
  · simp
  · have hv := val_clamp_charge (V := V) hlo ha (by omega)
    have := (admits_record hb l now (BoundedInt.clamp a)).sumAfter_eq h.ordered (by omega)
      (by omega) (hroom hpos) x
    rwa [hv, ← Rolling.charge_of_pos hpos] at this

/-- **Charges of one instant add up.** -/
theorem Rolling.charge_charge (hb : 1 < bound) (hlo : V.lo ≤ 0) (ha : 0 ≤ a) (hb' : 0 ≤ b)
    (hhi : a + b ≤ V.hi) :
    (l.charge bound now a).charge bound now b = l.charge bound now (a + b) := by
  rcases ha.eq_or_lt with rfl | hapos
  · simp
  rcases hb'.eq_or_lt with rfl | hbpos
  · simp
  have hva := val_clamp_charge (V := V) hlo ha (by omega)
  have hvb := val_clamp_charge (V := V) hlo hb' (by omega)
  have hvc := val_clamp_charge (V := V) hlo (add_nonneg ha hb') hhi
  rw [Rolling.charge_of_pos hapos, Rolling.charge_of_pos hbpos,
    Rolling.charge_of_pos (by omega : 0 < a + b)]
  exact l.record_record hb now (by omega) (by omega) (by omega)

/-- A run of nonnegative admissions of one instant is one charge of their sum. -/
theorem Rolling.recordAll_eq_charge (hb : 1 < bound) (hlo : V.lo ≤ 0) (l : Rolling T V)
    (now : BoundedInt T) {amounts : List (BoundedInt V)} (hpos : ∀ x ∈ amounts, 0 < x.val)
    (hhi : (amounts.map BoundedInt.val).sum ≤ V.hi) :
    l.recordAll bound now amounts = l.charge bound now (amounts.map BoundedInt.val).sum := by
  cases amounts with
  | nil => simp [Rolling.recordAll]
  | cons x amounts =>
    have hx : 0 < x.val := hpos x List.mem_cons_self
    have hrest : 0 ≤ (amounts.map BoundedInt.val).sum := List.sum_nonneg fun v hv => by
      obtain ⟨y, hy, rfl⟩ := List.mem_map.mp hv
      exact (hpos y (List.mem_cons_of_mem _ hy)).le
    rw [List.map_cons, List.sum_cons] at hhi ⊢
    have hv := val_clamp_charge (V := V) hlo (by omega : 0 ≤ x.val + _) hhi
    rw [Rolling.charge_of_pos (by omega)]
    exact Rolling.recordAll_cons hb now amounts l x _ hx.le
      (fun y hy => (hpos y (List.mem_cons_of_mem _ hy)).le) hv

/-- **An admission brings in no time but its own**: a merged entry keeps the newer timestamp. -/
theorem Admits.exists_ts {amount : BoundedInt V} {m m' : List (Stamped T V)}
    (hadm : Admits bound now amount m m') :
    ∀ e ∈ m', e.ts = now ∨ ∃ e' ∈ m, e'.ts = e.ts := by
  cases hadm with
  | coalesce init last hts =>
    refine List.forall_mem_append.mpr ⟨fun e he => ?_, List.forall_mem_singleton.mpr (.inl rfl)⟩
    exact .inr ⟨e, List.mem_append_left _ he, rfl⟩
  | append m hlast hl =>
    refine List.forall_mem_append.mpr ⟨fun e he => ?_, List.forall_mem_singleton.mpr (.inl rfl)⟩
    exact .inr ⟨e, he, rfl⟩
  | merge older newer rest m hlast hl hb =>
    have happ : ∀ e ∈ older :: newer :: rest, e.ts = now ∨ ∃ e' ∈ m, e'.ts = e.ts := by
      rw [← hl]
      refine List.forall_mem_append.mpr ⟨fun e he => ?_, List.forall_mem_singleton.mpr (.inl rfl)⟩
      exact .inr ⟨e, he, rfl⟩
    obtain ⟨-, hnewer, hrest⟩ := by simpa only [List.forall_mem_cons] using happ
    exact List.forall_mem_cons.mpr ⟨hnewer, hrest⟩

/-- **A charge brings in no time but its own**, and nothing when it is nothing. -/
theorem Rolling.exists_ts_charge (hb : 0 < bound) {e : Stamped T V}
    (he : e ∈ (l.charge bound now a).entries) :
    (e.ts = now ∧ 0 < a) ∨ ∃ e' ∈ l.entries, e'.ts = e.ts := by
  rw [Rolling.charge] at he
  split_ifs at he with ha
  · exact ((admits_record hb l now _).exists_ts e he).imp_left fun hts => ⟨hts, ha⟩
  · exact .inr ⟨e, he, rfl⟩

/-- **A charge of now leaves nothing that was forgotten before now.** -/
theorem Rolling.keepAfter_charge (hb : 0 < bound) {x : ℤ} (h : ∀ e ∈ l.entries, x < e.ts.val)
    (hx : x < now.val) : (l.charge bound now a).keepAfter x = l.charge bound now a := by
  refine Rolling.keepAfter_of_lt fun e he => ?_
  rcases Rolling.exists_ts_charge hb he with ⟨hts, -⟩ | ⟨e', he', hts⟩
  · rwa [hts]
  · rw [← hts]
    exact h e' he'

/-- **When a saturating counter agrees with its entries**: a counter that says their sum up to
saturation says it again after forgetting and counting — unless it was over the top, and some but
not all of it was forgotten, and what was counted since does not make up for that. -/
theorem Rolling.total_eq_min_valueSum_iff (hb : 0 < bound) (hlo : V.lo = 0)
    (h : Ordered bound now.val l.entries) (hl : l.total.val = min V.hi (valueSum l.entries))
    (ha : 0 ≤ a) (hhi : a < V.hi) (x : ℤ) :
    ((l.keepAfter x).charge bound now a).total.val
        = min V.hi (valueSum ((l.keepAfter x).charge bound now a).entries)
      ↔ valueSum l.entries ≤ V.hi ∨ sumUpTo x l.entries = 0 ∨
        sumUpTo x l.entries = valueSum l.entries ∨ sumUpTo x l.entries ≤ a := by
  have hsplit := sumUpTo_add_sumAfter x l.entries
  have hupTo := sumUpTo_nonneg h.positive x
  have hafter := sumAfter_nonneg h.positive x
  rw [Rolling.val_total_charge hlo.le ha hhi.le, Rolling.val_total_keepAfter h.positive,
    Rolling.min_valueSum_charge hb hlo.le (h.keepAfter x).positive hhi.le ha,
    valueSum_keepAfter, hlo, hl]
  omega

theorem Rolling.charge_eq_nil_iff (hb : 0 < bound) (ha : 0 ≤ a) :
    (l.charge bound now a).entries = [] ↔ l.entries = [] ∧ a = 0 := by
  rcases ha.eq_or_lt with rfl | hpos
  · simp
  · rw [Rolling.charge_of_pos hpos]
    simp [l.record_ne_nil hb now, hpos.ne']

end

end Machinery
