import AgentGuard.Machinery.BoundedInt
import AgentGuard.Machinery.PartitionPoint
import Mathlib.Algebra.BigOperators.Group.List.Basic
import Mathlib.Algebra.Order.BigOperators.Group.List
import Mathlib.Data.List.Induction

/-!
# Machinery/RollingLedger — a bounded, coalescing list of timestamped values

A rolling ledger keeps entries in time order with a cached total.  `record` records a value: it
joins the last entry when that carries the same timestamp, otherwise it is appended, and an append
beyond the bound merges the two oldest entries *forward*, onto the newer timestamp.

Two readings of the entries matter.  `valueSum` is what a cached total should say; `sumAfter x` is
what the ledger knows to have happened after `x`, and merging forward can only raise it
(`Admits.le_sumAfter`) — a ledger over-counts, never under-counts.
-/

namespace Machinery

variable {T V : IntRange}

/-- A value with the time it was recorded at. -/
@[ext] structure Stamped (T V : IntRange) where
  ts : BoundedInt T
  value : BoundedInt V
deriving DecidableEq

/-- The entries of a rolling ledger, oldest first, with their cached total. -/
@[ext] structure Rolling (T V : IntRange) where
  total : BoundedInt V
  entries : List (Stamped T V)
deriving DecidableEq

/-- The exact sum of the values. -/
def valueSum (l : List (Stamped T V)) : ℤ := (l.map fun e => e.value.val).sum

/-- The exact sum of the values recorded after `x`. -/
def sumAfter (x : ℤ) (l : List (Stamped T V)) : ℤ := valueSum (l.filter fun e => x < e.ts.val)

@[simp] theorem valueSum_nil : valueSum ([] : List (Stamped T V)) = 0 := rfl

@[simp] theorem valueSum_cons (e : Stamped T V) (l : List (Stamped T V)) :
    valueSum (e :: l) = e.value.val + valueSum l := by simp [valueSum]

@[simp] theorem valueSum_append (l m : List (Stamped T V)) :
    valueSum (l ++ m) = valueSum l + valueSum m := by simp [valueSum]

@[simp] theorem sumAfter_nil (x : ℤ) : sumAfter x ([] : List (Stamped T V)) = 0 := rfl

theorem sumAfter_cons (x : ℤ) (e : Stamped T V) (l : List (Stamped T V)) :
    sumAfter x (e :: l) = (if x < e.ts.val then e.value.val else 0) + sumAfter x l := by
  by_cases h : x < e.ts.val <;> simp [sumAfter, h]

@[simp] theorem sumAfter_append (x : ℤ) (l m : List (Stamped T V)) :
    sumAfter x (l ++ m) = sumAfter x l + sumAfter x m := by simp [sumAfter]

theorem valueSum_nonneg_of_nonneg {l : List (Stamped T V)} (h : ∀ e ∈ l, 0 ≤ e.value.val) :
    0 ≤ valueSum l :=
  List.sum_nonneg fun v hv => by
    obtain ⟨e, he, rfl⟩ := List.mem_map.mp hv
    exact h e he

theorem valueSum_nonneg {l : List (Stamped T V)} (h : ∀ e ∈ l, 0 < e.value.val) :
    0 ≤ valueSum l := valueSum_nonneg_of_nonneg fun e he => (h e he).le

/-- Fewer entries, no more value. -/
theorem valueSum_le_of_sublist {l l' : List (Stamped T V)} (hsub : l'.Sublist l)
    (h : ∀ e ∈ l, 0 < e.value.val) : valueSum l' ≤ valueSum l := by
  refine (hsub.map fun e => e.value.val).sum_le_sum fun v hv => ?_
  obtain ⟨e, he, rfl⟩ := List.mem_map.mp hv
  exact (h e he).le

theorem value_le_valueSum {l : List (Stamped T V)} (h : ∀ e ∈ l, 0 < e.value.val)
    {e : Stamped T V} (he : e ∈ l) : e.value.val ≤ valueSum l := by
  obtain ⟨l₁, l₂, rfl⟩ := List.append_of_mem he
  have h₁ := valueSum_nonneg fun e' he' => h e' (List.mem_append_left _ he')
  have h₂ := valueSum_nonneg fun e' he' =>
    h e' (List.mem_append_right _ (List.mem_cons_of_mem _ he'))
  rw [valueSum_append, valueSum_cons]
  omega

theorem sumAfter_nonneg {l : List (Stamped T V)} (h : ∀ e ∈ l, 0 < e.value.val) (x : ℤ) :
    0 ≤ sumAfter x l :=
  valueSum_nonneg fun e he => h e (List.mem_of_mem_filter he)

/-- **Knowing about more time is knowing about more value.** -/
theorem sumAfter_anti {l : List (Stamped T V)} (h : ∀ e ∈ l, 0 < e.value.val) {x y : ℤ}
    (hxy : x ≤ y) : sumAfter y l ≤ sumAfter x l := by
  have hlater : ∀ e : Stamped T V, decide (y < e.ts.val) = true → decide (x < e.ts.val) = true :=
    fun e he => decide_eq_true (hxy.trans_lt (of_decide_eq_true he))
  exact valueSum_le_of_sublist (List.monotone_filter_right l hlater) fun e he =>
    h e (List.mem_of_mem_filter he)

theorem sumAfter_le_valueSum {l : List (Stamped T V)} (h : ∀ e ∈ l, 0 < e.value.val) (x : ℤ) :
    sumAfter x l ≤ valueSum l := valueSum_le_of_sublist List.filter_sublist h

/-! ## The shape of a ledger's entries -/

/-- **The representation invariant of the entries at time `now`**: in strict time order, none from
the future, every value positive, and no more than `bound` of them. -/
structure Ordered (bound : ℕ) (now : ℤ) (l : List (Stamped T V)) : Prop where
  sorted : l.Pairwise fun a b => a.ts.val < b.ts.val
  recent : ∀ e ∈ l, e.ts.val ≤ now
  positive : ∀ e ∈ l, 0 < e.value.val
  bounded : l.length ≤ bound

theorem Ordered.nil (bound : ℕ) (now : ℤ) : Ordered bound now ([] : List (Stamped T V)) :=
  ⟨List.Pairwise.nil, by simp, by simp, Nat.zero_le _⟩

theorem Ordered.mono {bound : ℕ} {now now' : ℤ} {l : List (Stamped T V)}
    (h : Ordered bound now l) (hn : now ≤ now') : Ordered bound now' l :=
  ⟨h.sorted, fun e he => (h.recent e he).trans hn, h.positive, h.bounded⟩

theorem Ordered.sublist {bound : ℕ} {now : ℤ} {l m : List (Stamped T V)}
    (h : Ordered bound now l) (hs : m.Sublist l) : Ordered bound now m :=
  ⟨h.sorted.sublist hs, fun e he => h.recent e (hs.subset he),
    fun e he => h.positive e (hs.subset he), hs.length_le.trans h.bounded⟩

/-- **The cached total is the exact sum.** -/
def Rolling.Exact (l : Rolling T V) : Prop := l.total.val = valueSum l.entries

/-! ## Admission -/

/-- Append an entry; beyond the bound, merge the two oldest entries onto the newer timestamp and
report the merged entry. -/
def Rolling.push (bound : ℕ) (l : Rolling T V) (now : BoundedInt T) (amount : BoundedInt V) :
    Rolling T V × Option (BoundedInt T × BoundedInt V) :=
  let entries := l.entries ++ [⟨now, amount⟩]
  let total := l.total.saturatingAdd amount
  if bound < entries.length then
    let older := entries.head?.getD ⟨0, 0⟩
    let newer := entries.tail.head?.getD ⟨0, 0⟩
    let merged : Stamped T V := ⟨newer.ts, older.value.saturatingAdd newer.value⟩
    (⟨total, merged :: entries.tail.tail⟩, some (merged.ts, merged.value))
  else (⟨total, entries⟩, none)

/-- Record `amount` at `now`, joining the last entry when it carries the same timestamp. -/
def Rolling.record (bound : ℕ) (l : Rolling T V) (now : BoundedInt T) (amount : BoundedInt V) :
    Rolling T V × Option (BoundedInt T × BoundedInt V) :=
  match l.entries.getLast? with
  | some last =>
    if last.ts = now then
      (⟨l.total.saturatingAdd amount,
        l.entries.dropLast ++ [⟨now, last.value.saturatingAdd amount⟩]⟩, none)
    else l.push bound now amount
  | none => l.push bound now amount

/-- **What an admission does to the entries** — it joins the last entry, is appended, or is appended
with the two oldest entries merged forward. -/
inductive Admits (bound : ℕ) (now : BoundedInt T) (amount : BoundedInt V) :
    List (Stamped T V) → List (Stamped T V) → Prop
  | coalesce (init : List (Stamped T V)) (last : Stamped T V) (h : last.ts = now) :
      Admits bound now amount (init ++ [last])
        (init ++ [⟨now, last.value.saturatingAdd amount⟩])
  | append (l : List (Stamped T V)) (h : ∀ last ∈ l.getLast?, last.ts ≠ now)
      (hl : l.length < bound) : Admits bound now amount l (l ++ [⟨now, amount⟩])
  | merge (older newer : Stamped T V) (rest l : List (Stamped T V))
      (h : ∀ last ∈ l.getLast?, last.ts ≠ now)
      (hl : l ++ [⟨now, amount⟩] = older :: newer :: rest) (hb : bound ≤ l.length) :
      Admits bound now amount l (⟨newer.ts, older.value.saturatingAdd newer.value⟩ :: rest)

theorem total_push (bound : ℕ) (l : Rolling T V) (now : BoundedInt T) (amount : BoundedInt V) :
    (l.push bound now amount).1.total = l.total.saturatingAdd amount := by
  simp only [Rolling.push]
  split <;> rfl

@[simp] theorem total_record (bound : ℕ) (l : Rolling T V) (now : BoundedInt T)
    (amount : BoundedInt V) :
    (l.record bound now amount).1.total = l.total.saturatingAdd amount := by
  simp only [Rolling.record]
  split
  · split
    · rfl
    · exact total_push bound l now amount
  · exact total_push bound l now amount

theorem admits_push {bound : ℕ} (hb : 0 < bound) (l : Rolling T V) (now : BoundedInt T)
    (amount : BoundedInt V) (h : ∀ last ∈ l.entries.getLast?, last.ts ≠ now) :
    Admits bound now amount l.entries (l.push bound now amount).1.entries := by
  simp only [Rolling.push]
  split
  · rename_i hlen
    have hlen' : bound ≤ l.entries.length := by
      rw [List.length_append, List.length_singleton] at hlen; omega
    match hl : l.entries with
    | [] => simp only [hl, List.length_nil] at hlen'; omega
    | older :: [] => exact .merge older ⟨now, amount⟩ [] _ (hl ▸ h) rfl (hl ▸ hlen')
    | older :: newer :: rest =>
      exact .merge older newer (rest ++ [⟨now, amount⟩]) _ (hl ▸ h) rfl (hl ▸ hlen')
  · rename_i hlen
    exact .append l.entries h (by
      rw [List.length_append, List.length_singleton] at hlen; omega)

/-- **`record` performs one of the three.** -/
theorem admits_record {bound : ℕ} (hb : 0 < bound) (l : Rolling T V) (now : BoundedInt T)
    (amount : BoundedInt V) :
    Admits bound now amount l.entries (l.record bound now amount).1.entries := by
  simp only [Rolling.record]
  split
  · rename_i last hlast
    split
    · rename_i hts
      have hsplit : l.entries = l.entries.dropLast ++ [last] :=
        (List.dropLast_append_getLast? last hlast).symm
      conv => arg 4; rw [hsplit]
      exact .coalesce l.entries.dropLast last hts
    · rename_i hts
      exact admits_push hb l now amount (by simpa [hlast] using hts)
  · rename_i hnone
    exact admits_push hb l now amount (by simp [hnone])

/-! ### What an admission preserves -/

section

variable {bound : ℕ} {now : BoundedInt T} {amount : BoundedInt V} {l l' : List (Stamped T V)}

/-- Unless the last entry is from this very instant, every entry is from before it. -/
theorem Ordered.lt_of_getLast_ne (h : Ordered bound now.val l)
    (hlast : ∀ last ∈ l.getLast?, last.ts ≠ now) : ∀ e ∈ l, e.ts.val < now.val := by
  intro e he
  rcases List.eq_nil_or_concat l with rfl | ⟨init, last, rfl⟩
  · simp at he
  rw [List.concat_eq_append] at h hlast he
  have hne : last.ts.val ≠ now.val := fun hv => hlast last (by simp) (BoundedInt.ext hv)
  have hle := h.recent last (by simp)
  rcases List.mem_append.mp he with hi | hi
  · have := (List.pairwise_append.mp h.sorted).2.2 e hi last (by simp)
    omega
  · obtain rfl : e = last := by simpa using hi
    omega

/-- A saturating sum of positive values is positive. -/
theorem saturatingAdd_pos {a b : BoundedInt V} (ha : 0 < a.val) (hb : 0 < b.val) :
    0 < (a.saturatingAdd b).val := by
  have := a.le_hi
  rw [BoundedInt.val_saturatingAdd_of_nonneg a hb.le]
  omega

/-- An appended entry of this instant keeps the order. -/
theorem Ordered.append (h : Ordered bound now.val l) (ha : 0 < amount.val)
    (hlast : ∀ last ∈ l.getLast?, last.ts ≠ now) :
    Ordered (l.length + 1) now.val (l ++ [⟨now, amount⟩]) where
  sorted := List.pairwise_append.mpr ⟨h.sorted, List.pairwise_singleton _ _, fun e he e' he' => by
    obtain rfl := List.mem_singleton.mp he'
    exact h.lt_of_getLast_ne hlast e he⟩
  recent := List.forall_mem_append.mpr ⟨h.recent, List.forall_mem_singleton.mpr le_rfl⟩
  positive := List.forall_mem_append.mpr ⟨h.positive, List.forall_mem_singleton.mpr ha⟩
  bounded := by simp

/-- **Admission keeps the representation invariant.** -/
theorem Admits.ordered (hadm : Admits bound now amount l l') (h : Ordered bound now.val l)
    (ha : 0 < amount.val) : Ordered bound now.val l' := by
  cases hadm with
  | coalesce init last hts =>
    subst hts
    obtain ⟨hinit, -, hlt⟩ := List.pairwise_append.mp h.sorted
    have hrecent := (List.forall_mem_append.mp h.recent).1
    have hpositive := (List.forall_mem_append.mp h.positive).1
    have hlast := h.positive last (by simp)
    refine ⟨List.pairwise_append.mpr ⟨hinit, List.pairwise_singleton _ _, fun e he e' he' => ?_⟩,
      List.forall_mem_append.mpr ⟨hrecent, List.forall_mem_singleton.mpr le_rfl⟩,
      List.forall_mem_append.mpr ⟨hpositive, List.forall_mem_singleton.mpr ?_⟩,
      by simpa using h.bounded⟩
    · obtain rfl := List.mem_singleton.mp he'
      exact hlt e he last (by simp)
    · exact saturatingAdd_pos hlast ha
  | append l hlast hl =>
    have := h.append ha hlast
    exact ⟨this.sorted, this.recent, this.positive, by simp; omega⟩
  | merge older newer rest l hlast hl hb =>
    have happ := h.append ha hlast
    rw [hl] at happ
    have hlen : l.length + 1 = rest.length + 2 := by simpa using congrArg List.length hl
    have hsorted := List.pairwise_cons.mp (List.pairwise_cons.mp happ.sorted).2
    have hpos := saturatingAdd_pos (happ.positive older (by simp)) (happ.positive newer (by simp))
    refine ⟨List.pairwise_cons.mpr ⟨fun e he => hsorted.1 e he, hsorted.2⟩,
      List.forall_mem_cons.mpr ⟨happ.recent newer (by simp), fun e he => ?_⟩,
      List.forall_mem_cons.mpr ⟨hpos, fun e he => ?_⟩, by have := h.bounded; simp; omega⟩
    · exact happ.recent e (by simp [he])
    · exact happ.positive e (by simp [he])

/-- The entries of an appended ledger are positive. -/
theorem positive_append (now : BoundedInt T) (hpos : ∀ e ∈ l, 0 < e.value.val)
    (ha : 0 < amount.val) : ∀ e ∈ l ++ [⟨now, amount⟩], 0 < e.value.val :=
  List.forall_mem_append.mpr ⟨hpos, List.forall_mem_singleton.mpr ha⟩

/-- What a merge has to deal with: two entries, and a rest that is worth something or nothing. -/
theorem valueSum_of_append_eq {older newer : Stamped T V} {rest : List (Stamped T V)}
    (hl : l ++ [⟨now, amount⟩] = older :: newer :: rest) (hpos : ∀ e ∈ l, 0 < e.value.val)
    (ha : 0 < amount.val) :
    valueSum l + amount.val = older.value.val + (newer.value.val + valueSum rest) ∧
      0 < newer.value.val ∧ 0 ≤ valueSum rest := by
  have happ := positive_append now hpos ha
  rw [hl] at happ
  refine ⟨by simpa using congrArg valueSum hl, happ newer (by simp), ?_⟩
  exact valueSum_nonneg fun e he => happ e (by simp [he])

/-- **Up to saturation the sum grows by the amount** — joining or merging entries moves value
between them, and whatever saturates in an entry already saturates the sum. -/
theorem Admits.min_valueSum (hadm : Admits bound now amount l l')
    (hpos : ∀ e ∈ l, 0 < e.value.val) (ha : 0 < amount.val) :
    min V.hi (valueSum l') = min V.hi (valueSum l + amount.val) := by
  cases hadm with
  | coalesce init last hts =>
    have hinit := valueSum_nonneg fun e he => hpos e (List.mem_append_left _ he)
    have hsat := BoundedInt.val_saturatingAdd_of_nonneg last.value ha.le
    simp only [valueSum_append, valueSum_cons, valueSum_nil, hsat]
    omega
  | append l hlast hl => simp
  | merge older newer rest l hlast hl hb =>
    obtain ⟨hsum, hnewer, hrest⟩ := valueSum_of_append_eq hl hpos ha
    have hsat := BoundedInt.val_saturatingAdd_of_nonneg older.value hnewer.le
    rw [hsum, valueSum_cons, hsat]
    omega

/-- **Below saturation the sum grows by exactly the amount.** -/
theorem Admits.valueSum_eq (hadm : Admits bound now amount l l')
    (hpos : ∀ e ∈ l, 0 < e.value.val) (ha : 0 < amount.val)
    (hfit : valueSum l + amount.val ≤ V.hi) : valueSum l' = valueSum l + amount.val := by
  cases hadm with
  | coalesce init last hts =>
    have hinit := valueSum_nonneg fun e he => hpos e (List.mem_append_left _ he)
    simp only [valueSum_append, valueSum_cons, valueSum_nil] at hfit ⊢
    rw [BoundedInt.val_saturatingAdd_of_le ha.le (by omega)]
    omega
  | append l hlast hl => simp
  | merge older newer rest l hlast hl hb =>
    obtain ⟨hsum, hnewer, hrest⟩ := valueSum_of_append_eq hl hpos ha
    rw [hsum, valueSum_cons, BoundedInt.val_saturatingAdd_of_le hnewer.le (by omega)]
    omega

/-- **An admission of `now` would merge**: there is no room for it, and no entry for it to join. -/
def Full (bound : ℕ) (now : BoundedInt T) (l : List (Stamped T V)) : Prop :=
  bound ≤ l.length ∧ ∀ last ∈ l.getLast?, last.ts ≠ now

/-- **Without a merge nothing moves in time**: what is known after `x` grows by the amount. -/
theorem Admits.sumAfter_eq (hadm : Admits bound now amount l l') (h : Ordered bound now.val l)
    (ha : 0 < amount.val) (hfit : valueSum l + amount.val ≤ V.hi) (hroom : ¬Full bound now l)
    (x : ℤ) : sumAfter x l' = sumAfter x l + if x < now.val then amount.val else 0 := by
  cases hadm with
  | coalesce init last hts =>
    subst hts
    have hinit := valueSum_nonneg fun e he => h.positive e (List.mem_append_left _ he)
    simp only [valueSum_append, valueSum_cons, valueSum_nil] at hfit
    simp only [sumAfter_append, sumAfter_cons, sumAfter_nil]
    rw [BoundedInt.val_saturatingAdd_of_le ha.le (by omega)]
    split_ifs <;> omega
  | append l hlast hl => simp [sumAfter_cons]
  | merge older newer rest l hlast hl hb => exact absurd ⟨hb, hlast⟩ hroom

/-- **Admission never loses sight of anything**: what is known after `x` grows by the amount, and a
merge forward only moves older value past `x`. -/
theorem Admits.le_sumAfter (hadm : Admits bound now amount l l') (h : Ordered bound now.val l)
    (ha : 0 < amount.val) (hfit : valueSum l + amount.val ≤ V.hi) (x : ℤ) :
    sumAfter x l + (if x < now.val then amount.val else 0) ≤ sumAfter x l' := by
  by_cases hroom : Full bound now l
  · cases hadm with
    | coalesce init last hts => exact absurd hts (hroom.2 last (by simp))
    | append l hlast hl => exact absurd hroom.1 (not_le.mpr hl)
    | merge older newer rest l hlast hl hb =>
      have happ := h.append ha hlast
      rw [hl] at happ
      have hlt := (List.pairwise_cons.mp happ.sorted).1 newer (by simp)
      have holder := happ.positive older (by simp)
      obtain ⟨hsum, hnewer, hrest⟩ := valueSum_of_append_eq hl h.positive ha
      have hafter : sumAfter x l + (if x < now.val then amount.val else 0)
          = sumAfter x (older :: newer :: rest) := by
        rw [← hl]; simp [sumAfter_cons]
      rw [hafter]
      simp only [sumAfter_cons]
      rw [BoundedInt.val_saturatingAdd_of_le hnewer.le (by omega)]
      split_ifs <;> omega
  · exact (hadm.sumAfter_eq h ha hfit hroom x).ge

/-- **A merge is reported**, whatever the amount. -/
theorem Rolling.not_full_of_record {l : Rolling T V}
    (h : (l.record bound now amount).2 = none) : ¬Full bound now l.entries := by
  rintro ⟨hlen, hlast⟩
  have hpush : (l.push bound now amount).2 ≠ none := by
    have hlong : bound < (l.entries ++ [(⟨now, amount⟩ : Stamped T V)]).length := by
      rw [List.length_append, List.length_singleton]
      omega
    simp only [Rolling.push]
    rw [if_pos hlong]
    exact Option.some_ne_none _
  rw [Rolling.record] at h
  split at h
  · rename_i last hl
    rw [if_neg (hlast last hl)] at h
    exact hpush h
  · exact hpush h

end

/-! ### Admissions of one instant -/

/-- Saturating sums of nonnegative values associate. -/
theorem saturatingAdd_saturatingAdd {a b c d : BoundedInt V} (hb : 0 ≤ b.val) (hc : 0 ≤ c.val)
    (hd : d.val = b.val + c.val) :
    (a.saturatingAdd b).saturatingAdd c = a.saturatingAdd d := by
  refine BoundedInt.ext ?_
  rw [BoundedInt.val_saturatingAdd_of_nonneg _ hc, BoundedInt.val_saturatingAdd_of_nonneg _ hb,
    BoundedInt.val_saturatingAdd_of_nonneg _ (by omega), hd]
  omega

/-- A ledger whose last entry is of this instant coalesces. -/
theorem Rolling.record_of_last (bound : ℕ) (total : BoundedInt V) (init : List (Stamped T V))
    (now : BoundedInt T) (value amount : BoundedInt V) :
    (Rolling.mk total (init ++ [⟨now, value⟩])).record bound now amount
      = (⟨total.saturatingAdd amount, init ++ [⟨now, value.saturatingAdd amount⟩]⟩, none) := by
  simp [Rolling.record]

/-- **An append ends in its own entry, and what stands before it does not depend on the amount** —
with a bound of at least two, a merge never reaches the new entry. -/
theorem Rolling.push_eq {bound : ℕ} (hb : 1 < bound) (l : Rolling T V) (now : BoundedInt T) :
    ∃ init, ∀ amount, (l.push bound now amount).1
      = ⟨l.total.saturatingAdd amount, init ++ [⟨now, amount⟩]⟩ := by
  by_cases hlen : bound < l.entries.length + 1
  · match hl : l.entries with
    | [] => simp only [hl, List.length_nil] at hlen; omega
    | [_] => simp only [hl, List.length_singleton] at hlen; omega
    | older :: newer :: rest =>
      refine ⟨⟨newer.ts, older.value.saturatingAdd newer.value⟩ :: rest, fun amount => ?_⟩
      rw [hl] at hlen
      simp only [Rolling.push, hl, List.length_append, List.length_singleton]
      rw [if_pos hlen]
      rfl
  · refine ⟨l.entries, fun amount => ?_⟩
    simp only [Rolling.push, List.length_append, List.length_singleton]
    rw [if_neg hlen]

/-- **Two admissions of one instant are one admission of their sum.** -/
theorem Rolling.record_record {bound : ℕ} (hb : 1 < bound) (l : Rolling T V) (now : BoundedInt T)
    {a b c : BoundedInt V} (ha : 0 ≤ a.val) (hb' : 0 ≤ b.val) (hc : c.val = a.val + b.val) :
    ((l.record bound now a).1.record bound now b).1 = (l.record bound now c).1 := by
  have hassoc : ∀ x : BoundedInt V, (x.saturatingAdd a).saturatingAdd b = x.saturatingAdd c :=
    fun x => saturatingAdd_saturatingAdd ha hb' hc
  have hsum : a.saturatingAdd b = c := by
    refine BoundedInt.ext ?_
    rw [BoundedInt.val_saturatingAdd_of_le hb' (by have := c.le_hi; omega), hc]
  have hpush : ((l.push bound now a).1.record bound now b).1 = (l.push bound now c).1 := by
    obtain ⟨init, h⟩ := l.push_eq hb now
    rw [h a, h c, Rolling.record_of_last, hassoc, hsum]
  match hlast : l.entries.getLast? with
  | none => simpa [Rolling.record, hlast] using hpush
  | some last =>
    by_cases hts : last.ts = now
    · simp [Rolling.record, hlast, hts, hassoc]
    · simpa [Rolling.record, hlast, hts] using hpush

/-- An admission always leaves an entry. -/
theorem Rolling.record_ne_nil {bound : ℕ} (hb : 0 < bound) (l : Rolling T V) (now : BoundedInt T)
    (amount : BoundedInt V) : (l.record bound now amount).1.entries ≠ [] := by
  have h := admits_record hb l now amount
  generalize (l.record bound now amount).1.entries = l' at h
  generalize l.entries = m at h
  cases h <;> simp

/-- Admit a run of values of one instant. -/
def Rolling.recordAll (bound : ℕ) (l : Rolling T V) (now : BoundedInt T)
    (amounts : List (BoundedInt V)) : Rolling T V :=
  amounts.foldl (fun l amount => (l.record bound now amount).1) l

/-- **A run of admissions of one instant is one admission of the sum.** -/
theorem Rolling.recordAll_cons {bound : ℕ} (hb : 1 < bound) (now : BoundedInt T)
    (amounts : List (BoundedInt V)) : ∀ (l : Rolling T V) (a c : BoundedInt V), 0 ≤ a.val →
      (∀ b ∈ amounts, 0 ≤ b.val) → c.val = a.val + (amounts.map BoundedInt.val).sum →
        l.recordAll bound now (a :: amounts) = (l.record bound now c).1 := by
  induction amounts with
  | nil =>
    intro l a c _ _ hc
    obtain rfl : c = a := BoundedInt.ext (by simpa using hc)
    rfl
  | cons b amounts ih =>
    intro l a c ha hnn hc
    have hb' : 0 ≤ b.val := hnn b (by simp)
    have hrest : 0 ≤ (amounts.map BoundedInt.val).sum := List.sum_nonneg fun v hv => by
      obtain ⟨b', hb'', rfl⟩ := List.mem_map.mp hv
      exact hnn b' (by simp [hb''])
    simp only [List.map_cons, List.sum_cons] at hc
    -- the tail is one admission of `d`, and `a` joins it
    obtain ⟨d, hd⟩ : ∃ d : BoundedInt V, d.val = b.val + (amounts.map BoundedInt.val).sum :=
      ⟨⟨_, by have := b.lo_le; omega, by have := c.le_hi; omega⟩, rfl⟩
    calc l.recordAll bound now (a :: b :: amounts)
        = (l.record bound now a).1.recordAll bound now (b :: amounts) := rfl
      _ = ((l.record bound now a).1.record bound now d).1 :=
          ih _ b d hb' (fun b' hb'' => hnn b' (by simp [hb''])) hd
      _ = (l.record bound now c).1 := l.record_record hb now ha (by omega) (by omega)

/-! ## Expiry -/

/-- Subtracting a run of nonnegative values stops only at the bottom of the range. -/
theorem val_foldl_saturatingSub (values : List (BoundedInt V)) :
    ∀ a : BoundedInt V, (∀ b ∈ values, 0 ≤ b.val) →
      (values.foldl BoundedInt.saturatingSub a).val
        = max V.lo (a.val - (values.map BoundedInt.val).sum) := by
  induction values with
  | nil => intro a _; have := a.lo_le; simp; omega
  | cons b values ih =>
    intro a h
    have hrest : 0 ≤ (values.map BoundedInt.val).sum := List.sum_nonneg fun v hv => by
      obtain ⟨b', hb', rfl⟩ := List.mem_map.mp hv
      exact h b' (by simp [hb'])
    rw [List.foldl_cons, ih _ fun b' hb' => h b' (by simp [hb']),
      BoundedInt.val_saturatingSub_of_nonneg _ (h b (by simp)), List.map_cons, List.sum_cons]
    omega

/-- The same for the values of a list of entries. -/
theorem val_foldl_values {l : List (Stamped T V)} (h : ∀ e ∈ l, 0 ≤ e.value.val)
    (a : BoundedInt V) :
    ((l.map Stamped.value).foldl BoundedInt.saturatingSub a).val
      = max V.lo (a.val - valueSum l) := by
  have hvalues : ∀ b ∈ l.map Stamped.value, 0 ≤ b.val := fun b hb => by
    obtain ⟨e, he, rfl⟩ := List.mem_map.mp hb
    exact h e he
  rw [val_foldl_saturatingSub _ _ hvalues, List.map_map]
  rfl

/-! ## Rebuilding from stored entries -/

/-- Rebuild a ledger from its entries: keep the positive ones and re-accumulate the total. -/
def Rolling.rebuild (entries : List (Stamped T V)) : Rolling T V :=
  entries.foldl
    (fun l e => if 0 < e.value.val then ⟨l.total.saturatingAdd e.value, l.entries ++ [e]⟩ else l)
    ⟨0, []⟩

/-- **A rebuilt ledger holds the positive entries, with their saturated sum** — whatever total was
cached with them. -/
theorem Rolling.rebuild_eq (hlo : V.lo ≤ 0) (hhi : 0 ≤ V.hi) (entries : List (Stamped T V)) :
    (Rolling.rebuild entries).entries = entries.filter (fun e => 0 < e.value.val) ∧
      (Rolling.rebuild entries).total.val
        = min V.hi (valueSum (entries.filter fun e => 0 < e.value.val)) := by
  induction entries using List.reverseRecOn with
  | nil => exact ⟨rfl, (BoundedInt.val_ofNat (n := 0) hlo hhi).trans (min_eq_right hhi).symm⟩
  | append_singleton entries e ih =>
    obtain ⟨ihe, iht⟩ := ih
    rw [Rolling.rebuild, List.foldl_append, List.foldl_cons, List.foldl_nil, ← Rolling.rebuild]
    by_cases he : 0 < e.value.val
    · simp only [he, if_true, List.filter_append, List.filter_cons, decide_true, List.filter_nil,
        valueSum_append, valueSum_cons, valueSum_nil, ihe, true_and]
      rw [BoundedInt.val_saturatingAdd_of_nonneg _ he.le, iht]
      omega
    · simp only [he, if_false, List.filter_append, List.filter_cons, decide_false, List.filter_nil,
        List.append_nil, ihe, iht, true_and, Bool.false_eq_true]

/-- **An exact ledger of positive entries survives being rebuilt.** -/
theorem Rolling.rebuild_of_exact (hlo : V.lo ≤ 0) (hhi : 0 ≤ V.hi) {l : Rolling T V}
    (hpos : ∀ e ∈ l.entries, 0 < e.value.val) (hex : l.total.val = min V.hi (valueSum l.entries)) :
    Rolling.rebuild l.entries = l := by
  have hfilter : l.entries.filter (fun e => 0 < e.value.val) = l.entries :=
    List.filter_eq_self.mpr fun e he => by simpa using hpos e he
  have h := Rolling.rebuild_eq hlo hhi l.entries
  rw [hfilter] at h
  exact Rolling.ext (BoundedInt.ext (h.2.trans hex.symm)) h.1

/-- **What a list of stored entries is rebuilt to**: its positive entries, in order, with their
saturated sum. -/
structure Rolling.Rebuilt (entries : List (Stamped T V)) (l : Rolling T V) : Prop where
  entries : l.entries = entries.filter fun e => 0 < e.value.val
  total : l.total.val = min V.hi (valueSum l.entries)

theorem Rolling.rebuilt (hlo : V.lo ≤ 0) (hhi : 0 ≤ V.hi) (entries : List (Stamped T V)) :
    Rolling.Rebuilt entries (Rolling.rebuild entries) := by
  obtain ⟨hentries, htotal⟩ := Rolling.rebuild_eq hlo hhi entries
  exact ⟨hentries, hentries ▸ htotal⟩

/-- A rebuilt ledger is rebuilt from its own entries. -/
theorem Rolling.rebuild_rebuild (hlo : V.lo ≤ 0) (hhi : 0 ≤ V.hi) (entries : List (Stamped T V)) :
    Rolling.rebuild (Rolling.rebuild entries).entries = Rolling.rebuild entries := by
  have h := Rolling.rebuilt hlo hhi entries
  refine Rolling.rebuild_of_exact hlo hhi (fun e he => ?_) h.total
  rw [h.entries] at he
  simpa using List.of_mem_filter he

end Machinery
