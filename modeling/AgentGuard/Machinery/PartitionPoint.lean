import Mathlib.Data.List.TakeWhile
import Mathlib.Data.List.Pairwise

/-!
# Machinery/PartitionPoint — searching a list

`partitionPoint p l` halves `[0, l.length)` until it has found the first index at which `p` fails.
When `p` can only switch off along `l` (`Prefixed p l`) that index is the length of the `p`-prefix,
found with at most `l.length` halvings; cutting there is `dropWhile p`, and also `filter ¬p`.  In a
list without repeated keys, a linear search for a key finds the only entry there is.
-/

namespace Machinery

variable {α : Type*}

/-- **`p` holds on a prefix of `l` and nowhere else** — once off, it stays off. -/
def Prefixed (p : α → Bool) (l : List α) : Prop := l.Pairwise fun a b => p b → p a

/-- The search loop on `[low, high)`; `none` when `fuel` halvings did not close the interval.  An
index outside the list makes no progress, as a loop that skips a failed read would not. -/
def partitionPointLoop (p : α → Bool) (l : List α) : ℕ → ℕ → ℕ → Option ℕ
  | 0, low, high => if low < high then none else some low
  | fuel + 1, low, high =>
    if low < high then
      match l[low + (high - low) / 2]? with
      | some x =>
        if p x then partitionPointLoop p l fuel (low + (high - low) / 2 + 1) high
        else partitionPointLoop p l fuel low (low + (high - low) / 2)
      | none => partitionPointLoop p l fuel low high
    else some low

/-- Binary search for the first index at which `p` fails. -/
def partitionPoint (p : α → Bool) (l : List α) : Option ℕ :=
  partitionPointLoop p l l.length 0 l.length

section

variable {p : α → Bool} {l : List α}

theorem Prefixed.of_cons {a : α} (h : Prefixed p (a :: l)) : Prefixed p l :=
  (List.pairwise_cons.mp h).2

/-- A failing head fails the whole list. -/
theorem Prefixed.eq_false_of_cons {a : α} (h : Prefixed p (a :: l)) (ha : p a = false) :
    ∀ b ∈ l, p b = false := fun b hb => by
  by_contra hne
  have := (List.pairwise_cons.mp h).1 b hb (by simpa using hne)
  simp [ha] at this

/-- **The prefix is exactly what `p` accepts.** -/
theorem Prefixed.lt_length_takeWhile_iff (h : Prefixed p l) {i : ℕ} (hi : i < l.length) :
    i < (l.takeWhile p).length ↔ p l[i] = true := by
  induction l generalizing i with
  | nil => simp at hi
  | cons a l ih =>
    by_cases ha : p a = true
    · rw [List.takeWhile_cons_of_pos ha]
      cases i with
      | zero => simp [ha]
      | succ i =>
        have := ih h.of_cons (i := i) (by simpa using hi)
        simpa using this
    · have hrest := h.eq_false_of_cons (by simpa using ha)
      rw [List.takeWhile_cons_of_neg ha]
      cases i with
      | zero => simp [ha]
      | succ i =>
        have hi' : i < l.length := by simpa using hi
        simp [hrest l[i] (List.getElem_mem hi')]

/-- Past the prefix nothing is accepted, so cutting the prefix is filtering. -/
theorem Prefixed.dropWhile_eq_filter (h : Prefixed p l) :
    l.dropWhile p = l.filter fun a => !p a := by
  induction l with
  | nil => rfl
  | cons a l ih =>
    by_cases ha : p a = true
    · rw [List.dropWhile_cons_of_pos ha, List.filter_cons_of_neg (by simp [ha]), ih h.of_cons]
    · have hrest := h.eq_false_of_cons (by simpa using ha)
      rw [List.dropWhile_cons_of_neg ha]
      refine (List.filter_eq_self.mpr fun b hb => ?_).symm
      rcases List.mem_cons.mp hb with rfl | hb
      · simpa using ha
      · simp [hrest b hb]

/-- The prefix is what filtering finds. -/
theorem Prefixed.takeWhile_eq_filter (h : Prefixed p l) : l.takeWhile p = l.filter p := by
  induction l with
  | nil => rfl
  | cons a l ih =>
    by_cases ha : p a = true
    · rw [List.takeWhile_cons_of_pos ha, List.filter_cons_of_pos ha, ih h.of_cons]
    · have hrest := h.eq_false_of_cons (by simpa using ha)
      rw [List.takeWhile_cons_of_neg ha, List.filter_cons_of_neg ha]
      exact (List.filter_eq_nil_iff.mpr fun b hb => by simp [hrest b hb]).symm

/-- **The loop closes on the prefix length**, given as much fuel as the interval is wide. -/
theorem partitionPointLoop_eq (h : Prefixed p l) :
    ∀ (fuel low high : ℕ), high - low ≤ fuel → high ≤ l.length →
      low ≤ (l.takeWhile p).length → (l.takeWhile p).length ≤ high →
        partitionPointLoop p l fuel low high = some (l.takeWhile p).length := by
  intro fuel
  induction fuel with
  | zero =>
    intro low high hf _ hlo hhi
    rw [partitionPointLoop, if_neg (by omega), show low = (l.takeWhile p).length by omega]
  | succ fuel ih =>
    intro low high hf hlen hlo hhi
    rw [partitionPointLoop]
    by_cases hlt : low < high
    · have hmid : low + (high - low) / 2 < l.length := by omega
      have hmid' : low + (high - low) / 2 < high := by omega
      rw [if_pos hlt, List.getElem?_eq_getElem hmid]
      have hiff := h.lt_length_takeWhile_iff hmid
      by_cases hp : p l[low + (high - low) / 2] = true
      · have := hiff.mpr hp
        simp only [hp, if_true]
        exact ih _ _ (by omega) hlen (by omega) hhi
      · have := mt hiff.mp hp
        simp only [hp]
        exact ih _ _ (by omega) (by omega) hlo (by omega)
    · rw [if_neg hlt, show low = (l.takeWhile p).length by omega]

/-- **Binary search finds the prefix length.** -/
theorem partitionPoint_eq (h : Prefixed p l) :
    partitionPoint p l = some (l.takeWhile p).length :=
  partitionPointLoop_eq h _ _ _ (by omega) le_rfl (Nat.zero_le _)
    (List.takeWhile_prefix p).length_le

theorem drop_length_takeWhile (p : α → Bool) (l : List α) :
    l.drop (l.takeWhile p).length = l.dropWhile p := by
  have h : l.drop (l.takeWhile p).length
      = (l.takeWhile p ++ l.dropWhile p).drop (l.takeWhile p).length := by
    rw [List.takeWhile_append_dropWhile]
  rw [h, List.drop_left]

theorem take_length_takeWhile (p : α → Bool) (l : List α) :
    l.take (l.takeWhile p).length = l.takeWhile p :=
  (List.prefix_iff_eq_take.mp (List.takeWhile_prefix p)).symm

/-- What a stronger test drops, a weaker one drops as well. -/
theorem dropWhile_dropWhile_of_imp {p q : α → Bool} (hpq : ∀ a, p a = true → q a = true)
    (l : List α) : (l.dropWhile p).dropWhile q = l.dropWhile q := by
  induction l with
  | nil => rfl
  | cons a l ih =>
    by_cases ha : p a = true
    · rw [List.dropWhile_cons_of_pos ha, ih, List.dropWhile_cons_of_pos (hpq a ha)]
    · rw [List.dropWhile_cons_of_neg ha]

end

/-! ## Searching by key -/

/-- **In a list without repeated keys, what a search under one key finds is all there is.** -/
theorem find?_eq_some_iff_of_nodup {β : Type*} {key : α → β} {k : β} {p : α → Bool} {a : α}
    (hp : ∀ x, p x = true → key x = k) {l : List α} (h : (l.map key).Nodup) :
    l.find? p = some a ↔ a ∈ l ∧ p a = true := by
  refine ⟨fun hfind => ⟨List.mem_of_find?_eq_some hfind, List.find?_some hfind⟩, ?_⟩
  rintro ⟨ha, hpa⟩
  induction l with
  | nil => simp at ha
  | cons x l ih =>
    rw [List.map_cons, List.nodup_cons] at h
    by_cases hx : p x = true
    · rw [List.find?_cons_of_pos hx]
      rcases List.mem_cons.mp ha with rfl | ha
      · rfl
      · exact absurd (List.mem_map.mpr ⟨a, ha, (hp a hpa).trans (hp x hx).symm⟩) h.1
    · rw [List.find?_cons_of_neg hx]
      refine ih h.2 ((List.mem_cons.mp ha).resolve_left ?_)
      rintro rfl
      exact hx hpa

/-- The same for a search for the key itself. -/
theorem find?_key_eq_some_iff {β : Type*} [DecidableEq β] {key : α → β} {k : β} {a : α}
    {l : List α} (h : (l.map key).Nodup) :
    (l.find? fun x => key x = k) = some a ↔ a ∈ l ∧ key a = k := by
  rw [find?_eq_some_iff_of_nodup (fun x hx => of_decide_eq_true hx) h, decide_eq_true_eq]

end Machinery
