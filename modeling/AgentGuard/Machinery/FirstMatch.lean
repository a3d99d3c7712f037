import Mathlib.Data.List.Basic

/-!
# Machinery/FirstMatch — ordered decision tables

A table is a list of rows, each an answer with the condition under which it is given; the first row
that applies answers, and none does when no row applies (`FirstMatch`).  Such a reading is a
function of the conditions, whatever they are decided by.
-/

namespace Machinery

variable {α : Type} {rows rest : List (α × Prop)} {a : α} {p : Prop} {o o' : Option α}

/-- **The answer of a table.** -/
inductive FirstMatch : List (α × Prop) → Option α → Prop
  | silent : FirstMatch [] none
  | here {a : α} {p : Prop} {rest : List (α × Prop)} (h : p) : FirstMatch ((a, p) :: rest) (some a)
  | later {a : α} {p : Prop} {rest : List (α × Prop)} {o : Option α} (h : ¬p)
      (hrest : FirstMatch rest o) : FirstMatch ((a, p) :: rest) o

@[simp] theorem firstMatch_nil : FirstMatch (α := α) [] o ↔ o = none :=
  ⟨fun h => by cases h; rfl, fun h => h ▸ .silent⟩

@[simp] theorem firstMatch_cons :
    FirstMatch ((a, p) :: rest) o ↔ p ∧ o = some a ∨ ¬p ∧ FirstMatch rest o := by
  constructor
  · intro h
    cases h with
    | here h => exact .inl ⟨h, rfl⟩
    | later h hrest => exact .inr ⟨h, hrest⟩
  · rintro (⟨h, rfl⟩ | ⟨h, hrest⟩)
    · exact .here h
    · exact .later h hrest

/-- A table has at most one answer. -/
theorem FirstMatch.unique (h : FirstMatch rows o) (h' : FirstMatch rows o') : o = o' := by
  induction h with
  | silent => exact (firstMatch_nil.mp h').symm
  | here h =>
    rcases firstMatch_cons.mp h' with ⟨-, rfl⟩ | ⟨hnot, -⟩
    · rfl
    · exact absurd h hnot
  | later h _ ih =>
    rcases firstMatch_cons.mp h' with ⟨hp, -⟩ | ⟨-, hrest⟩
    · exact absurd hp h
    · exact ih hrest

/-- **One table after the other**: the second is consulted when the first is silent. -/
theorem firstMatch_append_iff :
    FirstMatch (rows ++ rest) o
      ↔ FirstMatch rows none ∧ FirstMatch rest o ∨ ∃ a, o = some a ∧ FirstMatch rows o := by
  induction rows with
  | nil =>
    rw [List.nil_append, firstMatch_nil, firstMatch_nil]
    refine ⟨fun h => .inl ⟨rfl, h⟩, ?_⟩
    rintro (⟨-, h⟩ | ⟨a, rfl, h⟩)
    · exact h
    · cases h
  | cons row rows ih =>
    obtain ⟨a, p⟩ := row
    rw [List.cons_append, firstMatch_cons, firstMatch_cons, firstMatch_cons, ih]
    by_cases hp : p <;> cases o <;> simp [hp]

/-- Rows that do not apply can be skipped. -/
theorem FirstMatch.skip (h : FirstMatch rest o) (hrows : FirstMatch rows none) :
    FirstMatch (rows ++ rest) o := firstMatch_append_iff.mpr (.inl ⟨hrows, h⟩)

/-- A row that applies answers before all that follow. -/
theorem FirstMatch.settled (h : FirstMatch rows (some a)) (rest : List (α × Prop)) :
    FirstMatch (rows ++ rest) (some a) := firstMatch_append_iff.mpr (.inr ⟨a, rfl, h⟩)

end Machinery
