import Mathlib.Order.MinMax
import Mathlib.Algebra.Order.Group.Int
import Mathlib.Algebra.Ring.Int.Defs

/-!
# Machinery/BoundedInt — machine integers, read through their exact values

A `BoundedInt R` is an integer together with the proof that it lies in the range `R`, so an
out-of-range machine integer cannot be built.  Saturating and checked arithmetic are defined on the
exact values, and every lemma below says when the machine result *is* the exact one.
-/

namespace Machinery

/-- The range of a machine integer type. -/
structure IntRange where
  lo : ℤ
  hi : ℤ
  lo_le_hi : lo ≤ hi

/-- An integer of the range `R`. -/
@[ext] structure BoundedInt (R : IntRange) where
  val : ℤ
  lo_le : R.lo ≤ val
  le_hi : val ≤ R.hi
deriving DecidableEq

namespace BoundedInt

variable {R : IntRange}

/-- The closest integer of the range. -/
def clamp (x : ℤ) : BoundedInt R :=
  ⟨max R.lo (min R.hi x), le_max_left _ _, max_le R.lo_le_hi (min_le_left _ _)⟩

instance (n : ℕ) : OfNat (BoundedInt R) n := ⟨clamp n⟩

/-- `saturating_add`: the exact sum, clamped to the range. -/
def saturatingAdd (a b : BoundedInt R) : BoundedInt R := clamp (a.val + b.val)

/-- `saturating_sub`: the exact difference, clamped to the range. -/
def saturatingSub (a b : BoundedInt R) : BoundedInt R := clamp (a.val - b.val)

/-- The integer `x` as a machine integer, when it is one. -/
def ofInt? (x : ℤ) : Option (BoundedInt R) :=
  if h : R.lo ≤ x ∧ x ≤ R.hi then some ⟨x, h.1, h.2⟩ else none

/-- `checked_add`: `none` exactly when the exact sum leaves the range. -/
def checkedAdd (a b : BoundedInt R) : Option (BoundedInt R) := ofInt? (a.val + b.val)

/-- `checked_sub`: `none` exactly when the exact difference leaves the range. -/
def checkedSub (a b : BoundedInt R) : Option (BoundedInt R) := ofInt? (a.val - b.val)

theorem val_clamp (x : ℤ) : (clamp x : BoundedInt R).val = max R.lo (min R.hi x) := rfl

theorem val_clamp_of_mem {x : ℤ} (h : R.lo ≤ x) (h' : x ≤ R.hi) :
    (clamp x : BoundedInt R).val = x := by
  rw [val_clamp, min_eq_right h', max_eq_right h]

theorem val_ofNat {n : ℕ} (h : R.lo ≤ n) (h' : n ≤ R.hi) :
    (OfNat.ofNat n : BoundedInt R).val = n := val_clamp_of_mem h h'

theorem ofInt?_of_mem {x : ℤ} (h : R.lo ≤ x) (h' : x ≤ R.hi) :
    ofInt? x = some (clamp x : BoundedInt R) := by
  rw [ofInt?, dif_pos ⟨h, h'⟩]
  exact congrArg some (BoundedInt.ext (val_clamp_of_mem h h').symm)

/-! ## Exactness -/

theorem val_saturatingAdd (a b : BoundedInt R) :
    (a.saturatingAdd b).val = max R.lo (min R.hi (a.val + b.val)) := rfl

theorem val_saturatingSub (a b : BoundedInt R) :
    (a.saturatingSub b).val = max R.lo (min R.hi (a.val - b.val)) := rfl

/-- **Adding a nonnegative value saturates only at the top.** -/
theorem val_saturatingAdd_of_nonneg (a : BoundedInt R) {b : BoundedInt R} (hb : 0 ≤ b.val) :
    (a.saturatingAdd b).val = min R.hi (a.val + b.val) := by
  have := a.lo_le
  have := R.lo_le_hi
  rw [val_saturatingAdd]
  omega

theorem val_saturatingAdd_of_le {a b : BoundedInt R} (hb : 0 ≤ b.val)
    (h : a.val + b.val ≤ R.hi) : (a.saturatingAdd b).val = a.val + b.val := by
  rw [val_saturatingAdd_of_nonneg a hb, min_eq_right h]

/-- **Subtracting a nonnegative value saturates only at the bottom.** -/
theorem val_saturatingSub_of_nonneg (a : BoundedInt R) {b : BoundedInt R} (hb : 0 ≤ b.val) :
    (a.saturatingSub b).val = max R.lo (a.val - b.val) := by
  have := a.le_hi
  rw [val_saturatingSub]
  omega

theorem val_saturatingSub_of_le {a b : BoundedInt R} (hb : 0 ≤ b.val)
    (h : R.lo ≤ a.val - b.val) : (a.saturatingSub b).val = a.val - b.val := by
  rw [val_saturatingSub_of_nonneg a hb, max_eq_right h]

/-- **A checked sum in range is the saturating one** — the two differ only where one traps. -/
theorem checkedAdd_of_le {a b : BoundedInt R} (hb : 0 ≤ b.val) (h : a.val + b.val ≤ R.hi) :
    a.checkedAdd b = some (a.saturatingAdd b) :=
  ofInt?_of_mem (by have := a.lo_le; omega) h

theorem checkedSub_of_le {a b : BoundedInt R} (hb : 0 ≤ b.val) (h : R.lo ≤ a.val - b.val) :
    a.checkedSub b = some (a.saturatingSub b) :=
  ofInt?_of_mem h (by have := a.le_hi; omega)

theorem checkedAdd_eq_none {a b : BoundedInt R} (h : R.hi < a.val + b.val) :
    a.checkedAdd b = none := dif_neg fun hc => by omega

/-- What has room under a cap of the range stays in the range; what asks for nothing does anyway. -/
theorem add_le_hi_of_room (a : BoundedInt R) {b cap : ℤ} (hb : 0 ≤ b)
    (hroom : 0 < b → a.val + b ≤ cap) (hcap : cap ≤ R.hi) : a.val + b ≤ R.hi := by
  rcases hb.eq_or_lt with hz | hpos
  · rw [← hz, add_zero]
    exact a.le_hi
  · exact (hroom hpos).trans hcap

/-- **A checked sum of nonnegative values, compared with a cap of its own type**: overflow is
over every cap. -/
theorem checkedAdd_le_iff {a b : BoundedInt R} (hb : 0 ≤ b.val) (cap : BoundedInt R) :
    (∃ c, a.checkedAdd b = some c ∧ c.val ≤ cap.val) ↔ a.val + b.val ≤ cap.val := by
  have hcap := cap.le_hi
  by_cases h : a.val + b.val ≤ R.hi
  · rw [checkedAdd_of_le hb h]
    simp only [Option.some.injEq, exists_eq_left', val_saturatingAdd_of_le hb h]
  · rw [checkedAdd_eq_none (not_le.mp h)]
    refine ⟨fun ⟨_, hc, _⟩ => absurd hc (by simp), fun hle => absurd (hle.trans hcap) h⟩

end BoundedInt

end Machinery
