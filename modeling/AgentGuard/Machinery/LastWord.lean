import AgentGuard.Machinery.Runs
import Mathlib.Data.List.Basic

/-!
# Machinery/LastWord — variables that are overwritten

A fold that overwrites a variable wherever an item speaks of it, and leaves it alone elsewhere, ends
with the last word on the variable, or with what was there before (`foldl_overwrite`).  In a run,
where what a call sets may depend on the state it finds, the value at a point is the one the last
call before it to set the variable set it to (`lastSet`).
-/

namespace Machinery

variable {σ ι β γ : Type}

/-- The last of a list to speak of something. -/
def lastOf (sel : ι → Option β) (l : List ι) : Option β := (l.filterMap sel).getLast?

@[simp] theorem lastOf_nil (sel : ι → Option β) : lastOf sel [] = none := rfl

theorem lastOf_cons (sel : ι → Option β) (i : ι) (l : List ι) :
    lastOf sel (i :: l) = (lastOf sel l).or (sel i) := by
  rw [lastOf, List.filterMap_cons]
  cases sel i with
  | none => exact (Option.or_none).symm
  | some b =>
    dsimp only
    rw [List.getLast?_cons, lastOf]
    cases (l.filterMap sel).getLast? <;> rfl

theorem lastOf_map (f : β → γ) (sel : ι → Option β) (l : List ι) :
    lastOf (fun i => (sel i).map f) l = (lastOf sel l).map f := by
  induction l with
  | nil => rfl
  | cons i l ih => rw [lastOf_cons, lastOf_cons, ih, Option.map_or]

/-- Something was said last when it was said at all. -/
theorem mem_of_lastOf {sel : ι → Option β} {l : List ι} {b : β} (h : lastOf sel l = some b) :
    ∃ i ∈ l, sel i = some b := by
  have hmem := List.mem_of_getLast? h
  simpa only [List.mem_filterMap] using hmem

/-- **Overwriting keeps the last word**, or what was there before. -/
theorem foldl_overwrite {step : σ → ι → σ} {get : σ → Option β}
    {sel : ι → Option β} (h : ∀ s i, get (step s i) = (sel i).or (get s)) (l : List ι) :
    ∀ s, get (l.foldl step s) = (lastOf sel l).or (get s) := by
  induction l with
  | nil => exact fun _ => rfl
  | cons i l ih =>
    intro s
    rw [List.foldl_cons, ih, h, lastOf_cons, Option.or_assoc]

/-- A switch that nothing turns off. -/
theorem foldl_switch {step : σ → ι → σ} {get : σ → Bool} {sel : ι → Bool}
    (h : ∀ s i, get (step s i) = (sel i || get s)) (l : List ι) :
    ∀ s, get (l.foldl step s) = (l.any sel || get s) := by
  induction l with
  | nil => exact fun _ => rfl
  | cons i l ih =>
    intro s
    rw [List.foldl_cons, ih, h, List.any_cons, ← Bool.or_assoc, Bool.or_comm (l.any sel)]

/-! ## Along a run -/

section

variable {κ α : Type} (step : σ → κ → σ) (s : σ) (cs : List κ) (Sets : σ → κ → α → Prop)

/-- **The last word before a point of a run**: some call before the `i`-th set the variable to `v`,
and none between them set it. -/
def LastSet (i : ℕ) (v : α) : Prop :=
  ∃ j c, j < i ∧ cs[j]? = some c ∧ Sets (pointAt step s cs j) c v ∧
    ∀ k d w, j < k → k < i → cs[k]? = some d → ¬Sets (pointAt step s cs k) d w

variable {step s cs Sets} {val : σ → α}

/-- A call that sets nothing leaves the last word standing. -/
theorem LastSet.succ {i : ℕ} {v : α} (h : LastSet step s cs Sets i v)
    (hnone : ∀ d w, cs[i]? = some d → ¬Sets (pointAt step s cs i) d w) :
    LastSet step s cs Sets (i + 1) v := by
  obtain ⟨j, c, hj, hc, hset, hquiet⟩ := h
  refine ⟨j, c, by omega, hc, hset, fun k d w hjk hk hd => ?_⟩
  rcases Nat.lt_succ_iff_lt_or_eq.mp hk with hlt | rfl
  · exact hquiet k d w hjk hlt hd
  · exact hnone d w hd

/-- **The value is the last word**, or what it was at the start. -/
theorem lastSet (hset : ∀ x c v, Sets x c v → val (step x c) = v)
    (hkeep : ∀ x c, (∀ v, ¬Sets x c v) → val (step x c) = val x) (i : ℕ) :
    LastSet step s cs Sets i (val (pointAt step s cs i)) ∨
      val (pointAt step s cs i) = val s := by
  induction i with
  | zero => exact .inr (by rw [pointAt_zero])
  | succ i ih =>
    cases hc : cs[i]? with
    | none =>
      rw [pointAt_succ_of_none hc]
      exact ih.imp_left fun h => h.succ (by simp [hc])
    | some c =>
      rw [pointAt_succ hc]
      by_cases hsets : ∃ v, Sets (pointAt step s cs i) c v
      · obtain ⟨v, hv⟩ := hsets
        rw [hset _ c v hv]
        exact .inl ⟨i, c, by omega, hc, hv, by omega⟩
      · have hquiet := not_exists.mp hsets
        rw [hkeep _ c hquiet]
        refine ih.imp_left fun h => h.succ fun d w hd => ?_
        obtain rfl := Option.some.inj (hc.symm.trans hd)
        exact hquiet w

end

end Machinery
