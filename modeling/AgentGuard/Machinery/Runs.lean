import Mathlib.Order.Basic
import Mathlib.Data.Nat.Init

/-!
# Machinery/Runs — invariants of timed runs

A run folds a step function over a list of calls whose times never go back.  An invariant that may
mention the current time is carried along the whole run by one step lemma (`Timed.foldl_invariant`).
History properties are stated over the points of a run (`pointAt`): what one call keeps holds at
every point, and a key that grows whenever a value changes identifies that value (`joinKey`).
-/

namespace Machinery

variable {σ κ τ : Type*} [Preorder τ]

/-- **The calls' times never go back**, starting from `t`. -/
def Timed (time : κ → τ) : τ → List κ → Prop
  | _, [] => True
  | t, c :: cs => t ≤ time c ∧ Timed time (time c) cs

/-- The time at which a run ends. -/
def endTime (time : κ → τ) : τ → List κ → τ
  | t, [] => t
  | _, c :: cs => endTime time (time c) cs

/-- **A step lemma carries an invariant along every timed run.** -/
theorem Timed.foldl_invariant {time : κ → τ} {step : σ → κ → σ} (Inv : τ → σ → Prop)
    (ok : κ → Prop)
    (hstep : ∀ t s c, Inv t s → t ≤ time c → ok c → Inv (time c) (step s c)) :
    ∀ (cs : List κ) (t : τ) (s : σ), Timed time t cs → (∀ c ∈ cs, ok c) → Inv t s →
      Inv (endTime time t cs) (cs.foldl step s) := by
  intro cs
  induction cs with
  | nil => exact fun _ _ _ _ h => h
  | cons c cs ih =>
    intro t s ht hok h
    exact ih (time c) (step s c) ht.2 (fun c' hc' => hok c' (List.mem_cons_of_mem _ hc'))
      (hstep t s c h ht.1 (hok c List.mem_cons_self))

theorem Timed.le_of_mem {time : κ → τ} {cs : List κ} {c : κ} {t : τ} (h : Timed time t cs)
    (hc : c ∈ cs) : t ≤ time c := by
  induction cs generalizing t with
  | nil => simp at hc
  | cons c' cs ih =>
    rcases List.mem_cons.mp hc with rfl | htail
    · exact h.1
    · exact h.1.trans (ih h.2 htail)

/-- A later call of a timed run has a later time. -/
theorem Timed.le_of_le {time : κ → τ} {cs : List κ} {c c' : κ} {t : τ} {i j : ℕ}
    (h : Timed time t cs) (hij : i ≤ j) (hi : cs[i]? = some c) (hj : cs[j]? = some c') :
    time c ≤ time c' := by
  induction cs generalizing t i j with
  | nil => simp at hi
  | cons d cs ih =>
    cases j with
    | zero =>
      obtain rfl : i = 0 := by omega
      exact Option.some.inj (hi.symm.trans hj) ▸ le_refl _
    | succ j =>
      cases i with
      | zero =>
        obtain rfl : d = c := by simpa using hi
        have hmem : c' ∈ cs := List.mem_of_getElem? (by simpa using hj)
        exact h.2.le_of_mem hmem
      | succ i => exact ih h.2 (by omega) hi hj

/-! ## The points of a run -/

section

variable {α : Type*} (step : σ → κ → σ) (s : σ) (cs : List κ)

/-- **The state before the `i`-th call** of a run, and the last state from then on. -/
def pointAt (i : ℕ) : σ := (cs.take i).foldl step s

@[simp] theorem pointAt_zero : pointAt step s cs 0 = s := by rw [pointAt, List.take_zero]; rfl

theorem pointAt_length : pointAt step s cs cs.length = cs.foldl step s := by
  rw [pointAt, List.take_length]

variable {step s cs} {i : ℕ}

theorem pointAt_succ {c : κ} (h : cs[i]? = some c) :
    pointAt step s cs (i + 1) = step (pointAt step s cs i) c := by
  rw [pointAt, List.take_add_one, h, Option.toList_some, List.foldl_append]
  rfl

theorem pointAt_succ_of_none (h : cs[i]? = none) :
    pointAt step s cs (i + 1) = pointAt step s cs i := by
  rw [pointAt, List.take_add_one, h, Option.toList_none, List.append_nil]
  rfl

/-- **What every call keeps holds from one point of the run on.** -/
theorem pointAt_of_le {P : σ → Prop} (hstep : ∀ x c, P x → P (step x c)) {j : ℕ} (hij : i ≤ j)
    (h : P (pointAt step s cs i)) : P (pointAt step s cs j) := by
  induction j, hij using Nat.le_induction with
  | base => exact h
  | succ j _ ih =>
    cases hc : cs[j]? with
    | none => rwa [pointAt_succ_of_none hc]
    | some c => exact pointAt_succ hc ▸ hstep _ c ih

/-- **A join key.**  When no call lowers the key, and every call that changes the value raises it,
then points with equal keys have equal values. -/
theorem joinKey {ι : Type*} [PartialOrder ι] (key : σ → ι) (val : σ → α)
    (hmono : ∀ k c, cs[k]? = some c →
      key (pointAt step s cs k) ≤ key (step (pointAt step s cs k) c))
    (hchange : ∀ k c, cs[k]? = some c →
      val (step (pointAt step s cs k) c) ≠ val (pointAt step s cs k) →
        key (pointAt step s cs k) < key (step (pointAt step s cs k) c))
    {j : ℕ} (hij : i ≤ j) :
    key (pointAt step s cs i) ≤ key (pointAt step s cs j) ∧
      (key (pointAt step s cs i) = key (pointAt step s cs j) →
        val (pointAt step s cs i) = val (pointAt step s cs j)) := by
  induction j, hij using Nat.le_induction with
  | base => exact ⟨le_rfl, fun _ => rfl⟩
  | succ j _ ih =>
    obtain ⟨hle, heq⟩ := ih
    cases hc : cs[j]? with
    | none => rw [pointAt_succ_of_none hc]; exact ⟨hle, heq⟩
    | some c =>
      rw [pointAt_succ hc]
      have hnext := hmono j c hc
      refine ⟨hle.trans hnext, fun h => ?_⟩
      -- equal keys leave no room for a step that changed the value
      have hkey : key (pointAt step s cs i) = key (pointAt step s cs j) :=
        le_antisymm hle (h ▸ hnext)
      by_contra hne
      have hlt := hchange j c hc fun hsame => hne ((heq hkey).trans hsame.symm)
      exact absurd h (hkey ▸ hlt).ne

end

end Machinery
