import Mathlib.Data.List.Basic

/-!
# Machinery/Replay — a system rebuilt from its log

A system that emits events as it steps can be followed by a mirror that sees nothing but the events.
When one step's events take a mirror that matches the state before to one that matches the state
after, replaying the log of any run gives a mirror that matches the state the run ends in.
-/

namespace Machinery

variable {σ κ ε μ : Type*}

/-- The events of a run, in order. -/
def runLog (step : σ → κ → σ) (emit : σ → κ → List ε) : σ → List κ → List ε
  | _, [] => []
  | s, c :: cs => emit s c ++ runLog step emit (step s c) cs

/-- **Replaying the log follows the run.** -/
theorem replay_matches {step : σ → κ → σ} {emit : σ → κ → List ε} {apply : μ → ε → μ}
    {R : μ → σ → Prop} (hstep : ∀ m s c, R m s → R ((emit s c).foldl apply m) (step s c))
    (cs : List κ) : ∀ m s, R m s → R ((runLog step emit s cs).foldl apply m) (cs.foldl step s) := by
  induction cs with
  | nil => exact fun _ _ h => h
  | cons c cs ih =>
    intro m s h
    rw [runLog, List.foldl_append, List.foldl_cons]
    exact ih _ _ (hstep m s c h)

/-- **Two systems in step emit the same log.**  What related states emit alike, and steps keep
related, no run tells apart. -/
theorem runLog_congr {σ' : Type*} {step : σ → κ → σ} {step' : σ' → κ → σ'} {emit : σ → κ → List ε}
    {emit' : σ' → κ → List ε} {R : σ → σ' → Prop}
    (hstep : ∀ s s' c, R s s' → emit s c = emit' s' c ∧ R (step s c) (step' s' c)) (cs : List κ) :
    ∀ s s', R s s' → runLog step emit s cs = runLog step' emit' s' cs ∧
      R (cs.foldl step s) (cs.foldl step' s') := by
  induction cs with
  | nil => exact fun _ _ h => ⟨rfl, h⟩
  | cons c cs ih =>
    intro s s' h
    obtain ⟨hemit, hnext⟩ := hstep s s' c h
    obtain ⟨hlog, hend⟩ := ih _ _ hnext
    exact ⟨by rw [runLog, runLog, hemit, hlog], hend⟩

/-- Events a mirror does not look at leave it alone. -/
theorem foldl_ignored {apply : μ → ε → μ} {l : List ε} (h : ∀ e ∈ l, ∀ m, apply m e = m) (m : μ) :
    l.foldl apply m = m := by
  induction l generalizing m with
  | nil => rfl
  | cons e l ih =>
    rw [List.foldl_cons, h e List.mem_cons_self]
    exact ih (fun e' he' => h e' (List.mem_cons_of_mem _ he')) m

end Machinery
