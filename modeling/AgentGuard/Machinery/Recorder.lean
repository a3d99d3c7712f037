import Mathlib.Data.List.Basic

/-!
# Machinery/Recorder — storage programs that record the entries they touch

A program over a storage, in `StateT`, with the log of its accesses beside the storage.  `Does` and
`Fails` say what a run comes to, whatever was logged before it; they compose along `bind`, and a
pass over a list along its elements.
-/

namespace Machinery

/-- One access to the entry under a key. -/
inductive Access (κ : Type)
  | read (key : κ)
  | write (key : κ)
deriving DecidableEq

/-- The programs over a storage `σ` that may fail and log the keys they touch. -/
abbrev Recorded (κ ε σ : Type) := StateT (σ × List (Access κ)) (Except ε)

namespace Recorded

variable {κ ε σ α β : Type}

/-- Log an access. -/
def note (a : Access κ) : Recorded κ ε σ Unit := fun (s, log) => .ok ((), s, log ++ [a])

/-- Look at the storage through the entry under a key. -/
def load (key : κ) (f : σ → α) : Recorded κ ε σ α := fun (s, log) =>
  .ok (f s, s, log ++ [.read key])

/-- Change the storage through the entry under a key. -/
def store (key : κ) (f : σ → σ) : Recorded κ ε σ Unit := fun (s, log) =>
  .ok ((), f s, log ++ [.write key])

/-- Give up. -/
def fail (e : ε) : Recorded κ ε σ α := fun _ => .error e

end Recorded

section

variable {κ ε σ α β : Type}

/-- **What a successful run comes to**: from `s` it returns `a` and leaves `s'`, with the accesses
`log`. -/
def Does (m : Recorded κ ε σ α) (s : σ) (a : α) (s' : σ) (log : List (Access κ)) : Prop :=
  ∀ before, m.run (s, before) = .ok (a, s', before ++ log)

/-- The run from `s` fails with `e`. -/
def Fails (m : Recorded κ ε σ α) (s : σ) (e : ε) : Prop := ∀ before, m.run (s, before) = .error e

variable {m : Recorded κ ε σ α} {f : α → Recorded κ ε σ β} {s s₁ s₂ : σ} {a : α} {b : β} {e : ε}
  {log log₁ log₂ : List (Access κ)}

theorem Does.run (h : Does m s a s₁ log) : m.run (s, []) = .ok (a, s₁, log) := h []

/-- A run has one outcome. -/
theorem Does.unique {a' : α} {s' : σ} {log' : List (Access κ)} (h : Does m s a s₁ log)
    (h' : m.run (s, []) = .ok (a', s', log')) : a' = a ∧ s' = s₁ ∧ log' = log := by
  rw [h.run, Except.ok.injEq, Prod.mk.injEq, Prod.mk.injEq] at h'
  exact ⟨h'.1.symm, h'.2.1.symm, h'.2.2.symm⟩

theorem Fails.not_ok {r : α × σ × List (Access κ)} (h : Fails m s e) : m.run (s, []) ≠ .ok r := by
  rw [h []]
  exact fun h' => by cases h'

theorem does_pure (a : α) (s : σ) : Does (pure a : Recorded κ ε σ α) s a s [] := fun before => by
  rw [List.append_nil]
  rfl

theorem does_note (x : Access κ) (s : σ) :
    Does (Recorded.note x : Recorded κ ε σ Unit) s () s [x] := fun _ => rfl

theorem does_load (key : κ) {f : σ → α} (h : f s = a) :
    Does (Recorded.load key f : Recorded κ ε σ α) s a s [.read key] := fun _ => h ▸ rfl

theorem does_store (key : κ) (f : σ → σ) (s : σ) :
    Does (Recorded.store key f : Recorded κ ε σ Unit) s () (f s) [.write key] := fun _ => rfl

theorem fails_fail (e : ε) (s : σ) : Fails (Recorded.fail e : Recorded κ ε σ α) s e := fun _ => rfl

/-- **Sequencing**: the logs add up. -/
theorem Does.bind (h : Does m s a s₁ log₁) (h' : Does (f a) s₁ b s₂ log₂) :
    Does (m >>= f) s b s₂ (log₁ ++ log₂) := fun before => by
  rw [StateT.run_bind, h before, ← List.append_assoc]
  exact h' (before ++ log₁)

/-- A last step that only returns logs nothing. -/
theorem Does.bind_pure (h : Does m s a s₁ log) (h' : f a = pure b) : Does (m >>= f) s b s₁ log := by
  have hlast : Does (f a) s₁ b s₁ [] := h' ▸ does_pure b s₁
  simpa only [List.append_nil] using h.bind hlast

theorem Does.bind_fails (h : Does m s a s₁ log₁) (h' : Fails (f a) s₁ e) : Fails (m >>= f) s e :=
  fun before => by
    rw [StateT.run_bind, h before]
    exact h' (before ++ log₁)

theorem Fails.bind (h : Fails m s e) : Fails (m >>= f) s e := fun before => by
  rw [StateT.run_bind, h before]
  rfl

/-- **A pass that leaves the storage alone** logs the same at each element. -/
theorem does_mapM {g : α → β} :
    ∀ xs : List α, (∀ x ∈ xs, Does (f x) s (g x) s log) →
      Does (xs.mapM f) s (xs.map g) s (List.replicate xs.length log).flatten
  | [], _ => by
    rw [List.mapM_nil]
    exact does_pure [] s
  | x :: xs, h => by
    rw [List.mapM_cons, List.length_cons, List.replicate_succ, List.flatten_cons]
    refine (h x List.mem_cons_self).bind ?_
    exact (does_mapM xs fun y hy => h y (List.mem_cons_of_mem x hy)).bind_pure rfl

end

end Machinery
