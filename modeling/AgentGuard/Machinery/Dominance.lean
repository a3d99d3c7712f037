import AgentGuard.Machinery.Meter
import Mathlib.Data.List.Forall2

/-!
# Machinery/Dominance — lists and ledgers that hold less

A list whose items stand below items of another, in order (`List.SublistForall₂`), is no longer and
sums to no more; a rolling ledger that forgets more totals less.
-/

namespace Machinery

section

variable {α β : Type} {R : β → α → Prop} {l' : List β} {l : List α}

theorem length_le_of_sublistForall₂ (h : List.SublistForall₂ R l' l) : l'.length ≤ l.length := by
  obtain ⟨m, hforall, hsub⟩ := List.sublistForall₂_iff.mp h
  exact hforall.length_eq ▸ hsub.length_le

/-- The sum over a part of a list, each item of it below one of the list. -/
theorem sum_le_of_sublistForall₂ {g : β → ℤ} {f : α → ℤ} (h : List.SublistForall₂ R l' l)
    (hle : ∀ b a, a ∈ l → R b a → g b ≤ f a) (hnn : ∀ a ∈ l, 0 ≤ f a) :
    (l'.map g).sum ≤ (l.map f).sum := by
  induction h with
  | @nil l =>
    refine List.sum_nonneg fun x hx => ?_
    obtain ⟨a, ha, rfl⟩ := List.mem_map.mp hx
    exact hnn a ha
  | cons hR _ ih =>
    rw [List.map_cons, List.map_cons, List.sum_cons, List.sum_cons]
    exact add_le_add (hle _ _ List.mem_cons_self hR)
      (ih (fun b a ha => hle b a (List.mem_cons_of_mem _ ha))
        fun a ha => hnn a (List.mem_cons_of_mem _ ha))
  | cons_right _ ih =>
    rw [List.map_cons, List.sum_cons]
    have hrest := ih (fun b a ha => hle b a (List.mem_cons_of_mem _ ha))
      fun a ha => hnn a (List.mem_cons_of_mem _ ha)
    have hhead := hnn _ List.mem_cons_self
    omega

theorem exists_of_mem_sublistForall₂ (h : List.SublistForall₂ R l' l) {b : β} (hb : b ∈ l') :
    ∃ a ∈ l, R b a := by
  induction h with
  | nil => exact absurd hb List.not_mem_nil
  | cons hR _ ih =>
    rcases List.mem_cons.mp hb with rfl | htail
    · exact ⟨_, List.mem_cons_self, hR⟩
    · obtain ⟨a, ha, hRa⟩ := ih htail
      exact ⟨a, List.mem_cons_of_mem _ ha, hRa⟩
  | cons_right _ ih =>
    obtain ⟨a, ha, hRa⟩ := ih hb
    exact ⟨a, List.mem_cons_of_mem _ ha, hRa⟩

end

/-- A ledger that forgets more counts less. -/
theorem total_keepAfter_anti {T V : IntRange} {l : Rolling T V}
    (h : ∀ e ∈ l.entries, 0 < e.value.val) {x y : ℤ}
    (hxy : ∀ t : BoundedInt T, t.val ≤ x → t.val ≤ y) :
    (l.keepAfter y).total.val ≤ (l.keepAfter x).total.val := by
  have hsum : sumUpTo x l.entries ≤ sumUpTo y l.entries := by
    have hsub : (l.entries.filter fun e => e.ts.val ≤ x).Sublist
        (l.entries.filter fun e => e.ts.val ≤ y) :=
      List.monotone_filter_right _ fun e he => by simpa using hxy e.ts (by simpa using he)
    exact valueSum_le_of_sublist hsub fun e he => h e (List.mem_of_mem_filter he)
  rw [Rolling.val_total_keepAfter h, Rolling.val_total_keepAfter h]
  omega

end Machinery
