import Mathlib.Data.List.Nodup
import Mathlib.Data.Option.Basic
import AgentGuard.Machinery.PartitionPoint

/-!
# Machinery/Roster — a keyed list with a preferred entry

Entries under distinct keys, one of them preferred by its key as soon as there is any
(`Roster.Settled`).  Removing the preferred entry passes the preference on to the first entry left;
every operation keeps a roster settled, so the preference always resolves
(`Settled.choice_eq_some_iff`).
-/

namespace Machinery

variable {α κ : Type*}

/-- Entries, and the key of the preferred one. -/
@[ext] structure Roster (α κ : Type*) where
  entries : List α
  preferred : Option κ

namespace Roster

/-- **The preference names one entry**, and it is there as soon as there is one to name. -/
structure Settled (key : α → κ) (r : Roster α κ) : Prop where
  distinct : (r.entries.map key).Nodup
  none_iff : r.preferred = none ↔ r.entries = []
  names : ∀ k ∈ r.preferred, k ∈ r.entries.map key

theorem settled_empty (key : α → κ) : (⟨[], none⟩ : Roster α κ).Settled key :=
  ⟨List.nodup_nil, by simp, by simp⟩

/-- A new entry goes to the end, and is preferred when none was. -/
def add (key : α → κ) (r : Roster α κ) (a : α) : Roster α κ :=
  ⟨r.entries ++ [a], r.preferred.or (some (key a))⟩

/-- A key that is there becomes the preferred one. -/
def prefer (r : Roster α κ) (k : κ) : Roster α κ := { r with preferred := some k }

/-- The entry the preference names. -/
def choice [DecidableEq κ] (key : α → κ) (r : Roster α κ) : Option α :=
  r.preferred.bind fun k => r.entries.find? fun a => key a = k

/-- The entry of a key goes; when it was preferred, the first one left is. -/
def remove [DecidableEq κ] (key : α → κ) (r : Roster α κ) (k : κ) : Roster α κ :=
  let rest := r.entries.eraseP fun a => key a = k
  ⟨rest, if r.preferred = some k then rest.head?.map key else r.preferred⟩

section

variable {key : α → κ} {r : Roster α κ} {a : α} {k : κ}

theorem Settled.add (h : r.Settled key) (ha : key a ∉ r.entries.map key) :
    (r.add key a).Settled key where
  distinct := by
    rw [Roster.add, List.map_append, List.map_singleton]
    exact List.nodup_append_comm.mp (List.nodup_cons.mpr ⟨ha, h.distinct⟩)
  none_iff := by simp [Roster.add]
  names := fun k hk => by
    rw [Roster.add, List.map_append, List.mem_append]
    cases hp : r.preferred with
    | none =>
      obtain rfl : key a = k := by simpa [Roster.add, hp] using hk
      exact .inr List.mem_cons_self
    | some k' =>
      obtain rfl : k' = k := by simpa [Roster.add, hp] using hk
      exact .inl (h.names k' hp)

theorem Settled.prefer (h : r.Settled key) (hk : k ∈ r.entries.map key) :
    (r.prefer k).Settled key where
  distinct := h.distinct
  none_iff := by
    have hne : r.entries ≠ [] := fun hnil => by simp [hnil] at hk
    simp [Roster.prefer, hne]
  names := fun k' hk' => by
    obtain rfl : k = k' := by simpa [Roster.prefer] using hk'
    exact hk

variable [DecidableEq κ]

theorem sublist_remove : (r.remove key k).entries.Sublist r.entries := List.eraseP_sublist

/-- What is left under another key was there, and is there still. -/
theorem mem_map_remove {k' : κ} (hne : k' ≠ k) :
    k' ∈ (r.remove key k).entries.map key ↔ k' ∈ r.entries.map key := by
  simp only [List.mem_map]
  refine ⟨?_, ?_⟩
  · rintro ⟨b, hb, rfl⟩
    exact ⟨b, sublist_remove.mem hb, rfl⟩
  · rintro ⟨b, hb, rfl⟩
    exact ⟨b, (List.mem_eraseP_of_neg (by simpa using hne)).mpr hb, rfl⟩

/-- **Removal repairs the preference.** -/
theorem Settled.remove (h : r.Settled key) (k : κ) : (r.remove key k).Settled key where
  distinct := h.distinct.sublist (sublist_remove.map key)
  none_iff := by
    by_cases hk : r.preferred = some k
    · simp [Roster.remove, hk]
    · simp only [Roster.remove, hk, if_false, h.none_iff]
      refine ⟨fun hnil => by simp [hnil], fun hnil => ?_⟩
      -- nothing is left, so the preference was the key that went
      cases hp : r.preferred with
      | none => exact h.none_iff.mp hp
      | some k' =>
        have hne : k' ≠ k := fun heq => hk (by rw [hp, heq])
        have hmem := (mem_map_remove (r := r) hne).mpr (h.names k' hp)
        rw [Roster.remove, hnil] at hmem
        exact absurd hmem List.not_mem_nil
  names := fun k' hk' => by
    by_cases hk : r.preferred = some k
    · have hhead : k' ∈ (r.remove key k).entries.head?.map key := by
        simpa [Roster.remove, hk] using hk'
      obtain ⟨b, hb, rfl⟩ := Option.mem_map.mp hhead
      exact List.mem_map_of_mem (List.mem_of_mem_head? hb)
    · have hp : r.preferred = some k' := by simpa [Roster.remove, hk] using hk'
      have hne : k' ≠ k := fun heq => hk (by rw [hp, heq])
      exact (mem_map_remove hne).mpr (h.names k' hp)

/-- **The preference resolves** to the entry it names. -/
theorem Settled.choice_eq_some_iff (h : r.Settled key) :
    r.choice key = some a ↔ a ∈ r.entries ∧ r.preferred = some (key a) := by
  rw [Roster.choice, Option.bind_eq_some_iff]
  refine ⟨?_, ?_⟩
  · rintro ⟨k, hk, hfind⟩
    obtain ⟨hmem, rfl⟩ := (find?_key_eq_some_iff h.distinct).mp hfind
    exact ⟨hmem, hk⟩
  · rintro ⟨hmem, hk⟩
    exact ⟨key a, hk, (find?_key_eq_some_iff h.distinct).mpr ⟨hmem, rfl⟩⟩

/-- **There is a choice as soon as there is an entry.** -/
theorem Settled.isSome_choice (h : r.Settled key) :
    (r.choice key).isSome ↔ r.entries ≠ [] := by
  rw [Option.isSome_iff_exists]
  refine ⟨?_, fun hne => ?_⟩
  · rintro ⟨a, ha⟩ hnil
    have := (h.choice_eq_some_iff.mp ha).1
    simp [hnil] at this
  · obtain ⟨k, hk⟩ := Option.ne_none_iff_exists'.mp (mt h.none_iff.mp hne)
    obtain ⟨a, ha, rfl⟩ := List.mem_map.mp (h.names k hk)
    exact ⟨a, h.choice_eq_some_iff.mpr ⟨ha, hk⟩⟩

/-- **What was added can be taken back**, and the preference with it. -/
theorem Settled.remove_add (h : r.Settled key) (ha : key a ∉ r.entries.map key) :
    (r.add key a).remove key (key a) = r := by
  have hothers : ∀ b ∈ r.entries, ¬decide (key b = key a) = true := fun b hb heq =>
    ha (of_decide_eq_true heq ▸ List.mem_map_of_mem hb)
  have hentries : (r.entries ++ [a]).eraseP (fun b => decide (key b = key a)) = r.entries := by
    rw [List.eraseP_append_right _ hothers, List.eraseP_cons_of_pos (by simp), List.append_nil]
  refine Roster.ext hentries ?_
  rw [Roster.remove, Roster.add]
  dsimp only
  rw [hentries]
  cases hp : r.preferred with
  | none =>
    -- nobody was preferred, so nobody was there
    simp [h.none_iff.mp hp]
  | some k =>
    have hne : k ≠ key a := fun heq => ha (heq ▸ h.names k hp)
    simp [hne]

end

end Roster

end Machinery
