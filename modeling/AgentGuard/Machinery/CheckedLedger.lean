import AgentGuard.Machinery.Meter

/-!
# Machinery/CheckedLedger — the same ledger over arithmetic that traps

`record?` and `rebuild?` are `record` and `rebuild` with every saturating sum replaced by a checked
one.  On a sound ledger with room they return, and return what the saturating ones compute: nothing
saturates.
-/

namespace Machinery

variable {T V : IntRange}

/-- **A trapping fold that never traps is the fold it guards.** -/
theorem foldlM_eq_some {α β : Type*} {f : β → α → Option β} {g : β → α → β}
    (Inv : List α → β → Prop)
    (hstep : ∀ a l b, Inv (a :: l) b → f b a = some (g b a) ∧ Inv l (g b a)) :
    ∀ (l : List α) (b : β), Inv l b → l.foldlM f b = some (l.foldl g b)
  | [], _, _ => rfl
  | a :: l, b, h => by
    obtain ⟨hf, hinv⟩ := hstep a l b h
    rw [List.foldlM_cons, hf, List.foldl_cons, ← foldlM_eq_some Inv hstep l _ hinv]
    rfl

/-- A trapping map that never traps is the map it guards. -/
theorem mapM_eq_some {α β : Type*} {f : α → Option β} {g : α → β} :
    ∀ {l : List α}, (∀ a ∈ l, f a = some (g a)) → l.mapM f = some (l.map g)
  | [], _ => rfl
  | a :: l, h => by
    rw [List.mapM_cons, h a (by simp), mapM_eq_some fun b hb => h b (by simp [hb])]
    rfl

/-! ## Recording -/

/-- `Rolling.push` over trapping sums. -/
def Rolling.push? (bound : ℕ) (l : Rolling T V) (now : BoundedInt T) (amount : BoundedInt V) :
    Option (Rolling T V × Option (BoundedInt T × BoundedInt V)) := do
  let entries := l.entries ++ [⟨now, amount⟩]
  let total ← l.total.checkedAdd amount
  if bound < entries.length then
    let older := entries.head?.getD ⟨0, 0⟩
    let newer := entries.tail.head?.getD ⟨0, 0⟩
    let value ← older.value.checkedAdd newer.value
    return (⟨total, ⟨newer.ts, value⟩ :: entries.tail.tail⟩, some (newer.ts, value))
  else return (⟨total, entries⟩, none)

/-- `Rolling.record` over trapping sums. -/
def Rolling.record? (bound : ℕ) (l : Rolling T V) (now : BoundedInt T) (amount : BoundedInt V) :
    Option (Rolling T V × Option (BoundedInt T × BoundedInt V)) :=
  match l.entries.getLast? with
  | some last =>
    if last.ts = now then do
      let total ← l.total.checkedAdd amount
      let value ← last.value.checkedAdd amount
      return (⟨total, l.entries.dropLast ++ [⟨now, value⟩]⟩, none)
    else l.push? bound now amount
  | none => l.push? bound now amount

section

variable {bound : ℕ} {now : BoundedInt T} {l : Rolling T V} {amount : BoundedInt V}

theorem Rolling.push?_eq (hb : 0 < bound) {t : ℤ} (h : l.Sound bound t) (ha : 0 < amount.val)
    (hfit : l.total.val + amount.val ≤ V.hi) :
    l.push? bound now amount = some (l.push bound now amount) := by
  have hexact : l.total.val = valueSum l.entries := h.exact
  rw [Rolling.push?, Rolling.push, BoundedInt.checkedAdd_of_le ha.le hfit]
  dsimp only [Option.bind_eq_bind, Option.bind_some]
  split_ifs with hlen
  -- the two oldest are part of what the total counts
  · have happ := positive_append now h.ordered.positive ha
    have hsum : valueSum (l.entries ++ [⟨now, amount⟩]) = l.total.val + amount.val := by
      simp [hexact]
    generalize l.entries ++ [⟨now, amount⟩] = entries at happ hsum hlen ⊢
    rcases entries with _ | ⟨older, _ | ⟨newer, rest⟩⟩
    · simp at hlen
    · rw [List.length_singleton] at hlen
      omega
    · have hrest : 0 ≤ valueSum rest := valueSum_nonneg fun e he => happ e (by simp [he])
      rw [valueSum_cons, valueSum_cons] at hsum
      simp only [List.head?_cons, List.tail_cons, Option.getD_some]
      rw [BoundedInt.checkedAdd_of_le (happ newer (by simp)).le (by omega)]
      rfl
  · rfl

/-- **Recording what the total has room for never traps.** -/
theorem Rolling.record?_eq (hb : 0 < bound) {t : ℤ} (h : l.Sound bound t) (ha : 0 < amount.val)
    (hfit : l.total.val + amount.val ≤ V.hi) :
    l.record? bound now amount = some (l.record bound now amount) := by
  have hexact : l.total.val = valueSum l.entries := h.exact
  rw [Rolling.record?, Rolling.record]
  cases hlast : l.entries.getLast? with
  | none => exact Rolling.push?_eq hb h ha hfit
  | some last =>
    dsimp only
    split_ifs
    · have hle := value_le_valueSum h.ordered.positive (List.mem_of_getLast? hlast)
      rw [BoundedInt.checkedAdd_of_le ha.le hfit, BoundedInt.checkedAdd_of_le ha.le (by omega)]
      rfl
    · exact Rolling.push?_eq hb h ha hfit

/-- Recording what there is room for keeps the ledger sound. -/
theorem Rolling.Sound.record (hb : 0 < bound) (hlo : V.lo ≤ 0) (h : l.Sound bound now.val)
    (ha : 0 < amount.val) (hfit : l.total.val + amount.val ≤ V.hi) :
    (l.record bound now amount).1.Sound bound now.val ∧
      (l.record bound now amount).1.total.val = l.total.val + amount.val := by
  refine ⟨?_, ?_⟩
  · rw [← Rolling.charge_val ha]
    exact h.charge hb hlo ha.le hfit
  · rw [total_record, BoundedInt.val_saturatingAdd_of_le ha.le hfit]

end

/-! ## Rebuilding -/

/-- `Rolling.rebuild` over trapping sums. -/
def Rolling.rebuild? (entries : List (Stamped T V)) : Option (Rolling T V) :=
  entries.foldlM
    (fun (l : Rolling T V) e =>
      if 0 < e.value.val then
        (l.total.checkedAdd e.value).map fun total => ⟨total, l.entries ++ [e]⟩
      else some l)
    ⟨0, []⟩

/-- **Rebuilding entries whose sum fits never traps.** -/
theorem Rolling.rebuild?_eq (hlo : V.lo ≤ 0) (hhi : 0 ≤ V.hi) {entries : List (Stamped T V)}
    (hpos : ∀ e ∈ entries, 0 < e.value.val) (hfit : valueSum entries ≤ V.hi) :
    Rolling.rebuild? entries = some (Rolling.rebuild entries) := by
  -- what is left to add still fits on what has been added
  refine foldlM_eq_some
    (fun rest (l : Rolling T V) => (∀ e ∈ rest, 0 < e.value.val) ∧
      l.total.val + valueSum rest ≤ V.hi)
    (fun e rest l hinv => ?_) entries ⟨0, []⟩ ⟨hpos, ?_⟩
  · obtain ⟨hrest, hle⟩ := hinv
    have he := hrest e (by simp)
    have hrest' : ∀ e' ∈ rest, 0 < e'.value.val := fun e' he' => hrest e' (by simp [he'])
    have hnn := valueSum_nonneg hrest'
    rw [valueSum_cons] at hle
    rw [if_pos he, if_pos he, BoundedInt.checkedAdd_of_le he.le (by omega)]
    refine ⟨rfl, hrest', ?_⟩
    rw [BoundedInt.val_saturatingAdd_of_le he.le (by omega)]
    omega
  · have hzero : (0 : BoundedInt V).val = 0 := BoundedInt.val_ofNat (n := 0) hlo hhi
    rwa [hzero, zero_add]

end Machinery
