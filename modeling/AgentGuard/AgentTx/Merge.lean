import AgentGuard.AgentTx.Footprint

/-!
# AgentTx/Merge — the guard's entries, merged into a simulated footprint

The network rejects a footprint that names an entry twice, so the rows of the table are not appended
but merged: a row that is written takes its key out of `readOnly`, and neither list takes a key it
has.  One row keeps a footprint well formed (`WellFormed.mergeTouch`); what a run of rows does to it
(`mem_merge`) is a matter of which keys the rows name and write, and rows that are in place already
change nothing (`merge_of_settled`).
-/

namespace AgentGuard.AgentTx

open Machinery

/-! ## Merging -/

/-- One row of the table, merged into the two lists. -/
def mergeTouch (guard : Address) (kind : CallKind) (fp : LedgerFootprint)
    (touch : StorageKeyTouch) : LedgerFootprint :=
  let key := touch.target.toLedgerKey guard
  if touch.writtenOn.isWritten kind then
    { readOnly := fp.readOnly.filter fun k => k ≠ key
      readWrite := if key ∈ fp.readWrite then fp.readWrite else fp.readWrite ++ [key] }
  else if key ∉ fp.readWrite ∧ key ∉ fp.readOnly then
    { fp with readOnly := fp.readOnly ++ [key] }
  else fp

/-- Merge the guard's entries into the simulated footprint. -/
def mergeGuardFootprint (fp : LedgerFootprint) (guard : Address) (kind : CallKind) :
    LedgerFootprint :=
  guardStorageTouches.foldl (mergeTouch guard kind) fp

/-- **No entry is named twice**, in one list or across the two. -/
structure LedgerFootprint.WellFormed (fp : LedgerFootprint) : Prop where
  readOnly : fp.readOnly.Nodup
  readWrite : fp.readWrite.Nodup
  disjoint : fp.readOnly.Disjoint fp.readWrite

/-- The five entries `__check_auth` is declared to touch. -/
def guardKeys (guard : Address) : List LedgerKey :=
  [guardDataKey guard .policy, guardDataKey guard .adminFrozen, guardDataKey guard .window,
    guardDataKey guard .lastHeartbeat, guardInstanceKey guard]

section

variable {guard : Address} {kind : CallKind} {fp : LedgerFootprint}

/-- A row of the table names the key. -/
def Declared (guard : Address) (touches : List StorageKeyTouch) (k : LedgerKey) : Prop :=
  ∃ t ∈ touches, k = t.target.toLedgerKey guard

/-- A row of the table writes the key. -/
def Written (guard : Address) (kind : CallKind) (touches : List StorageKeyTouch) (k : LedgerKey) :
    Prop :=
  ∃ t ∈ touches, t.writtenOn.isWritten kind = true ∧ k = t.target.toLedgerKey guard

theorem LedgerFootprint.WellFormed.empty : (⟨[], []⟩ : LedgerFootprint).WellFormed :=
  ⟨List.nodup_nil, List.nodup_nil, List.disjoint_nil_left _⟩

/-! ## One row -/

theorem mem_mergeTouch (hfp : fp.WellFormed) (t : StorageKeyTouch) {k : LedgerKey} :
    (k ∈ (mergeTouch guard kind fp t).readWrite ↔ k ∈ fp.readWrite ∨
      t.writtenOn.isWritten kind = true ∧ k = t.target.toLedgerKey guard) ∧
    (k ∈ (mergeTouch guard kind fp t).readOnly ↔
      (k ∈ fp.readOnly ∨ k = t.target.toLedgerKey guard) ∧
        k ∉ (mergeTouch guard kind fp t).readWrite) := by
  have hdisjoint : k ∈ fp.readOnly → k ∉ fp.readWrite := fun h h' => hfp.disjoint h h'
  rw [mergeTouch]
  generalize t.target.toLedgerKey guard = key
  cases t.writtenOn.isWritten kind with
  | true =>
    simp only [if_true, List.mem_filter]
    split_ifs with hmem
    · grind
    · grind
  | false =>
    simp only [Bool.false_eq_true, if_false, false_and, or_false]
    split_ifs with hmem
    · grind
    · grind

theorem filter_ne_eq_self {l : List LedgerKey} {key : LedgerKey} (hkey : key ∉ l) :
    (l.filter fun k => k ≠ key) = l :=
  List.filter_eq_self.mpr fun _ hk => decide_eq_true (ne_of_mem_of_not_mem hk hkey)

theorem nodup_push {l : List LedgerKey} {key : LedgerKey} (hl : l.Nodup) (hkey : key ∉ l) :
    (l ++ [key]).Nodup := by
  rw [← List.concat_eq_append]
  exact hl.concat hkey

/-- **One row keeps the footprint well formed.** -/
theorem LedgerFootprint.WellFormed.mergeTouch (hfp : fp.WellFormed) (t : StorageKeyTouch) :
    (mergeTouch guard kind fp t).WellFormed := by
  have hdisjoint : (AgentTx.mergeTouch guard kind fp t).readOnly.Disjoint
      (AgentTx.mergeTouch guard kind fp t).readWrite :=
    fun k hro => ((mem_mergeTouch hfp t).2.mp hro).2
  refine ⟨?_, ?_, hdisjoint⟩
  · rw [AgentTx.mergeTouch]
    split_ifs with hwritten hmem hnew
    · exact hfp.readOnly.filter _
    · exact hfp.readOnly.filter _
    · exact nodup_push hfp.readOnly hnew.2
    · exact hfp.readOnly
  · rw [AgentTx.mergeTouch]
    split_ifs with hwritten hmem hnew
    · exact hfp.readWrite
    · exact nodup_push hfp.readWrite hmem
    · exact hfp.readWrite
    · exact hfp.readWrite

/-! ## A run of rows -/

theorem LedgerFootprint.WellFormed.foldl_mergeTouch (touches : List StorageKeyTouch) :
    ∀ {fp : LedgerFootprint}, fp.WellFormed →
      (touches.foldl (AgentTx.mergeTouch guard kind) fp).WellFormed := by
  induction touches with
  | nil => exact fun hfp => hfp
  | cons t touches ih => exact fun hfp => ih (hfp.mergeTouch t)

/-- **What the rows of a table do to the lists.** -/
theorem mem_foldl_mergeTouch (touches : List StorageKeyTouch) {k : LedgerKey} :
    ∀ {fp : LedgerFootprint}, fp.WellFormed →
      (k ∈ (touches.foldl (mergeTouch guard kind) fp).readWrite ↔
        k ∈ fp.readWrite ∨ Written guard kind touches k) ∧
      (k ∈ (touches.foldl (mergeTouch guard kind) fp).readOnly ↔
        (k ∈ fp.readOnly ∨ Declared guard touches k) ∧
          k ∉ (touches.foldl (mergeTouch guard kind) fp).readWrite) := by
  induction touches with
  | nil =>
    intro fp hfp
    have hdisjoint : k ∈ fp.readOnly → k ∉ fp.readWrite := fun h h' => hfp.disjoint h h'
    simpa [Written, Declared] using hdisjoint
  | cons t touches ih =>
    intro fp hfp
    obtain ⟨hrw, hro⟩ := @mem_mergeTouch guard kind fp hfp t k
    obtain ⟨hrw', hro'⟩ := ih (hfp.mergeTouch t)
    rw [List.foldl_cons]
    refine ⟨?_, ?_⟩
    · rw [hrw', hrw]
      simp only [Written, List.exists_mem_cons_iff, or_assoc]
    · -- a key that is written by the first row is not written off by the others
      have hmono : k ∉ (touches.foldl (mergeTouch guard kind)
          (mergeTouch guard kind fp t)).readWrite → k ∉ (mergeTouch guard kind fp t).readWrite :=
        mt fun h => hrw'.mpr (.inl h)
      rw [hro', hro]
      refine and_congr_left fun hnot => ?_
      simp only [Declared, List.exists_mem_cons_iff, and_iff_left (hmono hnot), or_assoc]

/-- A row whose key stands where the row would put it. -/
def Settled (guard : Address) (kind : CallKind) (fp : LedgerFootprint) (t : StorageKeyTouch) :
    Prop :=
  if t.writtenOn.isWritten kind then
    t.target.toLedgerKey guard ∈ fp.readWrite ∧ t.target.toLedgerKey guard ∉ fp.readOnly
  else t.target.toLedgerKey guard ∈ fp.readOnly ∨ t.target.toLedgerKey guard ∈ fp.readWrite

theorem mergeTouch_of_settled {t : StorageKeyTouch} (h : Settled guard kind fp t) :
    mergeTouch guard kind fp t = fp := by
  rw [Settled] at h
  rw [mergeTouch]
  cases hwritten : t.writtenOn.isWritten kind with
  | true =>
    rw [hwritten, if_pos rfl] at h
    obtain ⟨hrw, hro⟩ := h
    simp only [if_true, if_pos hrw, filter_ne_eq_self hro]
  | false =>
    rw [hwritten, if_neg Bool.false_ne_true] at h
    rw [if_neg Bool.false_ne_true]
    exact if_neg fun hnew => h.elim hnew.2 hnew.1

/-- **Rows that are in place change nothing.** -/
theorem foldl_mergeTouch_of_settled {touches : List StorageKeyTouch}
    (h : ∀ t ∈ touches, Settled guard kind fp t) :
    touches.foldl (mergeTouch guard kind) fp = fp := by
  induction touches with
  | nil => rfl
  | cons t touches ih =>
    obtain ⟨ht, htouches⟩ := List.forall_mem_cons.mp h
    rw [List.foldl_cons, mergeTouch_of_settled ht, ih htouches]

/-! ## The table -/

/-- **The five keys are five.** -/
theorem guardKeys_nodup : (guardKeys guard).Nodup := by
  have hne : ∀ key, guardDataKey guard key ≠ guardInstanceKey guard := fun key h => by
    simp [guardDataKey, guardInstanceKey, GuardKey.scval, unitVariant] at h
  have hinj : Function.Injective (guardDataKey guard) := by
    intro key key' h
    rw [guardDataKey_eq, guardDataKey_eq, entryKey_inj (by cases key <;> rfl)
      (by cases key' <;> rfl)] at h
    revert h
    cases key <;> cases key' <;> decide
  simp [guardKeys, hinj.eq_iff, hne]

theorem declared_iff {k : LedgerKey} :
    Declared guard guardStorageTouches k ↔ k ∈ guardKeys guard := by
  simp [Declared, guardStorageTouches, guardKeys, StorageTarget.toLedgerKey]

theorem mem_mergeGuardFootprint (hfp : fp.WellFormed) {k : LedgerKey} :
    (k ∈ (mergeGuardFootprint fp guard kind).readWrite ↔
      k ∈ fp.readWrite ∨ Written guard kind guardStorageTouches k) ∧
    (k ∈ (mergeGuardFootprint fp guard kind).readOnly ↔
      (k ∈ fp.readOnly ∨ k ∈ guardKeys guard) ∧
        k ∉ (mergeGuardFootprint fp guard kind).readWrite) := by
  rw [← declared_iff]
  exact mem_foldl_mergeTouch guardStorageTouches hfp

theorem mem_guardKeys_of_written {k : LedgerKey} (h : Written guard kind guardStorageTouches k) :
    k ∈ guardKeys guard := by
  obtain ⟨t, ht, -, hk⟩ := h
  exact declared_iff.mp ⟨t, ht, hk⟩

/-- **A merge adds the five keys and no other.** -/
theorem mem_or_mem_mergeGuardFootprint (hfp : fp.WellFormed) {k : LedgerKey} :
    k ∈ (mergeGuardFootprint fp guard kind).readOnly ∨
        k ∈ (mergeGuardFootprint fp guard kind).readWrite ↔
      (k ∈ fp.readOnly ∨ k ∈ fp.readWrite) ∨ k ∈ guardKeys guard := by
  rw [(mem_mergeGuardFootprint hfp).2, (mem_mergeGuardFootprint hfp).1]
  constructor
  · rintro (⟨hk, -⟩ | hk | hk)
    · exact hk.imp_left .inl
    · exact .inl (.inr hk)
    · exact .inr (mem_guardKeys_of_written hk)
  · intro h
    by_cases hrw : k ∈ fp.readWrite ∨ Written guard kind guardStorageTouches k
    · exact .inr hrw
    · refine .inl ⟨?_, hrw⟩
      rcases h with (hro | hin) | hkey
      · exact .inl hro
      · exact absurd (.inl hin) hrw
      · exact .inr hkey

/-- **After a merge, every row is in place.** -/
theorem settled_mergeGuardFootprint (hfp : fp.WellFormed) :
    ∀ t ∈ guardStorageTouches, Settled guard kind (mergeGuardFootprint fp guard kind) t := by
  intro t ht
  obtain ⟨hrw, hro⟩ := @mem_mergeGuardFootprint guard kind fp hfp (t.target.toLedgerKey guard)
  rw [Settled]
  split_ifs with hwritten
  · have hmem := hrw.mpr (.inr ⟨t, ht, hwritten, rfl⟩)
    exact ⟨hmem, fun h => (hro.mp h).2 hmem⟩
  · have hkey : t.target.toLedgerKey guard ∈ guardKeys guard := declared_iff.mp ⟨t, ht, rfl⟩
    exact (Classical.em _).symm.imp_left fun h => hro.mpr ⟨.inr hkey, h⟩

/-! ## Merging and declaring -/

theorem mergeTouch_of_new {t : StorageKeyTouch} (hro : t.target.toLedgerKey guard ∉ fp.readOnly)
    (hrw : t.target.toLedgerKey guard ∉ fp.readWrite) :
    mergeTouch guard kind fp t = declareTouch guard kind fp t := by
  rw [mergeTouch, declareTouch]
  simp only [filter_ne_eq_self hro, if_neg hrw, if_pos (And.intro hrw hro)]

/-- **Rows with keys of their own** are merged by appending them. -/
theorem foldl_mergeTouch_of_new (touches : List StorageKeyTouch) :
    ∀ {fp : LedgerFootprint}, (touches.map fun t => t.target.toLedgerKey guard).Nodup →
      (∀ t ∈ touches, t.target.toLedgerKey guard ∉ fp.readOnly ∧
        t.target.toLedgerKey guard ∉ fp.readWrite) →
      touches.foldl (mergeTouch guard kind) fp = touches.foldl (declareTouch guard kind) fp := by
  induction touches with
  | nil => exact fun _ _ => rfl
  | cons t touches ih =>
    intro fp hnodup hnew
    obtain ⟨hfresh, hnodup⟩ := List.nodup_cons.mp hnodup
    obtain ⟨ht, htouches⟩ := List.forall_mem_cons.mp hnew
    have hother : ∀ t' ∈ touches, t'.target.toLedgerKey guard ≠ t.target.toLedgerKey guard :=
      fun t' ht' heq => hfresh (List.mem_map.mpr ⟨t', ht', heq⟩)
    rw [List.foldl_cons, List.foldl_cons, mergeTouch_of_new ht.1 ht.2]
    refine ih hnodup fun t' ht' => ?_
    obtain ⟨hro, hrw⟩ := htouches t' ht'
    rw [declareTouch]
    split_ifs with hwritten
    · exact ⟨hro, by simp [hrw, hother t' ht']⟩
    · exact ⟨by simp [hro, hother t' ht'], hrw⟩

/-- **Merged into nothing, the table is what `guard_footprint` declares.** -/
theorem merge_empty : mergeGuardFootprint ⟨[], []⟩ guard kind = guardFootprint guard kind := by
  have hkeys : (guardStorageTouches.map fun t => t.target.toLedgerKey guard) = guardKeys guard :=
    rfl
  refine foldl_mergeTouch_of_new guardStorageTouches ?_ ?_
  · rw [hkeys]
    exact guardKeys_nodup
  · simp

/-- Merged into what `guard_footprint` declares, it adds nothing. -/
theorem merge_guardFootprint :
    mergeGuardFootprint (guardFootprint guard kind) guard kind = guardFootprint guard kind := by
  rw [← merge_empty]
  exact foldl_mergeTouch_of_settled (settled_mergeGuardFootprint .empty)

/-- **A merged footprint allows what its parts allow**, so what the table misses it misses unless
the simulation saw it. -/
theorem merge_allows_iff (hfp : fp.WellFormed) {a : Access DataKey} :
    (mergeGuardFootprint fp guard kind).Allows guard a ↔
      fp.Allows guard a ∨ (guardFootprint guard kind).Allows guard a := by
  rw [← merge_empty]
  cases a with
  | read key =>
    simp only [LedgerFootprint.Allows, mem_or_mem_mergeGuardFootprint hfp,
      mem_or_mem_mergeGuardFootprint .empty, List.not_mem_nil, false_or]
  | write key =>
    simp only [LedgerFootprint.Allows, (mem_mergeGuardFootprint hfp).1,
      (mem_mergeGuardFootprint .empty).1, List.not_mem_nil, false_or]

/-- **Merging the guard's entries** keeps a footprint without double entries so.  It adds the five
keys and no other; what was written stays written, the keys the call writes are written, and only
these leave the keys that are read.  Merging again changes nothing. -/
theorem merge_wellFormed (hfp : fp.WellFormed) :
    (mergeGuardFootprint fp guard kind).WellFormed ∧
    ((guardKeys guard).Nodup ∧ (guardKeys guard).length = 5 ∧
      ∀ k, k ∈ (mergeGuardFootprint fp guard kind).readOnly ∨
          k ∈ (mergeGuardFootprint fp guard kind).readWrite ↔
        (k ∈ fp.readOnly ∨ k ∈ fp.readWrite) ∨ k ∈ guardKeys guard) ∧
    (∀ k ∈ fp.readWrite, k ∈ (mergeGuardFootprint fp guard kind).readWrite) ∧
    (∀ k, Written guard kind guardStorageTouches k →
      k ∈ (mergeGuardFootprint fp guard kind).readWrite) ∧
    (∀ k ∈ fp.readOnly, k ∈ (mergeGuardFootprint fp guard kind).readWrite →
      Written guard kind guardStorageTouches k) ∧
    mergeGuardFootprint (mergeGuardFootprint fp guard kind) guard kind
      = mergeGuardFootprint fp guard kind := by
  refine ⟨hfp.foldl_mergeTouch _, ⟨guardKeys_nodup, rfl, fun k => ?_⟩, fun k hk => ?_,
    fun k hk => ?_, fun k hro hrw => ?_, ?_⟩
  · exact mem_or_mem_mergeGuardFootprint hfp
  · exact (mem_mergeGuardFootprint hfp).1.mpr (.inl hk)
  · exact (mem_mergeGuardFootprint hfp).1.mpr (.inr hk)
  · exact ((mem_mergeGuardFootprint hfp).1.mp hrw).resolve_left (hfp.disjoint hro)
  · exact foldl_mergeTouch_of_settled (settled_mergeGuardFootprint hfp)

end

namespace Sample

open AgentGuard.Sample

/-- A simulation that saw two of the guard's entries, read, and an entry written. -/
def simulated : LedgerFootprint :=
  ⟨[guardDataKey self .window, guardDataKey self .policy], [.other [1]]⟩

/-- Merged for a transfer, `Window` moves and three keys are new. -/
theorem simulated_merged :
    mergeGuardFootprint simulated self .transfer
      = ⟨[guardDataKey self .policy, guardDataKey self .adminFrozen,
          guardDataKey self .lastHeartbeat],
        [.other [1], guardDataKey self .window, guardInstanceKey self]⟩ ∧
    (mergeGuardFootprint simulated self .transfer).WellFormed ∧
    mergeGuardFootprint (mergeGuardFootprint simulated self .transfer) self .transfer
      = mergeGuardFootprint simulated self .transfer := by
  have h := @merge_wellFormed self .transfer simulated
    ⟨by decide, by decide, by simp [simulated, guardDataKey]⟩
  exact ⟨by decide, h.1, h.2.2.2.2.2⟩

end Sample

end AgentGuard.AgentTx
