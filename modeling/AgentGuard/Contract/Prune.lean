import AgentGuard.Contract.Ledger

/-!
# Contract/Prune — pruning is filtering

`prune_entries` finds the expired prefix with a binary search over machine indices and then removes
it in one of two ways; `prune_protocol_call_entries` pops from the front.  On entries in time order
with an exact total both leave the entries that have not expired, with an exact total — the plain
definition of a rolling window, and what the test oracle `ReferenceWindow` computes.
-/

namespace AgentGuard

open Machinery

/-! ## The search loop over machine indices -/

/-- Where the search of `prune_entries` stands. -/
inductive SearchOutcome
  /-- The interval is still open. -/
  | running
  /-- An index does not fit a `u32`: `prune_entries` returns as it is. -/
  | unindexable
  | found (low : ℕ)
deriving DecidableEq

/-- `saturating_add` of a `usize`. -/
def usizeSaturatingAdd (usizeMax a b : ℕ) : ℕ := min usizeMax (a + b)

/-- The search of `prune_entries` on `[low, high)`, for `fuel` iterations. -/
def searchLoop (usizeMax : ℕ) (now windowSecs : U64) (entries : List SpendEntry) :
    ℕ → ℕ → ℕ → SearchOutcome
  | 0, low, high => if low < high then .running else .found low
  | fuel + 1, low, high =>
    if low < high then
      let mid := usizeSaturatingAdd usizeMax low ((high - low) / 2)
      if u32.hi < mid then .unindexable
      else
        match entries[mid]? with
        | some entry =>
          if expired now windowSecs entry then
            searchLoop usizeMax now windowSecs entries fuel (usizeSaturatingAdd usizeMax mid 1) high
          else searchLoop usizeMax now windowSecs entries fuel low mid
        -- a failed read moves neither bound
        | none => searchLoop usizeMax now windowSecs entries fuel low high
    else .found low

/-- `prune_entries` with its search loop run for `fuel` iterations; `none` while it still runs. -/
def pruneEntriesFor (usizeMax fuel : ℕ) (l : SingleLedger) (now windowSecs : U64) :
    Option SingleLedger :=
  if windowSecs.val = 0 then some l
  else if usizeMax < l.entries.length then some l
  else if l.entries.length = 0 then some l
  else
    match searchLoop usizeMax now windowSecs l.entries fuel 0 l.entries.length with
    | .running => none
    | .unindexable => some l
    | .found low => some (if low = l.entries.length then ⟨0, []⟩ else popFront low l)

/-- An index search seen as the search of the machine loop. -/
def SearchOutcome.ofIndex : Option ℕ → SearchOutcome
  | none => .running
  | some low => .found low

/-- **No index of a host vector fails to convert**, and no index addition saturates: the machine
loop is the search over plain indices. -/
theorem searchLoop_eq {usizeMax : ℕ} {entries : List SpendEntry} (husize : u32.hi ≤ usizeMax)
    (hlen : entries.length ≤ u32.hi) (now windowSecs : U64) :
    ∀ fuel low high : ℕ, high ≤ entries.length →
      searchLoop usizeMax now windowSecs entries fuel low high
        = .ofIndex (partitionPointLoop (expired now windowSecs) entries fuel low high) := by
  intro fuel
  induction fuel with
  | zero =>
    intro low high _
    rw [searchLoop, partitionPointLoop]
    split_ifs <;> rfl
  | succ fuel ih =>
    intro low high hhigh
    rw [searchLoop, partitionPointLoop]
    by_cases hlt : low < high
    · have hmid : usizeSaturatingAdd usizeMax low ((high - low) / 2) = low + (high - low) / 2 :=
        min_eq_right (by omega)
      have hnext : usizeSaturatingAdd usizeMax (low + (high - low) / 2) 1
          = low + (high - low) / 2 + 1 := min_eq_right (by omega)
      have hfits : ¬u32.hi < ((low + (high - low) / 2 : ℕ) : ℤ) := by omega
      have hget : low + (high - low) / 2 < entries.length := by omega
      simp only [if_pos hlt, hmid, hnext, if_neg hfits, List.getElem?_eq_getElem hget]
      split_ifs
      · exact ih _ _ hhigh
      · exact ih _ _ (by omega)
    · rw [if_neg hlt, if_neg hlt]
      rfl

/-- **The loop closes its interval**: as many iterations as there are entries are enough, and more
change nothing. -/
theorem pruneEntriesFor_eq {l : SingleLedger} (h : l.Chronological) {usizeMax fuel : ℕ}
    (husize : u32.hi ≤ usizeMax) (hlen : l.entries.length ≤ u32.hi)
    (hfuel : l.entries.length ≤ fuel) (now windowSecs : U64) :
    pruneEntriesFor usizeMax fuel l now windowSecs = some (pruneEntries l now windowSecs) := by
  rw [pruneEntriesFor, pruneEntries]
  by_cases hw : windowSecs.val = 0
  · rw [if_pos hw, if_pos hw]
  have hindexed : ¬usizeMax < l.entries.length := by omega
  rw [if_neg hw, if_neg hw, if_neg hindexed]
  split_ifs with hempty
  · rfl
  have hpre := prefixed_expired now hw h.sorted
  have hloop := partitionPointLoop_eq hpre fuel 0 l.entries.length (by omega) le_rfl
    (Nat.zero_le _) (List.takeWhile_prefix _).length_le
  rw [searchLoop_eq husize hlen now windowSecs _ _ _ le_rfl, hloop, partitionPoint_eq hpre]
  rfl

/-! ## What is left -/

/-- What has not expired, at a width that prunes. -/
theorem not_expired_iff {V : IntRange} {now windowSecs : U64} {e : Stamped u64 V} :
    (!expired now windowSecs e) = decide (now.val < (e.ts.saturatingAdd windowSecs).val) := by
  rw [expired, ← decide_not]
  exact decide_eq_decide.mpr not_le

/-- An entry that has expired stays expired. -/
theorem expired_mono {V : IntRange} {n₁ n₂ windowSecs : U64} (hn : n₁.val ≤ n₂.val)
    (e : Stamped u64 V) (he : expired n₁ windowSecs e = true) : expired n₂ windowSecs e = true := by
  simp only [expired, decide_eq_true_eq] at he ⊢
  exact he.trans hn

/-- **Dropping the expired prefix is filtering.** -/
theorem entries_dropPrefix_expired {V : IntRange} {l : Rolling u64 V} (h : l.Chronological)
    (now : U64) {windowSecs : U64} (hw : windowSecs.val ≠ 0) :
    (l.dropPrefix (expired now windowSecs)).entries
      = l.entries.filter fun e => now.val < (e.ts.saturatingAdd windowSecs).val := by
  rw [Rolling.dropPrefix, (prefixed_expired now hw h.sorted).dropWhile_eq_filter]
  exact List.filter_congr fun e _ => not_expired_iff

/-- The linear prune pops the expired prefix. -/
theorem pruneProtocolCallEntries_eq_dropPrefix (l : ProtocolCallLedger) (now : U64)
    {windowSecs : U64} (hw : windowSecs.val ≠ 0) :
    pruneProtocolCallEntries l now windowSecs = l.dropPrefix (expired now windowSecs) := by
  rw [pruneProtocolCallEntries, if_neg hw, popExpiredCalls_eq, Rolling.dropPrefix]

/-! ## The test oracle -/

namespace ReferenceWindow

/-- The loop of `ReferenceWindow::prune`: remove the first entry while it has expired. -/
def removeExpired (now windowSecs : U64) (total : I128) : List SpendEntry → SingleLedger
  | [] => ⟨total, []⟩
  | entry :: rest =>
    if expired now windowSecs entry then
      removeExpired now windowSecs (total.saturatingSub entry.value) rest
    else ⟨total, entry :: rest⟩

def prune (l : SingleLedger) (now windowSecs : U64) : SingleLedger :=
  removeExpired now windowSecs l.total l.entries

theorem removeExpired_eq (now windowSecs : U64) (entries : List SpendEntry) (total : I128) :
    removeExpired now windowSecs total entries
      = Rolling.dropPrefix (expired now windowSecs) ⟨total, entries⟩ := by
  induction entries generalizing total with
  | nil => rfl
  | cons entry rest ih =>
    rw [removeExpired]
    split_ifs with he
    · rw [ih, Rolling.dropPrefix, Rolling.dropPrefix, List.takeWhile_cons_of_pos he,
        List.dropWhile_cons_of_pos he]
      rfl
    · rw [Rolling.dropPrefix, List.takeWhile_cons_of_neg he, List.dropWhile_cons_of_neg he]
      rfl

end ReferenceWindow

/-! ## Pruning -/

/-- **Binary-search pruning is the plain rolling window.**  Take spend entries in time order whose
total is exact, a call counter of the same shape, and a width that prunes.  `prune_entries` returns,
and both prunes leave exactly the entries with `ts + window_secs > now`, in order, with their sum as
the total.  Pruning earlier as well changes nothing, and so pruning twice does not either. -/
theorem pruning_filters {l : SingleLedger} {calls : ProtocolCallLedger} (hl : l.Chronological)
    (hcalls : calls.Chronological) {windowSecs : U64} (hw : 0 < windowSecs.val) :
    (∀ (now : U64) (usizeMax fuel : ℕ), u32.hi ≤ usizeMax → l.entries.length ≤ u32.hi →
        l.entries.length ≤ fuel →
        pruneEntriesFor usizeMax fuel l now windowSecs = some (pruneEntries l now windowSecs)) ∧
      (∀ now : U64,
        (pruneEntries l now windowSecs).entries
            = l.entries.filter (fun e => now.val < (e.ts.saturatingAdd windowSecs).val) ∧
          (pruneEntries l now windowSecs).total.val
            = valueSum (pruneEntries l now windowSecs).entries ∧
          pruneEntries l now windowSecs = ReferenceWindow.prune l now windowSecs) ∧
      (∀ now : U64,
        (pruneProtocolCallEntries calls now windowSecs).entries
            = calls.entries.filter (fun e => now.val < (e.ts.saturatingAdd windowSecs).val) ∧
          (pruneProtocolCallEntries calls now windowSecs).total.val
            = valueSum (pruneProtocolCallEntries calls now windowSecs).entries) ∧
      (∀ n₁ n₂ : U64, n₁.val ≤ n₂.val →
        pruneEntries (pruneEntries l n₁ windowSecs) n₂ windowSecs
            = pruneEntries l n₂ windowSecs ∧
          pruneProtocolCallEntries (pruneProtocolCallEntries calls n₁ windowSecs) n₂ windowSecs
            = pruneProtocolCallEntries calls n₂ windowSecs) ∧
      ∀ now : U64,
        pruneEntries (pruneEntries l now windowSecs) now windowSecs
            = pruneEntries l now windowSecs ∧
          pruneProtocolCallEntries (pruneProtocolCallEntries calls now windowSecs) now windowSecs
            = pruneProtocolCallEntries calls now windowSecs := by
  have hw' : windowSecs.val ≠ 0 := hw.ne'
  have hspend : ∀ now, pruneEntries l now windowSecs = l.dropPrefix (expired now windowSecs) :=
    fun now => pruneEntries_eq_dropPrefix hl now hw'
  have hcount : ∀ c : ProtocolCallLedger, ∀ now, pruneProtocolCallEntries c now windowSecs
      = c.dropPrefix (expired now windowSecs) :=
    fun c now => pruneProtocolCallEntries_eq_dropPrefix c now hw'
  have htwice : ∀ n₁ n₂ : U64, n₁.val ≤ n₂.val →
      pruneEntries (pruneEntries l n₁ windowSecs) n₂ windowSecs = pruneEntries l n₂ windowSecs ∧
        pruneProtocolCallEntries (pruneProtocolCallEntries calls n₁ windowSecs) n₂ windowSecs
          = pruneProtocolCallEntries calls n₂ windowSecs := by
    intro n₁ n₂ hn
    have hkept := hl.dropPrefix (by decide) (expired n₁ windowSecs)
    constructor
    · rw [hspend, hspend, pruneEntries_eq_dropPrefix hkept n₂ hw',
        hl.dropPrefix_dropPrefix (by decide) (expired_mono hn)]
    · rw [hcount, hcount, hcount, hcalls.dropPrefix_dropPrefix (by decide) (expired_mono hn)]
  refine ⟨fun now usizeMax fuel husize hlen hfuel => ?_, fun now => ?_, fun now => ?_, htwice,
    fun now => htwice now now le_rfl⟩
  · exact pruneEntriesFor_eq hl husize hlen hfuel now windowSecs
  · rw [hspend]
    exact ⟨entries_dropPrefix_expired hl now hw', (hl.dropPrefix (by decide) _).exact,
      (ReferenceWindow.removeExpired_eq now windowSecs l.entries l.total).symm⟩
  · rw [hcount]
    exact ⟨entries_dropPrefix_expired hcalls now hw', (hcalls.dropPrefix (by decide) _).exact⟩

namespace Sample

/-- Three spends, two of the same second. -/
def mergedSpends : SingleLedger := ⟨9, [⟨100, 2⟩, ⟨100, 3⟩, ⟨160, 4⟩]⟩

/-- Calls of the same seconds. -/
def mergedCalls : ProtocolCallLedger := ⟨3, [⟨100, 1⟩, ⟨160, 2⟩]⟩

/-- **At the expiry second of the oldest pair** both go, and one second earlier neither does. -/
theorem pruning_filters_mergedSpends :
    (pruneEntries mergedSpends 160 60).entries = [⟨160, 4⟩] ∧
      (pruneEntries mergedSpends 159 60).entries = mergedSpends.entries ∧
      (pruneProtocolCallEntries mergedCalls 160 60).entries = [⟨160, 2⟩] := by
  have h := @pruning_filters mergedSpends mergedCalls ⟨by decide, by decide, rfl⟩
    ⟨by decide, by decide, rfl⟩ 60 (by decide)
  rw [(h.2.1 160).1, (h.2.1 159).1, (h.2.2.1 160).1]
  decide

end Sample

end AgentGuard
