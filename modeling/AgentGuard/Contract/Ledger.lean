import AgentGuard.Contract.Window
import AgentGuard.Machinery.Meter

/-!
# Contract/Ledger — the representation invariant of the window

The ledger of `window.rs` is three kinds of meter: the global one, one for each tracked recipient,
and the protocol-call counter.  `Ledger.Rep` is what every later argument rests on — the binary
search, the `total := 0` shortcut, coalescing with the last entry only.  Under it, pruning *is*
forgetting up to `horizon`, and the save/load round trip gives the ledger back.
-/

namespace AgentGuard

open Machinery

/-! ## Pruning is forgetting -/

/-- The last instant that has expired at `now`.  A width of `0` prunes nothing; at the end of time
the saturated sum expires everything. -/
def horizon (now windowSecs : U64) : ℤ :=
  if windowSecs.val = 0 then -1
  else if now.val = u64.hi then u64.hi
  else now.val - windowSecs.val

theorem expired_eq {V : IntRange} (now : U64) {windowSecs : U64} (h : windowSecs.val ≠ 0) :
    expired (V := V) now windowSecs = fun e => decide (e.ts.val ≤ horizon now windowSecs) := by
  funext e
  have hw := windowSecs.nonneg
  have hts := e.ts.le_hi
  have hnow := now.le_hi
  rw [expired, BoundedInt.val_saturatingAdd_of_nonneg _ hw, horizon, if_neg h]
  refine decide_eq_decide.mpr ?_
  split_ifs <;> omega

/-- Below the end of time the horizon is a width behind the clock. -/
theorem horizon_eq {now windowSecs : U64} (h : windowSecs.val ≠ 0) (hnow : now.val < u64.hi) :
    horizon now windowSecs = now.val - windowSecs.val := by
  rw [horizon, if_neg h, if_neg hnow.ne]

theorem horizon_lt {now windowSecs : U64} (hnow : now.val < u64.hi) :
    horizon now windowSecs < now.val := by
  have := now.nonneg
  have := windowSecs.nonneg
  rw [horizon]
  split_ifs <;> omega

/-- Time moves the horizon forward. -/
theorem horizon_mono {now now' : U64} (h : now.val ≤ now'.val) (windowSecs : U64) :
    horizon now windowSecs ≤ horizon now' windowSecs := by
  have := now'.le_hi
  have := windowSecs.nonneg
  rw [horizon, horizon]
  split_ifs <;> omega

/-- Nothing happened before time began. -/
theorem keepAfter_neg_one {V : IntRange} (l : Rolling u64 V) : l.keepAfter (-1) = l :=
  Rolling.keepAfter_of_lt fun e _ => by
    have : 0 ≤ e.ts.val := U64.nonneg e.ts
    omega

/-- A width of `0` forgets nothing. -/
theorem keepAfter_horizon_zero {V : IntRange} (l : Rolling u64 V) (now : U64) {windowSecs : U64}
    (h : windowSecs.val = 0) : l.keepAfter (horizon now windowSecs) = l := by
  rw [horizon, if_pos h, keepAfter_neg_one]

theorem popFront_eq (n : ℕ) (l : SingleLedger) :
    popFront n l = ⟨((l.entries.take n).map Stamped.value).foldl BoundedInt.saturatingSub l.total,
      l.entries.drop n⟩ := by
  induction n generalizing l with
  | zero => rfl
  | succ n ih =>
    rw [popFront]
    split
    · rename_i front rest hl
      rw [ih, hl]
      rfl
    · rename_i hl
      rw [ih, hl]
      simp

/-- Time order makes expiry a prefix, ties or not. -/
theorem prefixed_expired {V : IntRange} {entries : List (Stamped u64 V)} (now : U64)
    {windowSecs : U64} (hw : windowSecs.val ≠ 0)
    (h : entries.Pairwise fun a b => a.ts.val ≤ b.ts.val) :
    Prefixed (expired now windowSecs) entries := by
  rw [expired_eq now hw]
  refine h.imp fun hab hb => ?_
  simp only [decide_eq_true_eq] at hb ⊢
  exact hab.trans hb

/-- **The binary-search prune drops the expired prefix**, by whichever of its two removal paths. -/
theorem pruneEntries_eq_dropPrefix {l : SingleLedger} (h : l.Chronological) (now : U64)
    {windowSecs : U64} (hw : windowSecs.val ≠ 0) :
    pruneEntries l now windowSecs = l.dropPrefix (expired now windowSecs) := by
  have hdropped := h.dropPrefix (by decide) (expired now windowSecs)
  rw [pruneEntries, if_neg hw]
  by_cases hlen : l.entries.length = 0
  · have hnil := List.length_eq_zero_iff.mp hlen
    rw [if_pos hlen]
    refine h.exact.ext hdropped.exact ?_
    rw [Rolling.dropPrefix, hnil, List.dropWhile_nil]
  rw [if_neg hlen, partitionPoint_eq (prefixed_expired now hw h.sorted)]
  dsimp only
  split_ifs with hall
  -- everything has expired: the exact total is all there is to take off
  · have hzero : (⟨0, []⟩ : SingleLedger).Exact := rfl
    refine hzero.ext hdropped.exact ?_
    rw [Rolling.dropPrefix, ← drop_length_takeWhile, hall, List.drop_length]
  · rw [popFront_eq, take_length_takeWhile, drop_length_takeWhile, Rolling.dropPrefix]

/-- **The binary-search prune forgets up to the horizon.** -/
theorem pruneEntries_eq {l : SingleLedger} {bound : ℕ} {t : ℤ} (h : l.Sound bound t)
    (now windowSecs : U64) :
    pruneEntries l now windowSecs = l.keepAfter (horizon now windowSecs) := by
  by_cases hw : windowSecs.val = 0
  · rw [pruneEntries, if_pos hw, keepAfter_horizon_zero l now hw]
  · rw [pruneEntries_eq_dropPrefix h.chronological now hw, expired_eq now hw, Rolling.dropPrefix,
      Rolling.keepAfter_eq_dropWhile h.ordered]

theorem popExpiredCalls_eq (now windowSecs : U64) (entries : List ProtocolCallEntry) (total : U32) :
    popExpiredCalls now windowSecs total entries
      = ⟨((entries.takeWhile (expired now windowSecs)).map Stamped.value).foldl
          BoundedInt.saturatingSub total, entries.dropWhile (expired now windowSecs)⟩ := by
  induction entries generalizing total with
  | nil => rfl
  | cons front rest ih =>
    rw [popExpiredCalls]
    split_ifs with he
    · rw [ih, List.takeWhile_cons_of_pos he, List.dropWhile_cons_of_pos he]
      rfl
    · rw [List.takeWhile_cons_of_neg he, List.dropWhile_cons_of_neg he]
      rfl

/-- **The linear prune forgets up to the same horizon**, whatever the counter says. -/
theorem pruneProtocolCallEntries_eq {l : ProtocolCallLedger} {bound : ℕ} {t : ℤ}
    (h : Ordered bound t l.entries) (now windowSecs : U64) :
    pruneProtocolCallEntries l now windowSecs = l.keepAfter (horizon now windowSecs) := by
  rw [pruneProtocolCallEntries]
  split_ifs with hw
  · rw [keepAfter_horizon_zero l now hw]
  · rw [popExpiredCalls_eq, expired_eq now hw, Rolling.keepAfter_eq_dropWhile h]

/-! ## Recipient meters -/

/-- The meter kept for a recipient, an empty one when there is none. -/
def meterOf (recipients : List RecipientLedger) (recipient : Address) : SingleLedger :=
  match recipients.find? fun r => r.recipient = recipient with
  | some r => r.single
  | none => ⟨0, []⟩

def Ledger.meter (l : Ledger) (recipient : Address) : SingleLedger :=
  meterOf l.recipients recipient

theorem recipientTotal_eq (l : Ledger) (recipient : Address) :
    l.recipientTotal recipient = (l.meter recipient).total := by
  rw [Ledger.recipientTotal, Ledger.meter, meterOf]
  cases l.recipients.find? fun r => r.recipient = recipient <;> rfl

theorem meterOf_cons (r : RecipientLedger) (rs : List RecipientLedger) (recipient : Address) :
    meterOf (r :: rs) recipient
      = if r.recipient = recipient then r.single else meterOf rs recipient := by
  by_cases h : r.recipient = recipient <;> simp [meterOf, h]

theorem sound_empty (now : ℤ) : (⟨0, []⟩ : SingleLedger).Sound maxWindowEntries now :=
  ⟨Ordered.nil _ _, rfl⟩

theorem meterOf_mem {rs : List RecipientLedger} (hnd : (rs.map RecipientLedger.recipient).Nodup)
    {r : RecipientLedger} (hr : r ∈ rs) : meterOf rs r.recipient = r.single := by
  rw [meterOf, (find?_key_eq_some_iff hnd).mpr ⟨hr, rfl⟩]

/-- **Sound recipient ledgers are sound meters.** -/
theorem sound_meterOf {rs : List RecipientLedger} {now : ℤ}
    (h : ∀ r ∈ rs, r.single.Sound maxWindowEntries now) (recipient : Address) :
    (meterOf rs recipient).Sound maxWindowEntries now := by
  rw [meterOf]
  split
  · rename_i r hr
    exact h r (List.mem_of_find?_eq_some hr)
  · exact sound_empty now

/-- **A per-recipient admission moves that recipient's meter and no other.** -/
theorem meterOf_admitToRecipients (now : U64) (recipient : Address) (amount : I128)
    (rs : List RecipientLedger) (other : Address) :
    meterOf (Ledger.admitToRecipients now recipient amount rs).1 other
      = if recipient = other then (admitToLedger (meterOf rs recipient) now amount).1
        else meterOf rs other := by
  induction rs with
  | nil =>
    by_cases h : recipient = other <;>
      simp [Ledger.admitToRecipients, meterOf, RecipientLedger.empty, RecipientLedger.single,
        RecipientLedger.withSingle, h]
  | cons r rs ih =>
    rw [Ledger.admitToRecipients]
    by_cases hr : r.recipient = recipient
    · simp only [hr, if_true, meterOf_cons, RecipientLedger.withSingle, RecipientLedger.single]
      split_ifs <;> simp_all
    · simp only [hr, if_false, meterOf_cons, ih]
      split_ifs <;> simp_all

theorem recipients_admitToRecipients (now : U64) (recipient : Address) (amount : I128)
    (rs : List RecipientLedger) :
    (Ledger.admitToRecipients now recipient amount rs).1.map RecipientLedger.recipient
      = if recipient ∈ rs.map RecipientLedger.recipient then rs.map RecipientLedger.recipient
        else rs.map RecipientLedger.recipient ++ [recipient] := by
  induction rs with
  | nil => rfl
  | cons r rs ih =>
    rw [Ledger.admitToRecipients]
    by_cases hr : r.recipient = recipient
    · simp [hr, RecipientLedger.withSingle]
    · simp only [hr, if_false, List.map_cons, ih, List.mem_cons, Ne.symm hr, false_or]
      split_ifs <;> rfl

theorem nodup_admitToRecipients (now : U64) (recipient : Address) (amount : I128)
    {rs : List RecipientLedger} (h : (rs.map RecipientLedger.recipient).Nodup) :
    ((Ledger.admitToRecipients now recipient amount rs).1.map RecipientLedger.recipient).Nodup := by
  rw [recipients_admitToRecipients]
  split_ifs with hmem
  · exact h
  · refine List.nodup_append.mpr ⟨h, List.pairwise_singleton _ _, fun a ha b hb hab => ?_⟩
    obtain rfl := List.mem_singleton.mp hb
    exact hmem (hab ▸ ha)

/-! ## The representation invariant -/

/-- **The representation invariant of a ledger at time `now`.**  The call counter's total is left
open: it saturates by design when the rate limit is the whole `u32` range. -/
structure Ledger.Rep (now : U64) (l : Ledger) : Prop where
  single : l.single.Sound maxWindowEntries now.val
  recipients : ∀ r ∈ l.recipients, r.single.Sound maxWindowEntries now.val
  distinct : (l.recipients.map RecipientLedger.recipient).Nodup
  calls : Ordered maxWindowEntries now.val l.protocolCallEntries

/-- The same of a stored window. -/
structure WindowState.Rep (now : U64) (w : WindowState) : Prop where
  single : (⟨w.total, w.entries⟩ : SingleLedger).Sound maxWindowEntries now.val
  recipients : ∀ r ∈ w.recipients,
    (⟨r.total, r.entries⟩ : SingleLedger).Sound maxWindowEntries now.val
  distinct : (w.recipients.map RecipientWindowState.recipient).Nodup
  calls : Ordered maxWindowEntries now.val w.protocolCallEntries

namespace Ledger

variable {now : U64} {l : Ledger}

theorem rep_empty (now : U64) : Ledger.empty.Rep now :=
  ⟨sound_empty _, by simp [Ledger.empty], by simp [Ledger.empty], Ordered.nil _ _⟩

theorem Rep.meter (h : l.Rep now) (recipient : Address) :
    (l.meter recipient).Sound maxWindowEntries now.val := sound_meterOf h.recipients recipient

/-- **The invariant, meter by meter.** -/
theorem Rep.of_meters (hsingle : l.single.Sound maxWindowEntries now.val)
    (hmeter : ∀ r, (l.meter r).Sound maxWindowEntries now.val)
    (hnd : (l.recipients.map RecipientLedger.recipient).Nodup)
    (hcalls : Ordered maxWindowEntries now.val l.protocolCallEntries) : l.Rep now where
  single := hsingle
  recipients := fun r hr => meterOf_mem hnd hr ▸ hmeter r.recipient
  distinct := hnd
  calls := hcalls

/-! ### Pruning a ledger -/

variable {windowSecs : U64}

theorem Rep.single_prune {t : U64} (h : l.Rep t) :
    (l.prune now windowSecs).single = l.single.keepAfter (horizon now windowSecs) :=
  pruneEntries_eq h.single now windowSecs

theorem Rep.calls_prune {t : U64} (h : l.Rep t) :
    (l.prune now windowSecs).calls = l.calls.keepAfter (horizon now windowSecs) :=
  pruneProtocolCallEntries_eq (l := l.calls) h.calls now windowSecs

theorem Rep.recipients_prune {t : U64} (h : l.Rep t) :
    (l.prune now windowSecs).recipients
      = l.recipients.map fun r => r.withSingle (r.single.keepAfter (horizon now windowSecs)) :=
  List.map_congr_left fun r hr => by rw [pruneEntries_eq (h.recipients r hr)]

theorem Rep.meter_prune {t : U64} (h : l.Rep t) (recipient : Address) :
    (l.prune now windowSecs).meter recipient
      = (l.meter recipient).keepAfter (horizon now windowSecs) := by
  rw [Ledger.meter, Ledger.meter, h.recipients_prune]
  generalize l.recipients = rs
  induction rs with
  | nil => exact (Rolling.keepAfter_of_lt (l := ⟨0, []⟩) (by simp)).symm
  | cons r rs ih =>
    rw [List.map_cons, meterOf_cons, meterOf_cons, ih]
    by_cases hr : r.recipient = recipient
    · simp only [RecipientLedger.withSingle, hr, if_true]
      rfl
    · simp only [RecipientLedger.withSingle, hr, if_false]

/-- **Pruning keeps the invariant.** -/
theorem Rep.prune (h : l.Rep now) (now' windowSecs : U64) : (l.prune now' windowSecs).Rep now := by
  refine Rep.of_meters ?_ (fun r => ?_) ?_ ?_
  · rw [h.single_prune]
    exact h.single.keepAfter (by decide) _
  · rw [h.meter_prune]
    exact (h.meter r).keepAfter (by decide) _
  · rw [h.recipients_prune, List.map_map]
    exact h.distinct
  · have := h.calls.keepAfter (l := l.calls) (horizon now' windowSecs)
    rwa [← h.calls_prune] at this

end Ledger

/-! ## The save/load round trip -/

theorem rebuild_of_sound {l : SingleLedger} {bound : ℕ} {t : ℤ} (h : l.Sound bound t) :
    ledgerFromEntries l.entries = l := by
  refine Rolling.rebuild_of_exact (by decide) (by decide) h.ordered.positive ?_
  have := l.total.le_hi
  rw [← show l.total.val = valueSum l.entries from h.exact, min_eq_right this]

/-- The call counter as it is rebuilt from stored entries. -/
theorem protocolCallEntriesFromState_eq {entries : List ProtocolCallEntry} {bound : ℕ} {t : ℤ}
    (h : Ordered bound t entries) :
    protocolCallEntriesFromState entries = ⟨BoundedInt.clamp (valueSum entries), entries⟩ := by
  refine Rolling.rebuild_of_exact (l := ⟨BoundedInt.clamp (valueSum entries), entries⟩) (by decide)
    (by decide) h.positive ?_
  exact U32.val_clamp (valueSum_nonneg h.positive)

/-- Saving keeps the invariant. -/
theorem Ledger.Rep.toState {t : U64} {l : Ledger} (h : l.Rep t) : l.toState.Rep t where
  single := h.single
  recipients := fun rws hr => by
    obtain ⟨r, hmem, rfl⟩ := List.mem_map.mp hr
    exact h.recipients r hmem
  distinct := by
    rw [Ledger.toState, List.map_map]
    exact h.distinct
  calls := h.calls

/-- **Loading a sound window** takes its totals at their word and counts the calls. -/
theorem WindowState.Rep.fromState_eq {t : U64} {w : WindowState} (h : w.Rep t) :
    Ledger.fromState w
      = { total := w.total
          entries := w.entries
          recipients := w.recipients.map fun rws => ⟨rws.recipient, rws.total, rws.entries⟩
          protocolCallEntries := w.protocolCallEntries
          protocolCallTotal := BoundedInt.clamp (valueSum w.protocolCallEntries)
          merges := [] } := by
  have hsingle : ledgerFromEntries w.entries = ⟨w.total, w.entries⟩ := rebuild_of_sound h.single
  have hrecipients : (w.recipients.map fun rws =>
      (⟨rws.recipient, (ledgerFromEntries rws.entries).total,
        (ledgerFromEntries rws.entries).entries⟩ : RecipientLedger))
      = w.recipients.map fun rws => ⟨rws.recipient, rws.total, rws.entries⟩ :=
    List.map_congr_left fun rws hr => by
      have : ledgerFromEntries rws.entries = ⟨rws.total, rws.entries⟩ :=
        rebuild_of_sound (h.recipients rws hr)
      rw [this]
  rw [Ledger.fromState, hrecipients, hsingle, protocolCallEntriesFromState_eq h.calls]

/-- Loading keeps the invariant. -/
theorem WindowState.Rep.fromState {t : U64} {w : WindowState} (h : w.Rep t) :
    (Ledger.fromState w).Rep t := by
  rw [h.fromState_eq]
  refine ⟨h.single, fun r hr => ?_, ?_, h.calls⟩
  · obtain ⟨rws, hmem, rfl⟩ := List.mem_map.mp hr
    exact h.recipients rws hmem
  · rw [List.map_map]
    exact h.distinct

/-- **Loading what was saved** gives the ledger back, but for the telemetry and a call counter that
is counted again. -/
theorem Ledger.Rep.fromState_toState {t : U64} {l : Ledger} (h : l.Rep t) :
    Ledger.fromState l.toState
      = { l with
          protocolCallTotal := BoundedInt.clamp (valueSum l.protocolCallEntries)
          merges := [] } := by
  rw [h.toState.fromState_eq]
  simp only [Ledger.toState, List.map_map, Function.comp_def]
  congr 1
  exact List.map_id' l.recipients

end AgentGuard
