import AgentGuard.Contract.Ledger
import Mathlib.Data.List.Forall2

/-!
# Contract/Reload — saving the window and loading it again

`from_state` re-accumulates every total from the positive entries it keeps, so nothing that was
cached matters (`fromState_congr`), and what it returns is a fixed point of the round trip whatever
was stored.  A ledger that was not just loaded comes back with its calls counted again.
-/

namespace AgentGuard

open Machinery

/-- **The same window but for the cached totals.** -/
structure WindowState.SameEntries (w w' : WindowState) : Prop where
  entries : w.entries = w'.entries
  recipients : w.recipients.map (fun r => (r.recipient, r.entries))
    = w'.recipients.map fun r => (r.recipient, r.entries)
  calls : w.protocolCallEntries = w'.protocolCallEntries

/-- **Cached totals are ignored.** -/
theorem fromState_congr {w w' : WindowState} (h : w.SameEntries w') :
    Ledger.fromState w = Ledger.fromState w' := by
  have hload : ∀ v : WindowState, Ledger.fromState v
      = { total := (ledgerFromEntries v.entries).total
          entries := (ledgerFromEntries v.entries).entries
          recipients := (v.recipients.map fun r => (r.recipient, r.entries)).map fun re =>
            ⟨re.1, (ledgerFromEntries re.2).total, (ledgerFromEntries re.2).entries⟩
          protocolCallEntries := (protocolCallEntriesFromState v.protocolCallEntries).entries
          protocolCallTotal := (protocolCallEntriesFromState v.protocolCallEntries).total
          merges := [] } := fun v => by
    rw [List.map_map]
    rfl
  rw [hload w, hload w', h.entries, h.recipients, h.calls]

section

variable (w : WindowState)

theorem single_fromState : (Ledger.fromState w).single.Rebuilt w.entries :=
  Rolling.rebuilt (by decide) (by decide) w.entries

theorem calls_fromState : (Ledger.fromState w).calls.Rebuilt w.protocolCallEntries :=
  Rolling.rebuilt (by decide) (by decide) w.protocolCallEntries

/-- Every recipient is kept, in order. -/
theorem recipients_fromState :
    List.Forall₂ (fun (stored : RecipientWindowState) (r : RecipientLedger) =>
        r.recipient = stored.recipient ∧ r.single.Rebuilt stored.entries)
      w.recipients (Ledger.fromState w).recipients := by
  rw [Ledger.fromState, List.forall₂_map_right_iff, List.forall₂_same]
  exact fun stored _ => ⟨rfl, Rolling.rebuilt (by decide) (by decide) stored.entries⟩

/-- **What was loaded comes back as it is**, whatever was stored. -/
theorem fromState_toState_fromState :
    Ledger.fromState (Ledger.fromState w).toState = Ledger.fromState w := by
  have hspend : ∀ entries, ledgerFromEntries (ledgerFromEntries entries).entries
      = ledgerFromEntries entries := Rolling.rebuild_rebuild (by decide) (by decide)
  have hcalls : ∀ entries,
      protocolCallEntriesFromState (protocolCallEntriesFromState entries).entries
        = protocolCallEntriesFromState entries := Rolling.rebuild_rebuild (by decide) (by decide)
  simp only [Ledger.fromState, Ledger.toState, List.map_map, Function.comp_def, hspend, hcalls]

end

/-- **Persisting the window is lossless and ignores cached totals.**  A ledger in shape comes back
with its calls counted again and its telemetry dropped; two stored windows with the same entries
load alike; and whatever is stored, what is loaded from it holds the positive entries with their
saturated sums, and comes back unchanged from then on. -/
theorem window_reload :
    (∀ (t : U64) (l : Ledger), l.Rep t →
      Ledger.fromState l.toState
          = { l with
              protocolCallTotal := BoundedInt.clamp (valueSum l.protocolCallEntries)
              merges := [] } ∧
        (Ledger.fromState l.toState = { l with merges := [] }
          ↔ l.protocolCallTotal.val = min u32.hi (valueSum l.protocolCallEntries))) ∧
      (∀ w w' : WindowState, w.SameEntries w' → Ledger.fromState w = Ledger.fromState w') ∧
      ∀ w : WindowState,
        Ledger.fromState (Ledger.fromState w).toState = Ledger.fromState w ∧
          (Ledger.fromState (Ledger.fromState w).toState).toState = (Ledger.fromState w).toState ∧
          (Ledger.fromState w).single.Rebuilt w.entries ∧
          List.Forall₂ (fun (stored : RecipientWindowState) (r : RecipientLedger) =>
              r.recipient = stored.recipient ∧ r.single.Rebuilt stored.entries)
            w.recipients (Ledger.fromState w).recipients ∧
          (Ledger.fromState w).calls.Rebuilt w.protocolCallEntries := by
  refine ⟨fun t l h => ⟨h.fromState_toState, ?_⟩, fun w w' h => fromState_congr h, fun w => ?_⟩
  · have hcount : (BoundedInt.clamp (valueSum l.protocolCallEntries) : U32).val
        = min u32.hi (valueSum l.protocolCallEntries) :=
      U32.val_clamp (valueSum_nonneg h.calls.positive)
    rw [h.fromState_toState, ← hcount]
    simp [BoundedInt.ext_iff, eq_comm]
  · have hback := fromState_toState_fromState w
    exact ⟨hback, congrArg Ledger.toState hback, single_fromState w, recipients_fromState w,
      calls_fromState w⟩

namespace Sample

/-- Two call entries whose sum does not fit a `u32`, the first of them expired and pruned. -/
def drained : Ledger :=
  (Ledger.fromState ⟨0, [], [], [⟨100, 4294967295⟩, ⟨150, 5⟩]⟩).prune 165 60

/-- The saturated total lost the second entry's calls when the first left; loading finds them. -/
theorem drained_recounted :
    drained.Rep 165 ∧ Ledger.fromState drained.toState ≠ { drained with merges := [] } ∧
      drained.protocolCallTotal = 0 ∧
      (Ledger.fromState drained.toState).protocolCallTotal = 5 := by
  have hstored : (⟨0, [], [], [⟨100, 4294967295⟩, ⟨150, 5⟩]⟩ : WindowState).Rep 165 :=
    ⟨⟨Ordered.nil _ _, rfl⟩, by simp, by simp, ⟨by decide, by decide, by decide, by decide⟩⟩
  exact ⟨hstored.fromState.prune 165 60, by decide, by rfl, by rfl⟩

end Sample

end AgentGuard
