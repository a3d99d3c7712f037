import AgentGuard.Contract.Ceilings

/-!
# Contract/Edits — the global ceiling across policy edits

A policy edit keeps the window, so what the ledger still counts stays counted.  But what it still
counts depends on every policy there was: a spend approved while the cap was disabled was never
recorded, and a spend that had expired under a narrower width is pruned by the next approval and
does not come back when the width grows.  `stillCounted` is the part of the history that neither
happened to; the cap of every approval bounds it.
-/

namespace AgentGuard

open Machinery

/-- The approval contains an asset transfer. -/
def Approval.HasTransfer (host : Host) (a : Approval) : Prop :=
  ∃ asset dest amount,
    ParsedCall.assetTransfer asset dest amount ∈ parseAll host.self a.policy a.contexts

/-- **The approvals the global window still counts**: approved while the cap was enabled, and
expired under the width of no approval since. -/
def stillCounted (host : Host) (history : List Approval) : List Approval :=
  (globalMetering host).remembered history

/-- The invariant of a run with arbitrary edits. -/
structure Remembering (host : Host) (t : U64) (sh : State × List Approval) : Prop where
  inv : sh.1.Inv host t
  window : sh.1.window.isSome
  policy : sh.1.policy.isSome
  knows : (globalMetering host).Knows sh.2 sh.1.loadWindow.1.single
  past : ∀ a ∈ sh.2, a.time.val ≤ t.val
  bounded : ∀ a earlier, (a :: earlier) <:+ sh.2 → 0 < a.policy.windowCap.val →
    a.HasTransfer host →
      transferredIn host (a.time.val - a.policy.windowSecs.val) a.time.val
        (stillCounted host (a :: earlier)) ≤ a.policy.windowCap.val

/-- A granted transfer is a positive demand on an enabled cap. -/
theorem spend_pos_of_hasTransfer {host : Host} {a : Approval} (h : a.HasTransfer host)
    (hperm : ∀ c ∈ parseAll host.self a.policy a.contexts, Permitted a.policy c) :
    0 < a.spend host := by
  obtain ⟨asset, dest, amount, hmem⟩ := h
  have hamount := (hperm _ hmem).2.1
  obtain ⟨l₁, l₂, hsplit⟩ := List.append_of_mem hmem
  rw [Approval.spend, hsplit, List.map_append, List.sum_append, List.map_cons, List.sum_cons]
  rw [hsplit] at hperm
  have h₁ := sum_map_nonneg fun c hc =>
    (hperm c (List.mem_append_left _ hc)).spend_nonneg
  have h₂ := sum_map_nonneg fun c hc =>
    (hperm c (List.mem_append_right _ (List.mem_cons_of_mem _ hc))).spend_nonneg
  have hspend : (ParsedCall.assetTransfer asset dest amount).spend = amount.val := rfl
  omega

/-- **An approval closes a window within its cap**: all that is still counted is in the meter that
the approval was charged to. -/
theorem transferredIn_stillCounted_le {host : Host} {a : Approval} {history : List Approval}
    {l l' : SingleLedger} (hmoves : Moves (globalMetering host) a.policy.windowCap.val a l l')
    (hknows : (globalMetering host).Knows (a :: history) l')
    (hsound : l.Sound maxWindowEntries a.time.val) (hsound' : l'.Sound maxWindowEntries a.time.val)
    (hpast : ∀ d ∈ a :: history, d.time.val ≤ a.time.val)
    (hcap : 0 < a.policy.windowCap.val) (hspend : 0 < a.spend host) :
    transferredIn host (a.time.val - a.policy.windowSecs.val) a.time.val
      (stillCounted host (a :: history)) ≤ a.policy.windowCap.val := by
  have hcost : 0 < (globalMetering host).cost a := by
    rwa [Metering.cost, if_pos (by simpa [globalMetering] using hcap)]
  have hcounted : ∀ d ∈ stillCounted host (a :: history), d.time.val ≤ a.time.val := fun d hd =>
    hpast d ((globalMetering host).mem_of_mem_remembered hd)
  calc transferredIn host (a.time.val - a.policy.windowSecs.val) a.time.val
        (stillCounted host (a :: history))
      = (globalMetering host).spentAfter (a.time.val - a.policy.windowSecs.val)
          (stillCounted host (a :: history)) :=
        (globalMetering host).spentIn_eq_spentAfter hcounted
    _ ≤ l'.total.val := hknows.le_total hsound' _
    _ ≤ a.policy.windowCap.val :=
        hmoves.total_le hsound (by decide) a.policy.windowCap.le_hi hcost

section

variable {host : Host} {t : U64} {sh : State × List Approval} {c : Call}

/-- **A step with arbitrary edits.** -/
theorem Remembering.step (h : Remembering host t sh) (ht : t.val ≤ c.timestamp.val)
    (hc : Steady (fun _ => True) c) : Remembering host c.timestamp (exec host sh c) := by
  obtain ⟨cfg, hpolicy⟩ := Option.isSome_iff_exists.mp h.policy
  have hinv := h.inv.mono ht
  have hpast : ∀ a ∈ sh.2, a.time.val ≤ c.timestamp.val := fun a ha => (h.past a ha).trans ht
  obtain ⟨⟨cfg', hpolicy', -⟩, hquiet | ⟨contexts, hgrants, happroval, hwindow⟩⟩ :=
    steady_step host (fun _ _ h => h) hc hpolicy trivial
  · obtain ⟨happroval, hwindow⟩ := hquiet
    refine ⟨h.inv.step ht, ?_, by rw [exec, hpolicy']; rfl, ?_, ?_, ?_⟩
    · rw [exec, hwindow]
      exact h.window
    · rw [exec, happroval, loadWindow_congr hwindow]
      exact h.knows
    · rw [exec, happroval]
      exact hpast
    · rw [exec, happroval]
      exact h.bounded
  have hsound := hinv.ledger.single
  obtain ⟨hamount, hmoves⟩ := (follows_global host).moves (c.env host) sh.1 cfg contexts rfl hinv
    h.window trivial hsound hgrants
  have hknows := hmoves.knows h.knows hsound rfl hamount (by decide) cfg.windowCap.le_hi
  have hnext : (AgentGuard.step host sh.1 c).Inv host c.timestamp := h.inv.step ht
  have hstored : (AgentGuard.step host sh.1 c).loadWindow
      = (sh.1.admitted (c.env host) contexts).loadWindow := loadWindow_congr hwindow
  have hsound' := hnext.ledger.single
  rw [hstored] at hsound'
  have hpast' : ∀ a ∈ (⟨c.timestamp, cfg, contexts⟩ : Approval) :: sh.2,
      a.time.val ≤ c.timestamp.val := fun a ha =>
    (List.mem_cons.mp ha).elim (fun ha => ha ▸ le_rfl) (hpast a)
  have hexec : (exec host sh c).2 = ⟨c.timestamp, cfg, contexts⟩ :: sh.2 := by
    rw [exec, happroval]
    rfl
  refine ⟨hnext, ?_, by rw [exec, hpolicy']; rfl, ?_, hexec ▸ hpast', ?_⟩
  · rw [exec, hwindow]
    exact window_admitted_isSome h.window (c.env host) contexts
  · rw [hexec, exec, hstored]
    exact hknows
  rw [hexec]
  intro a earlier hsuffix hcap htransfer
  rcases List.suffix_cons_iff.mp hsuffix with heq | hsuffix
  · obtain ⟨rfl, rfl⟩ := List.cons.inj heq
    obtain ⟨-, ⟨-, rfl, -⟩ | ⟨-, hperm, -, -⟩⟩ := hgrants.cases hinv
    -- an empty request transfers nothing
    · obtain ⟨_, _, _, hmem⟩ := htransfer
      simp [parseAll] at hmem
    · exact transferredIn_stillCounted_le hmoves hknows hsound hsound' hpast' hcap
        (spend_pos_of_hasTransfer htransfer hperm)
  · exact h.bounded a earlier hsuffix hcap htransfer

end

/-- **The ceiling across policy edits.**  In every run from a first install without a reset or a
revocation, whatever the edits: when an authorization with a transfer is approved under a cap, what
is still counted of its window, this authorization included, is within the cap. -/
theorem stillCounted_le_windowCap {host : Host} {now : U64} {cfg : PolicyConfig} {s : State}
    (hinstall : FirstInstall host now cfg s) {calls : List Call}
    (htimed : Timed Call.timestamp now calls)
    (hcalls : ∀ c ∈ calls, c.action ≠ .resetWindow ∧ c.action ≠ .revokePolicy) {a : Approval}
    {earlier : List Approval} (happroved : (a :: earlier) <:+ (run host s calls).2)
    (hcap : 0 < a.policy.windowCap.val) (htransfer : a.HasTransfer host) :
    transferredIn host (a.time.val - a.policy.windowSecs.val) a.time.val
      (stillCounted host (a :: earlier)) ≤ a.policy.windowCap.val := by
  have hstart : Remembering host now (s, []) :=
    { inv := hinstall.spec.1
      window := by rw [hinstall.spec.2.2.1]; rfl
      policy := by rw [hinstall.spec.2.1]; rfl
      knows := (globalMetering host).knows_nil _ hinstall.spec.1.ledger.single.ordered.positive
      past := by simp
      bounded := by simp }
  have hrun := Timed.foldl_invariant (fun t sh => Remembering host t sh)
    (fun c => Steady (fun _ => True) c) (fun _ _ _ h ht hc => h.step ht hc) calls now (s, [])
    htimed (fun c hc => ⟨(hcalls c hc).1, (hcalls c hc).2, fun _ _ => trivial⟩) hstart
  exact hrun.bounded a earlier happroved hcap htransfer

/-! ## What the window forgets -/

namespace Sample

/-- The sample policy with a global cap of `100` over `windowSecs`. -/
def capped (windowSecs : U64) : PolicyConfig := { policy with windowCap := 100, windowSecs }

theorem firstInstall_capped : FirstInstall host 100 (capped 60) (installed (capped 60)) :=
  firstInstall (by rfl)

/-- Eighty under a cap of `100`, then the cap is switched off for another eighty and on again for a
last twenty. -/
def disableEnable : List Call :=
  [auth 110 [pay 80], call 111 (.setPolicy policy), auth 112 [pay 80],
    call 113 (.setPolicy (capped 60)), auth 114 [pay 20]]

/-- A full window, a narrow width for one approval, and the old width again. -/
def narrowWiden : List Call :=
  [auth 110 [pay 100], call 111 (.setPolicy (capped 1)), auth 112 [pay 1],
    call 113 (.setPolicy (capped 60)), auth 114 [pay 99]]

theorem disableEnable_edits : Timed Call.timestamp 100 disableEnable ∧
    ∀ c ∈ disableEnable, c.action ≠ .resetWindow ∧ c.action ≠ .revokePolicy :=
  ⟨by simp only [Timed, disableEnable]; decide, by simp [disableEnable, auth, call]⟩

theorem narrowWiden_edits : Timed Call.timestamp 100 narrowWiden ∧
    ∀ c ∈ narrowWiden, c.action ≠ .resetWindow ∧ c.action ≠ .revokePolicy :=
  ⟨by simp only [Timed, narrowWiden]; decide, by simp [narrowWiden, auth, call]⟩

/-- **Edits do hand budget back**: in both runs the last approval, a transfer under a cap of `100`,
closes a window of more than `100` — by design in the first, where a disabled cap keeps no accounts,
and through the prune under the narrow width in the second. -/
theorem edits_exceed_windowCap :
    (FirstInstall host 100 (capped 60) (installed (capped 60)) ∧
      Timed Call.timestamp 100 disableEnable ∧
      (∀ c ∈ disableEnable, c.action ≠ .resetWindow ∧ c.action ≠ .revokePolicy) ∧
      ∃ a earlier, (run host (installed (capped 60)) disableEnable).2 = a :: earlier ∧
        a.HasTransfer host ∧ 0 < a.policy.windowCap.val ∧
        a.policy.windowCap.val < transferredIn host (a.time.val - a.policy.windowSecs.val)
          a.time.val (a :: earlier)) ∧
    (FirstInstall host 100 (capped 60) (installed (capped 60)) ∧
      Timed Call.timestamp 100 narrowWiden ∧
      (∀ c ∈ narrowWiden, c.action ≠ .resetWindow ∧ c.action ≠ .revokePolicy) ∧
      ∃ a earlier, (run host (installed (capped 60)) narrowWiden).2 = a :: earlier ∧
        a.HasTransfer host ∧ 0 < a.policy.windowCap.val ∧
        a.policy.windowCap.val < transferredIn host (a.time.val - a.policy.windowSecs.val)
          a.time.val (a :: earlier)) :=
  ⟨⟨firstInstall_capped, disableEnable_edits.1, disableEnable_edits.2,
      ⟨114, capped 60, [pay 20]⟩, _, by rfl, ⟨asset, payee, 20, by decide⟩, by decide, by decide⟩,
    ⟨firstInstall_capped, narrowWiden_edits.1, narrowWiden_edits.2,
      ⟨114, capped 60, [pay 99]⟩, _, by rfl, ⟨asset, payee, 99, by decide⟩, by decide, by decide⟩⟩

/-- What is still counted of the first of these runs fills the cap exactly. -/
theorem disableEnable_stillCounted :
    transferredIn host 54 114 (stillCounted host
        (run host (installed (capped 60)) disableEnable).2) = 100 ∧
      transferredIn host ((114 : U64).val - (capped 60).windowSecs.val) (114 : U64).val
        (stillCounted host (run host (installed (capped 60)) disableEnable).2)
          ≤ (capped 60).windowCap.val :=
  ⟨by decide, stillCounted_le_windowCap firstInstall_capped disableEnable_edits.1
    disableEnable_edits.2 (a := ⟨114, capped 60, [pay 20]⟩) List.suffix_rfl (by decide)
    ⟨asset, payee, 20, by decide⟩⟩

end Sample

end AgentGuard
