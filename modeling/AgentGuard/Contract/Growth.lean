import AgentGuard.Contract.Events
import Mathlib.Data.Finset.Card
import Mathlib.Data.List.Nodup

/-!
# Contract/Growth — how many recipient ledgers the window stores

An approval adds a ledger for every overridden recipient it pays, pruning empties ledgers without
dropping them, and an edit leaves the window alone.  A single policy meters at most 256 recipients,
but the ledgers of recipients that an edit stops metering stay: the list is bounded as long as every
edit counts them (`EditsFit`), and by nothing otherwise (`Sample.recipients_unbounded`).
-/

namespace AgentGuard

open Machinery

/-! ## Tracked and metered recipients -/

/-- The recipients with a ledger. -/
def Ledger.tracked (l : Ledger) : List Address := l.recipients.map RecipientLedger.recipient

/-- The recipients with a ledger in the stored window. -/
def State.tracked (s : State) : List Address :=
  match s.window with
  | some w => w.recipients.map RecipientWindowState.recipient
  | none => []

/-- The recipients a policy meters: those with a positive override. -/
def PolicyConfig.metered (cfg : PolicyConfig) : List Address :=
  (cfg.recipientWindowCaps.filter fun rc => 0 < rc.cap.val).map RecipientCap.recipient

section

variable {s : State} {cfg : PolicyConfig} {r : Address}

theorem tracked_loadWindow (s : State) : s.loadWindow.1.tracked = s.tracked := by
  rw [State.loadWindow, State.tracked]
  cases s.window with
  | none => rfl
  | some w => exact List.map_map

theorem tracked_congr {s' : State} (h : s'.window = s.window) : s'.tracked = s.tracked := by
  rw [State.tracked, State.tracked, h]

theorem tracked_toState (l : Ledger) :
    l.toState.recipients.map RecipientWindowState.recipient = l.tracked := List.map_map

/-- Pruning empties ledgers and drops none. -/
theorem tracked_pruneFor (cfg : PolicyConfig) (l : Ledger) (now : U64) :
    (pruneFor cfg l now).tracked = l.tracked := by
  rw [pruneFor]
  split_ifs
  · exact List.map_map
  · rfl

/-- A recipient without a ledger has an empty meter. -/
theorem meter_of_not_tracked {l : Ledger} (h : r ∉ l.tracked) : l.meter r = ⟨0, []⟩ := by
  rw [Ledger.meter, meterOf]
  split
  · rename_i x hx
    have hfound : x.recipient = r := by simpa using List.find?_some hx
    exact absurd (List.mem_map.mpr ⟨x, List.mem_of_find?_eq_some hx, hfound⟩) h
  · rfl

theorem mem_metered_of_override {cap : I128} (h : recipientOverrideCap cfg r = some cap) :
    r ∈ cfg.metered := by
  obtain ⟨hmem, hpos⟩ := mem_of_recipientOverrideCap h
  exact List.mem_map.mpr ⟨_, List.mem_filter.mpr ⟨hmem, decide_eq_true hpos⟩, rfl⟩

/-- A single policy stays within the bound. -/
theorem length_metered_le {self : Address} (h : validateConfig self cfg = .ok ()) :
    cfg.metered.length ≤ maxRecipientEntries := by
  have hrule := firstFailingRule_of_validateConfig h
  simp only [firstFailingRule, bind_eq_ok_unit, reject_eq_ok] at hrule
  have hlen : cfg.recipientWindowCaps.length ≤ maxRecipientEntries := by
    have := hrule.2.2.1
    omega
  rw [PolicyConfig.metered, List.length_map]
  exact (List.length_filter_le _ _).trans hlen

end

/-! ## What an approval tracks -/

section

variable {cfg : PolicyConfig} {now : U64} {calls : List ParsedCall} {st : Staging} {r : Address}

theorem mem_tracked_admitForRecipient {l : Ledger} {dest : Address} {amount : I128} :
    r ∈ (l.admitForRecipient now dest amount).tracked ↔ r ∈ l.tracked ∨ r = dest := by
  rw [Ledger.tracked, Ledger.admitForRecipient]
  dsimp only
  rw [recipients_admitToRecipients]
  split_ifs with hmem
  · refine ⟨.inl, fun h => h.elim (fun h => h) ?_⟩
    rintro rfl
    exact hmem
  · rw [List.mem_append, List.mem_singleton]
    rfl

theorem mem_tracked_foldl (rs : List Address) : ∀ (as : List I128) (l : Ledger),
    rs.length = as.length →
      (r ∈ ((rs.zip as).foldl (fun l ra => l.admitForRecipient now ra.1 ra.2) l).tracked ↔
        r ∈ l.tracked ∨ r ∈ rs) := by
  induction rs with
  | nil => simp
  | cons dest rs ih =>
    intro as l hlen
    cases as with
    | nil => simp at hlen
    | cons a as =>
      rw [List.zip_cons_cons, List.foldl_cons, ih as _ (by simpa using hlen),
        mem_tracked_admitForRecipient, List.mem_cons, or_assoc]

/-- What is staged for a recipient is what the request pays it. -/
theorem Staged.mem_pendingRecipients (hst : Staged cfg now calls st) :
    r ∈ st.pendingRecipients ↔ 0 < recipientDemand cfg r calls := by
  refine ⟨hst.positive r, fun hpos => ?_⟩
  by_contra hno
  have hzero := hst.staged r
  rw [amountOf_of_notMem hno, I128.val_zero] at hzero
  omega

/-- **The commit tracks every recipient that is asked for**, and drops none. -/
theorem mem_tracked_commit (hst : Staged cfg now calls st) (l : Ledger) :
    r ∈ (commit l now st).tracked ↔ r ∈ l.tracked ∨ 0 < recipientDemand cfg r calls := by
  obtain ⟨-, hs, -⟩ := foldl_admitSpend now st.admission l fun e he => (hst.instant e he).1
  obtain ⟨-, -, hc⟩ := foldl_admitProtocolCall now st.pendingProtocolCalls.val.toNat
    ((st.pendingRecipients.zip st.pendingRecipientAmounts).foldl
      (fun l ra => l.admitForRecipient now ra.1 ra.2)
      (st.admission.foldl (fun l e => l.admitSpend e.ts e.value) l))
  rw [Ledger.tracked, commit, hc, ← Ledger.tracked, mem_tracked_foldl _ _ _ hst.parallel,
    hst.mem_pendingRecipients, Ledger.tracked, hs, ← Ledger.tracked]

end

section

variable {host : Host} {env : Env} {s : State} {cfg : PolicyConfig} {contexts : List Context}
  {r : Address}

/-- **What the engine tracks after a grant.** -/
theorem Grants.mem_tracked (hg : Grants env s cfg contexts) (hinv : s.Inv host env.timestamp) :
    r ∈ (authDecision env s contexts).2.tracked ↔
      r ∈ s.tracked ∨ 0 < recipientDemand cfg r (parseAll env.host.self cfg contexts) := by
  rw [← tracked_loadWindow]
  obtain ⟨hlen, ⟨-, rfl, hsame⟩ | ⟨hopen, -⟩⟩ := hg.cases hinv
  · simp [hsame, parseAll]
  have hall := hg.allowed
  rw [authDecision, decideContexts_open hlen hopen] at hall ⊢
  dsimp only at hall ⊢
  split_ifs at hall ⊢ with hyes
  · have hstaged :=
      (evalContexts_pruned env.host.self cfg env.timestamp contexts hinv.ledger).2 hyes
    rw [mem_tracked_commit hstaged, tracked_pruneFor]
  · exact absurd hall hyes

/-- **What the storage tracks after an approval**: an overridden payee is never left out, for its
ledger has an entry to store. -/
theorem Grants.mem_tracked_admitted (hg : Grants env s cfg contexts)
    (hinv : s.Inv host env.timestamp) :
    r ∈ (s.admitted env contexts).tracked ↔
      r ∈ s.tracked ∨ 0 < recipientDemand cfg r (parseAll env.host.self cfg contexts) := by
  rw [admitted_eq]
  by_cases hp : persists s (authDecision env s contexts).2 = true
  · rw [if_pos hp, ← hg.mem_tracked hinv]
    exact iff_of_eq (congrArg (r ∈ ·) (tracked_toState _))
  · rw [if_neg hp]
    refine ⟨.inl, fun h => h.resolve_right fun hpos => ?_⟩
    obtain ⟨-, -, hmeter⟩ := of_not_persists (hinv.decided contexts) (by simpa using hp)
    obtain ⟨-, ⟨-, rfl, -⟩ | ⟨-, -, -, hcharged⟩⟩ := hg.cases hinv
    · simp [parseAll] at hpos
    · have hentries := congrArg Rolling.entries ((hmeter r).symm.trans (hcharged.meter r))
      have hnil := (Rolling.charge_eq_nil_iff (by decide) hpos.le).mp hentries.symm
      exact hpos.ne' hnil.2

end

/-! ## The bound -/

/-- Everyone with a ledger, or who may get one under the policy. -/
def State.roster (s : State) (cfg : PolicyConfig) : Finset Address :=
  (s.tracked ++ cfg.metered).toFinset

/-- **An edit that counts the ledgers it leaves behind**: the recipients already tracked and those
the new policy meters are at most 256 together. -/
def EditFits (host : Host) (s : State) (c : Call) : Prop :=
  ∀ cfg, c.action = .setPolicy cfg → Succeeds host s c → s.policy.isSome →
    (s.roster cfg).card ≤ maxRecipientEntries

/-- **What bounds the list**: without a policy nothing is stored, and under one there is room for
everyone it meters. -/
structure State.Rostered (s : State) : Prop where
  window : s.policy = none → s.window = none
  roster : ∀ cfg, s.policy = some cfg → (s.roster cfg).card ≤ maxRecipientEntries

section

variable {host : Host} {t₀ t : U64} {s s' : State} {cfg cfg' : PolicyConfig} {c : Call}

/-- Tracking no one but the metered, under a policy that meters the same. -/
theorem State.Rostered.of_subset (h : s.Rostered) (hpolicy : s.policy = some cfg)
    (hpolicy' : s'.policy = some cfg') (hmetered : cfg'.metered = cfg.metered)
    (htracked : ∀ r ∈ s'.tracked, r ∈ s.roster cfg) : s'.Rostered where
  window := by simp [hpolicy']
  roster := fun cfg'' hcfg => by
    obtain rfl := Option.some.inj (hpolicy'.symm.trans hcfg)
    refine (Finset.card_le_card fun r hr => ?_).trans (h.roster cfg hpolicy)
    rw [State.roster, List.mem_toFinset, List.mem_append, hmetered] at hr
    rcases hr with hr | hr
    · exact htracked r hr
    · exact List.mem_toFinset.mpr (List.mem_append_right _ hr)

/-- A storage with the same policy and window. -/
theorem State.Rostered.congr (h : s.Rostered) (hpolicy : s'.policy = s.policy)
    (hwindow : s'.window = s.window) : s'.Rostered where
  window := fun hnone => hwindow.trans (h.window (hpolicy ▸ hnone))
  roster := fun cfg hcfg => by
    rw [State.roster, tracked_congr hwindow]
    exact h.roster cfg (hpolicy ▸ hcfg)

/-- An approval tracks no one but the metered. -/
theorem State.Rostered.admitted {env : Env} {contexts : List Context} (h : s.Rostered)
    (hinv : s.Inv host env.timestamp) (hg : Grants env s cfg contexts) :
    (s.admitted env contexts).Rostered := by
  refine h.of_subset hg.policy ((admitted_policy s env contexts).trans hg.policy) rfl fun r hr => ?_
  refine List.mem_toFinset.mpr (List.mem_append.mpr ?_)
  refine ((hg.mem_tracked_admitted hinv).mp hr).imp_right fun hpos => ?_
  obtain ⟨cap, hcap⟩ := override_of_recipientDemand_pos hpos
  exact mem_metered_of_override hcap

/-- **Every call keeps the bound**, as long as its edit fits. -/
theorem State.Rostered.step (h : s.Rostered) (hinv : s.Inv host c.timestamp)
    (hfits : EditFits host s c) : (AgentGuard.step host s c).Rostered := by
  have henv : s.Inv host (c.env host).timestamp := hinv
  have heff := stepEffect host s c
  generalize AgentGuard.step host s c = s', approval host s c = a at heff
  cases heff with
  | policySet admin cfg haction hadmin hauth hvalid =>
    rw [installPolicy_eq]
    refine ⟨by simp, fun cfg' hcfg => ?_⟩
    obtain rfl := Option.some.inj hcfg
    by_cases hnone : s.policy.isNone = true
    · simp only [hnone, if_true, State.roster, State.tracked]
      exact (List.toFinset_card_le _).trans (length_metered_le hvalid)
    · simp only [hnone, Bool.false_eq_true, if_false, State.roster]
      exact hfits cfg haction (succeeds_setPolicy haction hadmin hauth hvalid)
        (Option.isSome_iff_ne_none.mpr (by simpa using hnone))
  | windowReset admin haction hadmin hauth =>
    cases hpolicy : s.policy with
    | none => exact ⟨fun _ => rfl, fun cfg hcfg => by simp at hcfg⟩
    | some cfg => exact h.of_subset hpolicy rfl rfl (by simp [State.tracked])
  | pausedSet admin cfg paused haction hadmin hauth hpolicy hflip =>
    exact h.of_subset hpolicy rfl rfl fun r hr =>
      List.mem_toFinset.mpr (List.mem_append_left _ hr)
  | policyRevoked admin haction hadmin hauth =>
    exact ⟨fun _ => rfl, fun cfg hcfg => by simp [State.incrementRevision] at hcfg⟩
  | approved entry cfg haction hgrants => exact h.admitted henv hgrants
  | heartbeat entry cfg haction hmem hgrants =>
    refine (h.admitted henv hgrants).congr ?_ ?_
    · rw [recordHeartbeat_eq]
    · rw [recordHeartbeat_eq]
  -- everything else touches neither the policy nor the window
  | _ => exact h.congr rfl rfl

theorem State.Rostered.length_tracked_le (h : s.Rostered) (hinv : s.Inv host t) :
    s.tracked.length ≤ maxRecipientEntries := by
  cases hpolicy : s.policy with
  | none =>
    rw [State.tracked, h.window hpolicy]
    exact Nat.zero_le _
  | some cfg =>
    have hnodup : s.tracked.Nodup := tracked_loadWindow s ▸ hinv.ledger.distinct
    rw [← List.toFinset_card_of_nodup hnodup]
    refine (Finset.card_le_card fun r hr => ?_).trans (h.roster cfg hpolicy)
    exact List.mem_toFinset.mpr (List.mem_append_left _ (List.mem_toFinset.mp hr))

theorem State.Rostered.empty : State.empty.Rostered :=
  ⟨fun _ => rfl, fun cfg hcfg => by simp [State.empty] at hcfg⟩

theorem Reaches.rostered (h : Reaches host (EditFits host) t₀ State.empty t s) : s.Rostered :=
  h.invariant (P := fun _ s => s.Rostered) (.deployed t₀) .empty fun _ hrostered hinv _ hfits =>
    hrostered.step hinv hfits

/-- **Per-recipient storage is bounded while every edit fits.**  In every state reached by a run
whose edits count the ledgers they leave behind, the window stores at most 256 recipient ledgers. -/
theorem recipients_bounded (h : Reaches host (EditFits host) t₀ State.empty t s) {w : WindowState}
    (hw : s.window = some w) : w.recipients.length ≤ maxRecipientEntries := by
  have hlen := h.rostered.length_tracked_le (h.reachable (.deployed t₀)).inv
  rw [State.tracked, hw] at hlen
  simpa using hlen

end

namespace Sample

/-- The `k`-th of many recipients. -/
def recipient (k : ℕ) : Address := .account (BitVec.ofNat 256 k)

/-- A policy that meters the `k`-th recipient only. -/
def onlyRecipient (k : ℕ) : PolicyConfig :=
  { policy with recipientWindowCaps := [⟨recipient k, 50⟩] }

/-- Two recipients, metered and paid one after the other. -/
def paidTwo : State :=
  step host (step host (step host (installed (onlyRecipient 0))
    (auth 110 [transferContext asset (recipient 0) 1])) (call 120 (.setPolicy (onlyRecipient 1))))
    (auth 130 [transferContext asset (recipient 1) 1])

/-- The edit in between counts the first one's ledger, which is still there. -/
theorem paidTwo_bounded :
    (paidTwo.window.map fun w => w.recipients.length) = some 2 ∧
      ∀ w, paidTwo.window = some w → w.recipients.length ≤ maxRecipientEntries := by
  have hedit : ∀ (s : State) (time : U64) (cfg : PolicyConfig),
      (s.policy.isSome → (s.roster cfg).card ≤ maxRecipientEntries) →
        EditFits host s (call time (.setPolicy cfg)) := fun s time cfg h cfg' haction _ hsome => by
    obtain rfl := Action.setPolicy.inj haction
    exact h hsome
  have hfresh : Reaches host (EditFits host) 0 State.empty 1 fresh :=
    .call (call 1 (.initializeAccount admin (Vector.replicate 32 0))) .start (by decide)
      (by simp [EditFits, call])
  have hinstalled := Reaches.call (call 100 (.setPolicy (onlyRecipient 0))) hfresh (by decide)
    (hedit _ _ _ (by decide))
  have hpaid := Reaches.call (auth 110 [transferContext asset (recipient 0) 1]) hinstalled
    (by decide) (by simp [EditFits, auth, call])
  have hedited := Reaches.call (call 120 (.setPolicy (onlyRecipient 1))) hpaid (by decide)
    (hedit _ _ _ (by decide))
  have hend := Reaches.call (auth 130 [transferContext asset (recipient 1) 1]) hedited
    (by decide) (by simp [EditFits, auth, call])
  exact ⟨by decide, fun w hw => recipients_bounded hend hw⟩

/-- An account of the sample deployment that has paid the first `n` recipients. -/
structure Paid (n : ℕ) (s : State) : Prop where
  reachable : Reachable host 100 s
  admin : s.admin = some admin
  key : s.agentPubkey = some (Vector.replicate 32 0)
  unfrozen : s.frozenOrFalse = false
  policy : s.policy.isSome
  tracked : ∀ k < n, recipient k ∈ s.tracked

theorem parseAll_recipient (k : ℕ) :
    parseAll host.self (onlyRecipient k) [transferContext asset (recipient k) 1]
      = [.assetTransfer asset (recipient k) 1] := rfl

theorem recipientDemand_onlyRecipient (k : ℕ) :
    recipientDemand (onlyRecipient k) (recipient k) [.assetTransfer asset (recipient k) 1] = 1 := by
  have hmetered : hasRecipientWindowCap (onlyRecipient k) (recipient k) = true := by
    simp [hasRecipientWindowCap, recipientOverrideCap, onlyRecipient]
    decide
  rw [recipientDemand, if_pos hmetered]
  simp [ParsedCall.spendTo]
  rfl

/-- A transfer of `1` to a recipient without a ledger is granted. -/
theorem grants_recipient {k : ℕ} {s : State} (hinv : s.Inv host 100)
    (hpolicy : s.policy = some (onlyRecipient k)) (hunfrozen : s.frozenOrFalse = false)
    (hnew : recipient k ∉ s.tracked) :
    Grants ((auth 100 []).env host) s (onlyRecipient k)
      [transferContext asset (recipient k) 1] := by
  have hopen : openPolicy s.policy ⟨s.frozenOrFalse, s.heartbeatOrZero⟩ 100
      = some (onlyRecipient k) := by
    rw [openPolicy, hunfrozen, hpolicy]
    rfl
  refine ⟨hpolicy,
    (decideContexts_granted_iff hinv.ledger (by simp [maxAuthContexts]) hopen).mpr ?_⟩
  rw [show ((auth 100 []).env host).host.self = host.self from rfl, parseAll_recipient]
  refine ⟨List.forall_mem_singleton.mpr ⟨rfl, by decide, List.not_mem_nil, .inl rfl, ?_⟩,
    ⟨fun h => absurd h (by simp [globalDemand, onlyRecipient, policy]), fun r cap hcap hpos => ?_,
      fun h => absurd h (by simp [callDemand, onlyRecipient, policy])⟩⟩
  · simp [effectivePerTxCap, onlyRecipient, policy, enabledCap]
  · obtain ⟨hmem, -⟩ := mem_of_recipientOverrideCap hcap
    obtain ⟨rfl, rfl⟩ : r = recipient k ∧ cap = 50 := by simpa [onlyRecipient] using hmem
    have hempty : (pruneFor (onlyRecipient k) s.loadWindow.1 100).meter (recipient k) = ⟨0, []⟩ :=
      meter_of_not_tracked (by rwa [tracked_pruneFor, tracked_loadWindow])
    rw [hempty, recipientDemand_onlyRecipient]
    decide

/-- An edit meters the next recipient, and drops nothing. -/
theorem Paid.edit {n : ℕ} {s : State} (h : Paid n s) :
    ∃ s', Paid n s' ∧ s'.policy = some (onlyRecipient n) := by
  have hstep : step host s (call 100 (.setPolicy (onlyRecipient n)))
      = installPolicy s (onlyRecipient n) 100 := by
    simp only [call, step, Action.effect, AgentGuard.setPolicy, adminOrPanic, h.admin,
      requireAuth, Call.env]
    rfl
  have hreach := Reachable.call (call 100 (.setPolicy (onlyRecipient n))) h.reachable le_rfl
  rw [hstep, installPolicy_eq, Option.isNone_eq_false_iff.mpr h.policy] at hreach
  exact ⟨_, ⟨hreach, h.admin, h.key, h.unfrozen, rfl, h.tracked⟩, rfl⟩

/-- A transfer of `1` tracks it. -/
theorem Paid.pay {n : ℕ} {s : State} (h : Paid n s) (hpolicy : s.policy = some (onlyRecipient n)) :
    ∃ s', Paid (n + 1) s' := by
  have hprev : ∀ {s' : State}, (∀ k < n, recipient k ∈ s'.tracked) → recipient n ∈ s'.tracked →
      ∀ k < n + 1, recipient k ∈ s'.tracked := fun hlt hn k hk =>
    (Nat.lt_succ_iff_lt_or_eq.mp hk).elim (hlt k) fun hkn => hkn ▸ hn
  by_cases hnew : recipient n ∈ s.tracked
  · exact ⟨s, { h with tracked := hprev h.tracked hnew }⟩
  let ctx := transferContext asset (recipient n) 1
  have hinv := h.reachable.inv
  have hgrants := grants_recipient hinv hpolicy h.unfrozen hnew
  have hstep : step host s (auth 100 [ctx]) = s.admitted ((auth 100 []).env host) [ctx] := by
    have hcheck := @checkAuth_eq ((auth 100 []).env host) s [] [] [ctx] _ _ h.key rfl hpolicy
    rw [if_pos hgrants.allowed] at hcheck
    simp only [step, auth, call, Action.effect]
    exact congrArg (fun r => Effect.stateOr (Except.map
      (fun outcome : AuthOutcome => (outcome.state, outcome.events)) r) s) hcheck
  have hreach := Reachable.call (auth 100 [ctx]) h.reachable le_rfl
  rw [hstep] at hreach
  have htracked : ∀ r, r ∈ (s.admitted ((auth 100 []).env host) [ctx]).tracked ↔ _ := fun r =>
    hgrants.mem_tracked_admitted hinv
  refine ⟨_, ⟨hreach, ?_, ?_, ?_, ?_, hprev (fun k hk => ?_) ?_⟩⟩
  · exact (admitted_admin ..).trans h.admin
  · rw [admitted_eq]
    exact h.key
  · rw [admitted_eq]
    exact h.unfrozen
  · rw [admitted_policy, hpolicy]
    rfl
  · exact (htracked _).mpr (.inl (h.tracked k hk))
  · refine (htracked _).mpr (.inr ?_)
    rw [show ((auth 100 []).env host).host.self = host.self from rfl, parseAll_recipient,
      recipientDemand_onlyRecipient]
    decide

/-- **Every number of recipients is reached.** -/
theorem exists_paid (n : ℕ) : ∃ s, Paid n s := by
  induction n with
  | zero =>
    exact ⟨installed policy, reachable_installed policy, by decide, by decide, by decide, by decide,
      by simp⟩
  | succ n ih =>
    obtain ⟨s, hs⟩ := ih
    obtain ⟨s', hs', hpolicy⟩ := hs.edit
    exact hs'.pay hpolicy

theorem recipient_injective_below {j k : ℕ} (hj : j < 2 ^ 256) (hk : k < 2 ^ 256)
    (h : recipient j = recipient k) : j = k := by
  have hid := congrArg BitVec.toNat (Address.account.inj h)
  rwa [BitVec.toNat_ofNat, BitVec.toNat_ofNat, Nat.mod_eq_of_lt hj, Nat.mod_eq_of_lt hk] at hid

/-- **Edits alone exceed the bound**: a reachable window with more than 256 recipient ledgers. -/
theorem recipients_unbounded :
    ∃ (t : U64) (s : State) (w : WindowState),
      Reachable host t s ∧ s.window = some w ∧ maxRecipientEntries < w.recipients.length := by
  obtain ⟨s, hs⟩ := exists_paid (maxRecipientEntries + 1)
  have hnodup : ((List.range (maxRecipientEntries + 1)).map recipient).Nodup := by
    refine List.Nodup.map_on (fun j hj k hk => ?_) List.nodup_range
    rw [List.mem_range, maxRecipientEntries] at hj hk
    exact recipient_injective_below (by omega) (by omega)
  have hsubset : (List.range (maxRecipientEntries + 1)).map recipient ⊆ s.tracked := fun r hr => by
    obtain ⟨k, hk, rfl⟩ := List.mem_map.mp hr
    exact hs.tracked k (List.mem_range.mp hk)
  have hle := hnodup.length_le_of_subset hsubset
  rw [List.length_map, List.length_range, State.tracked] at hle
  cases hw : s.window with
  | none => simp [hw] at hle
  | some w =>
    refine ⟨100, s, w, hs.reachable, hw, ?_⟩
    simp only [hw, List.length_map] at hle
    omega

end Sample

end AgentGuard
