import AgentGuard.Contract.Verdicts
import AgentGuard.Machinery.CheckedLedger

/-!
# Contract/Checked — the representation invariant, and that nothing saturates

Every saturating `i128` operation of the window and the engine has a trapping twin here: loading,
pruning, staging, committing, the advisory metrics.  In every reachable state the twins return, and
return what the code computes (`window_representation`): the saturation is never reached.
-/

namespace AgentGuard

open Machinery

/-! ## Loading and pruning, trapping -/

/-- The total of a load, over trapping sums. -/
def ledgerFromEntries? (entries : List SpendEntry) : Option SingleLedger :=
  Rolling.rebuild? entries

/-- `popFront` over trapping differences. -/
def popFront? : ℕ → SingleLedger → Option SingleLedger
  | 0, l => some l
  | n + 1, l =>
    match l.entries with
    | front :: rest => do
      let total ← l.total.checkedSub front.value
      popFront? n ⟨total, rest⟩
    | [] => popFront? n l

/-- Pruning, over trapping differences: the early returns subtract nothing. -/
def pruneEntries? (l : SingleLedger) (now windowSecs : U64) : Option SingleLedger :=
  if windowSecs.val = 0 then some l
  else if l.entries.length = 0 then some l
  else
    match partitionPoint (expired now windowSecs) l.entries with
    | none => some l
    | some low => if low = l.entries.length then some ⟨0, []⟩ else popFront? low l

namespace Ledger

/-- Loading, every total recounted; the call total is no `i128`. -/
def fromState? (state : WindowState) : Option Ledger := do
  let global ← ledgerFromEntries? state.entries
  let recipients ← state.recipients.mapM fun rws =>
    (ledgerFromEntries? rws.entries).map fun inner =>
      (⟨rws.recipient, inner.total, inner.entries⟩ : RecipientLedger)
  let protoCallInfo := protocolCallEntriesFromState state.protocolCallEntries
  return { total := global.total
           entries := global.entries
           recipients
           protocolCallEntries := protoCallInfo.entries
           protocolCallTotal := protoCallInfo.total
           merges := [] }

/-- Pruning of every meter. -/
def prune? (l : Ledger) (now windowSecs : U64) : Option Ledger := do
  let global ← pruneEntries? l.single now windowSecs
  let recipients ← l.recipients.mapM fun r =>
    (pruneEntries? r.single now windowSecs).map r.withSingle
  let calls := pruneProtocolCallEntries l.calls now windowSecs
  return { l with
    total := global.total
    entries := global.entries
    recipients
    protocolCallEntries := calls.entries
    protocolCallTotal := calls.total }

/-! ## Admission, trapping -/

/-- A spend on the global meter. -/
def admitSpend? (l : Ledger) (now : U64) (amount : I128) : Option Ledger :=
  (l.single.record? maxWindowEntries now amount).map fun (global, merge) =>
    { l with
      total := global.total
      entries := global.entries
      merges := l.merges ++ noteMerge .globalSpend merge }

/-- A spend on a recipient's meter, which is created at the first. -/
def admitToRecipients? (now : U64) (recipient : Address) (amount : I128) :
    List RecipientLedger → Option (List RecipientLedger × Option (U64 × I128))
  | [] =>
    let created := RecipientLedger.empty recipient
    (created.single.record? maxWindowEntries now amount).map fun (updated, merge) =>
      ([created.withSingle updated], merge)
  | r :: rest =>
    if r.recipient = recipient then
      (r.single.record? maxWindowEntries now amount).map fun (updated, merge) =>
        (r.withSingle updated :: rest, merge)
    else
      (admitToRecipients? now recipient amount rest).map fun (rest', merge) =>
        (r :: rest', merge)

def admitForRecipient? (l : Ledger) (now : U64) (recipient : Address) (amount : I128) :
    Option Ledger :=
  (admitToRecipients? now recipient amount l.recipients).map fun (recipients, merge) =>
    { l with recipients, merges := l.merges ++ noteMerge .recipientSpend merge }

end Ledger

/-! ## The engine, trapping -/

/-- The global half of staging a transfer, over a trapping sum. -/
def stageGlobal? (cfg : PolicyConfig) (now : U64) (st : Staging) (amount : I128) :
    Option Staging :=
  if 0 < cfg.windowCap.val then
    (st.pending.checkedAdd amount).map fun pending =>
      { st with pending, admission := st.admission ++ [⟨now, amount⟩] }
  else some st

/-- `stageTransfer` over trapping sums. -/
def stageTransfer? (cfg : PolicyConfig) (now : U64) (st : Staging) (dest : Address)
    (amount : I128) : Option Staging :=
  (stageGlobal? cfg now st amount).bind fun st' =>
    if (recipientOverrideCap cfg dest).isSome then
      ((st.recipientSlot dest).2.checkedAdd amount).map fun next =>
        st'.stageRecipient (st.recipientSlot dest).1 dest next
    else some st'

/-- One call.  A verdict is reached over overflow-checked projections; what saturates is the staging
of a transfer it lets through. -/
def evalCall? (cfg : PolicyConfig) (ledger : Ledger) (now : U64) (st : Staging) :
    ParsedCall → Option (Decision × Staging)
  | .assetTransfer asset dest amount =>
    match (evalTransfer cfg ledger now st asset dest amount).1 with
    | .allowed => (stageTransfer? cfg now st dest amount).map fun st' => (.allowed, st')
    | .blocked e => some (.blocked e, st)
  | c => some (evalCall cfg ledger now st c)

/-- The loop over the contexts. -/
def evalContexts? (self : Address) (cfg : PolicyConfig) (ledger : Ledger) (now : U64)
    (st : Staging) : List Context → Option (List Decision × Staging)
  | [] => some ([], st)
  | ctx :: rest => do
    let (verdict, st) ← evalCall? cfg ledger now st (parseCall self ctx cfg)
    let (verdicts, st) ← evalContexts? self cfg ledger now st rest
    return (verdict :: verdicts, st)

def pruneFor? (cfg : PolicyConfig) (ledger : Ledger) (now : U64) : Option Ledger :=
  if limitsWindow cfg then ledger.prune? now cfg.windowSecs else some ledger

/-- Committing what was staged; a protocol call is counted on a `u32`, and not trapped. -/
def commit? (ledger : Ledger) (now : U64) (st : Staging) : Option Ledger := do
  let ledger ← st.admission.foldlM (fun l e => l.admitSpend? e.ts e.value) ledger
  let ledger ← (st.pendingRecipients.zip st.pendingRecipientAmounts).foldlM
    (fun l ra => l.admitForRecipient? now ra.1 ra.2) ledger
  return (List.range st.pendingProtocolCalls.val.toNat).foldl
    (fun l _ => l.admitProtocolCall now) ledger

/-- The decision; a request that is refused outright does no arithmetic. -/
def decideContexts? (self : Address) (policy : Option PolicyConfig) (state : AccountState)
    (ledger : Ledger) (now : U64) (contexts : List Context) : Option (List Decision × Ledger) :=
  match openPolicy policy state now with
  | none => some (decideContexts self policy state ledger now contexts)
  | some cfg =>
    if contexts.length > maxAuthContexts then
      some (decideContexts self policy state ledger now contexts)
    else do
      let ledger ← pruneFor? cfg ledger now
      let (verdicts, st) ← evalContexts? self cfg ledger now Staging.empty contexts
      if verdicts.all Decision.isAllowed then
        (commit? ledger now st).map fun ledger => (verdicts, ledger)
      else some (verdicts, ledger)

/-! ## The reads, trapping -/

def State.loadWindow? (s : State) : Option (Ledger × Bool) :=
  match s.window with
  | some state => (Ledger.fromState? state).map fun ledger => (ledger, true)
  | none => some (Ledger.empty, false)

/-- Pruning as the reads do it. -/
def pruneForRead? (cfg : PolicyConfig) (ledger : Ledger) (now : U64) : Option Ledger :=
  if limitsSpend cfg then ledger.prune? now cfg.windowSecs else some ledger

/-- What is left under a cap, over a trapping difference. -/
def headroom? (cap total : I128) : Option I128 :=
  (cap.checkedSub total).map fun rest => if rest.val < 0 then 0 else rest

def capMetrics? (policy : PolicyConfig) (ledger : Ledger) (recipient : Address) :
    Option (Option I128 × Option I128 × Option I128) := do
  let windowCap := effectiveWindowCap policy recipient
  let trackedTotal :=
    if hasRecipientWindowCap policy recipient then ledger.recipientTotal recipient
    else ledger.total
  let remaining ←
    match windowCap with
    | some cap => (headroom? cap trackedTotal).map some
    | none => some none
  return (remaining, enabledCap policy.perTxCap, windowCap)

def globalWindowRemaining? (policy : PolicyConfig) (ledger : Ledger) : Option (Option I128) :=
  if 0 < policy.windowCap.val then (headroom? policy.windowCap ledger.total).map some
  else some none

/-! ## Nothing traps -/

section

variable {bound : ℕ} {t : ℤ} {l : SingleLedger}

/-- **Recounting a sound ledger does not saturate**: its entries sum to its total. -/
theorem ledgerFromEntries?_eq (h : l.Sound bound t) :
    ledgerFromEntries? l.entries = some (ledgerFromEntries l.entries) := by
  refine Rolling.rebuild?_eq (by decide) (by decide) h.ordered.positive ?_
  rw [← show l.total.val = valueSum l.entries from h.exact]
  exact l.total.le_hi

/-- A sound total never goes below zero, however many entries are popped. -/
theorem popFront?_eq (n : ℕ) : ∀ l : SingleLedger, l.Exact → (∀ e ∈ l.entries, 0 < e.value.val) →
    popFront? n l = some (popFront n l) := by
  induction n with
  | zero => exact fun l _ _ => rfl
  | succ n ih =>
    intro l hexact hpos
    rw [popFront?, popFront]
    cases hl : l.entries with
    | nil => exact ih l hexact hpos
    | cons front rest =>
      rw [hl] at hpos
      have hfront := hpos front (by simp)
      have hrest := valueSum_nonneg fun e he => hpos e (List.mem_cons_of_mem _ he)
      have htotal : l.total.val = front.value.val + valueSum rest := by
        rw [show l.total.val = valueSum l.entries from hexact, hl, valueSum_cons]
      have hlo : i128.lo ≤ l.total.val - front.value.val := by rw [i128_lo]; omega
      dsimp only
      rw [BoundedInt.checkedSub_of_le hfront.le hlo]
      refine ih _ ?_ fun e he => hpos e (List.mem_cons_of_mem _ he)
      rw [Rolling.Exact, BoundedInt.val_saturatingSub_of_le hfront.le hlo, htotal]
      exact add_sub_cancel_left _ _

/-- **Nor does dropping its oldest entries.** -/
theorem pruneEntries?_eq (h : l.Sound bound t) (now windowSecs : U64) :
    pruneEntries? l now windowSecs = some (pruneEntries l now windowSecs) := by
  rw [pruneEntries?, pruneEntries]
  split_ifs
  · rfl
  · rfl
  · cases partitionPoint (expired now windowSecs) l.entries with
    | none => rfl
    | some low =>
      dsimp only
      split_ifs
      · rfl
      · exact popFront?_eq low l h.exact h.ordered.positive

end

theorem WindowState.Rep.fromState?_eq {t : U64} {w : WindowState} (h : w.Rep t) :
    Ledger.fromState? w = some (Ledger.fromState w) := by
  have hrecipients := mapM_eq_some (l := w.recipients) (f := fun rws =>
      (ledgerFromEntries? rws.entries).map fun inner =>
        (⟨rws.recipient, inner.total, inner.entries⟩ : RecipientLedger))
    (g := fun rws => ⟨rws.recipient, (ledgerFromEntries rws.entries).total,
      (ledgerFromEntries rws.entries).entries⟩) fun rws hrws => by
    rw [ledgerFromEntries?_eq (l := ⟨rws.total, rws.entries⟩) (h.recipients rws hrws)]
    rfl
  rw [Ledger.fromState?, ledgerFromEntries?_eq (l := ⟨w.total, w.entries⟩) h.single, hrecipients]
  rfl

/-- So pruning traps on no meter. -/
theorem Ledger.Rep.prune?_eq {t : U64} {l : Ledger} (h : l.Rep t) (now windowSecs : U64) :
    l.prune? now windowSecs = some (l.prune now windowSecs) := by
  have hrecipients := mapM_eq_some (l := l.recipients)
    (f := fun r => (pruneEntries? r.single now windowSecs).map r.withSingle)
    (g := fun r => r.withSingle (pruneEntries r.single now windowSecs)) fun r hr => by
    rw [pruneEntries?_eq (h.recipients r hr)]
    rfl
  rw [Ledger.prune?, pruneEntries?_eq h.single, hrecipients]
  rfl

/-! ### Admission -/

section

variable {now : U64} {l : Ledger} {amount : I128}

/-- **A spend that fits is recorded without saturating.** -/
theorem admitSpend?_eq (h : l.single.Sound maxWindowEntries now.val) (ha : 0 < amount.val)
    (hfit : l.total.val + amount.val ≤ i128.hi) :
    l.admitSpend? now amount = some (l.admitSpend now amount) := by
  rw [Ledger.admitSpend?, Rolling.record?_eq (by decide) h ha hfit]
  rfl

/-- The same for the meter of one recipient, wherever it stands in the list. -/
theorem admitToRecipients?_eq {recipient : Address} (ha : 0 < amount.val) :
    ∀ rs : List RecipientLedger, (meterOf rs recipient).Sound maxWindowEntries now.val →
      (meterOf rs recipient).total.val + amount.val ≤ i128.hi →
      Ledger.admitToRecipients? now recipient amount rs
        = some (Ledger.admitToRecipients now recipient amount rs)
  | [], h, hfit => by
    rw [Ledger.admitToRecipients?, Rolling.record?_eq
      (l := (RecipientLedger.empty recipient).single) (by decide) h ha hfit]
    rfl
  | r :: rs, h, hfit => by
    rw [meterOf_cons] at h hfit
    rw [Ledger.admitToRecipients?, Ledger.admitToRecipients]
    split_ifs at h hfit ⊢
    · rw [Rolling.record?_eq (by decide) h ha hfit]
      rfl
    · rw [admitToRecipients?_eq ha rs h hfit]
      rfl

theorem admitForRecipient?_eq {recipient : Address} (ha : 0 < amount.val)
    (h : (l.meter recipient).Sound maxWindowEntries now.val)
    (hfit : (l.meter recipient).total.val + amount.val ≤ i128.hi) :
    l.admitForRecipient? now recipient amount
      = some (l.admitForRecipient now recipient amount) := by
  rw [Ledger.admitForRecipient?, admitToRecipients?_eq ha _ h hfit]
  rfl

/-- The amount staged for a recipient is the one it is paired with. -/
theorem amountOf_of_mem_zip {rs : List Address} {ra : Address × I128} (hnd : rs.Nodup) :
    ∀ {as : List I128}, ra ∈ rs.zip as → ra.1 ∈ rs ∧ amountOf rs as ra.1 = ra.2 := by
  induction rs with
  | nil => simp
  | cons r rs ih =>
    intro as hra
    cases as with
    | nil => simp at hra
    | cons a as =>
      obtain ⟨hr, hnd'⟩ := List.nodup_cons.mp hnd
      rcases List.mem_cons.mp (List.zip_cons_cons ▸ hra) with rfl | hra
      · exact ⟨by simp, if_pos rfl⟩
      · obtain ⟨hmem, hamount⟩ := ih hnd' hra
        have hne : r ≠ ra.1 := fun h => hr (h ▸ hmem)
        refine ⟨List.mem_cons_of_mem _ hmem, ?_⟩
        rw [amountOf, if_neg hne, hamount]

/-- Admissions of one instant whose sum fits never trap. -/
theorem foldlM_admitSpend? {admission : List SpendEntry}
    (hinstant : ∀ e ∈ admission, e.ts = now ∧ 0 < e.value.val)
    (hsound : l.single.Sound maxWindowEntries now.val)
    (hfit : l.total.val + valueSum admission ≤ i128.hi) :
    admission.foldlM (fun l e => l.admitSpend? e.ts e.value) l
      = some (admission.foldl (fun l e => l.admitSpend e.ts e.value) l) := by
  refine foldlM_eq_some
    (fun rest l => (∀ e ∈ rest, e.ts = now ∧ 0 < e.value.val) ∧
      l.single.Sound maxWindowEntries now.val ∧ l.total.val + valueSum rest ≤ i128.hi)
    ?_ admission l ⟨hinstant, hsound, hfit⟩
  rintro e rest l ⟨hrest, hsound, hle⟩
  obtain ⟨⟨rfl, he⟩, hrest'⟩ := List.forall_mem_cons.mp hrest
  have hnn := valueSum_nonneg fun e' he' => (hrest' e' he').2
  rw [valueSum_cons] at hle
  have hfit : l.total.val + e.value.val ≤ i128.hi := by omega
  obtain ⟨hnext, htotal⟩ := Rolling.Sound.record (by decide) (by decide) hsound he hfit
  refine ⟨admitSpend?_eq hsound he hfit, hrest', hnext, ?_⟩
  rw [show (l.admitSpend e.ts e.value).total.val = l.total.val + e.value.val from htotal]
  omega

/-- Admissions to distinct recipients, each of which fits its own meter, never trap. -/
theorem foldlM_admitForRecipient? {amounts : List (Address × I128)}
    (hnd : (amounts.map Prod.fst).Nodup)
    (hfit : ∀ ra ∈ amounts, 0 < ra.2.val ∧ (l.meter ra.1).Sound maxWindowEntries now.val ∧
      (l.meter ra.1).total.val + ra.2.val ≤ i128.hi) :
    amounts.foldlM (fun l ra => l.admitForRecipient? now ra.1 ra.2) l
      = some (amounts.foldl (fun l ra => l.admitForRecipient now ra.1 ra.2) l) := by
  refine foldlM_eq_some
    (fun rest l => (rest.map Prod.fst).Nodup ∧ ∀ ra ∈ rest, 0 < ra.2.val ∧
      (l.meter ra.1).Sound maxWindowEntries now.val ∧
      (l.meter ra.1).total.val + ra.2.val ≤ i128.hi)
    ?_ amounts l ⟨hnd, hfit⟩
  rintro ra rest l ⟨hnd, hrest⟩
  obtain ⟨⟨ha, hsound, hfit⟩, hrest'⟩ := List.forall_mem_cons.mp hrest
  rw [List.map_cons, List.nodup_cons] at hnd
  refine ⟨admitForRecipient?_eq ha hsound hfit, hnd.2, fun ra' hra' => ?_⟩
  have hne : ra.1 ≠ ra'.1 := fun heq => hnd.1 (heq ▸ List.mem_map_of_mem hra')
  have hmeter : (l.admitForRecipient now ra.1 ra.2).meter ra'.1 = l.meter ra'.1 :=
    (meterOf_admitToRecipients now ra.1 ra.2 l.recipients ra'.1).trans (if_neg hne)
  rw [hmeter]
  exact hrest' ra' hra'

/-- **Committing a request that fits never traps.** -/
theorem commit?_eq {cfg : PolicyConfig} {calls : List ParsedCall} {st : Staging} (h : l.Rep now)
    (hst : Staged cfg now calls st) (hperm : ∀ c ∈ calls, Permitted cfg c)
    (hfits : Fits cfg l calls) : commit? l now st = some (commit l now st) := by
  have hglobal : l.total.val + valueSum st.admission ≤ i128.hi := by
    rw [hst.admission]
    exact hfits.global_le hperm
  obtain ⟨-, hrecipients, -⟩ :=
    foldl_admitSpend now st.admission l fun e he => (hst.instant e he).1
  rw [commit?, foldlM_admitSpend? hst.instant h.single hglobal]
  dsimp only [Option.bind_eq_bind, Option.bind_some]
  rw [foldlM_admitForRecipient?]
  · rfl
  · rw [List.map_fst_zip hst.parallel.le]
    exact hst.nodup
  · intro ra hra
    obtain ⟨hmem, hamount⟩ := amountOf_of_mem_zip hst.nodup hra
    have hval := hst.staged ra.1
    rw [hamount] at hval
    rw [Ledger.meter, hrecipients, ← Ledger.meter, hval]
    exact ⟨hst.positive ra.1 hmem, h.meter ra.1, hfits.recipient_le hperm ra.1⟩

end

/-! ### Staging -/

/-- **What the loop may find staged**, whether or not it has refused a context before. -/
def Staging.Sound (cfg : PolicyConfig) (l : Ledger) (now : U64) (st : Staging) : Prop :=
  ∃ calls, (∀ c ∈ calls, Permitted cfg c) ∧ Fits cfg l calls ∧ Staged cfg now calls st

section

variable {cfg : PolicyConfig} {l : Ledger} {now : U64} {st : Staging}

/-- A transfer is let through only with room for it, and is then staged; otherwise the staging is
left alone. -/
theorem evalTransfer_cases (hst : st.Sound cfg l now) (asset dest : Address) (amount : I128) :
    (∃ e, evalTransfer cfg l now st asset dest amount = (.blocked e, st)) ∨
      0 < amount.val ∧ WindowRoom cfg l st dest amount ∧
        evalTransfer cfg l now st asset dest amount
          = (.allowed, stageTransfer cfg now st dest amount) := by
  obtain ⟨calls, hperm, -, hstaged⟩ := hst
  by_cases hp : Permitted cfg (.assetTransfer asset dest amount)
  · rw [evalTransfer_of_permitted hp,
      evalWindow_eq (by rw [hstaged.pending]; exact globalDemand_nonneg hperm) hstaged.parallel
        (by rw [hstaged.staged]; exact recipientDemand_nonneg hperm dest) hp.2.1.le]
    split_ifs with hroom
    · exact .inr ⟨hp.2.1, hroom, rfl⟩
    · exact .inl ⟨_, rfl⟩
  · obtain ⟨e, -, he⟩ := evalTransfer_refused l now st hp
    exact .inl ⟨e, he⟩

/-- **One call keeps the staging sound**, allowed or not. -/
theorem Staging.Sound.evalCall (hst : st.Sound cfg l now) (hl : l.Rep now) (c : ParsedCall) :
    (evalCall cfg l now st c).2.Sound cfg l now := by
  by_cases hall : (AgentGuard.evalCall cfg l now st c).1.isAllowed = true
  · obtain ⟨calls, hperm, hfits, hstaged⟩ := hst
    obtain ⟨hiff, hnext⟩ := evalCall_spec hstaged hperm hfits hl.single.total_nonneg
      (fun r => (hl.meter r).total_nonneg) c
    obtain ⟨hp, hf⟩ := hiff.mp hall
    exact ⟨calls ++ [c], List.forall_mem_append.mpr ⟨hperm, List.forall_mem_singleton.mpr hp⟩, hf,
      hnext hall⟩
  · obtain ⟨e, he, -⟩ := evalCall_of_not_allowed fun h => hall (by rw [h]; rfl)
    rw [he]
    exact hst

/-- What a verdict found room for is staged without saturating, on the global meter -/
theorem stageGlobal?_eq (hst : st.Sound cfg l now) (hl : l.Rep now) {dest : Address}
    {amount : I128} (ha : 0 < amount.val) (hroom : WindowRoom cfg l st dest amount) :
    stageGlobal? cfg now st amount = some (stageGlobal cfg now st amount) := by
  obtain ⟨calls, hperm, -, hstaged⟩ := hst
  rw [stageGlobal?, stageGlobal]
  split_ifs with hw
  · have hfit := hroom.1 hw
    have hnn : 0 ≤ l.total.val := hl.single.total_nonneg
    have hcap := cfg.windowCap.le_hi
    rw [BoundedInt.checkedAdd_of_le ha.le (by omega)]
    rfl
  · rfl

/-- and on the recipient's. -/
theorem stageTransfer?_eq (hst : st.Sound cfg l now) (hl : l.Rep now) {dest : Address}
    {amount : I128} (ha : 0 < amount.val) (hroom : WindowRoom cfg l st dest amount) :
    stageTransfer? cfg now st dest amount = some (stageTransfer cfg now st dest amount) := by
  rw [stageTransfer?, stageGlobal?_eq hst hl ha hroom, Option.bind_some, stageTransfer]
  obtain ⟨calls, -, -, hstaged⟩ := hst
  cases hcap : recipientOverrideCap cfg dest with
  | none => rfl
  | some cap =>
    have hfit := hroom.2 cap hcap
    have hnn := (hl.meter dest).total_nonneg
    have := cap.le_hi
    rw [← recipientSlot_snd dest hstaged.parallel] at hfit
    simp only [Option.isSome_some, if_true]
    rw [BoundedInt.checkedAdd_of_le ha.le (by omega)]
    rfl

/-- **One call traps nowhere**: a refused one stages nothing. -/
theorem evalCall?_eq (hst : st.Sound cfg l now) (hl : l.Rep now) (c : ParsedCall) :
    evalCall? cfg l now st c = some (evalCall cfg l now st c) := by
  cases c with
  | assetTransfer asset dest amount =>
    rw [evalCall?, evalCall]
    obtain ⟨e, he⟩ | ⟨ha, hroom, he⟩ := evalTransfer_cases hst asset dest amount
    · rw [he]
    · rw [he]
      dsimp only
      rw [stageTransfer?_eq hst hl ha hroom]
      rfl
  | _ => rfl

/-- Nor does the loop, by induction on the contexts from any sound staging. -/
theorem evalContexts?_eq (self : Address) (hl : l.Rep now) (contexts : List Context) :
    ∀ st : Staging, st.Sound cfg l now →
      evalContexts? self cfg l now st contexts
        = some (evalContexts self cfg l now st contexts) := by
  induction contexts with
  | nil => exact fun st _ => rfl
  | cons ctx contexts ih =>
    intro st hst
    rw [evalContexts?, evalCall?_eq hst hl]
    dsimp only [Option.bind_eq_bind, Option.bind_some]
    rw [ih _ (hst.evalCall hl _)]
    rfl

theorem pruneFor?_eq {t : U64} (hl : l.Rep t) (cfg : PolicyConfig) (now : U64) :
    pruneFor? cfg l now = some (pruneFor cfg l now) := by
  rw [pruneFor?, pruneFor]
  split_ifs
  · exact hl.prune?_eq now cfg.windowSecs
  · rfl

/-- **No request traps.** -/
theorem decideContexts?_eq {self : Address} {policy : Option PolicyConfig} {state : AccountState}
    (hl : l.Rep now) (contexts : List Context) :
    decideContexts? self policy state l now contexts
      = some (decideContexts self policy state l now contexts) := by
  rw [decideContexts?]
  cases hopen : openPolicy policy state now with
  | none => rfl
  | some cfg =>
    dsimp only
    split_ifs with hlen
    · rfl
    have hrep := hl.pruneFor cfg now
    have hempty : Staging.empty.Sound cfg (pruneFor cfg l now) now :=
      ⟨[], by simp, fits_nil cfg _, staged_empty cfg now⟩
    have hspec := evalContexts_pruned self cfg now contexts hl
    rw [decideContexts_open (not_lt.mp hlen) hopen, pruneFor?_eq hl]
    dsimp only [Option.bind_eq_bind, Option.bind_some]
    rw [evalContexts?_eq self hrep contexts _ hempty]
    dsimp only [Option.bind_some]
    split_ifs with hall
    · obtain ⟨hperm, hfits⟩ := hspec.1.mp hall
      rw [commit?_eq hrep (hspec.2 hall) hperm hfits]
      rfl
    · rfl

end

/-! ### The reads -/

section

variable {l : Ledger} {t : U64}

theorem pruneForRead?_eq (hl : l.Rep t) (cfg : PolicyConfig) (now : U64) :
    pruneForRead? cfg l now = some (pruneForRead cfg l now) := by
  rw [pruneForRead?, pruneForRead]
  split_ifs
  · exact hl.prune?_eq now cfg.windowSecs
  · rfl

theorem Ledger.Rep.pruneForRead (hl : l.Rep t) (cfg : PolicyConfig) (now : U64) :
    (AgentGuard.pruneForRead cfg l now).Rep t := by
  rw [AgentGuard.pruneForRead]
  split_ifs
  · exact hl.prune now cfg.windowSecs
  · exact hl

/-- A cap is positive and a total is not negative, so the difference fits. -/
theorem headroom?_eq {cap total : I128} (hcap : 0 < cap.val) (htotal : 0 ≤ total.val) :
    headroom? cap total = some (headroom cap total) := by
  have hlo : i128.lo ≤ cap.val - total.val := by
    have := total.le_hi
    rw [i128_lo]
    rw [i128_hi] at this
    omega
  rw [headroom?, BoundedInt.checkedSub_of_le htotal hlo]
  rfl

/-- A cap of `0` is no cap, and is not reported as one. -/
theorem effectiveWindowCap_pos {cfg : PolicyConfig} {recipient : Address} {cap : I128}
    (h : effectiveWindowCap cfg recipient = some cap) : 0 < cap.val := by
  rw [effectiveWindowCap, Option.or_eq_some_iff] at h
  rcases h with h | ⟨-, h⟩
  · exact (mem_of_recipientOverrideCap h).2
  · rw [enabledCap] at h
    split_ifs at h with hpos
    obtain rfl := Option.some.inj h
    exact hpos

/-- **The advisory metrics trap nowhere.** -/
theorem capMetrics?_eq (hl : l.Rep t) (cfg : PolicyConfig) (recipient : Address) :
    capMetrics? cfg l recipient = some (capMetrics cfg l recipient) := by
  have htracked : 0 ≤ (if hasRecipientWindowCap cfg recipient then l.recipientTotal recipient
      else l.total).val := by
    split_ifs
    · rw [recipientTotal_eq]
      exact (hl.meter recipient).total_nonneg
    · exact hl.single.total_nonneg
  rw [capMetrics?, capMetrics]
  cases hcap : effectiveWindowCap cfg recipient with
  | none => rfl
  | some cap =>
    dsimp only
    rw [headroom?_eq (effectiveWindowCap_pos hcap) htracked]
    rfl

theorem globalWindowRemaining?_eq (hl : l.Rep t) (cfg : PolicyConfig) :
    globalWindowRemaining? cfg l = some (globalWindowRemaining cfg l) := by
  rw [globalWindowRemaining?, globalWindowRemaining]
  split_ifs with hcap
  · have htotal : 0 ≤ l.total.val := hl.single.total_nonneg
    rw [headroom?_eq hcap htotal]
    rfl
  · rfl

/-- **Loading the stored window traps nowhere.** -/
theorem State.Inv.loadWindow?_eq {s : State} {host : Host} (h : s.Inv host t) :
    s.loadWindow? = some s.loadWindow := by
  rw [State.loadWindow?, State.loadWindow]
  cases hw : s.window with
  | none => rfl
  | some w =>
    dsimp only
    rw [(h.window w hw).fromState?_eq]
    rfl

end

/-! ## Every reachable state -/

/-- **A ledger the engine may be handed at `now`**: in shape before and after every request, and no
request saturates. -/
structure Ledger.Serves (self : Address) (policy : Option PolicyConfig) (state : AccountState)
    (now : U64) (l : Ledger) : Prop where
  before : l.Rep now
  after : ∀ contexts, (decideContexts self policy state l now contexts).2.Rep now
  exact : ∀ contexts, decideContexts? self policy state l now contexts
    = some (decideContexts self policy state l now contexts)

/-- A ledger in shape is one the engine may be handed. -/
theorem Ledger.Rep.serves {self : Address} {policy : Option PolicyConfig} {state : AccountState}
    {now : U64} {l : Ledger} (h : l.Rep now) : l.Serves self policy state now :=
  ⟨h, fun _ => decideContexts_rep h, decideContexts?_eq h⟩

/-- **The window representation invariant.**  In every reachable state the stored window is in
shape; so is every ledger the engine is handed in it, loaded for an authorization or pruned for a
read, and every one it leaves; and loading, deciding and reading saturate nowhere on an `i128`. -/
theorem window_representation {env : Env} {t : U64} {s : State} (h : Reachable env.host t s)
    (ht : t.val ≤ env.timestamp.val) :
    (∀ w, s.window = some w → w.Rep t) ∧ s.loadWindow? = some s.loadWindow ∧
      s.loadWindow.1.Serves env.host.self s.policy ⟨s.frozenOrFalse, s.heartbeatOrZero⟩
        env.timestamp ∧
      ∀ cfg, s.policy = some cfg →
        pruneForRead? cfg s.loadWindow.1 env.timestamp
            = some (pruneForRead cfg s.loadWindow.1 env.timestamp) ∧
          (pruneForRead cfg s.loadWindow.1 env.timestamp).Serves env.host.self s.policy
            ⟨s.frozenOrFalse, s.heartbeatOrZero⟩ env.timestamp ∧
          (∀ dest, capMetrics? cfg (pruneForRead cfg s.loadWindow.1 env.timestamp) dest
            = some (capMetrics cfg (pruneForRead cfg s.loadWindow.1 env.timestamp) dest)) ∧
          globalWindowRemaining? cfg (pruneForRead cfg s.loadWindow.1 env.timestamp)
            = some (globalWindowRemaining cfg (pruneForRead cfg s.loadWindow.1 env.timestamp)) := by
  have hinv := h.inv.mono ht
  refine ⟨h.inv.window, hinv.loadWindow?_eq, hinv.ledger.serves, fun cfg _ => ?_⟩
  have hread := hinv.ledger.pruneForRead cfg env.timestamp
  exact ⟨pruneForRead?_eq hinv.ledger cfg env.timestamp, hread.serves,
    capMetrics?_eq hread cfg, globalWindowRemaining?_eq hread cfg⟩

namespace Sample

/-- The three meters at once: a global cap, one of a recipient's own, and a rate. -/
def threeMeters : PolicyConfig :=
  { policy with
    windowCap := 100
    recipientWindowCaps := [⟨payee, 60⟩]
    protocolCallsPerWindow := 5 }

/-- The account after three payments and two protocol calls. -/
def busy : State :=
  [auth 110 [pay 20, use], auth 115 [pay 5], auth 118 [use, transferContext asset admin 7]].foldl
    (step host) (installed threeMeters)

theorem reachable_busy : Reachable host 118 busy :=
  .call (auth 118 [use, transferContext asset admin 7])
    (.call (auth 115 [pay 5])
      (.call (auth 110 [pay 20, use]) (reachable_installed threeMeters)
        (show (100 : U64).val ≤ (110 : U64).val by decide))
      (show (110 : U64).val ≤ (115 : U64).val by decide))
    (show (115 : U64).val ≤ (118 : U64).val by decide)

/-- Its ledger holds payments, a recipient's own and calls; at `172` the first of each is old. -/
theorem busy_serves :
    busy.loadWindow.1.entries = [⟨110, 20⟩, ⟨115, 5⟩, ⟨118, 7⟩] ∧
      busy.loadWindow.1.recipients = [⟨payee, 25, [⟨110, 20⟩, ⟨115, 5⟩]⟩] ∧
      busy.loadWindow.1.protocolCallEntries = [⟨110, 1⟩, ⟨118, 1⟩] ∧
      busy.loadWindow.1.Serves host.self busy.policy ⟨busy.frozenOrFalse, busy.heartbeatOrZero⟩
        172 := by
  refine ⟨by decide, by decide, by decide, ?_⟩
  have h := @window_representation ((auth 172 []).env host) 118 busy reachable_busy
    (show (118 : U64).val ≤ (172 : U64).val by decide)
  exact h.2.2.1

end Sample

end AgentGuard
