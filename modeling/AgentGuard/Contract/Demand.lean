import AgentGuard.Contract.Engine
import AgentGuard.Contract.Ledger

/-!
# Contract/Demand — what a request asks of the meters, and when the engine grants it

The loop of `decide` threads a staging record through the contexts.  Read declaratively, a request
is a *demand* on each meter — a sum over its calls — and the loop passes exactly when every call is
permitted on its own (`Permitted`) and every demand fits under its cap (`Fits`).  The commit then
charges each meter with its demand, once.
-/

namespace AgentGuard

open Machinery

/-! ## Demands -/

/-- What a call transfers. -/
def ParsedCall.spend : ParsedCall → ℤ
  | .assetTransfer _ _ amount => amount.val
  | _ => 0

/-- What a call transfers to `recipient`. -/
def ParsedCall.spendTo (recipient : Address) : ParsedCall → ℤ
  | .assetTransfer _ dest amount => if dest = recipient then amount.val else 0
  | _ => 0

/-- How often a call counts against the protocol-call rate. -/
def ParsedCall.protocolCalls : ParsedCall → ℤ
  | .protocol _ _ => 1
  | _ => 0

/-- The demand on the global meter; a disabled cap meters nothing. -/
def globalDemand (cfg : PolicyConfig) (calls : List ParsedCall) : ℤ :=
  if 0 < cfg.windowCap.val then (calls.map ParsedCall.spend).sum else 0

/-- The demand on a recipient's meter; without an override there is none. -/
def recipientDemand (cfg : PolicyConfig) (recipient : Address) (calls : List ParsedCall) : ℤ :=
  if hasRecipientWindowCap cfg recipient then (calls.map (ParsedCall.spendTo recipient)).sum else 0

/-- The demand on the call counter. -/
def callDemand (cfg : PolicyConfig) (calls : List ParsedCall) : ℤ :=
  if 0 < cfg.protocolCallsPerWindow.val then (calls.map ParsedCall.protocolCalls).sum else 0

/-- **The rules a call is held to on its own**, whatever else is in the request or the ledger. -/
def Permitted (cfg : PolicyConfig) : ParsedCall → Prop
  | .selfCall fname => fname = "heartbeat"
  | .assetTransfer asset dest amount =>
    assetPaused cfg asset = false ∧ 0 < amount.val ∧ dest ∉ cfg.blockedRecipients ∧
      (cfg.allowAnyRecipient = true ∨ dest ∈ cfg.recipients) ∧
      ∀ cap ∈ effectivePerTxCap cfg asset, amount.val ≤ cap.val
  | .protocol contract fname =>
    ∃ rule, (cfg.protocols.find? fun rule => rule.contract = contract) = some rule ∧
      rule.paused = false ∧ ∀ fns ∈ rule.fns, fname ∈ fns
  | _ => False

/-- **Every demand fits under its cap.**  A meter nothing is asked of is not checked. -/
structure Fits (cfg : PolicyConfig) (l : Ledger) (calls : List ParsedCall) : Prop where
  global : 0 < globalDemand cfg calls →
    l.total.val + globalDemand cfg calls ≤ cfg.windowCap.val
  recipient : ∀ r cap, recipientOverrideCap cfg r = some cap → 0 < recipientDemand cfg r calls →
    (l.meter r).total.val + recipientDemand cfg r calls ≤ cap.val
  calls : 0 < callDemand cfg calls →
    min u32.hi (l.protocolCallTotal.val + callDemand cfg calls) ≤ cfg.protocolCallsPerWindow.val

section

variable {cfg : PolicyConfig} {c : ParsedCall} {calls rest : List ParsedCall} {r : Address}

@[simp] theorem globalDemand_nil : globalDemand cfg [] = 0 := by simp [globalDemand]

@[simp] theorem recipientDemand_nil : recipientDemand cfg r [] = 0 := by simp [recipientDemand]

@[simp] theorem callDemand_nil : callDemand cfg [] = 0 := by simp [callDemand]

theorem globalDemand_append :
    globalDemand cfg (calls ++ rest) = globalDemand cfg calls + globalDemand cfg rest := by
  simp only [globalDemand, List.map_append, List.sum_append]
  split_ifs <;> rfl

theorem recipientDemand_append : recipientDemand cfg r (calls ++ rest)
    = recipientDemand cfg r calls + recipientDemand cfg r rest := by
  simp only [recipientDemand, List.map_append, List.sum_append]
  split_ifs <;> rfl

theorem callDemand_append :
    callDemand cfg (calls ++ rest) = callDemand cfg calls + callDemand cfg rest := by
  simp only [callDemand, List.map_append, List.sum_append]
  split_ifs <;> rfl

theorem Permitted.spend_nonneg (h : Permitted cfg c) : 0 ≤ c.spend := by
  cases c with
  | assetTransfer asset dest amount => exact h.2.1.le
  | _ => exact le_rfl

theorem Permitted.spendTo_nonneg (h : Permitted cfg c) (r : Address) : 0 ≤ c.spendTo r := by
  cases c with
  | assetTransfer asset dest amount =>
    have := h.2.1
    simp only [ParsedCall.spendTo]
    split_ifs <;> omega
  | _ => exact le_rfl

theorem ParsedCall.protocolCalls_nonneg (c : ParsedCall) : 0 ≤ c.protocolCalls := by
  cases c <;> simp [ParsedCall.protocolCalls]

theorem sum_map_nonneg {f : ParsedCall → ℤ} (h : ∀ c ∈ calls, 0 ≤ f c) :
    0 ≤ (calls.map f).sum :=
  List.sum_nonneg fun v hv => by
    obtain ⟨c, hc, rfl⟩ := List.mem_map.mp hv
    exact h c hc

theorem globalDemand_nonneg (h : ∀ c ∈ calls, Permitted cfg c) : 0 ≤ globalDemand cfg calls := by
  rw [globalDemand]
  split_ifs
  · exact sum_map_nonneg fun c hc => (h c hc).spend_nonneg
  · exact le_rfl

theorem recipientDemand_nonneg (h : ∀ c ∈ calls, Permitted cfg c) (r : Address) :
    0 ≤ recipientDemand cfg r calls := by
  rw [recipientDemand]
  split_ifs
  · exact sum_map_nonneg fun c hc => (h c hc).spendTo_nonneg r
  · exact le_rfl

theorem callDemand_nonneg (cfg : PolicyConfig) (calls : List ParsedCall) :
    0 ≤ callDemand cfg calls := by
  rw [callDemand]
  split_ifs
  · exact sum_map_nonneg fun c _ => c.protocolCalls_nonneg
  · exact le_rfl

theorem callDemand_le_length (cfg : PolicyConfig) (calls : List ParsedCall) :
    callDemand cfg calls ≤ calls.length := by
  have hsum : (calls.map ParsedCall.protocolCalls).sum ≤ calls.length := by
    induction calls with
    | nil => simp
    | cons c calls ih =>
      have : c.protocolCalls ≤ 1 := by cases c <;> simp [ParsedCall.protocolCalls]
      simp only [List.map_cons, List.sum_cons, List.length_cons]
      omega
  rw [callDemand]
  split_ifs
  · exact hsum
  · exact Int.natCast_nonneg _

theorem callDemand_le (hlen : calls.length ≤ maxAuthContexts) : callDemand cfg calls ≤ u32.hi := by
  have := callDemand_le_length cfg calls
  rw [maxAuthContexts] at hlen
  rw [u32_hi]
  omega

/-- Only a recipient with an override is metered. -/
theorem override_of_recipientDemand_pos (h : 0 < recipientDemand cfg r calls) :
    ∃ cap, recipientOverrideCap cfg r = some cap := by
  refine Option.isSome_iff_exists.mp ?_
  by_contra hno
  rw [recipientDemand, hasRecipientWindowCap, if_neg hno] at h
  omega

/-- **A request fits only if its beginning does.** -/
theorem Fits.of_append {l : Ledger} (h : Fits cfg l (calls ++ rest))
    (hrest : ∀ c ∈ rest, Permitted cfg c) : Fits cfg l calls where
  global hpos := by
    have := globalDemand_nonneg hrest
    have := h.global (by rw [globalDemand_append]; omega)
    rw [globalDemand_append] at this
    omega
  recipient r cap hcap hpos := by
    have := recipientDemand_nonneg hrest r
    have := h.recipient r cap hcap (by rw [recipientDemand_append]; omega)
    rw [recipientDemand_append] at this
    omega
  calls hpos := by
    have := callDemand_nonneg cfg rest
    have := h.calls (by rw [callDemand_append]; omega)
    rw [callDemand_append] at this
    omega

theorem fits_nil (cfg : PolicyConfig) (l : Ledger) : Fits cfg l [] :=
  ⟨by simp, by simp, by simp⟩

end

/-! ## Parallel vectors -/

/-- The amount kept for `dest` in a pair of parallel vectors, `0` when there is none. -/
def amountOf : List Address → List I128 → Address → I128
  | r :: rs, a :: as, dest => if r = dest then a else amountOf rs as dest
  | _, _, _ => 0

theorem amountOf_of_notMem {rs : List Address} {dest : Address} (h : dest ∉ rs) (as : List I128) :
    amountOf rs as dest = 0 := by
  induction rs generalizing as with
  | nil => rfl
  | cons r rs ih =>
    cases as with
    | nil => rfl
    | cons a as =>
      rw [amountOf, if_neg fun hr => h (by simp [hr]), ih fun hm => h (List.mem_cons_of_mem _ hm)]

theorem amountOf_of_findIdx? {rs : List Address} {as : List I128} {dest : Address} {i : ℕ}
    (hlen : rs.length = as.length) (hi : (rs.findIdx? fun r => r = dest) = some i) :
    (as[i]?).getD 0 = amountOf rs as dest ∧ dest ∈ rs ∧
      ∀ (x : I128) (other : Address),
        amountOf rs (as.set i x) other = if dest = other then x else amountOf rs as other := by
  induction rs generalizing as i with
  | nil => simp at hi
  | cons r rs ih =>
    cases as with
    | nil => simp at hlen
    | cons a as =>
      rw [List.findIdx?_cons] at hi
      by_cases hr : r = dest
      · obtain rfl : 0 = i := by simpa [hr] using hi
        refine ⟨by simp [amountOf, hr], by simp [hr], fun x other => ?_⟩
        subst hr
        rw [List.set_cons_zero, amountOf, amountOf]
        split_ifs <;> rfl
      · obtain ⟨j, hj, rfl⟩ : ∃ j, (rs.findIdx? fun r => r = dest) = some j ∧ j + 1 = i := by
          simpa [hr] using hi
        obtain ⟨h1, h2, h3⟩ := ih (by simpa using hlen) hj
        refine ⟨by simpa [amountOf, hr] using h1, List.mem_cons_of_mem _ h2, fun x other => ?_⟩
        rw [List.set_cons_succ, amountOf, amountOf, h3]
        by_cases ho : r = other
        · rw [if_pos ho, if_pos ho, if_neg fun hd => hr (ho.trans hd.symm)]
        · rw [if_neg ho, if_neg ho]

theorem amountOf_append {rs : List Address} {as : List I128} {dest : Address}
    (hlen : rs.length = as.length) (hmem : dest ∉ rs) (x : I128) (other : Address) :
    amountOf (rs ++ [dest]) (as ++ [x]) other
      = if dest = other then x else amountOf rs as other := by
  induction rs generalizing as with
  | nil =>
    obtain rfl := List.length_eq_zero_iff.mp hlen.symm
    rfl
  | cons r rs ih =>
    cases as with
    | nil => simp at hlen
    | cons a as =>
      have hne : r ≠ dest := fun hr => hmem (by simp [hr])
      rw [List.cons_append, List.cons_append, amountOf, amountOf,
        ih (by simpa using hlen) fun hm => hmem (List.mem_cons_of_mem _ hm)]
      by_cases ho : r = other
      · rw [if_pos ho, if_pos ho, if_neg fun hd => hne (ho.trans hd.symm)]
      · rw [if_neg ho, if_neg ho]

/-! ## The staging of a request -/

/-- **What the staging holds once `calls` have passed.** -/
structure Staged (cfg : PolicyConfig) (now : U64) (calls : List ParsedCall) (st : Staging) :
    Prop where
  pending : st.pending.val = globalDemand cfg calls
  instant : ∀ e ∈ st.admission, e.ts = now ∧ 0 < e.value.val
  admission : valueSum st.admission = globalDemand cfg calls
  nodup : st.pendingRecipients.Nodup
  parallel : st.pendingRecipients.length = st.pendingRecipientAmounts.length
  staged : ∀ r, (amountOf st.pendingRecipients st.pendingRecipientAmounts r).val
    = recipientDemand cfg r calls
  positive : ∀ r ∈ st.pendingRecipients, 0 < recipientDemand cfg r calls
  calls : st.pendingProtocolCalls.val = min u32.hi (callDemand cfg calls)

theorem staged_empty (cfg : PolicyConfig) (now : U64) : Staged cfg now [] Staging.empty where
  pending := by simp [Staging.empty]
  instant := by simp [Staging.empty]
  admission := by simp [Staging.empty]
  nodup := List.Pairwise.nil
  parallel := rfl
  staged := by simp [Staging.empty, amountOf]
  positive := by simp [Staging.empty]
  calls := by simp [Staging.empty]

section

variable {st : Staging} (dest : Address)

/-- The staged amount is what the vectors hold. -/
theorem recipientSlot_snd (hlen : st.pendingRecipients.length = st.pendingRecipientAmounts.length) :
    (st.recipientSlot dest).2 = amountOf st.pendingRecipients st.pendingRecipientAmounts dest := by
  rw [Staging.recipientSlot]
  cases hi : st.pendingRecipients.findIdx? fun r => r = dest with
  | none =>
    have hmem : dest ∉ st.pendingRecipients := fun hm => by
      simpa using List.findIdx?_eq_none_iff.mp hi dest hm
    exact (amountOf_of_notMem hmem _).symm
  | some i => exact (amountOf_of_findIdx? hlen hi).1

/-- **Writing a staged amount back** changes that recipient's amount and no other. -/
theorem stageRecipient_spec
    (hlen : st.pendingRecipients.length = st.pendingRecipientAmounts.length)
    (hnd : st.pendingRecipients.Nodup) (next : I128) :
    let st' := st.stageRecipient (st.recipientSlot dest).1 dest next
    (∀ other, amountOf st'.pendingRecipients st'.pendingRecipientAmounts other
        = if dest = other then next
          else amountOf st.pendingRecipients st.pendingRecipientAmounts other) ∧
      st'.pendingRecipients.length = st'.pendingRecipientAmounts.length ∧
      st'.pendingRecipients.Nodup ∧
      (∀ r ∈ st'.pendingRecipients, r = dest ∨ r ∈ st.pendingRecipients) ∧
      st'.pending = st.pending ∧ st'.admission = st.admission ∧
      st'.pendingProtocolCalls = st.pendingProtocolCalls := by
  rw [Staging.recipientSlot]
  cases hi : st.pendingRecipients.findIdx? fun r => r = dest with
  | none =>
    have hmem : dest ∉ st.pendingRecipients := fun hm => by
      simpa using List.findIdx?_eq_none_iff.mp hi dest hm
    refine ⟨amountOf_append hlen hmem next, by simp [Staging.stageRecipient, hlen], ?_, ?_,
      rfl, rfl, rfl⟩
    · refine List.nodup_append.mpr ⟨hnd, List.pairwise_singleton _ _, fun a ha b hb hab => ?_⟩
      obtain rfl := List.mem_singleton.mp hb
      exact hmem (hab ▸ ha)
    · intro r hr
      rcases List.mem_append.mp hr with hr | hr
      · exact .inr hr
      · exact .inl (List.mem_singleton.mp hr)
  | some i =>
    obtain ⟨-, hmem, hset⟩ := amountOf_of_findIdx? hlen hi
    exact ⟨hset next, by simpa [Staging.stageRecipient] using hlen, hnd, fun r hr => .inr hr,
      rfl, rfl, rfl⟩

end

/-! ## The window rule -/

/-- **The overflow-checked projection is exact**: beyond `i128` it is over every cap. -/
theorem overCap_checkedWindowProjection (base cap : I128) {staged amount : I128}
    (hs : 0 ≤ staged.val) (ha : 0 ≤ amount.val) :
    overCap (checkedWindowProjection base staged amount) cap = false
      ↔ base.val + staged.val + amount.val ≤ cap.val := by
  have hcap := cap.le_hi
  rw [checkedWindowProjection]
  by_cases h : base.val + staged.val ≤ i128.hi
  · have hsum := BoundedInt.val_saturatingAdd_of_le hs h
    rw [BoundedInt.checkedAdd_of_le hs h, Option.bind_some]
    have hiff := BoundedInt.checkedAdd_le_iff (a := base.saturatingAdd staged) ha cap
    rw [hsum] at hiff
    rw [← hiff]
    cases (base.saturatingAdd staged).checkedAdd amount <;> simp [overCap]
  · rw [BoundedInt.checkedAdd_eq_none (not_le.mp h), Option.bind_none]
    simp only [overCap, Bool.true_eq_false, false_iff]
    omega

/-- Both rolling limits leave room for one more transfer. -/
def WindowRoom (cfg : PolicyConfig) (l : Ledger) (st : Staging) (dest : Address) (amount : I128) :
    Prop :=
  (0 < cfg.windowCap.val → l.total.val + st.pending.val + amount.val ≤ cfg.windowCap.val) ∧
    ∀ cap, recipientOverrideCap cfg dest = some cap → (l.meter dest).total.val
      + (amountOf st.pendingRecipients st.pendingRecipientAmounts dest).val + amount.val ≤ cap.val

/-- The staging of one more transfer. -/
def stageTransfer (cfg : PolicyConfig) (now : U64) (st : Staging) (dest : Address)
    (amount : I128) : Staging :=
  let st' :=
    if 0 < cfg.windowCap.val then
      { st with
        pending := st.pending.saturatingAdd amount
        admission := st.admission ++ [⟨now, amount⟩] }
    else st
  if (recipientOverrideCap cfg dest).isSome then
    st'.stageRecipient (st.recipientSlot dest).1 dest
      ((st.recipientSlot dest).2.saturatingAdd amount)
  else st'

section

variable {cfg : PolicyConfig} {l : Ledger} {now : U64} {st : Staging} {dest asset : Address}
  {amount : I128} {calls : List ParsedCall}

open Classical in
/-- **The window rule, declaratively.** -/
theorem evalWindow_eq (hpending : 0 ≤ st.pending.val)
    (hlen : st.pendingRecipients.length = st.pendingRecipientAmounts.length)
    (hstaged : 0 ≤ (amountOf st.pendingRecipients st.pendingRecipientAmounts dest).val)
    (ha : 0 ≤ amount.val) :
    evalWindow cfg l now st dest amount
      = if WindowRoom cfg l st dest amount then (.allowed, stageTransfer cfg now st dest amount)
        else (.blocked .windowCapExceeded, st) := by
  have hglobal : (decide (0 < cfg.windowCap.val) &&
      overCap (checkedWindowProjection l.total st.pending amount) cfg.windowCap) = false
        ↔ (0 < cfg.windowCap.val →
          l.total.val + st.pending.val + amount.val ≤ cfg.windowCap.val) := by
    rw [← overCap_checkedWindowProjection _ _ hpending ha]
    by_cases hw : 0 < cfg.windowCap.val <;> simp [hw]
  rw [evalWindow, stageTransfer, WindowRoom]
  cases hcap : recipientOverrideCap cfg dest with
  | none =>
    simp only [Option.isSome_none, Bool.false_eq_true, if_false, Bool.or_false, reduceCtorEq,
      false_implies, implies_true, and_true]
    by_cases hg : 0 < cfg.windowCap.val →
        l.total.val + st.pending.val + amount.val ≤ cfg.windowCap.val
    · rw [if_pos hg, hglobal.mpr hg, if_neg (by simp)]
    · rw [if_neg hg, if_pos (by simpa using mt hglobal.mp hg)]
  | some cap =>
    have hrecip := overCap_checkedWindowProjection (l.meter dest).total cap hstaged ha
    simp only [Option.isSome_some, if_true, recipientSlot_snd _ hlen, recipientTotal_eq,
      Option.some.injEq, forall_eq']
    by_cases hg : (0 < cfg.windowCap.val →
        l.total.val + st.pending.val + amount.val ≤ cfg.windowCap.val) ∧
        (l.meter dest).total.val
          + (amountOf st.pendingRecipients st.pendingRecipientAmounts dest).val + amount.val
            ≤ cap.val
    · rw [if_pos hg, hglobal.mpr hg.1, hrecip.mpr hg.2, if_neg (by simp)]
    · rw [if_neg hg, if_pos ?_]
      rw [Bool.or_eq_true]
      by_contra hno
      rw [not_or, Bool.not_eq_true, Bool.not_eq_true] at hno
      exact hg ⟨hglobal.mp hno.1, hrecip.mp hno.2⟩

theorem globalDemand_transfer (cfg : PolicyConfig) (calls : List ParsedCall) (asset dest : Address)
    (amount : I128) :
    globalDemand cfg (calls ++ [.assetTransfer asset dest amount])
      = globalDemand cfg calls + if 0 < cfg.windowCap.val then amount.val else 0 := by
  rw [globalDemand_append]
  simp [globalDemand, ParsedCall.spend]

theorem recipientDemand_transfer (cfg : PolicyConfig) (calls : List ParsedCall)
    (asset dest : Address) (amount : I128) (r : Address) :
    recipientDemand cfg r (calls ++ [.assetTransfer asset dest amount])
      = recipientDemand cfg r calls
        + if hasRecipientWindowCap cfg r ∧ dest = r then amount.val else 0 := by
  rw [recipientDemand_append]
  by_cases hr : hasRecipientWindowCap cfg r = true <;>
    simp [recipientDemand, ParsedCall.spendTo, hr]

theorem callDemand_transfer (cfg : PolicyConfig) (calls : List ParsedCall) (asset dest : Address)
    (amount : I128) :
    callDemand cfg (calls ++ [.assetTransfer asset dest amount]) = callDemand cfg calls := by
  rw [callDemand_append]
  simp [callDemand, ParsedCall.protocolCalls]

/-- The staging after the global half of a transfer. -/
def stageGlobal (cfg : PolicyConfig) (now : U64) (st : Staging) (amount : I128) : Staging :=
  if 0 < cfg.windowCap.val then
    { st with
      pending := st.pending.saturatingAdd amount
      admission := st.admission ++ [⟨now, amount⟩] }
  else st

@[simp] theorem pendingRecipients_stageGlobal :
    (stageGlobal cfg now st amount).pendingRecipients = st.pendingRecipients := by
  rw [stageGlobal]
  split_ifs <;> rfl

@[simp] theorem pendingRecipientAmounts_stageGlobal :
    (stageGlobal cfg now st amount).pendingRecipientAmounts = st.pendingRecipientAmounts := by
  rw [stageGlobal]
  split_ifs <;> rfl

@[simp] theorem pendingProtocolCalls_stageGlobal :
    (stageGlobal cfg now st amount).pendingProtocolCalls = st.pendingProtocolCalls := by
  rw [stageGlobal]
  split_ifs <;> rfl

/-- **The global half of a transfer that has room.** -/
theorem Staged.global (asset : Address) (h : Staged cfg now calls st) (ha : 0 < amount.val)
    (hl : 0 ≤ l.total.val) (hroom : WindowRoom cfg l st dest amount) :
    (stageGlobal cfg now st amount).pending.val
        = globalDemand cfg (calls ++ [.assetTransfer asset dest amount]) ∧
      (∀ e ∈ (stageGlobal cfg now st amount).admission, e.ts = now ∧ 0 < e.value.val) ∧
      valueSum (stageGlobal cfg now st amount).admission
        = globalDemand cfg (calls ++ [.assetTransfer asset dest amount]) := by
  rw [globalDemand_transfer, stageGlobal]
  split_ifs with hw
  · have hcap := cfg.windowCap.le_hi
    have hfit := hroom.1 hw
    refine ⟨?_, List.forall_mem_append.mpr ⟨h.instant, by simpa using ha⟩, ?_⟩
    · rw [BoundedInt.val_saturatingAdd_of_le ha.le (by omega), h.pending]
    · rw [valueSum_append, h.admission, valueSum_cons, valueSum_nil, add_zero]
  · rw [add_zero]
    exact ⟨h.pending, h.instant, h.admission⟩

/-- **A transfer to a recipient without an override** is staged globally only. -/
theorem Staged.transfer_unmetered (h : Staged cfg now calls st) (ha : 0 < amount.val)
    (hl : 0 ≤ l.total.val) (hroom : WindowRoom cfg l st dest amount)
    (hcap : recipientOverrideCap cfg dest = none) :
    Staged cfg now (calls ++ [.assetTransfer asset dest amount])
      (stageGlobal cfg now st amount) := by
  obtain ⟨hpending, hinstant, hadmission⟩ := h.global asset ha hl hroom
  have hsame : ∀ r, recipientDemand cfg r (calls ++ [.assetTransfer asset dest amount])
      = recipientDemand cfg r calls := fun r => by
    rw [recipientDemand_transfer, if_neg, add_zero]
    rintro ⟨hr, rfl⟩
    simp [hasRecipientWindowCap, hcap] at hr
  refine ⟨hpending, hinstant, hadmission, ?_, ?_, fun r => ?_, fun r hr => ?_, ?_⟩
  · simpa using h.nodup
  · simpa using h.parallel
  · simpa [hsame] using h.staged r
  · rw [hsame]
    exact h.positive r (by simpa using hr)
  · rw [pendingProtocolCalls_stageGlobal, callDemand_transfer, h.calls]

/-- **A transfer to a recipient with an override** is staged for the recipient as well. -/
theorem Staged.transfer_metered (h : Staged cfg now calls st) (ha : 0 < amount.val)
    (hl : 0 ≤ l.total.val) (hm : 0 ≤ (l.meter dest).total.val)
    (hnn : ∀ r, 0 ≤ recipientDemand cfg r calls) (hroom : WindowRoom cfg l st dest amount)
    {cap : I128} (hcap : recipientOverrideCap cfg dest = some cap) :
    Staged cfg now (calls ++ [.assetTransfer asset dest amount])
      ((stageGlobal cfg now st amount).stageRecipient (st.recipientSlot dest).1 dest
        ((st.recipientSlot dest).2.saturatingAdd amount)) := by
  obtain ⟨hpending, hinstant, hadmission⟩ := h.global asset ha hl hroom
  have hdest : hasRecipientWindowCap cfg dest = true := by simp [hasRecipientWindowCap, hcap]
  have hnext : ((st.recipientSlot dest).2.saturatingAdd amount).val
      = recipientDemand cfg dest calls + amount.val := by
    have hfit := hroom.2 cap hcap
    have hbound := cap.le_hi
    rw [recipientSlot_snd _ h.parallel, BoundedInt.val_saturatingAdd_of_le ha.le (by omega),
      h.staged]
  have hslot : (stageGlobal cfg now st amount).recipientSlot dest = st.recipientSlot dest := by
    simp [Staging.recipientSlot]
  have hparallel : (stageGlobal cfg now st amount).pendingRecipients.length
      = (stageGlobal cfg now st amount).pendingRecipientAmounts.length := by
    simpa using h.parallel
  have hspec := stageRecipient_spec dest hparallel (by simpa using h.nodup)
    ((st.recipientSlot dest).2.saturatingAdd amount)
  rw [hslot] at hspec
  obtain ⟨hamount, hlen, hnodup, hmem, hpend', hadm', hcalls'⟩ := hspec
  refine ⟨by rw [hpend', hpending], fun e he => hinstant e (hadm' ▸ he),
    by rw [hadm', hadmission], hnodup, hlen, fun r => ?_, fun r hr => ?_, ?_⟩
  · rw [hamount, recipientDemand_transfer]
    by_cases hr : dest = r
    · subst hr
      rw [if_pos rfl, if_pos ⟨hdest, rfl⟩, hnext]
    · rw [if_neg hr, if_neg fun hc => hr hc.2, add_zero, pendingRecipients_stageGlobal,
        pendingRecipientAmounts_stageGlobal, h.staged]
  · rw [recipientDemand_transfer]
    rcases hmem r hr with rfl | hr
    · rw [if_pos ⟨hdest, rfl⟩]
      have := hnn r
      omega
    · have := h.positive r (by simpa using hr)
      split_ifs <;> omega
  · rw [hcalls', pendingProtocolCalls_stageGlobal, h.calls, callDemand_transfer]

/-- **Staging a transfer that has room.** -/
theorem Staged.transfer (h : Staged cfg now calls st) (ha : 0 < amount.val)
    (hl : 0 ≤ l.total.val) (hm : 0 ≤ (l.meter dest).total.val)
    (hnn : ∀ r, 0 ≤ recipientDemand cfg r calls)
    (hroom : WindowRoom cfg l st dest amount) :
    Staged cfg now (calls ++ [.assetTransfer asset dest amount])
      (stageTransfer cfg now st dest amount) := by
  rw [stageTransfer]
  cases hcap : recipientOverrideCap cfg dest with
  | none => exact h.transfer_unmetered ha hl hroom hcap
  | some cap => exact h.transfer_metered ha hl hm hnn hroom hcap

/-- A transfer with room fits on top of what fits already. -/
theorem WindowRoom.fits (asset : Address) (hroom : WindowRoom cfg l st dest amount)
    (h : Staged cfg now calls st) (hfits : Fits cfg l calls) :
    Fits cfg l (calls ++ [.assetTransfer asset dest amount]) where
  global hpos := by
    have hpending := h.pending
    rw [globalDemand_transfer] at hpos ⊢
    by_cases hw : 0 < cfg.windowCap.val
    · have := hroom.1 hw
      rw [if_pos hw]
      omega
    · rw [globalDemand, if_neg hw, if_neg hw] at hpos
      omega
  recipient r cap hcap hpos := by
    have hrc : hasRecipientWindowCap cfg r = true := by simp [hasRecipientWindowCap, hcap]
    rw [recipientDemand_transfer] at hpos ⊢
    by_cases hr : dest = r
    · subst hr
      have := hroom.2 cap hcap
      rw [h.staged] at this
      rw [if_pos ⟨hrc, rfl⟩]
      omega
    · rw [if_neg fun hc => hr hc.2, add_zero] at hpos ⊢
      exact hfits.recipient r cap hcap hpos
  calls hpos := by
    rw [callDemand_transfer] at hpos ⊢
    exact hfits.calls hpos

/-- **Room for a transfer is the demand fitting with it.** -/
theorem windowRoom_iff (asset dest : Address) (h : Staged cfg now calls st) (ha : 0 < amount.val)
    (hnn : ∀ r, 0 ≤ recipientDemand cfg r calls) (hgn : 0 ≤ globalDemand cfg calls)
    (hfits : Fits cfg l calls) :
    WindowRoom cfg l st dest amount
      ↔ Fits cfg l (calls ++ [.assetTransfer asset dest amount]) := by
  refine ⟨fun hroom => hroom.fits asset h hfits, fun hfit => ⟨fun hw => ?_, fun cap hcap => ?_⟩⟩
  · have hg := globalDemand_transfer cfg calls asset dest amount
    rw [if_pos hw] at hg
    have := hfit.global (by omega)
    rw [h.pending]
    omega
  · have hrc : hasRecipientWindowCap cfg dest = true := by simp [hasRecipientWindowCap, hcap]
    have hg := recipientDemand_transfer cfg calls asset dest amount dest
    rw [if_pos ⟨hrc, rfl⟩] at hg
    have := hnn dest
    have := hfit.recipient dest cap hcap (by omega)
    rw [h.staged]
    omega

end

/-! ## One call -/

/-- A call that asks nothing of any meter. -/
def ParsedCall.Idle (c : ParsedCall) : Prop :=
  c.spend = 0 ∧ (∀ r, c.spendTo r = 0) ∧ c.protocolCalls = 0

section

variable {cfg : PolicyConfig} {l : Ledger} {now : U64} {st : Staging} {calls : List ParsedCall}
  {c : ParsedCall}

theorem ParsedCall.Idle.globalDemand (h : c.Idle) :
    globalDemand cfg (calls ++ [c]) = AgentGuard.globalDemand cfg calls := by
  rw [globalDemand_append]
  simp [AgentGuard.globalDemand, h.1]

theorem ParsedCall.Idle.recipientDemand (h : c.Idle) (r : Address) :
    recipientDemand cfg r (calls ++ [c]) = AgentGuard.recipientDemand cfg r calls := by
  rw [recipientDemand_append]
  simp [AgentGuard.recipientDemand, h.2.1 r]

theorem ParsedCall.Idle.callDemand (h : c.Idle) :
    callDemand cfg (calls ++ [c]) = AgentGuard.callDemand cfg calls := by
  rw [callDemand_append]
  simp [AgentGuard.callDemand, h.2.2]

theorem ParsedCall.Idle.fits (h : c.Idle) (hfits : Fits cfg l calls) :
    Fits cfg l (calls ++ [c]) where
  global := by rw [h.globalDemand]; exact hfits.global
  recipient r := by rw [h.recipientDemand r]; exact hfits.recipient r
  calls := by rw [h.callDemand]; exact hfits.calls

theorem ParsedCall.Idle.staged (h : c.Idle) (hst : Staged cfg now calls st) :
    Staged cfg now (calls ++ [c]) st where
  pending := by rw [h.globalDemand]; exact hst.pending
  instant := hst.instant
  admission := by rw [h.globalDemand]; exact hst.admission
  nodup := hst.nodup
  parallel := hst.parallel
  staged r := by rw [h.recipientDemand]; exact hst.staged r
  positive r hr := by rw [h.recipientDemand]; exact hst.positive r hr
  calls := by rw [h.callDemand]; exact hst.calls

/-- **One call, seen from the loop**: it passes when it is permitted and the demand still fits, and
then the staging holds it too. -/
def CallSpec (cfg : PolicyConfig) (l : Ledger) (now : U64) (calls : List ParsedCall)
    (c : ParsedCall) (result : Decision × Staging) : Prop :=
  (result.1.isAllowed = true ↔ Permitted cfg c ∧ Fits cfg l (calls ++ [c])) ∧
    (result.1.isAllowed = true → Staged cfg now (calls ++ [c]) result.2)

theorem callSpec_blocked {e : Error} (h : ¬Permitted cfg c) :
    CallSpec cfg l now calls c (.blocked e, st) := by
  simp [CallSpec, Decision.isAllowed, h]

theorem callSpec_idle (hidle : c.Idle) (hperm : Permitted cfg c) (hst : Staged cfg now calls st)
    (hfits : Fits cfg l calls) : CallSpec cfg l now calls c (.allowed, st) := by
  simp [CallSpec, Decision.isAllowed, hperm, hidle.fits hfits, hidle.staged hst]

/-- **An allowed call takes the loop's invariant one call further.** -/
theorem CallSpec.extends {result : Decision × Staging} (h : CallSpec cfg l now calls c result)
    (hperm : ∀ c ∈ calls, Permitted cfg c) (hall : result.1.isAllowed = true) :
    Staged cfg now (calls ++ [c]) result.2 ∧ (∀ c' ∈ calls ++ [c], Permitted cfg c') ∧
      Fits cfg l (calls ++ [c]) := by
  obtain ⟨hp, hf⟩ := h.1.mp hall
  exact ⟨h.2 hall, List.forall_mem_append.mpr ⟨hperm, List.forall_mem_singleton.mpr hp⟩, hf⟩

/-- What a transfer that breaks a rule of its own is blocked for. -/
def transferErrors : List Error :=
  [.assetNotAllowed, .invalidAmount, .recipientBlocked, .recipientNotAllowed, .perTxCapExceeded]

/-- **A transfer that breaks a rule of its own** is blocked, and stages nothing. -/
theorem evalTransfer_refused {asset dest : Address} {amount : I128} (l : Ledger) (now : U64)
    (st : Staging) (h : ¬Permitted cfg (.assetTransfer asset dest amount)) :
    ∃ e ∈ transferErrors, evalTransfer cfg l now st asset dest amount = (.blocked e, st) := by
  rw [evalTransfer]
  split_ifs with hpaused hamount hblocked hrecip hcap
  · exact ⟨_, by simp [transferErrors], rfl⟩
  · exact ⟨_, by simp [transferErrors], rfl⟩
  · exact ⟨_, by simp [transferErrors], rfl⟩
  · exact ⟨_, by simp [transferErrors], rfl⟩
  · exact ⟨_, by simp [transferErrors], rfl⟩
  refine absurd ⟨by simpa using hpaused, by omega, hblocked, ?_, fun cap hc => ?_⟩ h
  · by_contra hno
    simp_all
  · by_contra hgt
    exact hcap ((Option.any_eq_true ..).mpr ⟨cap, hc, by simpa using hgt⟩)

/-- One that keeps them is up to the window rule. -/
theorem evalTransfer_of_permitted {asset dest : Address} {amount : I128}
    (h : Permitted cfg (.assetTransfer asset dest amount)) :
    evalTransfer cfg l now st asset dest amount = evalWindow cfg l now st dest amount := by
  obtain ⟨hpaused, hamount, hblocked, hrecip, hcap⟩ := h
  have hany : ((effectivePerTxCap cfg asset).any fun cap => amount.val > cap.val) = false := by
    rw [Option.any_eq_false]
    intro cap hc
    simpa using hcap cap hc
  rw [evalTransfer, if_neg (by simp [hpaused]), if_neg (by omega), if_neg hblocked, if_neg,
    hany, if_neg (by simp)]
  rcases hrecip with hr | hr <;> simp [hr]

/-- The rules of a transfer. -/
theorem evalTransfer_spec (hst : Staged cfg now calls st)
    (hperm : ∀ c ∈ calls, Permitted cfg c) (hfits : Fits cfg l calls) (hl : 0 ≤ l.total.val)
    (hm : ∀ r, 0 ≤ (l.meter r).total.val) (asset dest : Address) (amount : I128) :
    CallSpec cfg l now calls (.assetTransfer asset dest amount)
      (evalTransfer cfg l now st asset dest amount) := by
  have hgn := globalDemand_nonneg hperm
  have hrn := recipientDemand_nonneg hperm
  by_cases hp : Permitted cfg (.assetTransfer asset dest amount)
  · have hiff := windowRoom_iff asset dest hst hp.2.1 hrn hgn hfits
    rw [evalTransfer_of_permitted hp, evalWindow_eq (by rw [hst.pending]; exact hgn) hst.parallel
      (by rw [hst.staged]; exact hrn dest) hp.2.1.le]
    split_ifs with hroom
    · exact ⟨by simp [Decision.isAllowed, hp, hiff.mp hroom],
        fun _ => hst.transfer hp.2.1 hl (hm dest) hrn hroom⟩
    · simp [CallSpec, Decision.isAllowed, mt hiff.mpr hroom]
  · obtain ⟨e, -, he⟩ := evalTransfer_refused l now st hp
    rw [he]
    exact callSpec_blocked hp

theorem callDemand_protocol (cfg : PolicyConfig) (calls : List ParsedCall) (contract : Address)
    (fname : Symbol) :
    callDemand cfg (calls ++ [.protocol contract fname])
      = callDemand cfg calls + if 0 < cfg.protocolCallsPerWindow.val then 1 else 0 := by
  rw [callDemand_append]
  simp [callDemand, ParsedCall.protocolCalls]

theorem globalDemand_protocol (cfg : PolicyConfig) (calls : List ParsedCall) (contract : Address)
    (fname : Symbol) :
    globalDemand cfg (calls ++ [.protocol contract fname]) = globalDemand cfg calls := by
  rw [globalDemand_append]
  simp [globalDemand, ParsedCall.spend]

theorem recipientDemand_protocol (cfg : PolicyConfig) (calls : List ParsedCall)
    (contract : Address) (fname : Symbol) (r : Address) :
    recipientDemand cfg r (calls ++ [.protocol contract fname]) = recipientDemand cfg r calls := by
  rw [recipientDemand_append]
  simp [recipientDemand, ParsedCall.spendTo]

/-- **A protocol call fits when the counter has room for one more.** -/
theorem fits_protocol_iff (hfits : Fits cfg l calls) (contract : Address) (fname : Symbol) :
    Fits cfg l (calls ++ [.protocol contract fname]) ↔ (0 < cfg.protocolCallsPerWindow.val →
      min u32.hi (l.protocolCallTotal.val + callDemand cfg calls + 1)
        ≤ cfg.protocolCallsPerWindow.val) := by
  have hcn := callDemand_nonneg cfg calls
  have hcall := callDemand_protocol cfg calls contract fname
  refine ⟨fun h hlimit => ?_, fun h => ⟨?_, fun r => ?_, fun hpos => ?_⟩⟩
  · rw [if_pos hlimit] at hcall
    have := h.calls (by omega)
    rw [hcall] at this
    omega
  · rw [globalDemand_protocol]
    exact hfits.global
  · rw [recipientDemand_protocol]
    exact hfits.recipient r
  · by_cases hlimit : 0 < cfg.protocolCallsPerWindow.val
    · have := h hlimit
      rw [if_pos hlimit] at hcall
      rw [hcall]
      omega
    · rw [callDemand, if_neg hlimit] at hpos
      omega

/-- Staging a protocol call touches the counter only. -/
theorem Staged.protocol (hst : Staged cfg now calls st) (contract : Address) (fname : Symbol)
    {pendingProtocolCalls : U32} (h : pendingProtocolCalls.val
      = min u32.hi (callDemand cfg (calls ++ [.protocol contract fname]))) :
    Staged cfg now (calls ++ [.protocol contract fname]) { st with pendingProtocolCalls } where
  pending := by rw [globalDemand_protocol]; exact hst.pending
  instant := hst.instant
  admission := by rw [globalDemand_protocol]; exact hst.admission
  nodup := hst.nodup
  parallel := hst.parallel
  staged r := by rw [recipientDemand_protocol]; exact hst.staged r
  positive r hr := by rw [recipientDemand_protocol]; exact hst.positive r hr
  calls := h

/-- The rate rule reads the counter and what is staged, up to saturation. -/
theorem val_projectedCalls (hst : Staged cfg now calls st) :
    ((l.protocolCallTotal.saturatingAdd st.pendingProtocolCalls).saturatingAdd 1).val
      = min u32.hi (l.protocolCallTotal.val + callDemand cfg calls + 1) := by
  have hcn := callDemand_nonneg cfg calls
  have htn := l.protocolCallTotal.nonneg
  rw [BoundedInt.val_saturatingAdd_of_nonneg _ (by simp),
    BoundedInt.val_saturatingAdd_of_nonneg _ (U32.nonneg _), hst.calls, U32.val_one]
  omega

/-- The rules of a protocol call. -/
theorem evalProtocol_spec (hst : Staged cfg now calls st) (hfits : Fits cfg l calls)
    (contract : Address) (fname : Symbol) :
    CallSpec cfg l now calls (.protocol contract fname)
      (evalProtocol cfg l st contract fname) := by
  have hcn := callDemand_nonneg cfg calls
  have hcall := callDemand_protocol cfg calls contract fname
  have hiff := fits_protocol_iff hfits contract fname
  rw [evalProtocol]
  cases hrule : cfg.protocols.find? fun rule => rule.contract = contract with
  | none => exact callSpec_blocked fun ⟨rule, hr, _⟩ => by simp [hrule] at hr
  | some rule =>
    have hperm : Permitted cfg (.protocol contract fname)
        ↔ rule.paused = false ∧ ∀ fns ∈ rule.fns, fname ∈ fns := by
      simp [Permitted, hrule]
    dsimp only
    rw [val_projectedCalls hst]
    split_ifs with hpaused hfn hlimit hover
    · exact callSpec_blocked fun h => by simp [(hperm.mp h).1] at hpaused
    · refine callSpec_blocked fun h => ?_
      cases hopt : rule.fns with
      | none => simp [hopt] at hfn
      | some fns => simp [hopt, (hperm.mp h).2 fns hopt] at hfn
    all_goals
      have hp : Permitted cfg (.protocol contract fname) := by
        refine hperm.mpr ⟨by simpa using hpaused, fun fns hopt => ?_⟩
        rw [Option.mem_def] at hopt
        simpa [hopt] using hfn
    · have hno : ¬Fits cfg l (calls ++ [.protocol contract fname]) := fun h => by
        have := hiff.mp h hlimit
        omega
      simp [CallSpec, Decision.isAllowed, hno]
    · have hyes := hiff.mpr fun _ => not_lt.mp hover
      refine ⟨by simp [Decision.isAllowed, hp, hyes], fun _ => hst.protocol contract fname ?_⟩
      rw [if_pos hlimit] at hcall
      rw [BoundedInt.val_saturatingAdd_of_nonneg _ (by simp), hst.calls, hcall, U32.val_one]
      omega
    · have hyes := hiff.mpr fun h => absurd h hlimit
      refine ⟨by simp [Decision.isAllowed, hp, hyes], fun _ => hst.protocol contract fname ?_⟩
      rw [hcall, if_neg hlimit, add_zero]
      exact hst.calls

/-- **One call.** -/
theorem evalCall_spec (hst : Staged cfg now calls st) (hperm : ∀ c ∈ calls, Permitted cfg c)
    (hfits : Fits cfg l calls) (hl : 0 ≤ l.total.val) (hm : ∀ r, 0 ≤ (l.meter r).total.val)
    (c : ParsedCall) : CallSpec cfg l now calls c (evalCall cfg l now st c) := by
  cases c with
  | selfCall fname =>
    rw [evalCall]
    split_ifs with hname
    · exact callSpec_idle ⟨rfl, fun _ => rfl, rfl⟩ hname hst hfits
    · exact callSpec_blocked hname
  | createContract => exact callSpec_blocked fun h => h
  | unknown contract fname => exact callSpec_blocked fun h => h
  | assetOther asset fname =>
    rw [evalCall]
    split_ifs <;> exact callSpec_blocked fun h => h
  | assetTransfer asset dest amount =>
    exact evalTransfer_spec hst hperm hfits hl hm asset dest amount
  | protocol contract fname => exact evalProtocol_spec hst hfits contract fname

/-! ## The loop -/

/-- **The loop grants a request exactly when every call is permitted and every demand fits**, and
then the staging holds the whole request. -/
theorem evalContexts_spec (self : Address) (contexts : List Context) :
    ∀ {calls : List ParsedCall} {st : Staging}, Staged cfg now calls st →
      (∀ c ∈ calls, Permitted cfg c) → Fits cfg l calls → 0 ≤ l.total.val →
      (∀ r, 0 ≤ (l.meter r).total.val) →
      let rest := contexts.map fun ctx => parseCall self ctx cfg
      let result := evalContexts self cfg l now st contexts
      (result.1.all Decision.isAllowed = true
          ↔ (∀ c ∈ rest, Permitted cfg c) ∧ Fits cfg l (calls ++ rest)) ∧
        (result.1.all Decision.isAllowed = true → Staged cfg now (calls ++ rest) result.2) := by
  induction contexts with
  | nil =>
    intro calls st hst _ hfits _ _
    simp [evalContexts, hfits, hst]
  | cons ctx contexts ih =>
    intro calls st hst hperm hfits hl hm
    have hspec := evalCall_spec hst hperm hfits hl hm (parseCall self ctx cfg)
    simp only [evalContexts, List.map_cons, List.all_cons, Bool.and_eq_true, List.forall_mem_cons]
    by_cases hall : (evalCall cfg l now st (parseCall self ctx cfg)).1.isAllowed = true
    · obtain ⟨hst', hperm', hfits'⟩ := hspec.extends hperm hall
      have hp := (hspec.1.mp hall).1
      have hrest := ih hst' hperm' hfits' hl hm
      simp only [List.append_assoc, List.singleton_append] at hrest
      exact ⟨by simp [hall, hp, hrest.1], fun h => hrest.2 h.2⟩
    · refine ⟨⟨fun h => absurd h.1 hall, fun h => absurd (hspec.1.mpr ⟨h.1.1, ?_⟩) hall⟩,
        fun h => absurd h.1 hall⟩
      have hwhole : Fits cfg l ((calls ++ [parseCall self ctx cfg])
          ++ contexts.map fun ctx => parseCall self ctx cfg) := by simpa using h.2
      exact hwhole.of_append h.1.2

end

end AgentGuard
