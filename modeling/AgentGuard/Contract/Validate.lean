import AgentGuard.Contract.Engine

/-!
# Contract/Validate — the policy validator of `set_policy`

`first_failing_rule` of `lib.rs`: the rules in their documented order, each list scanned as the code
scans it.
-/

namespace AgentGuard

open Machinery

/-- Whether two positions of the list hold the same item. -/
def hasDup {α : Type} [DecidableEq α] : List α → Bool
  | [] => false
  | a :: rest => decide (a ∈ rest) || hasDup rest

/-- Recipient cap rules: duplicates first, then each entry in turn. -/
def firstFailingRecipientCapRule (cfg : PolicyConfig) (self : Address) : Option PolicyRuleId :=
  if hasDup (cfg.recipientWindowCaps.map RecipientCap.recipient) then
    some .duplicateRecipientCap
  else
    cfg.recipientWindowCaps.findSome? fun rc =>
      if rc.cap.val < 0 then some .recipientCapSign
      else if 0 < rc.cap.val ∧ cfg.windowSecs.val = 0 then some .windowRequiresWidth
      else if rc.recipient = self then some .selfAddressInList
      else none

/-- Per-asset cap rules: each entry in turn, then duplicates. -/
def firstFailingAssetCapRule (cfg : PolicyConfig) (self : Address) : Option PolicyRuleId :=
  (cfg.assetCaps.findSome? fun ac =>
      if ac.perTxCap.val < 0 then some PolicyRuleId.amountSign
      else if ac.asset = self then some .selfAddressInList
      else if ac.asset ∉ cfg.assets then some .assetCapUnknownAsset
      else none).or
    (if hasDup (cfg.assetCaps.map AssetCap.asset) then some .duplicateAssetCap else none)

/-- The protocol scan, accumulating the contracts seen so far. -/
def firstFailingProtocolRule (contracts : List Address) : List ProtocolRule → Option PolicyRuleId
  | [] => none
  | pr :: rest =>
    if pr.contract ∈ contracts then some .protocolContractDuplicate
    else if pr.fns.any fun fns => fns.isEmpty || hasDup fns then some .protocolFnListInvalid
    else firstFailingProtocolRule (contracts ++ [pr.contract]) rest

/-- `if cond { return Err(rule) }`. -/
def reject (cond : Prop) [Decidable cond] (rule : PolicyRuleId) : Except PolicyRuleId Unit :=
  if cond then .error rule else .ok ()

/-- `if let Some(rule) = found { return Err(rule) }`. -/
def rejectFound : Option PolicyRuleId → Except PolicyRuleId Unit
  | some rule => .error rule
  | none => .ok ()

/-- The first rule a candidate policy breaks. -/
def firstFailingRule (self : Address) (cfg : PolicyConfig) : Except PolicyRuleId Unit := do
  reject (cfg.assets.length > maxPolicyAssets) .assetListTooLong
  reject (cfg.protocols.length > maxPolicyProtocols) .protocolListTooLong
  reject (cfg.recipients.length > maxRecipientEntries ∨
    cfg.recipientWindowCaps.length > maxRecipientEntries ∨
    cfg.blockedRecipients.length > maxRecipientEntries) .recipientListTooLong
  reject (cfg.assetCaps.length > maxAssetCapEntries) .assetCapListTooLong
  reject (cfg.perTxCap.val < 0 ∨ cfg.windowCap.val < 0) .amountSign
  reject (0 < cfg.windowCap.val ∧ cfg.windowSecs.val = 0) .windowRequiresWidth
  reject (0 < cfg.perTxCap.val ∧ 0 < cfg.windowCap.val ∧ cfg.perTxCap.val > cfg.windowCap.val)
    .perTxCapExceedsWindowCap
  reject (cfg.activeUntil.val ≠ 0 ∧ cfg.activeUntil.val ≤ cfg.activeFrom.val) .activeWindowOrder
  reject (self ∈ cfg.assets) .selfAddressInList
  reject (∃ pr ∈ cfg.protocols, pr.contract = self) .selfAddressInList
  reject (self ∈ cfg.recipients ∨ self ∈ cfg.blockedRecipients) .selfAddressInList
  reject (hasDup cfg.assets ∨ hasDup cfg.recipients ∨ hasDup cfg.blockedRecipients)
    .duplicateAddressInList
  rejectFound (firstFailingRecipientCapRule cfg self)
  rejectFound (firstFailingAssetCapRule cfg self)
  reject (∃ recipient ∈ cfg.recipients, recipient ∈ cfg.blockedRecipients)
    .recipientAllowAndBlocked
  rejectFound (firstFailingProtocolRule [] cfg.protocols)
  reject (cfg.windowSecs.val > maxWindowSecs ∨ cfg.dmsGraceSecs.val > maxDmsGraceSecs)
    .durationExceedsBound

/-- The gate of `set_policy`: every failing rule is one `InvalidConfig`. -/
def validateConfig (self : Address) (cfg : PolicyConfig) : Except Error Unit :=
  match firstFailingRule self cfg with
  | .ok () => .ok ()
  | .error _ => .error .invalidConfig

/-! ## What an accepted policy satisfies -/

@[simp] theorem hasDup_eq_false_iff {α : Type} [DecidableEq α] {l : List α} :
    hasDup l = false ↔ l.Nodup := by
  induction l with
  | nil => simp [hasDup]
  | cons a l ih => simp [hasDup, ih]

theorem nodup_of_firstFailingProtocolRule {contracts : List Address} {rules : List ProtocolRule}
    (h : firstFailingProtocolRule contracts rules = none) :
    (rules.map ProtocolRule.contract).Nodup ∧ ∀ r ∈ rules, r.contract ∉ contracts := by
  induction rules generalizing contracts with
  | nil => simp
  | cons pr rest ih =>
    rw [firstFailingProtocolRule] at h
    split_ifs at h with hdup hfns
    obtain ⟨hnd, hout⟩ := ih h
    refine ⟨List.nodup_cons.mpr ⟨fun hmem => ?_, hnd⟩, fun r hr => ?_⟩
    · obtain ⟨r, hr, hrc⟩ := List.mem_map.mp hmem
      exact hout r hr (by simp [hrc])
    · rcases List.mem_cons.mp hr with rfl | hr
      · exact hdup
      · exact fun hc => hout r hr (List.mem_append_left _ hc)

@[simp] theorem reject_eq_ok {cond : Prop} [Decidable cond] {rule : PolicyRuleId} :
    reject cond rule = .ok () ↔ ¬cond := by
  rw [reject]
  split_ifs with h <;> simp [h]

@[simp] theorem rejectFound_eq_ok {found : Option PolicyRuleId} :
    rejectFound found = .ok () ↔ found = none := by cases found <;> simp [rejectFound]

/-- **A chain of rejections passes when each of them does.** -/
@[simp] theorem bind_eq_ok_unit {ε : Type} {x y : Except ε Unit} :
    (x >>= fun _ => y) = .ok () ↔ x = .ok () ∧ y = .ok () := by
  cases x with
  | error e => simp [bind, Except.bind]
  | ok u => simp [bind, Except.bind]

/-- **The facts of an accepted policy the decision engine relies on.** -/
structure PolicyConfig.Accepted (account : Address) (cfg : PolicyConfig) : Prop where
  windowCap_nonneg : 0 ≤ cfg.windowCap.val
  windowSecs_of_windowCap : 0 < cfg.windowCap.val → 0 < cfg.windowSecs.val
  windowSecs_of_recipientCap : ∀ rc ∈ cfg.recipientWindowCaps, 0 < rc.cap.val →
    0 < cfg.windowSecs.val
  windowSecs_le : cfg.windowSecs.val ≤ maxWindowSecs
  self_notMem_assets : account ∉ cfg.assets
  self_ne_protocol : ∀ r ∈ cfg.protocols, r.contract ≠ account
  recipientCaps_nodup : (cfg.recipientWindowCaps.map RecipientCap.recipient).Nodup
  assetCaps_nodup : (cfg.assetCaps.map AssetCap.asset).Nodup
  protocols_nodup : (cfg.protocols.map ProtocolRule.contract).Nodup

theorem firstFailingRule_of_validateConfig {self : Address} {cfg : PolicyConfig}
    (h : validateConfig self cfg = .ok ()) : firstFailingRule self cfg = .ok () := by
  rw [validateConfig] at h
  split at h
  · assumption
  · exact absurd h (by simp)

/-- What passing the recipient cap scan says. -/
theorem of_firstFailingRecipientCapRule {cfg : PolicyConfig} {self : Address}
    (h : firstFailingRecipientCapRule cfg self = none) :
    (cfg.recipientWindowCaps.map RecipientCap.recipient).Nodup ∧
      ∀ rc ∈ cfg.recipientWindowCaps, 0 ≤ rc.cap.val ∧
        (0 < rc.cap.val → cfg.windowSecs.val ≠ 0) ∧ rc.recipient ≠ self := by
  rw [firstFailingRecipientCapRule] at h
  split_ifs at h with hdup
  refine ⟨hasDup_eq_false_iff.mp (by simpa using hdup), fun rc hrc => ?_⟩
  have := List.findSome?_eq_none_iff.mp h rc hrc
  split_ifs at this with h1 h2 h3
  exact ⟨not_lt.mp h1, fun hpos hz => h2 ⟨hpos, hz⟩, h3⟩

/-- What passing the asset cap scan says. -/
theorem of_firstFailingAssetCapRule {cfg : PolicyConfig} {self : Address}
    (h : firstFailingAssetCapRule cfg self = none) :
    (cfg.assetCaps.map AssetCap.asset).Nodup ∧
      ∀ ac ∈ cfg.assetCaps, 0 ≤ ac.perTxCap.val ∧ ac.asset ≠ self ∧ ac.asset ∈ cfg.assets := by
  rw [firstFailingAssetCapRule, Option.or_eq_none_iff] at h
  refine ⟨hasDup_eq_false_iff.mp (by simpa using h.2), fun ac hac => ?_⟩
  have := List.findSome?_eq_none_iff.mp h.1 ac hac
  split_ifs at this with h1 h2 h3
  exact ⟨not_lt.mp h1, h2, h3⟩

/-- **`validate_config` accepts only such policies.** -/
theorem accepted_of_validateConfig {self : Address} {cfg : PolicyConfig}
    (h : validateConfig self cfg = .ok ()) : cfg.Accepted self := by
  have hrule := firstFailingRule_of_validateConfig h
  simp only [firstFailingRule, bind_eq_ok_unit, reject_eq_ok, rejectFound_eq_ok] at hrule
  obtain ⟨-, -, -, -, hsign, hwidth, -, -, hassets, hprot, -, -, hrc, hac, -, hpr, hdur⟩ := hrule
  have hsecs := cfg.windowSecs.nonneg
  obtain ⟨hrcNodup, hrcs⟩ := of_firstFailingRecipientCapRule hrc
  refine ⟨by omega, fun hpos => ?_, fun rc hmem hpos => ?_, by omega, hassets,
    fun r hr hself => hprot ⟨r, hr, hself⟩, hrcNodup, (of_firstFailingAssetCapRule hac).1,
    (nodup_of_firstFailingProtocolRule hpr).1⟩
  · have : cfg.windowSecs.val ≠ 0 := fun hz => hwidth ⟨hpos, hz⟩
    omega
  · have := (hrcs rc hmem).2.1 hpos
    omega

/-- **The validator does not read `paused`**, so flipping it keeps a policy accepted. -/
theorem validateConfig_paused (self : Address) (cfg : PolicyConfig) (paused : Bool) :
    validateConfig self { cfg with paused } = validateConfig self cfg := rfl

/-! ## Recipient overrides -/

/-- The first positive override of a recipient is the only one. -/
theorem recipientOverrideCap_of_mem {cfg : PolicyConfig} {self : Address} (h : cfg.Accepted self)
    {rc : RecipientCap} (hmem : rc ∈ cfg.recipientWindowCaps) (hpos : 0 < rc.cap.val) :
    recipientOverrideCap cfg rc.recipient = some rc.cap := by
  rw [recipientOverrideCap]
  refine Option.map_eq_some_iff.mpr ⟨rc, ?_, rfl⟩
  exact (find?_eq_some_iff_of_nodup (fun _ hx => (of_decide_eq_true hx).1)
    h.recipientCaps_nodup).mpr ⟨hmem, decide_eq_true ⟨rfl, hpos⟩⟩

/-- An override cap is an entry of the policy, and a positive one. -/
theorem mem_of_recipientOverrideCap {cfg : PolicyConfig} {r : Address} {cap : I128}
    (h : recipientOverrideCap cfg r = some cap) :
    ⟨r, cap⟩ ∈ cfg.recipientWindowCaps ∧ 0 < cap.val := by
  rw [recipientOverrideCap, Option.map_eq_some_iff] at h
  obtain ⟨rc, hrc, rfl⟩ := h
  have hfound := List.find?_some hrc
  rw [decide_eq_true_eq] at hfound
  obtain ⟨rfl, hpos⟩ := hfound
  exact ⟨List.mem_of_find?_eq_some hrc, hpos⟩

end AgentGuard
