import AgentGuard.Contract.Events

/-!
# Contract/WellFormed — the validator accepts exactly the well-formed policies

`first_failing_rule` is a cascade of early returns over nested loops.  `WellFormed` says what it
checks without saying how; `Violates` says what each rule identifier stands for.
-/

namespace AgentGuard

open Machinery

/-- **A well-formed policy** for the account at `account`. -/
structure PolicyConfig.WellFormed (account : Address) (cfg : PolicyConfig) : Prop where
  assets_length : cfg.assets.length ≤ 256
  protocols_length : cfg.protocols.length ≤ 256
  recipients_length : cfg.recipients.length ≤ 256
  recipientWindowCaps_length : cfg.recipientWindowCaps.length ≤ 256
  blockedRecipients_length : cfg.blockedRecipients.length ≤ 256
  assetCaps_length : cfg.assetCaps.length ≤ 256
  perTxCap_nonneg : 0 ≤ cfg.perTxCap.val
  windowCap_nonneg : 0 ≤ cfg.windowCap.val
  recipientCap_nonneg : ∀ rc ∈ cfg.recipientWindowCaps, 0 ≤ rc.cap.val
  assetCap_nonneg : ∀ ac ∈ cfg.assetCaps, 0 ≤ ac.perTxCap.val
  width : (0 < cfg.windowCap.val ∨ ∃ rc ∈ cfg.recipientWindowCaps, 0 < rc.cap.val) →
    0 < cfg.windowSecs.val
  perTxCap_le : 0 < cfg.perTxCap.val → 0 < cfg.windowCap.val →
    cfg.perTxCap.val ≤ cfg.windowCap.val
  active : cfg.activeUntil.val = 0 ∨ cfg.activeFrom.val < cfg.activeUntil.val
  self_assets : account ∉ cfg.assets
  self_protocols : account ∉ cfg.protocols.map ProtocolRule.contract
  self_recipients : account ∉ cfg.recipients
  self_blocked : account ∉ cfg.blockedRecipients
  self_recipientCaps : account ∉ cfg.recipientWindowCaps.map RecipientCap.recipient
  self_assetCaps : account ∉ cfg.assetCaps.map AssetCap.asset
  assets_nodup : cfg.assets.Nodup
  recipients_nodup : cfg.recipients.Nodup
  blocked_nodup : cfg.blockedRecipients.Nodup
  protocols_nodup : (cfg.protocols.map ProtocolRule.contract).Nodup
  recipientCaps_nodup : (cfg.recipientWindowCaps.map RecipientCap.recipient).Nodup
  assetCaps_nodup : (cfg.assetCaps.map AssetCap.asset).Nodup
  assetCaps_known : ∀ ac ∈ cfg.assetCaps, ac.asset ∈ cfg.assets
  disjoint : ∀ r ∈ cfg.recipients, r ∉ cfg.blockedRecipients
  fns : ∀ pr ∈ cfg.protocols, ∀ fns, pr.fns = some fns → fns ≠ [] ∧ fns.Nodup
  windowSecs_le : cfg.windowSecs.val ≤ 315360000
  dmsGraceSecs_le : cfg.dmsGraceSecs.val ≤ 315360000

/-- **What a rule identifier says of a rejected policy.** -/
def PolicyConfig.Violates (account : Address) (cfg : PolicyConfig) : PolicyRuleId → Prop
  | .assetListTooLong => 256 < cfg.assets.length
  | .protocolListTooLong => 256 < cfg.protocols.length
  | .recipientListTooLong => 256 < cfg.recipients.length ∨ 256 < cfg.recipientWindowCaps.length ∨
      256 < cfg.blockedRecipients.length
  | .assetCapListTooLong => 256 < cfg.assetCaps.length
  | .amountSign => cfg.perTxCap.val < 0 ∨ cfg.windowCap.val < 0 ∨
      ∃ ac ∈ cfg.assetCaps, ac.perTxCap.val < 0
  | .windowRequiresWidth => cfg.windowSecs.val = 0 ∧
      (0 < cfg.windowCap.val ∨ ∃ rc ∈ cfg.recipientWindowCaps, 0 < rc.cap.val)
  | .perTxCapExceedsWindowCap => 0 < cfg.perTxCap.val ∧ 0 < cfg.windowCap.val ∧
      cfg.windowCap.val < cfg.perTxCap.val
  | .activeWindowOrder => cfg.activeUntil.val ≠ 0 ∧ cfg.activeUntil.val ≤ cfg.activeFrom.val
  | .selfAddressInList => account ∈ cfg.assets ∨
      account ∈ cfg.protocols.map ProtocolRule.contract ∨ account ∈ cfg.recipients ∨
      account ∈ cfg.blockedRecipients ∨
      account ∈ cfg.recipientWindowCaps.map RecipientCap.recipient ∨
      account ∈ cfg.assetCaps.map AssetCap.asset
  | .duplicateAddressInList => ¬cfg.assets.Nodup ∨ ¬cfg.recipients.Nodup ∨
      ¬cfg.blockedRecipients.Nodup
  | .duplicateRecipientCap => ¬(cfg.recipientWindowCaps.map RecipientCap.recipient).Nodup
  | .recipientCapSign => ∃ rc ∈ cfg.recipientWindowCaps, rc.cap.val < 0
  | .recipientAllowAndBlocked => ∃ r ∈ cfg.recipients, r ∈ cfg.blockedRecipients
  | .protocolContractDuplicate => ¬(cfg.protocols.map ProtocolRule.contract).Nodup
  | .protocolFnListInvalid =>
      ∃ pr ∈ cfg.protocols, ∃ fns, pr.fns = some fns ∧ (fns = [] ∨ ¬fns.Nodup)
  | .durationExceedsBound => 315360000 < cfg.windowSecs.val ∨ 315360000 < cfg.dmsGraceSecs.val
  | .assetCapUnknownAsset => ∃ ac ∈ cfg.assetCaps, ac.asset ∉ cfg.assets
  | .duplicateAssetCap => ¬(cfg.assetCaps.map AssetCap.asset).Nodup

/-! ## The cascade -/

section

variable {self : Address} {cfg : PolicyConfig} {rule : PolicyRuleId}

theorem hasDup_eq_true_iff {α : Type} [DecidableEq α] {l : List α} :
    hasDup l = true ↔ ¬l.Nodup := by
  rw [← hasDup_eq_false_iff, Bool.not_eq_false]

@[simp] theorem reject_eq_error {cond : Prop} [Decidable cond] {r : PolicyRuleId} :
    reject cond r = .error rule ↔ cond ∧ r = rule := by
  rw [reject]
  split_ifs with h <;> simp [h]

@[simp] theorem rejectFound_eq_error {found : Option PolicyRuleId} :
    rejectFound found = .error rule ↔ found = some rule := by cases found <;> simp [rejectFound]

/-- **A chain of rejections stops at the first one.** -/
@[simp] theorem bind_eq_error_unit {ε : Type} {x y : Except ε Unit} {e : ε} :
    (x >>= fun _ => y) = .error e ↔ x = .error e ∨ x = .ok () ∧ y = .error e := by
  cases x with
  | error e' => simp [bind, Except.bind]
  | ok u => simp [bind, Except.bind]

/-! ### The scans -/

/-- The recipient cap scan finds a violation of the rule it names. -/
theorem violates_of_recipientCapRule (h : firstFailingRecipientCapRule cfg self = some rule) :
    cfg.Violates self rule := by
  rw [firstFailingRecipientCapRule] at h
  split_ifs at h with hdup
  · obtain rfl := Option.some.inj h
    exact hasDup_eq_true_iff.mp hdup
  · obtain ⟨rc, hrc, hfound⟩ := List.exists_of_findSome?_eq_some h
    split_ifs at hfound with hsign hwidth hself
    · obtain rfl := Option.some.inj hfound
      exact ⟨rc, hrc, hsign⟩
    · obtain rfl := Option.some.inj hfound
      exact ⟨hwidth.2, .inr ⟨rc, hrc, hwidth.1⟩⟩
    · obtain rfl := Option.some.inj hfound
      have hmem : self ∈ cfg.recipientWindowCaps.map RecipientCap.recipient :=
        List.mem_map.mpr ⟨rc, hrc, hself⟩
      simp [PolicyConfig.Violates, hmem]

/-- So does the asset cap scan. -/
theorem violates_of_assetCapRule (h : firstFailingAssetCapRule cfg self = some rule) :
    cfg.Violates self rule := by
  rw [firstFailingAssetCapRule, Option.or_eq_some_iff] at h
  rcases h with h | ⟨-, h⟩
  · obtain ⟨ac, hac, hfound⟩ := List.exists_of_findSome?_eq_some h
    split_ifs at hfound with hsign hself hknown
    · obtain rfl := Option.some.inj hfound
      exact .inr (.inr ⟨ac, hac, hsign⟩)
    · obtain rfl := Option.some.inj hfound
      have hmem : self ∈ cfg.assetCaps.map AssetCap.asset := List.mem_map.mpr ⟨ac, hac, hself⟩
      simp [PolicyConfig.Violates, hmem]
    · obtain rfl := Option.some.inj hfound
      exact ⟨ac, hac, hknown⟩
  · split_ifs at h with hdup
    obtain rfl := Option.some.inj h
    exact hasDup_eq_true_iff.mp hdup

theorem any_fns_iff {pr : ProtocolRule} :
    (pr.fns.any fun fns => fns.isEmpty || hasDup fns) = true
      ↔ ∃ fns, pr.fns = some fns ∧ (fns = [] ∨ ¬fns.Nodup) := by
  rw [Option.any_eq_true]
  simp [hasDup_eq_true_iff, List.isEmpty_iff]

/-- The protocol scan finds a contract seen before, or a bad function list. -/
theorem of_firstFailingProtocolRule {contracts : List Address} {rules : List ProtocolRule}
    (h : firstFailingProtocolRule contracts rules = some rule) :
    (rule = .protocolContractDuplicate ∧
        ¬(contracts ++ rules.map ProtocolRule.contract).Nodup) ∨
      (rule = .protocolFnListInvalid ∧
        ∃ pr ∈ rules, ∃ fns, pr.fns = some fns ∧ (fns = [] ∨ ¬fns.Nodup)) := by
  induction rules generalizing contracts with
  | nil => simp [firstFailingProtocolRule] at h
  | cons pr rest ih =>
    rw [firstFailingProtocolRule] at h
    split_ifs at h with hdup hfns
    · refine .inl ⟨(Option.some.inj h).symm, fun hnd => ?_⟩
      exact (List.nodup_append.mp hnd).2.2 _ hdup pr.contract (by simp) rfl
    · exact .inr ⟨(Option.some.inj h).symm, pr, List.mem_cons_self, any_fns_iff.mp hfns⟩
    · rcases ih h with ⟨hrule, hnot⟩ | ⟨hrule, pr', hpr', hbad⟩
      · exact .inl ⟨hrule, by simpa using hnot⟩
      · exact .inr ⟨hrule, pr', List.mem_cons_of_mem _ hpr', hbad⟩

theorem violates_of_protocolRule (h : firstFailingProtocolRule [] cfg.protocols = some rule) :
    cfg.Violates self rule := by
  rcases of_firstFailingProtocolRule h with ⟨rfl, hnot⟩ | ⟨rfl, hbad⟩
  · simpa [PolicyConfig.Violates] using hnot
  · exact hbad

/-- **A rejected policy violates the rule it is rejected for.** -/
theorem violates_of_firstFailingRule (h : firstFailingRule self cfg = .error rule) :
    cfg.Violates self rule := by
  simp only [firstFailingRule, bind_eq_error_unit, reject_eq_error, rejectFound_eq_error] at h
  rcases h with ⟨h, rfl⟩ | ⟨-, ⟨h, rfl⟩ | ⟨-, ⟨h, rfl⟩ | ⟨-, ⟨h, rfl⟩ | ⟨-, ⟨h, rfl⟩ |
    ⟨-, ⟨h, rfl⟩ | ⟨-, ⟨h, rfl⟩ | ⟨-, ⟨h, rfl⟩ | ⟨-, ⟨h, rfl⟩ | ⟨-, ⟨h, rfl⟩ | ⟨-, ⟨h, rfl⟩ |
    ⟨-, ⟨h, rfl⟩ | ⟨-, h | ⟨-, h | ⟨-, ⟨h, rfl⟩ | ⟨-, h | ⟨-, ⟨h, rfl⟩⟩⟩⟩⟩⟩⟩⟩⟩⟩⟩⟩⟩⟩⟩⟩⟩
  · exact h
  · exact h
  · exact h
  · exact h
  · exact h.elim .inl fun h => .inr (.inl h)
  · exact ⟨h.2, .inl h.1⟩
  · exact h
  · exact h
  · exact .inl h
  · exact .inr (.inl (List.mem_map.mpr h))
  · exact h.elim (fun h => .inr (.inr (.inl h))) fun h => .inr (.inr (.inr (.inl h)))
  · simpa [PolicyConfig.Violates, hasDup_eq_true_iff] using h
  · exact violates_of_recipientCapRule h
  · exact violates_of_assetCapRule h
  · exact h
  · exact violates_of_protocolRule h
  · exact h

/-- **A well-formed policy violates no rule.** -/
theorem PolicyConfig.WellFormed.not_violates (h : cfg.WellFormed self) (rule : PolicyRuleId) :
    ¬cfg.Violates self rule := by
  cases rule with
  | assetListTooLong => exact not_lt.mpr h.assets_length
  | protocolListTooLong => exact not_lt.mpr h.protocols_length
  | recipientListTooLong =>
    have := h.recipients_length
    have := h.recipientWindowCaps_length
    have := h.blockedRecipients_length
    simp only [Violates]
    omega
  | assetCapListTooLong => exact not_lt.mpr h.assetCaps_length
  | amountSign =>
    rintro (hneg | hneg | ⟨ac, hac, hneg⟩)
    · exact absurd hneg (not_lt.mpr h.perTxCap_nonneg)
    · exact absurd hneg (not_lt.mpr h.windowCap_nonneg)
    · exact absurd hneg (not_lt.mpr (h.assetCap_nonneg ac hac))
  | windowRequiresWidth => exact fun hv => (h.width hv.2).ne' hv.1
  | perTxCapExceedsWindowCap =>
    exact fun hv => absurd (h.perTxCap_le hv.1 hv.2.1) (not_le.mpr hv.2.2)
  | activeWindowOrder =>
    have := h.active
    simp only [Violates]
    omega
  | selfAddressInList =>
    rintro (hmem | hmem | hmem | hmem | hmem | hmem)
    · exact h.self_assets hmem
    · exact h.self_protocols hmem
    · exact h.self_recipients hmem
    · exact h.self_blocked hmem
    · exact h.self_recipientCaps hmem
    · exact h.self_assetCaps hmem
  | duplicateAddressInList =>
    rintro (hdup | hdup | hdup)
    · exact hdup h.assets_nodup
    · exact hdup h.recipients_nodup
    · exact hdup h.blocked_nodup
  | duplicateRecipientCap => exact fun hdup => hdup h.recipientCaps_nodup
  | recipientCapSign =>
    rintro ⟨rc, hrc, hneg⟩
    exact absurd hneg (not_lt.mpr (h.recipientCap_nonneg rc hrc))
  | recipientAllowAndBlocked => exact fun ⟨r, hr, hblocked⟩ => h.disjoint r hr hblocked
  | protocolContractDuplicate => exact fun hdup => hdup h.protocols_nodup
  | protocolFnListInvalid =>
    rintro ⟨pr, hpr, fns, hfns, hbad⟩
    obtain ⟨hne, hnd⟩ := h.fns pr hpr fns hfns
    exact hbad.elim hne fun hdup => hdup hnd
  | durationExceedsBound =>
    have := h.windowSecs_le
    have := h.dmsGraceSecs_le
    simp only [Violates]
    omega
  | assetCapUnknownAsset => exact fun ⟨ac, hac, hunknown⟩ => hunknown (h.assetCaps_known ac hac)
  | duplicateAssetCap => exact fun hdup => hdup h.assetCaps_nodup

/-- A passed protocol scan vouches for every function list. -/
theorem fns_of_firstFailingProtocolRule {contracts : List Address} {rules : List ProtocolRule}
    (h : firstFailingProtocolRule contracts rules = none) :
    ∀ pr ∈ rules, ∀ fns, pr.fns = some fns → fns ≠ [] ∧ fns.Nodup := by
  induction rules generalizing contracts with
  | nil => simp
  | cons pr rest ih =>
    rw [firstFailingProtocolRule] at h
    split_ifs at h with hdup hfns
    intro pr' hpr' fns hsome
    rcases List.mem_cons.mp hpr' with rfl | hpr'
    · by_contra hbad
      refine hfns (any_fns_iff.mpr ⟨fns, hsome, ?_⟩)
      by_cases hnil : fns = []
      · exact .inl hnil
      · exact .inr fun hnd => hbad ⟨hnil, hnd⟩
    · exact ih h pr' hpr' fns hsome

/-- **An accepted policy is well-formed.** -/
theorem wellFormed_of_firstFailingRule (h : firstFailingRule self cfg = .ok ()) :
    cfg.WellFormed self := by
  simp only [firstFailingRule, bind_eq_ok_unit, reject_eq_ok, rejectFound_eq_ok, not_or,
    Bool.not_eq_true, hasDup_eq_false_iff] at h
  obtain ⟨hassets, hprotocols, ⟨hrecipients, hcaps, hblocked⟩, hassetCaps, ⟨hperTx, hwindow⟩,
    hwidth, hle, hactive, hself, hselfProtocol, ⟨hselfRecipient, hselfBlocked⟩,
    ⟨hndAssets, hndRecipients, hndBlocked⟩, hrc, hac, hdisjoint, hpr, ⟨hsecs, hgrace⟩⟩ := h
  obtain ⟨hrcNodup, hrcs⟩ := of_firstFailingRecipientCapRule hrc
  obtain ⟨hacNodup, hacs⟩ := of_firstFailingAssetCapRule hac
  have hpos := cfg.windowSecs.nonneg
  exact {
    assets_length := not_lt.mp hassets
    protocols_length := not_lt.mp hprotocols
    recipients_length := not_lt.mp hrecipients
    recipientWindowCaps_length := not_lt.mp hcaps
    blockedRecipients_length := not_lt.mp hblocked
    assetCaps_length := not_lt.mp hassetCaps
    perTxCap_nonneg := not_lt.mp hperTx
    windowCap_nonneg := not_lt.mp hwindow
    recipientCap_nonneg := fun rc hmem => (hrcs rc hmem).1
    assetCap_nonneg := fun ac hmem => (hacs ac hmem).1
    width := by
      rintro (hcap | ⟨rc, hmem, hcap⟩)
      · have : cfg.windowSecs.val ≠ 0 := fun hz => hwidth ⟨hcap, hz⟩
        omega
      · have := (hrcs rc hmem).2.1 hcap
        omega
    perTxCap_le := fun h1 h2 => not_lt.mp fun h3 => hle ⟨h1, h2, h3⟩
    active := by omega
    self_assets := hself
    self_protocols := fun hmem => hselfProtocol (List.mem_map.mp hmem)
    self_recipients := hselfRecipient
    self_blocked := hselfBlocked
    self_recipientCaps := fun hmem => by
      obtain ⟨rc, hrc, heq⟩ := List.mem_map.mp hmem
      exact (hrcs rc hrc).2.2 heq
    self_assetCaps := fun hmem => by
      obtain ⟨ac, hac, heq⟩ := List.mem_map.mp hmem
      exact (hacs ac hac).2.1 heq
    assets_nodup := hndAssets
    recipients_nodup := hndRecipients
    blocked_nodup := hndBlocked
    protocols_nodup := (nodup_of_firstFailingProtocolRule hpr).1
    recipientCaps_nodup := hrcNodup
    assetCaps_nodup := hacNodup
    assetCaps_known := fun ac hmem => (hacs ac hmem).2.2
    disjoint := fun r hr hb => hdisjoint ⟨r, hr, hb⟩
    fns := fns_of_firstFailingProtocolRule hpr
    windowSecs_le := not_lt.mp hsecs
    dmsGraceSecs_le := not_lt.mp hgrace }

/-- The validator passes well-formed policies: whatever it rejected would be a violation. -/
theorem firstFailingRule_eq_ok_iff : firstFailingRule self cfg = .ok () ↔ cfg.WellFormed self := by
  refine ⟨wellFormed_of_firstFailingRule, fun h => ?_⟩
  cases hresult : firstFailingRule self cfg with
  | ok u => rfl
  | error rule => exact absurd (violates_of_firstFailingRule hresult) (h.not_violates rule)

/-- Every call leaves a well-formed policy, if any. -/
theorem wellFormed_step {host : Host} {s : State} (c : Call)
    (h : ∀ cfg, s.policy = some cfg → cfg.WellFormed host.self) :
    ∀ cfg, (step host s c).policy = some cfg → cfg.WellFormed host.self := by
  have heff := stepEffect host s c
  generalize step host s c = s', approval host s c = a at heff
  cases heff with
  | policySet admin cfg haction hadmin hauth hvalid =>
    intro cfg' hcfg'
    obtain rfl : cfg = cfg' := by simpa [installPolicy_eq] using hcfg'
    exact wellFormed_of_firstFailingRule (firstFailingRule_of_validateConfig hvalid)
  -- the validator does not read `paused`
  | pausedSet admin cfg paused haction hadmin hauth hpolicy hflip =>
    intro cfg' hcfg'
    obtain rfl : { cfg with paused } = cfg' := Option.some.inj hcfg'
    have hpass : firstFailingRule host.self cfg = .ok () :=
      firstFailingRule_eq_ok_iff.mpr (h cfg hpolicy)
    exact wellFormed_of_firstFailingRule hpass
  | policyRevoked => exact fun cfg hcfg => by simp [State.incrementRevision] at hcfg
  | approved => simpa using h
  | heartbeat => simpa [recordHeartbeat_eq] using h
  | _ => exact h

end

/-- **The validator accepts exactly the well-formed policies**, rejects the others for a rule they
violate, and no run ever stores one that is not well-formed. -/
theorem validator_exact (host : Host) :
    (∀ self cfg, firstFailingRule self cfg = .ok () ↔ cfg.WellFormed self) ∧
      (∀ self cfg rule, firstFailingRule self cfg = .error rule → cfg.Violates self rule) ∧
      ∀ calls i cfg, (stateAt host calls i).policy = some cfg → cfg.WellFormed host.self := by
  refine ⟨fun self cfg => firstFailingRule_eq_ok_iff,
    fun self cfg rule => violates_of_firstFailingRule, fun calls i => ?_⟩
  exact pointAt_of_le (P := fun s : State => ∀ cfg, s.policy = some cfg → cfg.WellFormed host.self)
    (fun _ c h => wellFormed_step c h) (Nat.zero_le i) (by simp [State.empty])

end AgentGuard
