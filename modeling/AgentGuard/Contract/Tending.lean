import AgentGuard.Contract.Rent

/-!
# Contract/Tending — what the entry points do to the leases

Every program of `Rent` comes to what the plain entry point comes to, so a lapsed entry is never
read as a missing one; on the way it tends the leases, and `Ends` names the entries it is sure to
touch.
-/

namespace AgentGuard

open Machinery

namespace Rented

variable {env : RentEnv}

/-! ## What the storage helpers do -/

section

variable {s s' : State} {α : Type}

/-- The program returns `a`, leaves `s'` and tends the leases, those of `keys` included. -/
abbrev Ends (env : RentEnv) (m : Rented α) (s : State) (a : α) (s' : State)
    (keys : List DataKey) : Prop := Tends env.terms State.stored env.sequence m s a s' keys

/-- The program comes to the same as the plain one. -/
abbrev Mirrors (env : RentEnv) (m : Rented α) (s : State) (r : Except Abort (State × α)) : Prop :=
  ComesTo env.terms State.stored env.sequence m s r

/-- A read of the instance touches no lease. -/
theorem instanceGet_ends (key : DataKey) {get : State → Option α} {value : Option α}
    (h : get s = value) : Ends env (instanceGet key get) s value s [] := fun leases hwithin =>
  ⟨leases, [.read key], does_load key h,
    ⟨hwithin, fun _ => le_rfl, by simp, by simp_all, by simp⟩, by simp⟩

/-- An extension moves one lease and no value. -/
theorem extendPersistentTtl_does (key : DataKey) (threshold : ℕ) (s : State)
    (leases : Leases DataKey) :
    Does (extendPersistentTtl env key threshold) (s, leases) ()
      (s, Function.update leases key
        (env.terms.extend (leases key) env.sequence threshold env.terms.maxTtl)) [.write key] :=
  fun _ => rfl

/-- A persistent entry is the field it is read from. -/
theorem persistGet_ends (key : DataKey) {get : State → Option α} {value : Option α}
    (h : get s = value) (hstored : s.stored key = value.isSome) :
    Ends env (persistGet env key get) s value s [key] := by
  intro leases hwithin
  cases value with
  | none =>
    refine ⟨leases, [.read key], (Leased.does_get_none h).bind_pure rfl,
      ⟨hwithin, fun _ => le_rfl, by simp, by simp_all, by simp⟩, fun k hk hthere => ?_⟩
    obtain rfl := List.mem_singleton.mp hk
    simp [hstored] at hthere
  | some a =>
    have hrevived := env.terms.revived_le (hwithin key)
    refine ⟨_, _, (Leased.does_get_some h).bind
      ((extendPersistentTtl_does key _ s _).bind_pure rfl), ?_, by simp⟩
    simp only [Function.update_self, Function.update_idem]
    exact tended_update hwithin (env.terms.le_revived.trans (env.terms.le_extend hrevived))
      (env.terms.extend_le hrevived) (env.terms.threshold_le_extend (Nat.div_le_self _ 2))
      (fun h h' => by simp [h] at h') (fun _ _ => rfl) (by simp) (by simp)

/-- **A write extends the entry it made**, and creates it when it was not there. -/
theorem persistSet_ends (key : DataKey) (set : State → State)
    (hframe : ∀ k, k ≠ key → (set s).stored k = s.stored k) :
    Ends env (persistSet env key set) s () (set s) [key] := by
  intro leases hwithin
  have hstart : (if s.stored key = true then env.terms.revived (leases key) env.sequence
      else env.terms.fresh env.sequence) ≤ env.sequence + env.terms.maxTtl := by
    split
    · exact env.terms.revived_le (hwithin key)
    · exact env.terms.fresh_le env.sequence
  -- whatever the entry started from, it is extended to the longest time
  have hfull := @LeaseTerms.threshold_le_extend env.terms (if s.stored key = true then
    env.terms.revived (leases key) env.sequence else env.terms.fresh env.sequence) env.sequence
    env.terms.maxTtl env.terms.maxTtl le_rfl
  refine ⟨_, _, (Leased.does_set State.stored set).bind
    (extendPersistentTtl_does key _ (set s) _), ?_, by simp⟩
  simp only [Function.update_self, Function.update_idem]
  refine tended_update hwithin ((hwithin key).trans hfull) (env.terms.extend_le hstart)
    (le_trans ?_ hfull) (fun _ _ => hfull) hframe (by simp) (by simp)
  exact Nat.add_le_add_left (Nat.div_le_self _ 2) _

/-- A removal ends a lease, so this says what the program comes to, and no more. -/
theorem remove_mirrors {f : Unit → Rented α} {key : DataKey} {set : State → State}
    {r : Except Abort (State × α)} (hgone : (set s).stored key = false)
    (hframe : ∀ k, k ≠ key → (set s).stored k = s.stored k)
    (h : Mirrors env (f ()) (set s) r) : Mirrors env (Leased.remove key set >>= f) s r := by
  have hremove : Ends env (Leased.remove key set) s () (set s) [] := fun leases hwithin =>
    ⟨leases, [.write key], Leased.does_remove set, by
      refine ⟨hwithin, fun _ => le_rfl, fun k hk hstored => ?_, fun k hstored hnew => ?_, ?_⟩
      · simp only [List.mem_singleton, Access.write.injEq] at hk
        simp [hk, hgone] at hstored
      · by_cases hk : k = key
        · simp [hk, hgone] at hstored
        · simp [hframe k hk, hnew] at hstored
      · intro k hk
        have hne : k ≠ key := by simpa using hk
        exact ⟨rfl, hframe k hne⟩, by simp⟩
  exact hremove.bind_comesTo h

/-- A write to the instance touches no lease either. -/
theorem instanceSet_ends (key : DataKey) (set : State → State) (hkey : key.inInstance = true)
    (hframe : ∀ k, (set s).stored k = s.stored k) :
    Ends env (instanceSet key set) s () (set s) [] := fun leases hwithin =>
  ⟨leases, [.write key], does_store key _ _, by
    refine ⟨hwithin, fun _ => le_rfl, fun k hk hstored => ?_, ?_, fun k _ => ⟨rfl, hframe k⟩⟩
    · simp only [List.mem_singleton, Access.write.injEq] at hk
      subst hk
      cases k <;> first | exact absurd (show false = true from hstored) (by simp) | cases hkey
    · intro k hstored hnew
      simp [hframe k, hnew] at hstored, by simp⟩

/-- The window is touched when it is there. -/
theorem loadWindow_ends : Ends env (loadWindow env) s s.loadWindow s [.window] := by
  rw [State.loadWindow]
  cases h : s.window with
  | none => exact (persistGet_ends .window h (by rw [State.stored, h])).bind_pure rfl
  | some state => exact (persistGet_ends .window h (by rw [State.stored, h])).bind_pure rfl

theorem currentRevision_ends :
    Ends env (currentRevision env) s s.currentRevision s [.policyRevision] :=
  (persistGet_ends .policyRevision rfl rfl).bind_pure rfl

/-- The counter is read, written and extended. -/
theorem incrementRevision_ends :
    Ends env (incrementRevision env) s (s.currentRevision.saturatingAdd 1) s.incrementRevision
      [.policyRevision] := by
  have hrest : Ends env (do
      persistSet env .policyRevision fun s' =>
        { s' with policyRevision := some (s.currentRevision.saturatingAdd 1) }
      return s.currentRevision.saturatingAdd 1) s (s.currentRevision.saturatingAdd 1)
      s.incrementRevision [.policyRevision] :=
    (persistSet_ends .policyRevision _ fun k hk => by cases k <;> trivial).bind_pure rfl
  exact ((persistGet_ends .policyRevision rfl rfl).bind hrest).weaken (by simp)

/-- The keys of the snapshot. -/
def snapshotKeys : List DataKey := [.policy, .adminFrozen, .lastHeartbeat, .window]

/-- **The snapshot touches four entries**: policy, freeze, clock and window. -/
theorem loadSnapshot_ends {cfg : PolicyConfig} (h : s.policy = some cfg) :
    Ends env (loadSnapshot env) s (some (Traced.snapshot s cfg)) s snapshotKeys := by
  refine Tends.weaken ((persistGet_ends .policy h (by rw [State.stored, h])).bind
    ((persistGet_ends .adminFrozen rfl rfl).bind ((persistGet_ends .lastHeartbeat rfl rfl).bind
      (loadWindow_ends.bind_pure rfl)))) ?_
  simp [snapshotKeys]

/-- Without a policy it stops at the policy. -/
theorem loadSnapshot_none (h : s.policy = none) :
    Ends env (loadSnapshot env) s none s [.policy] :=
  (persistGet_ends .policy h (by rw [State.stored, h])).bind_pure rfl

/-! ## What event emission does -/

/-- **An event touches the revision** it is stamped with. -/
theorem emitAuth_ends (allowed : Bool) (reason : Option Error) (ctx : Option Context) (i : ℕ) :
    Ends env (emitAuth env allowed reason ctx i) s (AgentGuard.emitAuth s allowed reason ctx i) s
      [.policyRevision] := currentRevision_ends.bind_pure rfl

theorem emitVerdict_ends (contexts : List Context) (i : ℕ) (verdict : Decision) :
    Ends env (emitVerdict env contexts i verdict) s (AgentGuard.emitVerdict s contexts i verdict) s
      [.policyRevision] := by
  cases verdict with
  | allowed => exact emitAuth_ends _ _ _ _
  | blocked e => exact emitAuth_ends _ _ _ _

/-- **Any event at all tends the revision counter.** -/
theorem mem_flatMap_policyRevision {β : Type} {xs : List β} :
    DataKey.policyRevision ∈ (xs.flatMap fun _ => [.policyRevision]) ↔ xs ≠ [] := by
  cases xs <;> simp

/-- A refusal of a whole request emits for each context. -/
theorem emitBlocked_ends (e : Error) (contexts : List Context) :
    Ends env (emitBlocked env e contexts) s (AgentGuard.emitBlocked s e contexts) s
      (contexts.zipIdx.flatMap fun _ => [.policyRevision]) := by
  rw [AgentGuard.emitBlocked, List.mapIdx_eq_zipIdx_map]
  exact tends_mapM _ fun x _ => emitAuth_ends _ _ _ _

/-- So do the verdicts. -/
theorem emitVerdicts_ends (contexts : List Context) (verdicts : List Decision) :
    Ends env (emitVerdicts env contexts verdicts) s
      (verdicts.mapIdx (AgentGuard.emitVerdict s contexts)) s
      (verdicts.zipIdx.flatMap fun _ => [.policyRevision]) := by
  rw [List.mapIdx_eq_zipIdx_map]
  exact tends_mapM _ fun x _ => emitVerdict_ends _ _ _

/-! ## The admin's entry points -/

theorem requireAuth_ends {a : Address} (h : env.authorized a = true) :
    Ends env (requireAuth env a) s () s [] := by
  rw [requireAuth, if_pos h]
  exact tends_pure () s

/-- A call without its authorization fails in both. -/
theorem requireAuth_mirrors {a : Address} {k : Unit → Rented α}
    {f : Unit → Except Abort (State × α)} (h : Mirrors env (k ()) s (f ())) :
    Mirrors env (requireAuth env a >>= k) s (AgentGuard.requireAuth env.toEnv a >>= f) := by
  by_cases hauth : env.authorized a = true
  · rw [AgentGuard.requireAuth, if_pos hauth]
    exact (requireAuth_ends hauth).bind_comesTo h
  · rw [AgentGuard.requireAuth, if_neg hauth, requireAuth, if_neg hauth]
    exact (comesTo_fail _ s).bind_error

/-- **What the admin's entry points have in common.** -/
theorem adminOrPanic_mirrors {k : Address → Rented α} {f : Address → Except Abort (State × α)}
    (h : ∀ admin, s.admin = some admin → Mirrors env (k admin) s (f admin)) :
    Mirrors env (adminOrPanic env >>= k) s (AgentGuard.adminOrPanic env.toEnv s >>= f) := by
  rw [adminOrPanic, AgentGuard.adminOrPanic, bind_assoc]
  refine (instanceGet_ends .admin rfl).bind_comesTo ?_
  cases hadmin : s.admin with
  | none => exact (comesTo_fail _ s).bind_error
  | some admin =>
    simp only [bind_assoc, pure_bind]
    exact requireAuth_mirrors (h admin hadmin)

/-- The storage is written field by field, in the order of the source. -/
theorem initializeAccount_mirrors (admin : Address) (agentPubkey : Bytes32) :
    Mirrors env (initializeAccount env admin agentPubkey) s
      (AgentGuard.initializeAccount env.toEnv s admin agentPubkey) := by
  refine (instanceGet_ends .initialized rfl).bind_comesTo ?_
  rw [AgentGuard.initializeAccount]
  split
  · exact comesTo_fail _ s
  · refine requireAuth_mirrors ?_
    refine (instanceSet_ends .admin _ rfl fun k => by cases k <;> rfl).bind_comesTo ?_
    refine (instanceSet_ends .agentPubkey _ rfl fun k => by cases k <;> rfl).bind_comesTo ?_
    refine (instanceSet_ends .initialized _ rfl fun k => by cases k <;> rfl).bind_comesTo ?_
    refine (persistSet_ends .adminFrozen _ fun k hk => by cases k <;> trivial).bind_comesTo ?_
    refine (persistSet_ends .lastHeartbeat _ fun k hk => by cases k <;> trivial).bind_comesTo ?_
    exact tends_pure _ _

theorem persistHas_ends (key : DataKey) :
    Ends env (persistHas key) s (s.stored key) s [] := fun leases hwithin =>
  ⟨leases, [.read key], does_load key rfl,
    ⟨hwithin, fun _ => le_rfl, by simp, by simp_all, by simp⟩, by simp⟩

/-- The storage after the seeding of a first install. -/
def seeded (firstInstall : Bool) (now : U64) (s : State) : State :=
  if firstInstall then { s.saveLedger Ledger.empty with lastHeartbeat := some now } else s

/-- The two entries of a first install. -/
theorem seedInstall_ends {firstInstall : Bool} :
    Ends env (seedInstall env firstInstall) s () (seeded firstInstall env.timestamp s) [] := by
  cases firstInstall with
  | false => exact tends_pure () s
  | true =>
    have hwindow : Ends env (saveLedger env Ledger.empty) s () (s.saveLedger Ledger.empty)
        [.window] := persistSet_ends .window _ fun k hk => by cases k <;> trivial
    exact (hwindow.bind
      (persistSet_ends .lastHeartbeat _ fun k hk => by cases k <;> trivial)).weaken
      (List.nil_subset _)

/-- **A policy is installed in three steps**, which come to `installPolicy`. -/
theorem setPolicy_mirrors (config : PolicyConfig) :
    Mirrors env (setPolicy env config) s (AgentGuard.setPolicy env.toEnv s config) := by
  refine adminOrPanic_mirrors fun admin _ => ?_
  cases validateConfig env.host.self config with
  | error e => exact comesTo_fail _ s
  | ok u =>
    refine (persistHas_ends .policy).bind_comesTo ?_
    refine (persistSet_ends .policy _ fun k hk => by cases k <;> trivial).bind_comesTo ?_
    refine incrementRevision_ends.bind_comesTo ?_
    refine seedInstall_ends.bind_comesTo (currentRevision_ends.bind_comesTo ?_)
    have hinstalled : seeded (!s.stored .policy) env.timestamp
        { s with policy := some config }.incrementRevision
          = installPolicy s config env.timestamp := by
      cases hpolicy : s.policy <;> simp [installPolicy, seeded, State.stored, hpolicy]
    rw [hinstalled]
    exact tends_pure _ _

/-- The lease of the window goes with it. -/
theorem resetWindow_mirrors :
    Mirrors env (resetWindow env) s (AgentGuard.resetWindow env.toEnv s) :=
  adminOrPanic_mirrors fun admin _ =>
    remove_mirrors rfl (fun k hk => by cases k <;> trivial) (tends_pure _ _)

theorem setPaused_mirrors (paused : Bool) :
    Mirrors env (setPaused env paused) s (AgentGuard.setPaused env.toEnv s paused) := by
  refine adminOrPanic_mirrors fun admin _ => ?_
  refine (persistGet_ends .policy rfl rfl).bind_comesTo ?_
  cases hcfg : s.policy with
  | none => exact comesTo_fail _ s
  | some cfg =>
    dsimp only
    split
    · refine (persistSet_ends .policy _ fun k hk => by cases k <;> trivial).bind_comesTo ?_
      refine incrementRevision_ends.bind_comesTo ?_
      refine currentRevision_ends.bind_comesTo ?_
      exact tends_pure _ _
    · refine currentRevision_ends.bind_comesTo ?_
      exact tends_pure _ _

theorem revokePolicy_mirrors :
    Mirrors env (revokePolicy env) s (AgentGuard.revokePolicy env.toEnv s) := by
  refine adminOrPanic_mirrors fun admin _ => ?_
  refine remove_mirrors rfl (fun k hk => by cases k <;> trivial) ?_
  refine remove_mirrors rfl (fun k hk => by cases k <;> trivial) ?_
  refine incrementRevision_ends.bind_comesTo ?_
  refine currentRevision_ends.bind_comesTo ?_
  exact tends_pure _ _

theorem rotateAgentKey_mirrors (newPubkey : Bytes32) :
    Mirrors env (rotateAgentKey env newPubkey) s
      (AgentGuard.rotateAgentKey env.toEnv s newPubkey) := by
  refine adminOrPanic_mirrors fun admin _ => ?_
  refine (instanceGet_ends .agentPubkey rfl).bind_comesTo ?_
  cases s.agentPubkey with
  | none => exact comesTo_fail _ s
  | some oldPubkey =>
    refine (instanceSet_ends .agentPubkey _ rfl fun k => by cases k <;> rfl).bind_comesTo ?_
    exact tends_pure _ _

theorem proposeAdminRotation_mirrors (newAdmin : Address) :
    Mirrors env (proposeAdminRotation env newAdmin) s
      (AgentGuard.proposeAdminRotation env.toEnv s newAdmin) := by
  refine adminOrPanic_mirrors fun admin _ => ?_
  split
  · exact comesTo_fail _ s
  · refine (instanceSet_ends .pendingAdmin _ rfl fun k => by cases k <;> rfl).bind_comesTo ?_
    exact tends_pure _ _

theorem confirmAdminRotation_mirrors :
    Mirrors env (confirmAdminRotation env) s (AgentGuard.confirmAdminRotation env.toEnv s) := by
  refine (instanceGet_ends .admin rfl).bind_comesTo ?_
  rw [AgentGuard.confirmAdminRotation]
  cases s.admin with
  | none => exact comesTo_fail _ s
  | some old =>
    refine (instanceGet_ends .pendingAdmin rfl).bind_comesTo ?_
    cases s.pendingAdmin with
    | none => exact comesTo_fail _ s
    | some pending =>
      refine requireAuth_mirrors ?_
      refine (instanceSet_ends .admin _ rfl fun k => by cases k <;> rfl).bind_comesTo ?_
      refine (instanceSet_ends .pendingAdmin _ rfl fun k => by cases k <;> rfl).bind_comesTo ?_
      exact tends_pure _ _

theorem cancelAdminRotation_mirrors :
    Mirrors env (cancelAdminRotation env) s (AgentGuard.cancelAdminRotation env.toEnv s) := by
  refine adminOrPanic_mirrors fun admin _ => ?_
  refine (instanceGet_ends .pendingAdmin rfl).bind_comesTo ?_
  cases s.pendingAdmin with
  | none => exact comesTo_fail _ s
  | some pending =>
    refine (instanceSet_ends .pendingAdmin _ rfl fun k => by cases k <;> rfl).bind_comesTo ?_
    exact tends_pure _ _

theorem freeze_mirrors : Mirrors env (freeze env) s (AgentGuard.freeze env.toEnv s) := by
  refine adminOrPanic_mirrors fun admin _ => ?_
  refine (persistSet_ends .adminFrozen _ fun k hk => by cases k <;> trivial).bind_comesTo ?_
  exact tends_pure _ _

theorem unfreeze_mirrors : Mirrors env (unfreeze env) s (AgentGuard.unfreeze env.toEnv s) := by
  refine adminOrPanic_mirrors fun admin _ => ?_
  refine (persistSet_ends .adminFrozen _ fun k hk => by cases k <;> trivial).bind_comesTo ?_
  refine (persistGet_ends .lastHeartbeat rfl rfl).bind_comesTo ?_
  refine (persistSet_ends .lastHeartbeat _ fun k hk => by cases k <;> trivial).bind_comesTo ?_
  exact tends_pure _ _

theorem refreshDeadman_mirrors :
    Mirrors env (refreshDeadman env) s (AgentGuard.refreshDeadman env.toEnv s) := by
  refine (persistGet_ends .policy rfl rfl).bind_comesTo ?_
  refine (persistGet_ends .lastHeartbeat rfl rfl).bind_comesTo ?_
  rw [AgentGuard.refreshDeadman, State.heartbeatOrZero]
  dsimp only
  split
  · refine (persistGet_ends .autoFrozenAt rfl rfl).bind_comesTo ?_
    split
    · refine (persistSet_ends .autoFrozenAt _ fun k hk => by cases k <;> trivial).bind_comesTo ?_
      exact tends_pure _ _
    · exact tends_pure _ _
  · exact tends_pure _ _

/-! ## The authorization -/

section

variable {signaturePayload signature : List UInt8} {contexts : List Context} {agent : Bytes32}
  {cfg : PolicyConfig}

/-- Whether the window is written back depends on the ledger, so no entry is promised. -/
theorem persistLedger_ends (windowPersisted : Bool) (ledger : Ledger) :
    Ends env (persistLedger env windowPersisted ledger) s ()
      (AgentGuard.persistLedger s windowPersisted ledger) [] := by
  rw [persistLedger, AgentGuard.persistLedger]
  split
  · exact (persistSet_ends .window _ fun k hk => by cases k <;> trivial).weaken (List.nil_subset _)
  · exact tends_pure () s

/-- **An approval** emits, and writes back. -/
theorem evaluate_approved (hcfg : s.policy = some cfg)
    (hall : (authDecision env.toEnv s contexts).1.all Decision.isAllowed = true) :
    Ends env (evaluate env contexts (Traced.snapshot s cfg)) s
      (.ok (), decisionEvents env.toEnv s contexts
        ++ (authDecision env.toEnv s contexts).2.merges.map emitWindowMerge)
      (s.admitted env.toEnv contexts)
      ((authDecision env.toEnv s contexts).1.zipIdx.flatMap fun _ => [.policyRevision]) := by
  rw [evaluate, Traced.decide_snapshot hcfg, State.admitted, decisionEvents]
  generalize authDecision env.toEnv s contexts = d at hall ⊢
  obtain ⟨verdicts, ledger⟩ := d
  refine (emitVerdicts_ends contexts verdicts).bind_quiet ?_
  rw [if_pos hall]
  exact (persistLedger_ends _ _).bind_pure rfl

/-- **A refusal** emits, and leaves the storage. -/
theorem evaluate_refused (hcfg : s.policy = some cfg) {e : Error}
    (hall : (authDecision env.toEnv s contexts).1.all Decision.isAllowed ≠ true)
    (hfirst : firstError (authDecision env.toEnv s contexts).1 = some e) :
    Ends env (evaluate env contexts (Traced.snapshot s cfg)) s
      (.error e, decisionEvents env.toEnv s contexts) s
      ((authDecision env.toEnv s contexts).1.zipIdx.flatMap fun _ => [.policyRevision]) := by
  rw [evaluate, Traced.decide_snapshot hcfg, decisionEvents]
  generalize authDecision env.toEnv s contexts = d at hall hfirst ⊢
  obtain ⟨verdicts, ledger⟩ := d
  refine (emitVerdicts_ends contexts verdicts).bind_pure ?_
  rw [if_neg hall, hfirst]

/-- With key, signature and policy in place the rest is the evaluation. -/
theorem checkAuth_signed {r : Except Error Unit × List Event} {keys : List DataKey}
    (hkey : s.agentPubkey = some agent)
    (hsig : env.host.ed25519Verify agent signaturePayload signature = true)
    (hcfg : s.policy = some cfg)
    (h : Ends env (evaluate env contexts (Traced.snapshot s cfg)) s r s' keys) :
    Ends env (checkAuth env signaturePayload signature contexts) s r s' (snapshotKeys ++ keys) := by
  refine (instanceGet_ends .agentPubkey hkey).bind ?_
  simp only [hsig, Bool.not_true, Bool.false_eq_true, if_false]
  exact (loadSnapshot_ends hcfg).bind h

/-- The entries an account keeps while it is in use. -/
def livingKeys : List DataKey :=
  [.policy, .adminFrozen, .lastHeartbeat, .window, .policyRevision]

theorem livingKeys_subset : livingKeys ⊆ snapshotKeys ++ [.policyRevision] := by
  simp [livingKeys, snapshotKeys]

/-- A request with a verdict emits, so the revision is touched too. -/
theorem livingKeys_events {verdicts : List Decision} (h : verdicts ≠ []) :
    livingKeys ⊆ snapshotKeys ++ verdicts.zipIdx.flatMap fun _ => [.policyRevision] := by
  intro k hk
  rcases List.mem_append.mp (livingKeys_subset hk) with hk | hk
  · exact List.mem_append_left _ hk
  · obtain rfl := List.mem_singleton.mp hk
    exact List.mem_append_right _ (mem_flatMap_policyRevision.mpr (mt List.zipIdx_eq_nil_iff.mp h))

/-- A nonempty request has a verdict, be it the single one for an oversized request. -/
theorem decideContexts_ne_nil (self : Address) (policy : Option PolicyConfig)
    (state : AccountState) (l : Ledger) (now : U64) (hne : contexts ≠ []) :
    (decideContexts self policy state l now contexts).1 ≠ [] := by
  rcases le_or_gt contexts.length maxAuthContexts with hlen | hlen
  · have hlength : (decideContexts self policy state l now contexts).1.length = contexts.length :=
      length_decideContexts hlen
    exact fun h => hne (List.length_eq_zero_iff.mp (by rw [← hlength, h]; rfl))
  · rw [decideContexts_oversized _ _ _ _ _ hlen]
    simp

/-- **An approved, nonempty authorization touches all of them.** -/
theorem checkAuth_ends {outcome : AuthOutcome}
    (h : AgentGuard.checkAuth env.toEnv s signaturePayload signature contexts = .ok outcome) :
    ∃ keys, Ends env (checkAuth env signaturePayload signature contexts) s
      (outcome.result, outcome.events) outcome.state keys ∧
        (outcome.result = .ok () → contexts ≠ [] → livingKeys ⊆ keys) := by
  cases checkAuth_returns h with
  | uninitialized hkey =>
    refine ⟨_, (instanceGet_ends .agentPubkey hkey).bind ((emitBlocked_ends _ _).bind_pure rfl),
      fun hok => by cases hok⟩
  | noPolicy agent hkey hsig hcfg =>
    refine ⟨[], (instanceGet_ends .agentPubkey hkey).bind_quiet ?_, fun hok => by cases hok⟩
    simp only [hsig, Bool.not_true, Bool.false_eq_true, if_false]
    have hemit : Ends env (do
        let events ← emitBlocked env .noPolicy contexts
        return ((.error .noPolicy : Except Error Unit), events)) s
        (.error .noPolicy, AgentGuard.emitBlocked s .noPolicy contexts) s _ :=
      (emitBlocked_ends _ _).bind_pure rfl
    exact ((loadSnapshot_none hcfg).bind hemit).weaken (List.nil_subset _)
  | approved agent cfg hkey hsig hgrants =>
    refine ⟨_, checkAuth_signed hkey hsig hgrants.policy
      (evaluate_approved hgrants.policy hgrants.allowed), fun _ hne => ?_⟩
    exact livingKeys_events (decideContexts_ne_nil _ _ _ _ _ hne)
  | refused agent cfg e hkey hsig hcfg hall hfirst =>
    exact ⟨_, checkAuth_signed hkey hsig hcfg (evaluate_refused hcfg hall hfirst),
      fun hok => by cases hok⟩

/-- An abort: a bad signature, or a verdict that cannot be. -/
theorem checkAuth_fails {a : Abort}
    (h : AgentGuard.checkAuth env.toEnv s signaturePayload signature contexts = .error a) :
    Mirrors env (checkAuth env signaturePayload signature contexts) s (.error a) := by
  cases hkey : s.agentPubkey with
  | none => simp [AgentGuard.checkAuth, hkey] at h
  | some agent =>
    by_cases hsig : env.host.ed25519Verify agent signaturePayload signature = true
    · cases hcfg : s.policy with
      | none => simp [AgentGuard.checkAuth, hkey, hsig, AuthSnapshot.load, hcfg] at h
      | some cfg =>
        rw [checkAuth_eq hkey hsig hcfg] at h
        split_ifs at h with hall
        cases hfirst : firstError (authDecision env.toEnv s contexts).1 with
        | none => exact absurd (firstError_eq_none_iff.mp hfirst) hall
        | some e => simp [hfirst] at h
    · obtain rfl : a = .signature := by
        simpa [AgentGuard.checkAuth, hkey, hsig, eq_comm] using h
      refine (instanceGet_ends .agentPubkey hkey).bind_comesTo ?_
      simp only [hsig, Bool.not_false, if_true]
      exact comesTo_fail _ s

/-- A heartbeat of the same second touches nothing more. -/
theorem recordHeartbeat_ends :
    Ends env (recordHeartbeat env) s (AgentGuard.recordHeartbeat s env.timestamp).2
      (AgentGuard.recordHeartbeat s env.timestamp).1 [] := by
  refine Tends.weaken ((persistGet_ends .lastHeartbeat rfl rfl).bind_quiet ?_) (List.nil_subset _)
  rw [AgentGuard.recordHeartbeat]
  by_cases h : env.timestamp = s.heartbeatOrZero
  · have h' : env.timestamp = s.lastHeartbeat.getD 0 := h
    rw [if_pos h', if_pos h]
    exact tends_pure [] s
  · have h' : ¬env.timestamp = s.lastHeartbeat.getD 0 := h
    rw [if_neg h', if_neg h]
    have hset : Ends env (persistSet env .lastHeartbeat fun s =>
        { s with lastHeartbeat := some env.timestamp }) s () _ [.lastHeartbeat] :=
      persistSet_ends .lastHeartbeat _ fun k hk => by cases k <;> trivial
    refine Tends.weaken (hset.bind_quiet ?_) (List.nil_subset _)
    refine Tends.weaken ((persistGet_ends .policy rfl rfl).bind_pure ?_) (List.nil_subset _)
    rfl

/-- **An approved heartbeat** is an approved authorization with the clock moved. -/
theorem heartbeat_ends {entry : AuthEntry} {events : List Event}
    (h : AgentGuard.heartbeat env.toEnv s entry = .ok (s', events)) :
    ∃ keys, Ends env (heartbeat env entry) s events s' keys ∧
      (entry.contexts ≠ [] → livingKeys ⊆ keys) := by
  obtain ⟨outcome, hcheck, hok, rfl, rfl⟩ := heartbeat_ok h
  have hmem : heartbeatContext env.host.self ∈ entry.contexts := by
    by_contra hmem
    simp [AgentGuard.heartbeat, hmem] at h
  obtain ⟨keys, hends, hkeys⟩ := checkAuth_ends hcheck
  refine ⟨keys, ?_, hkeys hok⟩
  rw [heartbeat, if_neg (not_not.mpr hmem)]
  refine hends.bind_quiet ?_
  rw [hok]
  exact recordHeartbeat_ends.bind_pure rfl

/-- A heartbeat whose authorization is refused, aborts or is for something else. -/
theorem heartbeat_fails {entry : AuthEntry} {a : Abort}
    (h : AgentGuard.heartbeat env.toEnv s entry = .error a) :
    Mirrors env (heartbeat env entry) s (.error a) := by
  by_cases hmem : heartbeatContext env.host.self ∈ entry.contexts
  · rw [AgentGuard.heartbeat, if_neg (not_not.mpr hmem)] at h
    rw [heartbeat, if_neg (not_not.mpr hmem)]
    cases hcheck : AgentGuard.checkAuth env.toEnv s entry.signaturePayload entry.signature
        entry.contexts with
    | error b =>
      obtain rfl : b = a := by simpa [hcheck, bind, Except.bind] using h
      exact (checkAuth_fails hcheck).bind_error
    | ok outcome =>
      cases hres : outcome.result with
      | error e =>
        obtain rfl : a = .error e := by simpa [hcheck, bind, Except.bind, hres, eq_comm] using h
        obtain ⟨keys, hends, -⟩ := checkAuth_ends hcheck
        refine hends.bind_comesTo ?_
        rw [hres]
        exact comesTo_fail _ _
      | ok u => simp [hcheck, bind, Except.bind, hres, pure, Except.pure] at h
  · obtain rfl : a = .auth env.host.self := by
      simpa [AgentGuard.heartbeat, hmem, eq_comm] using h
    rw [heartbeat, if_pos hmem]
    exact comesTo_fail _ s

end

/-! ## The reads -/

theorem readPolicy_ends : Ends env (readPolicy env) s s.policy s [.policy] :=
  persistGet_ends .policy rfl rfl

theorem policyHash_ends :
    Ends env (policyHash env) s (AgentGuard.policyHash env.toEnv s) s [.policy] := by
  refine (persistGet_ends .policy rfl rfl).bind_pure ?_
  cases hcfg : s.policy <;> simp [AgentGuard.policyHash, hcfg, State.empty]

theorem readDmsHealth_ends :
    Ends env (readDmsHealth env) s (AgentGuard.readDmsHealth env.toEnv s) s [.policy] := by
  refine (persistGet_ends .policy rfl rfl).bind_quiet ?_
  rw [AgentGuard.readDmsHealth]
  cases s.policy with
  | none => exact tends_pure _ s
  | some cfg =>
    refine Tends.weaken ((persistGet_ends .lastHeartbeat rfl rfl).bind_pure ?_)
      (List.nil_subset _)
    rfl

/-- Of a policy, `status` needs the window besides. -/
theorem policyStatus_ends (policy : Option PolicyConfig) :
    Ends env (policyStatus env policy) s
      ((policy.map PolicyConfig.paused).getD false,
        policy.bind fun cfg =>
          globalWindowRemaining cfg (pruneForRead cfg s.loadWindow.1 env.timestamp),
        (policy.map fun cfg => outsideActiveWindow cfg env.timestamp).getD false,
        (policy.map PolicyConfig.dmsGraceSecs).getD 0) s
      (if policy.isSome then [.window] else []) := by
  cases policy with
  | none => exact tends_pure _ s
  | some cfg =>
    refine loadWindow_ends.bind_pure ?_
    rfl

/-- **`status` touches all of them**, under a policy. -/
theorem status_ends :
    Ends env (status env) s (AgentGuard.status env.toEnv s) s
      ([.policy, .policyRevision, .adminFrozen, .lastHeartbeat]
        ++ if s.policy.isSome then [.window] else []) := by
  refine (persistGet_ends .policy rfl rfl).bind ((persistGet_ends .policyRevision rfl rfl).bind
    ((persistGet_ends .adminFrozen rfl rfl).bind ((persistGet_ends .lastHeartbeat rfl rfl).bind
      ((policyStatus_ends s.policy).bind_pure ?_))))
  rfl

theorem load_snapshot {cfg : PolicyConfig} (hcfg : s.policy = some cfg) :
    AuthSnapshot.load s = some (Traced.snapshot s cfg) := by
  rw [AuthSnapshot.load, hcfg]
  rfl

/-- A single context always gets a verdict, so `check_detailed` always answers. -/
theorem checkDetailed_ends (asset dest : Address) (amount : I128) :
    ∃ detail events keys,
      AgentGuard.checkDetailed env.toEnv s asset dest amount = .ok (detail, events) ∧
      Ends env (checkDetailed env asset dest amount) s (detail, events) s keys ∧
        (s.policy.isSome → livingKeys ⊆ keys) := by
  rw [AgentGuard.checkDetailed]
  cases hcfg : s.policy with
  | none =>
    rw [AuthSnapshot.load, hcfg]
    refine ⟨_, _, _, rfl, (loadSnapshot_none hcfg).bind ((emitAuth_ends _ _ _ _).bind_pure ?_),
      by simp⟩
    rfl
  | some cfg =>
    rw [load_snapshot hcfg]
    dsimp only
    cases hverdicts : (decideContexts env.host.self (some (Traced.snapshot s cfg).policy)
        (Traced.snapshot s cfg).accountState (pruneForRead (Traced.snapshot s cfg).policy
          (Traced.snapshot s cfg).ledger env.timestamp) env.timestamp
          [transferContext asset dest amount]).1 with
    | nil => exact absurd hverdicts (decideContexts_ne_nil _ _ _ _ _ (by simp))
    | cons verdict verdicts =>
      have hrest : Ends env (emitVerdict env [transferContext asset dest amount] 0 verdict) s _ s
          [.policyRevision] := emitVerdict_ends _ _ _
      refine ⟨_, _, snapshotKeys ++ [.policyRevision], rfl, (loadSnapshot_ends hcfg).bind ?_,
        fun _ => livingKeys_subset⟩
      simp only [hverdicts]
      exact hrest.bind_pure rfl

/-- The same snapshot, with less of the answer. -/
theorem check_ends (asset dest : Address) (amount : I128) :
    ∃ result events keys, AgentGuard.check env.toEnv s asset dest amount = .ok (result, events) ∧
      Ends env (check env asset dest amount) s (result, events) s keys ∧
        (s.policy.isSome → livingKeys ⊆ keys) := by
  obtain ⟨detail, events, keys, hcheck, hends, hkeys⟩ :=
    @checkDetailed_ends env s asset dest amount
  refine ⟨detail.result, events, keys, ?_, hends.bind_pure rfl, hkeys⟩
  rw [AgentGuard.check, hcheck]
  rfl

/-- **An empty run emits nothing**, and so need not touch the revision. -/
theorem checkBatch_ends (asset : Address) (transfers : List BatchTransfer) :
    ∃ keys, Ends env (checkBatch env asset transfers) s
      (AgentGuard.checkBatch env.toEnv s asset transfers) s keys ∧
        (s.policy.isSome → transfers ≠ [] → livingKeys ⊆ keys) := by
  rw [AgentGuard.checkBatch]
  cases hcfg : s.policy with
  | none =>
    rw [AuthSnapshot.load, hcfg]
    refine ⟨_, (loadSnapshot_none hcfg).bind ((emitBlocked_ends _ _).bind_pure ?_), by simp⟩
    rfl
  | some cfg =>
    rw [load_snapshot hcfg]
    have hverdicts := fun h => @decideContexts_ne_nil
      (transfers.map fun t => transferContext asset t.dest t.amount) env.host.self
      (some (Traced.snapshot s cfg).policy) (Traced.snapshot s cfg).accountState
      (Traced.snapshot s cfg).ledger env.timestamp h
    refine ⟨_, (loadSnapshot_ends hcfg).bind ((emitVerdicts_ends _ _).bind_pure ?_), ?_⟩
    · rfl
    · exact fun _ hne => livingKeys_events (hverdicts (by simpa using hne))

end

end Rented

end AgentGuard
