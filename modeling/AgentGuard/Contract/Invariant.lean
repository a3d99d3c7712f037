import AgentGuard.Contract.Runs

/-!
# Contract/Invariant — what holds in every reachable state

The stored policy passed the validator, the stored window is in shape, and nothing is installed
before the account is initialized.  An approved authorization moves the stored meters exactly as it
moved the ones in memory — with one exception, the call counter of an absent window.
-/

namespace AgentGuard

open Machinery

/-! ## Saving and loading -/

theorem loadWindow_snd (s : State) : s.loadWindow.2 = s.window.isSome := by
  rw [State.loadWindow]
  cases s.window <;> rfl

/-- Whether an approved ledger is written back. -/
def persists (s : State) (l : Ledger) : Bool :=
  s.window.isSome || (decide (l.entries ≠ []) || ledgerHasRecipientEntries l)

/-- A window that is there is written to. -/
theorem persists_of_window {s : State} (h : s.window.isSome) (l : Ledger) :
    persists s l = true := by rw [persists, h, Bool.true_or]

theorem admitted_eq (s : State) (env : Env) (contexts : List Context) :
    s.admitted env contexts
      = { s with
          window := if persists s (authDecision env s contexts).2 then
            some (authDecision env s contexts).2.toState else s.window } := by
  rw [State.admitted, persistLedger, loadWindow_snd]
  by_cases h : persists s (authDecision env s contexts).2 = true
  · rw [if_pos h]
    exact if_pos h
  · rw [if_neg h]
    exact if_neg h

section

variable (s : State) (env : Env) (contexts : List Context) (now : U64)

@[simp] theorem admitted_initialized : (s.admitted env contexts).initialized = s.initialized := by
  rw [admitted_eq]

@[simp] theorem admitted_admin : (s.admitted env contexts).admin = s.admin := by rw [admitted_eq]

@[simp] theorem admitted_pendingAdmin :
    (s.admitted env contexts).pendingAdmin = s.pendingAdmin := by rw [admitted_eq]

@[simp] theorem admitted_policy : (s.admitted env contexts).policy = s.policy := by rw [admitted_eq]

@[simp] theorem admitted_policyRevision :
    (s.admitted env contexts).policyRevision = s.policyRevision := by rw [admitted_eq]

@[simp] theorem admitted_adminFrozen : (s.admitted env contexts).adminFrozen = s.adminFrozen := by
  rw [admitted_eq]

@[simp] theorem admitted_lastHeartbeat :
    (s.admitted env contexts).lastHeartbeat = s.lastHeartbeat := by rw [admitted_eq]

/-- A heartbeat writes the clock and nothing else. -/
theorem recordHeartbeat_eq :
    (recordHeartbeat s now).1 = { s with
      lastHeartbeat := if now = s.heartbeatOrZero then s.lastHeartbeat else some now } := by
  rw [recordHeartbeat]
  split_ifs <;> rfl

/-- An install writes the policy and its revision, and on the first install the window and the
clock. -/
theorem installPolicy_eq (cfg : PolicyConfig) :
    installPolicy s cfg now = { s with
      policy := some cfg
      policyRevision := some (s.currentRevision.saturatingAdd 1)
      window := if s.policy.isNone then some Ledger.empty.toState else s.window
      lastHeartbeat := if s.policy.isNone then some now else s.lastHeartbeat } := by
  rw [installPolicy]
  dsimp only [State.incrementRevision, State.saveLedger, State.currentRevision]
  split_ifs <;> rfl

end

/-- An approval keeps a window that was there. -/
theorem window_admitted_isSome {s : State} (h : s.window.isSome) (env : Env)
    (contexts : List Context) : (s.admitted env contexts).window.isSome := by
  rw [admitted_eq, if_pos (persists_of_window h _)]
  rfl

/-- A sound ledger without entries is the empty one. -/
theorem eq_empty_of_sound {l : SingleLedger} {bound : ℕ} {t : ℤ} (h : l.Sound bound t)
    (he : l.entries = []) : l = ⟨0, []⟩ := by
  refine Rolling.ext (BoundedInt.ext ?_) he
  rw [show l.total.val = valueSum l.entries from h.exact, he]
  rfl

section

variable {s : State} {l : Ledger} {t : U64} {env : Env} {contexts : List Context}

/-- The ledger of an unpersisted request holds no spend. -/
theorem of_not_persists (hl : l.Rep t) (h : persists s l = false) :
    s.window = none ∧ l.single = ⟨0, []⟩ ∧ ∀ r, l.meter r = ⟨0, []⟩ := by
  rw [persists, Bool.or_eq_false_iff, Bool.or_eq_false_iff] at h
  obtain ⟨hw, he, hr⟩ := h
  have hnil : l.entries = [] := by simpa using he
  refine ⟨by simpa using hw, eq_empty_of_sound hl.single hnil, fun r => ?_⟩
  refine eq_empty_of_sound (hl.meter r) ?_
  rw [Ledger.meter, meterOf]
  split
  · rename_i x hx
    have hno := List.any_eq_false.mp hr x (List.mem_of_find?_eq_some hx)
    have : x.entries = [] := by simpa using hno
    exact this
  · rfl

/-- **The stored meters after an approval are the ones the engine left.** -/
theorem loadWindow_admitted (hl : (authDecision env s contexts).2.Rep t) :
    (s.admitted env contexts).loadWindow.1.single = (authDecision env s contexts).2.single ∧
      ∀ r, (s.admitted env contexts).loadWindow.1.meter r
        = (authDecision env s contexts).2.meter r := by
  rw [admitted_eq]
  by_cases h : persists s (authDecision env s contexts).2 = true
  · rw [if_pos h]
    simp only [State.loadWindow]
    rw [hl.fromState_toState]
    exact ⟨rfl, fun _ => rfl⟩
  · obtain ⟨hw, hsingle, hmeter⟩ := of_not_persists hl (by simpa using h)
    rw [if_neg h]
    simp only [State.loadWindow, hw]
    exact ⟨hsingle.symm, fun r => (hmeter r).symm⟩

/-- The call counter too, when there was a window to write to: counted again from its entries. -/
theorem calls_loadWindow_admitted (hl : (authDecision env s contexts).2.Rep t)
    (h : persists s (authDecision env s contexts).2 = true) :
    (s.admitted env contexts).loadWindow.1.calls
      = ⟨BoundedInt.clamp (valueSum (authDecision env s contexts).2.protocolCallEntries),
          (authDecision env s contexts).2.protocolCallEntries⟩ := by
  rw [admitted_eq, if_pos h]
  simp only [State.loadWindow]
  rw [hl.fromState_toState]
  rfl

end

/-! ## The invariant -/

/-- **The invariant of the storage**, at the time of the last call. -/
structure State.Inv (host : Host) (t : U64) (s : State) : Prop where
  policy : ∀ cfg, s.policy = some cfg → validateConfig host.self cfg = .ok ()
  window : ∀ w, s.window = some w → w.Rep t
  admin : s.policy.isSome → s.admin.isSome
  initialized : s.admin.isSome → s.initialized = some true

namespace State.Inv

variable {host : Host} {t : U64} {s : State}

theorem mono {t' : U64} (h : s.Inv host t) (ht : t.val ≤ t'.val) : s.Inv host t' :=
  { h with window := fun w hw =>
      ⟨(h.window w hw).single.mono ht, fun r hr => ((h.window w hw).recipients r hr).mono ht,
        (h.window w hw).distinct, (h.window w hw).calls.mono ht⟩ }

theorem accepted (h : s.Inv host t) {cfg : PolicyConfig} (hcfg : s.policy = some cfg) :
    cfg.Accepted host.self := accepted_of_validateConfig (h.policy cfg hcfg)

/-- The loaded ledger is in shape. -/
theorem ledger (h : s.Inv host t) : s.loadWindow.1.Rep t := by
  rw [State.loadWindow]
  cases hw : s.window with
  | none => exact Ledger.rep_empty t
  | some w => exact (h.window w hw).fromState

/-- A loaded counter is counted from its entries, and carries no telemetry. -/
theorem recounted (h : s.Inv host t) :
    s.loadWindow.1.protocolCallTotal
        = BoundedInt.clamp (valueSum s.loadWindow.1.protocolCallEntries) ∧
      s.loadWindow.1.merges = [] := by
  rw [State.loadWindow]
  cases hw : s.window with
  | none => exact ⟨rfl, rfl⟩
  | some w =>
    dsimp only
    rw [(h.window w hw).fromState_eq]
    exact ⟨rfl, rfl⟩

/-- So is the one an authorization leaves. -/
theorem decided {env : Env} (h : s.Inv host env.timestamp) (contexts : List Context) :
    (authDecision env s contexts).2.Rep env.timestamp := decideContexts_rep h.ledger

theorem admitted {env : Env} (h : s.Inv host env.timestamp) (contexts : List Context) :
    (s.admitted env contexts).Inv host env.timestamp := by
  rw [admitted_eq]
  refine ⟨h.policy, fun w hw => ?_, h.admin, h.initialized⟩
  dsimp only at hw
  split_ifs at hw with hp
  · obtain rfl := Option.some.inj hw
    exact (h.decided contexts).toState
  · exact h.window w hw

theorem installPolicy (h : s.Inv host t) (hadmin : s.admin.isSome) {cfg : PolicyConfig}
    (hvalid : validateConfig host.self cfg = .ok ()) :
    (AgentGuard.installPolicy s cfg t).Inv host t := by
  have hpolicy : ∀ cfg', some cfg = some cfg' → validateConfig host.self cfg' = .ok () :=
    fun cfg' hcfg => Option.some.inj hcfg ▸ hvalid
  rw [AgentGuard.installPolicy]
  dsimp only [State.incrementRevision, State.saveLedger]
  split_ifs
  · refine ⟨hpolicy, fun w hw => ?_, fun _ => hadmin, h.initialized⟩
    obtain rfl := Option.some.inj hw
    exact (Ledger.rep_empty t).toState
  · exact ⟨hpolicy, h.window, fun _ => hadmin, h.initialized⟩

theorem recordHeartbeat (h : s.Inv host t) (now : U64) :
    (AgentGuard.recordHeartbeat s now).1.Inv host t := by
  rw [AgentGuard.recordHeartbeat]
  split_ifs
  · exact h
  · exact ⟨h.policy, h.window, h.admin, h.initialized⟩

/-- **Every call keeps the invariant.** -/
theorem step {c : Call} (h : s.Inv host t) (ht : t.val ≤ c.timestamp.val) :
    (AgentGuard.step host s c).Inv host c.timestamp := by
  have hnow := h.mono ht
  have heff := stepEffect host s c
  generalize AgentGuard.step host s c = s', approval host s c = a at heff
  cases heff with
  | idle => exact hnow
  | initialized admin agentPubkey haction hfresh hauth =>
    exact ⟨h.policy, hnow.window, fun _ => rfl, fun _ => rfl⟩
  | policySet admin cfg haction hadmin hauth hvalid =>
    exact hnow.installPolicy (by simp [hadmin]) hvalid
  | windowReset admin haction hadmin hauth =>
    exact ⟨h.policy, fun w hw => by simp at hw, h.admin, h.initialized⟩
  | pausedSet admin cfg paused haction hadmin hauth hpolicy hflip =>
    refine ⟨fun cfg' hcfg => ?_, hnow.window, fun _ => by simp [State.incrementRevision, hadmin],
      h.initialized⟩
    obtain rfl := Option.some.inj hcfg
    exact (validateConfig_paused host.self cfg paused).trans (h.policy cfg hpolicy)
  | policyRevoked admin haction hadmin hauth =>
    exact ⟨fun cfg hcfg => by simp [State.incrementRevision] at hcfg,
      fun w hw => by simp [State.incrementRevision] at hw,
      fun hp => by simp [State.incrementRevision] at hp, h.initialized⟩
  | rotationConfirmed old pending haction hadmin hpending hauth =>
    exact ⟨h.policy, hnow.window, fun _ => rfl, fun _ => h.initialized (by simp [hadmin])⟩
  | keyRotated | rotationProposed | rotationCancelled | frozen | autoFrozen | unfrozen =>
    exact ⟨h.policy, hnow.window, h.admin, h.initialized⟩
  | approved entry cfg haction hgrants =>
    have henv : s.Inv host (c.env host).timestamp := hnow
    exact henv.admitted entry.contexts
  | heartbeat entry cfg haction hmem hgrants =>
    have henv : s.Inv host (c.env host).timestamp := hnow
    exact (henv.admitted entry.contexts).recordHeartbeat c.timestamp

end State.Inv

theorem inv_deployed (host : Host) (t : U64) : State.empty.Inv host t where
  policy := by simp [State.empty]
  window := by simp [State.empty]
  admin := by simp [State.empty]
  initialized := by simp [State.empty]

/-- **Every reachable state satisfies the invariant.** -/
theorem Reachable.inv {host : Host} {t : U64} {s : State} (h : Reachable host t s) :
    s.Inv host t := by
  induction h with
  | deployed t => exact inv_deployed host t
  | call c _ ht ih => exact ih.step ht

/-- **What every call that meets the condition keeps** holds of every state they reach. -/
theorem Reaches.invariant {host : Host} {ok : State → Call → Prop} {t₀ t : U64} {s₀ s : State}
    {P : U64 → State → Prop} (h : Reaches host ok t₀ s₀ t s) (hreach : Reachable host t₀ s₀)
    (hstart : P t₀ s₀)
    (hstep : ∀ {t : U64} {s : State} (c : Call), P t s → s.Inv host c.timestamp →
      t.val ≤ c.timestamp.val → ok s c → P c.timestamp (step host s c)) : P t s := by
  induction h with
  | start => exact hstart
  | call c hrun ht hok ih => exact hstep c ih ((hrun.reachable hreach).inv.mono ht) ht hok

/-! ## What an approval did -/

theorem policy_of_openPolicy {policy : Option PolicyConfig} {state : AccountState} {now : U64}
    {cfg : PolicyConfig} (h : openPolicy policy state now = some cfg) : policy = some cfg := by
  rw [openPolicy] at h
  split_ifs at h
  exact (Option.filter_eq_some_iff.mp h).1

/-- **A grant, unfolded.**  The host never passes an empty list of contexts; one would be granted
whatever the gates say, and change nothing. -/
theorem Grants.cases {host : Host} {env : Env} {s : State} {cfg : PolicyConfig}
    {contexts : List Context} (hg : Grants env s cfg contexts)
    (h : s.Inv host env.timestamp) :
    contexts.length ≤ maxAuthContexts ∧
      ((openPolicy s.policy ⟨s.frozenOrFalse, s.heartbeatOrZero⟩ env.timestamp = none ∧
          contexts = [] ∧ (authDecision env s contexts).2 = s.loadWindow.1) ∨
        openPolicy s.policy ⟨s.frozenOrFalse, s.heartbeatOrZero⟩ env.timestamp = some cfg ∧
          (∀ c ∈ parseAll env.host.self cfg contexts, Permitted cfg c) ∧
          Fits cfg (pruneFor cfg s.loadWindow.1 env.timestamp)
            (parseAll env.host.self cfg contexts) ∧
          Charged cfg env.timestamp (parseAll env.host.self cfg contexts)
            (pruneFor cfg s.loadWindow.1 env.timestamp) (authDecision env s contexts).2) := by
  have hall := hg.allowed
  have hlen : contexts.length ≤ maxAuthContexts := by
    by_contra hlong
    rw [authDecision, decideContexts_oversized _ _ _ _ _ (not_le.mp hlong)] at hall
    simp [Decision.isAllowed] at hall
  refine ⟨hlen, ?_⟩
  cases hopen : openPolicy s.policy ⟨s.frozenOrFalse, s.heartbeatOrZero⟩ env.timestamp with
  | none =>
    obtain ⟨e, he⟩ := decideContexts_closed env.host.self hlen hopen
    rw [authDecision, he] at hall ⊢
    refine .inl ⟨rfl, ?_, rfl⟩
    cases contexts with
    | nil => rfl
    | cons ctx contexts => simp [blockAll, Decision.isAllowed] at hall
  | some cfg' =>
    obtain rfl : cfg' = cfg := by
      have := policy_of_openPolicy hopen
      rw [hg.policy] at this
      exact (Option.some.inj this).symm
    obtain ⟨hperm, hfits⟩ := (decideContexts_granted_iff h.ledger hlen hopen).mp hall
    exact .inr ⟨rfl, hperm, hfits, decideContexts_charged h.ledger hlen hopen hall⟩

end AgentGuard
