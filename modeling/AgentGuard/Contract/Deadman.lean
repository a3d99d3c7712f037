import AgentGuard.Contract.Preflight
import AgentGuard.Contract.Events

/-!
# Contract/Deadman — a lapsed account cannot revive itself

`heartbeat` is itself authorized through `__check_auth`, and `__check_auth` reads the clock that
`heartbeat` sets.  Once the grace has run out the gate is closed to everything, heartbeats included,
so the clock stands still and the gate stays closed: only `unfreeze`, `revoke_policy` or
`set_policy` could lead out.  `set_policy` leaves the clock alone, but the gate reads the new
policy's grace and active window: an edit keeps the account shut exactly when it `StaysShut`.
-/

namespace AgentGuard

open Machinery

/-- **The dead-man switch has run out** at `now`. -/
def Lapsed (now : U64) (s : State) : Prop :=
  ∃ cfg, s.policy = some cfg ∧ 0 < cfg.dmsGraceSecs.val ∧ s.heartbeatOrZero.val ≠ 0 ∧
    now.val - s.heartbeatOrZero.val > cfg.dmsGraceSecs.val

/-- A call of a continuation without rescue: nothing that re-arms the switch or replaces the policy,
and no authorization over an empty list. -/
structure NoRescue (c : Call) : Prop where
  unfreeze : c.action ≠ .unfreeze
  revoke : c.action ≠ .revokePolicy
  set : ∀ cfg, c.action ≠ .setPolicy cfg
  contexts : ∀ entry, c.action = .checkAuth entry → entry.contexts ≠ []

/-- The first time from `now` on at which the policy's active window may be open. -/
def PolicyConfig.opening (cfg : PolicyConfig) (now : U64) : U64 :=
  if cfg.activeFrom.val ≤ now.val then now else cfg.activeFrom

/-- **Under `cfg` the account opens at no time from `now` on**: it is frozen by its admin, or by the
time the active window opens the grace has run out or the window has closed again. -/
def StaysShut (s : State) (cfg : PolicyConfig) (now : U64) : Prop :=
  s.frozenOrFalse = true ∨ heartbeatExpired cfg s.heartbeatOrZero (cfg.opening now) = true ∨
    outsideActiveWindow cfg (cfg.opening now) = true

/-- An initialized account that its policy keeps shut, or that has none. -/
structure Shut (now : U64) (s : State) : Prop where
  admin : s.admin.isSome
  policy : ∀ cfg, s.policy = some cfg → StaysShut s cfg now

/-- **Nothing more is approved**: from `t` on `__check_auth` never says yes to a nonempty request,
and over a valid signature it says no. -/
def RefusesAll (host : Host) (t : U64) (s : State) : Prop :=
  ∀ (c : Call) (signaturePayload signature : List UInt8) (contexts : List Context),
    t.val ≤ c.timestamp.val → contexts ≠ [] →
      ¬Approves (c.env host) s signaturePayload signature contexts ∧
        ∀ agent, s.agentPubkey = some agent →
          host.ed25519Verify agent signaturePayload signature = true →
            ∃ e, Refuses (c.env host) s signaturePayload signature contexts e

/-- A call that leaves the account shut: no `unfreeze`, no fresh install, no edit but to a policy
that keeps it shut.  Calls that abort are of no account. -/
structure KeepsShut (host : Host) (s : State) (c : Call) : Prop where
  unfreeze : c.action = .unfreeze → ¬Succeeds host s c
  set : ∀ cfg, c.action = .setPolicy cfg → Succeeds host s c →
    s.policy.isSome ∧ StaysShut s cfg c.timestamp

theorem NoRescue.keepsShut {c : Call} (h : NoRescue c) (host : Host) (s : State) :
    KeepsShut host s c :=
  ⟨fun hunfreeze => absurd hunfreeze h.unfreeze, fun cfg hset => absurd hset (h.set cfg)⟩

section

variable {host : Host} {s s' : State} {cfg : PolicyConfig} {t now : U64} {env : Env}
  {contexts : List Context}

theorem heartbeatExpired_mono {lastHeartbeat : U64}
    (h : heartbeatExpired cfg lastHeartbeat now = true) (ht : now.val ≤ t.val) :
    heartbeatExpired cfg lastHeartbeat t = true := by
  rw [heartbeatExpired_iff] at h ⊢
  omega

theorem le_opening (cfg : PolicyConfig) (now : U64) : now.val ≤ (cfg.opening now).val := by
  rw [PolicyConfig.opening]
  split_ifs <;> omega

/-- The window does not open before its `opening`; what has closed by then is closed for good. -/
theorem outsideActiveWindow_of_opening (h : outsideActiveWindow cfg (cfg.opening now) = true)
    (ht : now.val ≤ t.val) : outsideActiveWindow cfg t = true := by
  have := now.nonneg
  rw [← Bool.not_eq_false, outsideActiveWindow_eq_false_iff] at h ⊢
  rw [PolicyConfig.opening] at h
  split_ifs at h <;> omega

theorem outsideActiveWindow_of_lt_opening (hnow : now.val ≤ t.val)
    (ht : t.val < (cfg.opening now).val) : outsideActiveWindow cfg t = true := by
  have := t.nonneg
  rw [PolicyConfig.opening] at ht
  rw [← Bool.not_eq_false, outsideActiveWindow_eq_false_iff]
  split_ifs at ht <;> omega

/-- **At every later time some gate is closed.** -/
theorem StaysShut.closed (h : StaysShut s cfg now) (ht : now.val ≤ t.val) :
    s.frozenOrFalse = true ∨ heartbeatExpired cfg s.heartbeatOrZero t = true ∨
      outsideActiveWindow cfg t = true := by
  rcases h with hfrozen | hexpired | houtside
  · exact .inl hfrozen
  · rcases lt_or_ge t.val (cfg.opening now).val with hlt | hge
    · exact .inr (.inr (outsideActiveWindow_of_lt_opening ht hlt))
    · exact .inr (.inl (heartbeatExpired_mono hexpired hge))
  · exact .inr (.inr (outsideActiveWindow_of_opening houtside ht))

theorem StaysShut.mono (h : StaysShut s cfg now) (ht : now.val ≤ t.val) : StaysShut s cfg t :=
  h.closed (ht.trans (le_opening cfg t))

theorem Lapsed.shut (h : Lapsed now s) (hinv : s.Inv host t) : Shut now s := by
  obtain ⟨cfg, hcfg, hexpired⟩ := h
  refine ⟨hinv.admin (by simp [hcfg]), fun cfg' hcfg' => ?_⟩
  obtain rfl : cfg = cfg' := Option.some.inj (hcfg.symm.trans hcfg')
  have hnow := heartbeatExpired_iff.mpr hexpired
  exact .inr (.inl (heartbeatExpired_mono hnow (le_opening cfg now)))

namespace Shut

theorem mono (h : Shut now s) (ht : now.val ≤ t.val) : Shut t s :=
  ⟨h.admin, fun cfg hcfg => (h.policy cfg hcfg).mono ht⟩

/-- A storage with the same policy, clock and freeze is shut as well. -/
theorem congr (h : Shut now s) (hadmin : s'.admin.isSome) (hpolicy : s'.policy = s.policy)
    (hbeat : s'.lastHeartbeat = s.lastHeartbeat) (hfrozen : s'.adminFrozen = s.adminFrozen) :
    Shut now s' := by
  refine ⟨hadmin, fun cfg hcfg => ?_⟩
  rw [StaysShut, State.frozenOrFalse, State.heartbeatOrZero, hbeat, hfrozen]
  exact h.policy cfg (hpolicy ▸ hcfg)

/-- **The gate is closed.** -/
theorem openPolicy_eq_none (h : Shut now s) :
    openPolicy s.policy ⟨s.frozenOrFalse, s.heartbeatOrZero⟩ now = none := by
  refine Option.eq_none_iff_forall_ne_some.mpr fun cfg hopen => ?_
  obtain ⟨hcfg, hfrozen, herror⟩ := openPolicy_eq_some_iff.mp hopen
  obtain ⟨halive, -, hinside⟩ := accountError_eq_none_iff.mp herror
  rcases (h.policy cfg hcfg).closed le_rfl with hyes | hexpired | houtside
  · exact Bool.noConfusion (hyes.symm.trans hfrozen)
  · exact halive hexpired
  · exact Bool.noConfusion (houtside.symm.trans hinside)

/-- **Nothing is granted any more.** -/
theorem not_grants (h : Shut env.timestamp s) (hinv : s.Inv host env.timestamp)
    (hne : contexts ≠ []) (cfg : PolicyConfig) : ¬Grants env s cfg contexts := fun hgrants => by
  obtain ⟨-, ⟨-, hnil, -⟩ | ⟨hopen, -⟩⟩ := hgrants.cases hinv
  · exact hne hnil
  · rw [h.openPolicy_eq_none] at hopen
    simp at hopen

theorem refusesAll (h : Shut t s) (hinv : s.Inv host t) : RefusesAll host t s := by
  intro c signaturePayload signature contexts hc hne
  have hshut : Shut (c.env host).timestamp s := h.mono hc
  have hno : ¬Approves (c.env host) s signaturePayload signature contexts := by
    rintro ⟨outcome, hcheck, hok⟩
    obtain ⟨cfg, hgrants, -⟩ := checkAuth_ok hcheck hok
    exact hshut.not_grants (hinv.mono hc) hne cfg hgrants
  refine ⟨hno, fun agent hkey hsig => ?_⟩
  cases hcfg : s.policy with
  | none =>
    obtain ⟨-, hrefuses⟩ := @checkAuth_noPolicy (c.env host) s signaturePayload signature agent hkey
      hsig hcfg contexts
    exact ⟨.noPolicy, (hrefuses _).mpr rfl⟩
  | some cfg =>
    rw [approves_iff_firstError hkey hsig hcfg] at hno
    obtain ⟨e, he⟩ := Option.ne_none_iff_exists'.mp hno
    exact ⟨e, (refuses_iff hkey hsig hcfg e).mpr he⟩

/-- **One call that leaves the account shut** moves neither the clock nor, other than to remove it
or over an empty request, the window. -/
theorem step {c : Call} (h : Shut c.timestamp s) (hinv : s.Inv host c.timestamp)
    (hc : KeepsShut host s c) :
    Shut c.timestamp (step host s c) ∧ (AgentGuard.step host s c).lastHeartbeat = s.lastHeartbeat ∧
      (((AgentGuard.step host s c).window = s.window ∨ (AgentGuard.step host s c).window = none) ∧
          approval host s c = none ∨
        ∃ entry, c.action = .checkAuth entry ∧ entry.contexts = []) := by
  have hshut : Shut (c.env host).timestamp s := h
  have hshape : s.Inv host (c.env host).timestamp := hinv
  have heff := stepEffect host s c
  generalize AgentGuard.step host s c = s', approval host s c = a at heff
  cases heff with
  | idle => exact ⟨h, rfl, .inl ⟨.inl rfl, rfl⟩⟩
  | initialized admin agentPubkey haction hfresh hauth =>
    have hinit := hinv.initialized h.admin
    simp [hinit] at hfresh
  | policySet admin cfg haction hadmin hauth hvalid =>
    obtain ⟨hsome, hstays⟩ := hc.set cfg haction (succeeds_setPolicy haction hadmin hauth hvalid)
    obtain ⟨old, hold⟩ := Option.isSome_iff_exists.mp hsome
    rw [installPolicy_eq, hold]
    refine ⟨⟨h.admin, fun cfg' hcfg' => ?_⟩, rfl, .inl ⟨.inl rfl, rfl⟩⟩
    obtain rfl : cfg = cfg' := Option.some.inj hcfg'
    exact hstays
  | windowReset admin haction hadmin hauth =>
    exact ⟨h.congr h.admin rfl rfl rfl, rfl, .inl ⟨.inr rfl, rfl⟩⟩
  | pausedSet admin cfg paused haction hadmin hauth hpolicy hflip =>
    refine ⟨⟨h.admin, fun cfg' hcfg' => ?_⟩, rfl, .inl ⟨.inl rfl, rfl⟩⟩
    obtain rfl : { cfg with paused } = cfg' := Option.some.inj hcfg'
    exact h.policy cfg hpolicy
  | policyRevoked admin haction hadmin hauth =>
    exact ⟨⟨h.admin, by simp [State.incrementRevision]⟩, rfl, .inl ⟨.inr rfl, rfl⟩⟩
  | frozen admin haction hadmin hauth =>
    exact ⟨⟨h.admin, fun _ _ => .inl rfl⟩, rfl, .inl ⟨.inl rfl, rfl⟩⟩
  | rotationConfirmed old pending haction hadmin hpending hauth =>
    exact ⟨h.congr rfl rfl rfl rfl, rfl, .inl ⟨.inl rfl, rfl⟩⟩
  | keyRotated | rotationProposed | rotationCancelled | autoFrozen =>
    exact ⟨h.congr h.admin rfl rfl rfl, rfl, .inl ⟨.inl rfl, rfl⟩⟩
  | unfrozen admin haction hadmin hauth =>
    exact absurd (succeeds_unfreeze haction hadmin hauth) (hc.unfreeze haction)
  | approved entry cfg haction hgrants =>
    have hnil : entry.contexts = [] := by
      by_contra hne
      exact hshut.not_grants hshape hne cfg hgrants
    refine ⟨h.congr ?_ (by simp) (by simp) (by simp), by simp, .inr ⟨entry, haction, hnil⟩⟩
    simpa using h.admin
  | heartbeat entry cfg haction hmem hgrants =>
    exact absurd hgrants (hshut.not_grants hshape (List.ne_nil_of_mem hmem) cfg)

end Shut

/-- **What a continuation without rescue keeps**, from the storage `s` on. -/
structure Dormant (host : Host) (s : State) (t : U64) (sh : State × List Approval) : Prop where
  inv : sh.1.Inv host t
  shut : Shut t sh.1
  heartbeat : sh.1.lastHeartbeat = s.lastHeartbeat
  window : sh.1.window = s.window ∨ sh.1.window = none
  approvals : sh.2 = []

theorem Dormant.step {sh : State × List Approval} {c : Call} (h : Dormant host s t sh)
    (ht : t.val ≤ c.timestamp.val) (hc : NoRescue c) :
    Dormant host s c.timestamp (exec host sh c) := by
  obtain ⟨hshut, hbeat, ⟨hwindow, hnone⟩ | ⟨entry, haction, hnil⟩⟩ :=
    (h.shut.mono ht).step (h.inv.mono ht) (hc.keepsShut host sh.1)
  · refine ⟨h.inv.step ht, hshut, hbeat.trans h.heartbeat, ?_, ?_⟩
    · rcases hwindow with hsame | hgone
      · exact hsame ▸ h.window
      · exact .inr hgone
    · rw [exec, hnone, h.approvals]
      rfl
  · exact absurd hnil (hc.contexts entry haction)

/-- **A lapsed account cannot revive itself.**  In every continuation without rescue the clock
stands still, nothing is admitted to the stored window, no authorization is approved on the way, and
none will be: `__check_auth` never says yes, and over a valid signature it says no. -/
theorem lapsed_run {t₀ : U64} (hreach : Reachable host t s) (ht : t.val ≤ t₀.val)
    (hlapsed : Lapsed t₀ s) {calls : List Call} (htimed : Timed Call.timestamp t₀ calls)
    (hcalls : ∀ c ∈ calls, NoRescue c) :
    (run host s calls).1.lastHeartbeat = s.lastHeartbeat ∧
      ((run host s calls).1.window = s.window ∨ (run host s calls).1.window = none) ∧
      (run host s calls).2 = [] ∧
      ∀ (c : Call) (signaturePayload signature : List UInt8) (contexts : List Context),
        (endTime Call.timestamp t₀ calls).val ≤ c.timestamp.val → contexts ≠ [] →
          ¬Approves (c.env host) (run host s calls).1 signaturePayload signature contexts ∧
            ∀ agent, (run host s calls).1.agentPubkey = some agent →
              host.ed25519Verify agent signaturePayload signature = true →
                ∃ e, Refuses (c.env host) (run host s calls).1 signaturePayload signature
                  contexts e := by
  have hrun : Dormant host s (endTime Call.timestamp t₀ calls) (run host s calls) :=
    htimed.foldl_invariant (Dormant host s) NoRescue
      (fun t sh c h htime hc => h.step htime hc) calls t₀ (s, []) hcalls
      ⟨hreach.inv.mono ht, hlapsed.shut hreach.inv, rfl, .inl rfl, rfl⟩
  exact ⟨hrun.heartbeat, hrun.window, hrun.approvals, hrun.shut.refusesAll hrun.inv⟩

/-! ## Policy edits -/

/-- An edit that goes through leaves the new policy over the clock and the freeze it found. -/
theorem step_edit {c : Call} {admin : Address} {old : PolicyConfig} (hold : s.policy = some old)
    (haction : c.action = .setPolicy cfg) (hadmin : s.admin = some admin)
    (hauth : c.authorized admin = true) (hvalid : validateConfig host.self cfg = .ok ()) :
    step host s c = { s with
      policy := some cfg
      policyRevision := some (s.currentRevision.saturatingAdd 1) } := by
  simp [step_eq, haction, Action.effect, setPolicy, adminOrPanic, hadmin, requireAuth, Call.env,
    hauth, hvalid, Effect.stateOr, installPolicy_eq, hold]

/-- What `resume` leaves, whether the policy was paused or not. -/
theorem policy_step_resume {c : Call} {admin : Address} (hcfg : s.policy = some cfg)
    (haction : c.action = .resume) (hadmin : s.admin = some admin)
    (hauth : c.authorized admin = true) :
    (step host s c).policy = some { cfg with paused := false } ∧
      (step host s c).lastHeartbeat = s.lastHeartbeat ∧
      (step host s c).adminFrozen = s.adminFrozen ∧
      (step host s c).agentPubkey = s.agentPubkey := by
  rw [step_eq, haction, Action.effect, resume, setPaused, adminOrPanic, hadmin]
  by_cases hpaused : cfg.paused = true
  · simp [requireAuth, Call.env, hauth, hcfg, hpaused, Effect.stateOr, State.incrementRevision]
  · have hsame : { cfg with paused := false } = cfg := by
      rw [← Bool.eq_false_iff.mpr hpaused]
    simp [requireAuth, Call.env, hauth, hcfg, hpaused, Effect.stateOr, hsame]

/-- **A heartbeat asks for nothing but open gates.** -/
theorem grants_heartbeat (hinv : s.Inv host env.timestamp)
    (hopen : openPolicy s.policy ⟨s.frozenOrFalse, s.heartbeatOrZero⟩ env.timestamp = some cfg) :
    Grants env s cfg [heartbeatContext env.host.self] := by
  have hparse : parseAll env.host.self cfg [heartbeatContext env.host.self]
      = [.selfCall "heartbeat"] := by
    simp [parseAll, heartbeatContext, parseCall]
  have hidle : (ParsedCall.selfCall "heartbeat").Idle := ⟨rfl, fun _ => rfl, rfl⟩
  rw [grants_iff hinv (List.cons_ne_nil _ _), hparse]
  exact ⟨by simp [maxAuthContexts], hopen, by simp [Permitted], hidle.fits (fits_nil cfg _)⟩

/-- Calls that leave the account shut leave it refusing. -/
theorem Reaches.refusesAll {t₀ : U64} {s₀ : State} (h : Reaches host (KeepsShut host) t₀ s₀ t s)
    (hreach : Reachable host t₀ s₀) (hshut : Shut t₀ s₀) : RefusesAll host t s := by
  have hstays : Shut t s := h.invariant hreach hshut fun c hopen hinv ht hok =>
    ((hopen.mono ht).step hinv hok).1
  exact hstays.refusesAll (h.reachable hreach).inv

/-- **Once the gates will open again, a heartbeat is approved**, if need be after `resume`. -/
theorem exists_approves {admin : Address} {agent : Bytes32}
    {signaturePayload signature : List UInt8} (hinv : s.Inv host now)
    (hcfg : s.policy = some cfg) (hadmin : s.admin = some admin) (hkey : s.agentPubkey = some agent)
    (hsig : host.ed25519Verify agent signaturePayload signature = true)
    (hopens : ¬StaysShut s cfg now) :
    ∃ s', Reaches host (KeepsShut host) now s now s' ∧
      ∃ c : Call, now.val ≤ c.timestamp.val ∧
        Approves (c.env host) s' signaturePayload signature [heartbeatContext host.self] := by
  let resume : Call := ⟨now, fun _ => true, .resume⟩
  obtain ⟨hpolicy, hbeat, hfrozen, hagent⟩ :=
    policy_step_resume (c := resume) hcfg rfl hadmin rfl
  have hreaches : Reaches host (KeepsShut host) now s now (AgentGuard.step host s resume) :=
    .call resume .start le_rfl ⟨by simp [resume], by simp [resume]⟩
  let c : Call := ⟨cfg.opening now, fun _ => true, .status⟩
  have hle : now.val ≤ c.timestamp.val := le_opening cfg now
  refine ⟨_, hreaches, c, hle, ?_⟩
  rw [StaysShut, not_or, not_or, Bool.not_eq_true, Bool.not_eq_true, Bool.not_eq_true] at hopens
  obtain ⟨hunfrozen, halive, hinside⟩ := hopens
  have hstate : (⟨(step host s resume).frozenOrFalse, (step host s resume).heartbeatOrZero⟩ :
      AccountState) = ⟨s.frozenOrFalse, s.heartbeatOrZero⟩ := by
    rw [State.frozenOrFalse, State.heartbeatOrZero, hfrozen, hbeat]
    rfl
  have herror : accountError { cfg with paused := false } ⟨s.frozenOrFalse, s.heartbeatOrZero⟩
      c.timestamp = none :=
    accountError_eq_none_iff.mpr ⟨Bool.not_eq_true _ ▸ halive, rfl, hinside⟩
  rw [approves_iff_grants (hagent.trans hkey) hsig]
  refine ⟨{ cfg with paused := false }, grants_heartbeat ((hinv.step le_rfl).mono hle) ?_⟩
  rw [hstate]
  exact openPolicy_eq_some_iff.mpr ⟨hpolicy, hunfrozen, herror⟩

/-- **A policy edit lifts an expiry exactly when the new policy opens.**  After an edit of a lapsed
account, every state reached by calls that leave it shut refuses everything, if and only if the edit
itself does. -/
theorem edit_refuses_iff {c : Call} {admin : Address} {agent : Bytes32}
    {signaturePayload signature : List UInt8} (hreach : Reachable host t s)
    (ht : t.val ≤ c.timestamp.val) (hlapsed : Lapsed c.timestamp s)
    (haction : c.action = .setPolicy cfg) (hadmin : s.admin = some admin)
    (hauth : c.authorized admin = true) (hvalid : validateConfig host.self cfg = .ok ())
    (hkey : s.agentPubkey = some agent)
    (hsig : host.ed25519Verify agent signaturePayload signature = true) :
    (∀ t' s', Reaches host (KeepsShut host) c.timestamp (step host s c) t' s' →
        RefusesAll host t' s')
      ↔ StaysShut s cfg c.timestamp := by
  have hedited : Reachable host c.timestamp (AgentGuard.step host s c) := .call c hreach ht
  obtain ⟨old, hold, -⟩ := hlapsed
  rw [step_edit hold haction hadmin hauth hvalid] at hedited ⊢
  constructor
  · intro hrefuses
    by_contra hopens
    obtain ⟨s', hrun, c', hc', happroves⟩ :=
      exists_approves hedited.inv rfl hadmin hkey hsig hopens
    exact (hrefuses _ s' hrun c' _ _ _ hc' (List.cons_ne_nil _ _)).1 happroves
  · intro hstays t' s' hrun
    refine hrun.refusesAll hedited ⟨by simp [hadmin], fun cfg' hcfg' => ?_⟩
    obtain rfl : cfg = cfg' := Option.some.inj hcfg'
    exact hstays

end

namespace Sample

/-- A grace of ten seconds on top of the rolling cap. -/
def guarded : PolicyConfig := { capFifty with dmsGraceSecs := 10 }

/-- A heartbeat bundled with a transfer, the window reset, the permissionless refresh. -/
def struggle : List Call :=
  [call 130 (.heartbeat ⟨[], [], [heartbeatContext host.self, pay 5]⟩), auth 131 [pay 5],
    call 140 .refreshDeadman, call 141 .resetWindow, auth 150 [pay 5]]

theorem struggle_noRescue : ∀ c ∈ struggle, NoRescue c := by
  intro c hc
  simp only [struggle, List.mem_cons, List.not_mem_nil, or_false] at hc
  rcases hc with rfl | rfl | rfl | rfl | rfl <;>
    exact ⟨by simp [auth, call], by simp [auth, call], by simp [auth, call], by simp [auth, call]⟩

/-- Thirty seconds after the install, nothing the agent does brings the account back. -/
theorem struggle_fails :
    (run host (installed guarded) struggle).1.lastHeartbeat = some 100 ∧
      (run host (installed guarded) struggle).2 = [] := by
  have h := lapsed_run (reachable_installed guarded)
    (show (100 : U64).val ≤ (130 : U64).val by decide)
    (show Lapsed 130 (installed guarded) from ⟨guarded, by rfl, by decide, by decide, by decide⟩)
    (show Timed Call.timestamp 130 struggle by simp only [Timed, struggle]; decide)
    struggle_noRescue
  exact ⟨h.1.trans (by rfl), h.2.2.1⟩

/-- Shortening the grace of a lapsed account keeps it shut. -/
theorem shortened_refuses :
    RefusesAll host 130 (step host (installed guarded)
      (call 130 (.setPolicy { guarded with dmsGraceSecs := 5 }))) := by
  have hiff := edit_refuses_iff (c := call 130 (.setPolicy { guarded with dmsGraceSecs := 5 }))
    (reachable_installed guarded) (show (100 : U64).val ≤ (130 : U64).val by decide)
    (show Lapsed 130 (installed guarded) from ⟨guarded, by rfl, by decide, by decide, by decide⟩)
    rfl (show (installed guarded).admin = some admin by rfl) (by rfl) (by rfl)
    (show (installed guarded).agentPubkey = some _ by rfl)
    (show host.ed25519Verify _ [] [] = true by rfl)
  exact hiff.mpr (.inr (.inl (by rfl))) _ _ .start

/-- Switching the grace off brings a lapsed account back: ten seconds after the edit, without an
`unfreeze`, the agent's transfer is approved. -/
theorem edit_lifts_expiry :
    Reachable host 100 (installed guarded) ∧ Lapsed 130 (installed guarded) ∧
      validateConfig host.self { guarded with dmsGraceSecs := 0 } = .ok () ∧
      Approves ((auth 140 [pay 5]).env host)
        (step host (installed guarded) (call 130 (.setPolicy { guarded with dmsGraceSecs := 0 })))
        [] [] [pay 5] :=
  ⟨reachable_installed guarded, ⟨guarded, by rfl, by decide, by decide, by decide⟩, by rfl,
    _, by rfl, by rfl⟩

end Sample

end AgentGuard
