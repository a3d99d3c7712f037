import AgentGuard.Contract.Events

/-!
# Contract/Handover — admin authority passes only by a two-step handover

`propose_admin_rotation` by the stored admin, then `confirm_admin_rotation` by the address it named.
The history property rests on one inversion (`rotation_cases`): a call leaves both admin fields
alone, or it is one of the four calls that write them.
-/

namespace AgentGuard

open Machinery

/-- The entry points that ask for the stored admin's authorization. -/
def Action.AdminOnly : Action → Prop
  | .setPolicy _ | .resetWindow | .pause | .resume | .revokePolicy | .rotateAgentKey _
  | .proposeAdminRotation _ | .cancelAdminRotation | .freeze | .unfreeze => True
  | _ => False

/-- The entry points that write the pending admin. -/
def Action.Rotates : Action → Prop
  | .proposeAdminRotation _ | .confirmAdminRotation | .cancelAdminRotation => True
  | _ => False

/-- **The proposal standing at point `i`**: the admin of that moment named `newAdmin` in a call that
succeeded, and no rotation call has succeeded since. -/
def StandingProposal (host : Host) (calls : List Call) (i : ℕ) (admin newAdmin : Address) : Prop :=
  ∃ j p, j < i ∧ calls[j]? = some p ∧ p.action = .proposeAdminRotation newAdmin ∧
    Succeeds host (stateAt host calls j) p ∧ (stateAt host calls j).admin = some admin ∧
    p.authorized admin = true ∧
    ∀ k q, j < k → k < i → calls[k]? = some q → q.action.Rotates →
      ¬Succeeds host (stateAt host calls k) q

/-! ## One call -/

section

variable {host : Host} {s : State} {c : Call}

/-- **Every admin entry point that succeeds was authorized by the stored admin.** -/
theorem Succeeds.authorized (h : Succeeds host s c) (hadmin : c.action.AdminOnly) :
    ∃ admin, s.admin = some admin ∧ c.authorized admin = true := by
  obtain ⟨r, hr⟩ := h
  have hrun : ∃ k, c.action.effect (c.env host) s = (adminOrPanic (c.env host) s >>= k) := by
    revert hadmin
    cases c.action <;> intro hadmin <;> first | exact hadmin.elim | exact ⟨_, rfl⟩
  obtain ⟨k, hk⟩ := hrun
  obtain ⟨admin, hstored, hauth, -⟩ := adminOrPanic_bind_ok (hk ▸ hr)
  exact ⟨admin, hstored, hauth⟩

theorem Succeeds.initializes {admin : Address} {key : Bytes32} (h : Succeeds host s c)
    (haction : c.action = .initializeAccount admin key) :
    s.initialized.getD false = false ∧ c.authorized admin = true ∧
      (step host s c).admin = some admin ∧ (step host s c).pendingAdmin = s.pendingAdmin ∧
      (step host s c).initialized = some true := by
  obtain ⟨⟨s', events⟩, hr⟩ := h
  rw [step_of_ok hr]
  rw [haction, Action.effect, initializeAccount] at hr
  split_ifs at hr with hfresh
  obtain ⟨hauth, hbody⟩ := requireAuth_bind_ok hr
  obtain ⟨rfl, -⟩ := pure_eq_ok hbody
  exact ⟨by simpa using hfresh, hauth, rfl, rfl, rfl⟩

theorem Succeeds.propose {newAdmin : Address} (h : Succeeds host s c)
    (haction : c.action = .proposeAdminRotation newAdmin) :
    ∃ admin, s.admin = some admin ∧ c.authorized admin = true ∧ newAdmin ≠ admin ∧
      (step host s c).admin = some admin ∧ (step host s c).pendingAdmin = some newAdmin := by
  obtain ⟨⟨s', events⟩, hr⟩ := h
  rw [step_of_ok hr]
  rw [haction, Action.effect, proposeAdminRotation] at hr
  obtain ⟨admin, hadmin, hauth, hbody⟩ := adminOrPanic_bind_ok hr
  split_ifs at hbody with hne
  obtain ⟨rfl, -⟩ := pure_eq_ok hbody
  exact ⟨admin, hadmin, hauth, hne, hadmin, rfl⟩

theorem Succeeds.confirm (h : Succeeds host s c) (haction : c.action = .confirmAdminRotation) :
    ∃ old pending, s.admin = some old ∧ s.pendingAdmin = some pending ∧
      c.authorized pending = true ∧ (step host s c).admin = some pending ∧
      (step host s c).pendingAdmin = none := by
  obtain ⟨⟨s', events⟩, hr⟩ := h
  rw [step_of_ok hr]
  rw [haction, Action.effect, confirmAdminRotation] at hr
  cases hadmin : s.admin with
  | none => simp [hadmin] at hr
  | some old =>
    cases hpending : s.pendingAdmin with
    | none => simp [hadmin, hpending] at hr
    | some pending =>
      simp only [hadmin, hpending] at hr
      obtain ⟨hauth, hbody⟩ := requireAuth_bind_ok hr
      obtain ⟨rfl, -⟩ := pure_eq_ok hbody
      exact ⟨old, pending, rfl, rfl, hauth, rfl, rfl⟩

theorem Succeeds.cancel (h : Succeeds host s c) (haction : c.action = .cancelAdminRotation) :
    (step host s c).admin = s.admin ∧ (step host s c).pendingAdmin = none := by
  obtain ⟨⟨s', events⟩, hr⟩ := h
  rw [step_of_ok hr]
  rw [haction, Action.effect, cancelAdminRotation] at hr
  obtain ⟨admin, hadmin, hauth, hbody⟩ := adminOrPanic_bind_ok hr
  cases hpending : s.pendingAdmin with
  | none => simp [hpending] at hbody
  | some pending =>
    simp only [hpending, pure, Except.pure, Except.ok.injEq, Prod.mk.injEq] at hbody
    obtain ⟨rfl, -⟩ := hbody
    exact ⟨rfl, rfl⟩

/-- Every other call leaves the admin fields alone. -/
theorem step_admin_frame (hrot : ¬c.action.Rotates)
    (hinit : ∀ admin key, c.action ≠ .initializeAccount admin key) :
    (step host s c).admin = s.admin ∧ (step host s c).pendingAdmin = s.pendingAdmin := by
  have heff := stepEffect host s c
  generalize step host s c = s', approval host s c = a at heff
  cases heff with
  | initialized admin key haction => exact absurd haction (hinit admin key)
  | rotationProposed _ _ haction => simp [haction, Action.Rotates] at hrot
  | rotationConfirmed _ _ haction => simp [haction, Action.Rotates] at hrot
  | rotationCancelled _ haction => simp [haction, Action.Rotates] at hrot
  | policySet => simp [installPolicy_eq]
  | approved => simp
  | heartbeat => simp [recordHeartbeat_eq]
  | idle | windowReset | pausedSet | policyRevoked | keyRotated | frozen | autoFrozen | unfrozen =>
    exact ⟨rfl, rfl⟩

/-- **What one call can do to the admin fields.** -/
theorem rotation_cases (host : Host) (s : State) (c : Call) :
    (¬(c.action.Rotates ∧ Succeeds host s c) ∧ (step host s c).admin = s.admin ∧
        (step host s c).pendingAdmin = s.pendingAdmin) ∨
      (∃ admin key, c.action = .initializeAccount admin key ∧ Succeeds host s c) ∨
      (∃ newAdmin, c.action = .proposeAdminRotation newAdmin ∧ Succeeds host s c) ∨
      (c.action = .confirmAdminRotation ∧ Succeeds host s c) ∨
      (c.action = .cancelAdminRotation ∧ Succeeds host s c) := by
  by_cases hok : Succeeds host s c
  · cases haction : c.action with
    | initializeAccount admin key => exact .inr (.inl ⟨admin, key, rfl, hok⟩)
    | proposeAdminRotation newAdmin => exact .inr (.inr (.inl ⟨newAdmin, rfl, hok⟩))
    | confirmAdminRotation => exact .inr (.inr (.inr (.inl ⟨rfl, hok⟩)))
    | cancelAdminRotation => exact .inr (.inr (.inr (.inr ⟨rfl, hok⟩)))
    | _ =>
      exact .inl ⟨fun h => h.1, step_admin_frame (by simp [haction, Action.Rotates])
        (by simp [haction])⟩
  · rw [step_of_not_succeeds hok]
    exact .inl ⟨fun h => hok h.2, rfl, rfl⟩

/-- **The admin fields fit together**: an admin is stored only by an initialized account, and a
pending admin is pending on somebody else. -/
structure State.Chartered (s : State) : Prop where
  initialized : s.admin.isSome → s.initialized = some true
  pending : ∀ p, s.pendingAdmin = some p → ∃ a, s.admin = some a ∧ p ≠ a

/-- Before `initialize` there is no admin at all. -/
theorem State.Chartered.fresh (h : s.Chartered) (hfresh : s.initialized.getD false = false) :
    s.admin = none ∧ s.pendingAdmin = none := by
  have hnone : s.admin = none := by
    by_contra hsome
    rw [h.initialized (Option.isSome_iff_ne_none.mpr hsome)] at hfresh
    simp at hfresh
  refine ⟨hnone, Option.eq_none_iff_forall_ne_some.mpr fun p hp => ?_⟩
  obtain ⟨a, ha, -⟩ := h.pending p hp
  rw [hnone] at ha
  simp at ha

theorem State.Chartered.step (h : s.Chartered) (c : Call) : (step host s c).Chartered := by
  rcases rotation_cases host s c with ⟨-, hadmin, hpending⟩ | ⟨admin, key, haction, hok⟩ |
    ⟨newAdmin, haction, hok⟩ | ⟨haction, hok⟩ | ⟨haction, hok⟩
  · refine ⟨fun hsome => step_initialized (h.initialized (hadmin ▸ hsome)), ?_⟩
    rw [hadmin, hpending]
    exact h.pending
  · obtain ⟨hfresh, -, hadmin, hpending, hinit⟩ := hok.initializes haction
    refine ⟨fun _ => hinit, fun p hp => ?_⟩
    rw [hpending, (h.fresh hfresh).2] at hp
    simp at hp
  · obtain ⟨admin, hadmin, -, hne, hadmin', hpending⟩ := hok.propose haction
    refine ⟨fun _ => step_initialized (h.initialized (by simp [hadmin])), fun p hp => ?_⟩
    obtain rfl : newAdmin = p := Option.some.inj (hpending.symm.trans hp)
    exact ⟨admin, hadmin', hne⟩
  · obtain ⟨old, pending, hadmin, -, -, -, hpending⟩ := hok.confirm haction
    refine ⟨fun _ => step_initialized (h.initialized (by simp [hadmin])), fun p hp => ?_⟩
    simp [hpending] at hp
  · obtain ⟨hadmin, hpending⟩ := hok.cancel haction
    refine ⟨fun hsome => step_initialized (h.initialized (hadmin ▸ hsome)), fun p hp => ?_⟩
    simp [hpending] at hp

end

/-! ## Whole runs -/

section

variable {host : Host} {calls : List Call} {i : ℕ} {c : Call}

theorem chartered_stateAt (host : Host) (calls : List Call) (i : ℕ) :
    (stateAt host calls i).Chartered :=
  pointAt_of_le (fun _ c h => h.step c) (Nat.zero_le i)
    ⟨by simp [State.empty], by simp [State.empty]⟩

/-- A call that moves no rotation leaves a standing proposal standing. -/
theorem StandingProposal.succ {admin newAdmin : Address}
    (h : StandingProposal host calls i admin newAdmin)
    (hstep : ∀ q, calls[i]? = some q → q.action.Rotates → ¬Succeeds host (stateAt host calls i) q) :
    StandingProposal host calls (i + 1) admin newAdmin := by
  obtain ⟨j, p, hj, hp, haction, hok, hadmin, hauth, hsince⟩ := h
  refine ⟨j, p, hj.trans (Nat.lt_succ_self i), hp, haction, hok, hadmin, hauth, ?_⟩
  intro k q hjk hki hq hrot
  rcases (Nat.lt_succ_iff.mp hki).eq_or_lt with rfl | hlt
  · exact hstep q hq hrot
  · exact hsince k q hjk hlt hq hrot

/-- **A pending admin is one the current admin proposed**, in a call that still stands. -/
theorem standing_of_pending (host : Host) (calls : List Call) (i : ℕ) :
    ∀ newAdmin, (stateAt host calls i).pendingAdmin = some newAdmin →
      ∃ admin, (stateAt host calls i).admin = some admin ∧
        StandingProposal host calls i admin newAdmin := by
  induction i with
  | zero =>
    intro newAdmin h
    simp [stateAt, State.empty] at h
  | succ i ih =>
    intro newAdmin h
    cases hc : calls[i]? with
    | none =>
      rw [stateAt, pointAt_succ_of_none hc] at h ⊢
      obtain ⟨admin, hadmin, hstanding⟩ := ih newAdmin h
      exact ⟨admin, hadmin, hstanding.succ (by simp [hc])⟩
    | some c =>
      rw [stateAt_succ hc] at h ⊢
      rcases rotation_cases host (stateAt host calls i) c with ⟨hno, hadmin, hpending⟩ |
        ⟨admin, key, haction, hok⟩ | ⟨named, haction, hok⟩ | ⟨haction, hok⟩ | ⟨haction, hok⟩
      · obtain ⟨admin, hadmin', hstanding⟩ := ih newAdmin (hpending ▸ h)
        refine ⟨admin, hadmin.trans hadmin', hstanding.succ fun q hq hrot hok => hno ?_⟩
        obtain rfl : c = q := Option.some.inj (hc.symm.trans hq)
        exact ⟨hrot, hok⟩
      -- before `initialize` nothing is pending
      · obtain ⟨hfresh, -, -, hpending, -⟩ := hok.initializes haction
        rw [hpending, ((chartered_stateAt host calls i).fresh hfresh).2] at h
        simp at h
      · obtain ⟨admin, hadmin, hauth, -, hadmin', hpending⟩ := hok.propose haction
        obtain rfl : named = newAdmin := Option.some.inj (hpending.symm.trans h)
        refine ⟨admin, hadmin', i, c, Nat.lt_succ_self i, hc, haction, hok, hadmin, hauth, ?_⟩
        intro k q hik hki
        omega
      · obtain ⟨_, _, -, -, -, -, hpending⟩ := hok.confirm haction
        simp [hpending] at h
      · simp [(hok.cancel haction).2] at h

/-- After an `initialize` that succeeded, none does. -/
theorem not_succeeds_initialize {j : ℕ} {c' : Call} {admin admin' : Address} {key key' : Bytes32}
    (hij : i < j) (hc : calls[i]? = some c) (haction : c.action = .initializeAccount admin key)
    (hok : Succeeds host (stateAt host calls i) c)
    (haction' : c'.action = .initializeAccount admin' key') :
    ¬Succeeds host (stateAt host calls j) c' := by
  obtain ⟨-, -, -, -, hinit⟩ := hok.initializes haction
  rw [← stateAt_succ hc] at hinit
  have hlater : (stateAt host calls j).initialized = some true :=
    pointAt_of_le (P := fun s : State => s.initialized = some true)
      (fun _ _ h => step_initialized h)
      (Nat.succ_le_of_lt hij) hinit
  intro hok'
  have hfresh := (hok'.initializes haction').1
  simp [hlater] at hfresh

/-- A stored admin is replaced only by the one it proposed. -/
theorem handover_of_admin_ne {old : Address} (hc : calls[i]? = some c)
    (hold : (stateAt host calls i).admin = some old)
    (hne : (stateAt host calls (i + 1)).admin ≠ some old) :
    ∃ newAdmin, c.action = .confirmAdminRotation ∧ Succeeds host (stateAt host calls i) c ∧
      c.authorized newAdmin = true ∧ (stateAt host calls (i + 1)).admin = some newAdmin ∧
      StandingProposal host calls i old newAdmin := by
  rw [stateAt_succ hc] at hne ⊢
  rcases rotation_cases host (stateAt host calls i) c with ⟨-, hadmin, -⟩ |
    ⟨admin, key, haction, hok⟩ | ⟨named, haction, hok⟩ | ⟨haction, hok⟩ | ⟨haction, hok⟩
  · exact absurd (hadmin.trans hold) hne
  · have hnone := ((chartered_stateAt host calls i).fresh (hok.initializes haction).1).1
    simp [hnone] at hold
  · obtain ⟨admin, hadmin, -, -, hadmin', -⟩ := hok.propose haction
    exact absurd (hadmin'.trans (hadmin.symm.trans hold)) hne
  · obtain ⟨_, pending, -, hpending, hauth, hadmin', -⟩ := hok.confirm haction
    obtain ⟨admin, hadmin, hstanding⟩ := standing_of_pending host calls i pending hpending
    obtain rfl : admin = old := Option.some.inj (hadmin.symm.trans hold)
    exact ⟨pending, haction, hok, hauth, hadmin', hstanding⟩
  · exact absurd ((hok.cancel haction).1.trans hold) hne

/-- The first admin is the one that authorized `initialize`. -/
theorem initialize_of_admin_none {admin : Address} (hc : calls[i]? = some c)
    (hnone : (stateAt host calls i).admin = none)
    (hsome : (stateAt host calls (i + 1)).admin = some admin) :
    ∃ key, c.action = .initializeAccount admin key ∧ Succeeds host (stateAt host calls i) c ∧
      c.authorized admin = true := by
  rw [stateAt_succ hc] at hsome
  rcases rotation_cases host (stateAt host calls i) c with ⟨-, hadmin, -⟩ |
    ⟨named, key, haction, hok⟩ | ⟨named, haction, hok⟩ | ⟨haction, hok⟩ | ⟨haction, hok⟩
  · simp [hadmin, hnone] at hsome
  · obtain ⟨-, hauth, hadmin, -⟩ := hok.initializes haction
    obtain rfl : named = admin := Option.some.inj (hadmin.symm.trans hsome)
    exact ⟨key, haction, hok, hauth⟩
  · obtain ⟨_, hadmin, -⟩ := hok.propose haction
    simp [hnone] at hadmin
  · obtain ⟨_, _, hadmin, -⟩ := hok.confirm haction
    simp [hnone] at hadmin
  · simp [(hok.cancel haction).1, hnone] at hsome

end

/-- **Admin authority passes only by an explicit two-step handover.**  In every run, whoever stands
behind its calls: `initialize` succeeds at most once and stores the admin that authorized it; a
stored admin is replaced only in a `confirm_admin_rotation` by the address it proposed itself, in a
proposal that still stands; a pending admin differs from the stored one; and an admin entry point
succeeds only as the stored admin, so that a replaced one has no further effect. -/
theorem admin_handover (host : Host) (calls : List Call) :
    (∀ i j c c' admin admin' key key', i < j → calls[i]? = some c → calls[j]? = some c' →
        c.action = .initializeAccount admin key → c'.action = .initializeAccount admin' key' →
        Succeeds host (stateAt host calls i) c → ¬Succeeds host (stateAt host calls j) c') ∧
      (∀ i c admin, calls[i]? = some c → (stateAt host calls i).admin = none →
        (stateAt host calls (i + 1)).admin = some admin →
          ∃ key, c.action = .initializeAccount admin key ∧
            Succeeds host (stateAt host calls i) c ∧ c.authorized admin = true) ∧
      (∀ i c old, calls[i]? = some c → (stateAt host calls i).admin = some old →
        (stateAt host calls (i + 1)).admin ≠ some old →
          ∃ newAdmin, c.action = .confirmAdminRotation ∧
            Succeeds host (stateAt host calls i) c ∧ c.authorized newAdmin = true ∧
            (stateAt host calls (i + 1)).admin = some newAdmin ∧
            StandingProposal host calls i old newAdmin) ∧
      (∀ i pending, (stateAt host calls i).pendingAdmin = some pending →
        ∃ admin, (stateAt host calls i).admin = some admin ∧ pending ≠ admin) ∧
      ∀ i c, calls[i]? = some c → c.action.AdminOnly →
        (Succeeds host (stateAt host calls i) c →
          ∃ admin, (stateAt host calls i).admin = some admin ∧ c.authorized admin = true) ∧
        ((∀ admin, (stateAt host calls i).admin = some admin → c.authorized admin = false) →
          ¬Succeeds host (stateAt host calls i) c ∧
            stateAt host calls (i + 1) = stateAt host calls i) := by
  refine ⟨?_, fun i c admin => initialize_of_admin_none, fun i c old => handover_of_admin_ne,
    fun i => (chartered_stateAt host calls i).pending, ?_⟩
  · intro i j c c' admin admin' key key' hij hc _ haction haction' hok
    exact not_succeeds_initialize hij hc haction hok haction'
  · intro i c hc honly
    refine ⟨fun hok => hok.authorized honly, fun hother => ?_⟩
    have hno : ¬Succeeds host (stateAt host calls i) c := fun hok => by
      obtain ⟨admin, hadmin, hauth⟩ := hok.authorized honly
      simp [hother admin hadmin] at hauth
    exact ⟨hno, (stateAt_succ hc).trans (step_of_not_succeeds hno)⟩

namespace Sample

/-- A call at `time` that `who` stands behind. -/
def callBy (who : Address) (time : U64) (action : Action) : Call := ⟨time, fun a => a = who, action⟩

/-- The admin hands over to the payee, then tries to freeze. -/
def rotation : List Call :=
  [call 1 (.initializeAccount admin (Vector.replicate 32 0)), call 2 (.proposeAdminRotation payee),
    callBy payee 3 .confirmAdminRotation, call 4 .freeze, callBy payee 5 .freeze]

example : (List.range 6).map (fun i =>
      ((stateAt host rotation i).admin, (stateAt host rotation i).adminFrozen))
    = [(none, none), (some admin, some false), (some admin, some false), (some payee, some false),
        (some payee, some false), (some payee, some true)] := by decide

end Sample

end AgentGuard
