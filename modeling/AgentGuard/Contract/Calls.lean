import AgentGuard.Contract.Events

/-!
# Contract/Calls — what the calls do that the admin stands behind

`stepEffect` says what a call may have done; these lemmas say what a call does, once its
authorization is there.
-/

namespace AgentGuard

open Machinery

variable {host : Host} {s : State} {admin : Address} {authorized : Address → Bool}

/-- **What `initialize` sets is never removed.** -/
structure State.SetUp (s : State) : Prop where
  key : s.admin.isSome → s.agentPubkey.isSome
  frozen : s.agentPubkey.isSome → s.adminFrozen.isSome

/-- Before `initialize` neither is there. -/
theorem setUp_deployed : State.empty.SetUp := ⟨by simp [State.empty], by simp [State.empty]⟩

/-- **Every call keeps what `initialize` set**: a rotation replaces a key, nothing removes one. -/
theorem State.SetUp.step (h : s.SetUp) (c : Call) : (step host s c).SetUp := by
  have heff := stepEffect host s c
  generalize AgentGuard.step host s c = s', approval host s c = a at heff
  cases heff with
  | initialized => exact ⟨fun _ => rfl, fun _ => rfl⟩
  | policySet =>
    rw [installPolicy_eq]
    exact ⟨h.key, h.frozen⟩
  | rotationConfirmed old pending haction hadmin =>
    exact ⟨fun _ => h.key (by rw [hadmin]; rfl), h.frozen⟩
  | keyRotated admin key haction hadmin hauth hkey =>
    exact ⟨fun _ => rfl, fun _ => h.frozen hkey⟩
  | frozen | unfrozen => exact ⟨h.key, fun _ => rfl⟩
  | approved =>
    rw [admitted_eq]
    exact ⟨h.key, h.frozen⟩
  | heartbeat =>
    rw [recordHeartbeat_eq, admitted_eq]
    exact ⟨h.key, h.frozen⟩
  | _ => exact ⟨h.key, h.frozen⟩

/-- So it holds wherever an account can be, -/
theorem Reachable.setUp {t : U64} (h : Reachable host t s) : s.SetUp := by
  induction h with
  | deployed => exact setUp_deployed
  | call c _ _ ih => exact ih.step c

/-- and at every point of a run. -/
theorem setUp_stateAt (host : Host) (calls : List Call) (i : ℕ) : (stateAt host calls i).SetUp :=
  pointAt_of_le (fun _ c h => h.step c) (Nat.zero_le i) setUp_deployed

/-- **The first `initialize`** sets everything at once; the clock does not run yet. -/
theorem step_initializeAccount (hfresh : s.initialized.getD false = false)
    (hauth : authorized admin = true) (time : U64) (key : Bytes32) :
    step host s ⟨time, authorized, .initializeAccount admin key⟩ = { s with
      admin := some admin
      agentPubkey := some key
      initialized := some true
      adminFrozen := some false
      lastHeartbeat := some 0 } := by
  simp [step, Action.effect, initializeAccount, hfresh, requireAuth, Call.env, hauth]

section

variable (hadmin : s.admin = some admin) (hauth : authorized admin = true) (time : U64)
include hadmin hauth

/-- **The body of an admin entry point runs**, when the stored admin stands behind the call. -/
theorem step_asAdmin {action : Action} {k : Address → Effect}
    (heff : action.effect ⟨host, time, authorized⟩ s
      = adminOrPanic ⟨host, time, authorized⟩ s >>= k) :
    step host s ⟨time, authorized, action⟩ = Effect.stateOr (k admin) s := by
  rw [step_eq, Call.env]
  dsimp only
  rw [heff, adminOrPanic, hadmin]
  simp only [bind_assoc, requireAuth, hauth, if_true]
  rfl

/-- With nothing pending the call aborts, which comes to the same. -/
theorem step_cancelAdminRotation : step host s ⟨time, authorized, .cancelAdminRotation⟩
    = { s with pendingAdmin := none } := by
  refine (step_asAdmin hadmin hauth time rfl).trans ?_
  cases hpending : s.pendingAdmin with
  | none =>
    obtain ⟨_, _, _, _, _, _, _, _, _, _⟩ := s
    obtain rfl := hpending
    rfl
  | some pending => rfl

/-- The window goes with the policy, and the revision counts it. -/
theorem step_revokePolicy : step host s ⟨time, authorized, .revokePolicy⟩
    = { s with policy := none, window := none }.incrementRevision :=
  (step_asAdmin hadmin hauth time rfl).trans rfl

/-- An ill-formed policy aborts the call. -/
theorem step_setPolicy (cfg : PolicyConfig) : step host s ⟨time, authorized, .setPolicy cfg⟩
    = match validateConfig host.self cfg with
      | .ok () => installPolicy s cfg time
      | .error _ => s := by
  refine (step_asAdmin hadmin hauth time rfl).trans ?_
  cases validateConfig host.self cfg <;> rfl

theorem step_rotateAgentKey (hkey : s.agentPubkey.isSome) (key : Bytes32) :
    step host s ⟨time, authorized, .rotateAgentKey key⟩ = { s with agentPubkey := some key } := by
  obtain ⟨old, hold⟩ := Option.isSome_iff_exists.mp hkey
  refine (step_asAdmin hadmin hauth time rfl).trans ?_
  rw [hold]
  rfl

theorem step_unfreeze : step host s ⟨time, authorized, .unfreeze⟩
    = { s with adminFrozen := some false, lastHeartbeat := some time } :=
  (step_asAdmin hadmin hauth time rfl).trans rfl

end

end AgentGuard
