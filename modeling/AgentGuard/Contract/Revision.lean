import AgentGuard.Contract.Events

/-!
# Contract/Revision — the policy revision is a sound join key

Every write of the stored policy bumps `PolicyRevision` in the same step, so as long as the counter
has not run out of `u64` two points of a run with the same revision hold the same policy, and an
event is attributed to a policy by the revision it carries.
-/

namespace AgentGuard

open Machinery

/-- Whether the call runs `increment_revision`: it writes or removes the policy, or flips its
flag. -/
def bumpsRevision (host : Host) (s : State) (c : Call) : Bool :=
  (c.action.effect (c.env host) s).isOk &&
    match c.action with
    | .setPolicy _ | .revokePolicy => true
    | .pause => s.policy.map PolicyConfig.paused = some false
    | .resume => s.policy.map PolicyConfig.paused = some true
    | _ => false

/-- How often the counter is bumped before the `i`-th call of a run. -/
def incrementsAt (host : Host) (calls : List Call) (i : ℕ) : ℕ :=
  (List.range i).countP fun k => calls[k]?.any fun c => bumpsRevision host (stateAt host calls k) c

/-! ## One call -/

section

variable {host : Host} {s s' : State} {c : Call} {env : Env} {events : List Event}

@[simp] theorem val_currentRevision_incrementRevision (s : State) :
    s.incrementRevision.currentRevision.val = min u64.hi (s.currentRevision.val + 1) :=
  BoundedInt.val_saturatingAdd_of_nonneg _ (by decide)

/-- A call that does not bump the counter leaves the policy and the counter alone. -/
theorem policy_of_not_bumps (h : bumpsRevision host s c = false) :
    (step host s c).policy = s.policy ∧
      (step host s c).currentRevision = s.currentRevision := by
  by_cases hok : Succeeds host s c
  · obtain ⟨r, hr⟩ := hok
    rw [bumpsRevision, hr, Except.isOk, Except.toBool, Bool.true_and] at h
    have heff := stepEffect host s c
    generalize step host s c = s', approval host s c = a at heff
    cases heff with
    | policySet _ _ haction => simp [haction] at h
    | policyRevoked _ haction => simp [haction] at h
    | pausedSet _ cfg paused haction _ _ hpolicy hflip =>
      rcases haction with ⟨haction, rfl⟩ | ⟨haction, rfl⟩ <;> simp_all
    | approved => simp [State.currentRevision]
    | heartbeat => simp [recordHeartbeat_eq, State.currentRevision]
    | _ => exact ⟨rfl, rfl⟩
  · rw [step_of_not_succeeds hok]
    exact ⟨rfl, rfl⟩

/-- **A call that bumps the counter bumps it by one.** -/
theorem revision_of_bumps (h : bumpsRevision host s c = true) :
    (step host s c).currentRevision.val = min u64.hi (s.currentRevision.val + 1) := by
  rw [bumpsRevision, Bool.and_eq_true] at h
  obtain ⟨hok, hwrites⟩ := h
  cases heff : c.action.effect (c.env host) s with
  | error e => simp [heff, Except.isOk, Except.toBool] at hok
  | ok r =>
    obtain ⟨s', events⟩ := r
    rw [step_of_ok heff, ← val_currentRevision_incrementRevision]
    cases haction : c.action with
    | setPolicy cfg => rw [(setPolicy_ok (haction ▸ heff)).1]
    | revokePolicy => rw [(revokePolicy_ok (haction ▸ heff)).1]
    | pause => rw [(setPaused_ok (haction ▸ heff)).1 (by simpa [haction] using hwrites)]
    | resume => rw [(setPaused_ok (haction ▸ heff)).1 (by simpa [haction] using hwrites)]
    | _ => simp [haction] at hwrites

end

/-! ## Whole runs -/

section

variable {host : Host} {calls : List Call} {i : ℕ} {c : Call}

theorem incrementsAt_succ (h : calls[i]? = some c) :
    incrementsAt host calls (i + 1)
      = incrementsAt host calls i
        + if bumpsRevision host (stateAt host calls i) c then 1 else 0 := by
  rw [incrementsAt, List.range_succ, List.countP_append, ← incrementsAt]
  simp [List.countP_cons, h]

theorem incrementsAt_le (host : Host) (calls : List Call) (hi : i ≤ calls.length) :
    incrementsAt host calls i ≤ incrementsAt host calls calls.length :=
  (List.range_sublist.mpr hi).countP_le

/-- **The counter counts the bumps**, as far as `u64` goes. -/
theorem revision_eq (host : Host) (calls : List Call) :
    ∀ i ≤ calls.length,
      (stateAt host calls i).currentRevision.val = min u64.hi (incrementsAt host calls i) := by
  intro i
  induction i with
  | zero => exact fun _ => rfl
  | succ i ih =>
    intro hi
    have hc : calls[i]? = some calls[i] := List.getElem?_eq_getElem hi
    have hprev := ih (by omega)
    rw [stateAt_succ hc, incrementsAt_succ hc]
    by_cases hbump : bumpsRevision host (stateAt host calls i) calls[i] = true
    · rw [revision_of_bumps hbump, hprev, if_pos hbump]
      push_cast
      omega
    · rw [(policy_of_not_bumps (by simpa using hbump)).2, hprev, if_neg hbump, Nat.add_zero]

/-- The counter never goes back. -/
theorem revision_le_step (host : Host) (s : State) (c : Call) :
    s.currentRevision.val ≤ (step host s c).currentRevision.val := by
  by_cases hbump : bumpsRevision host s c = true
  · rw [revision_of_bumps hbump]
    exact le_min s.currentRevision.le_hi (by omega)
  · rw [(policy_of_not_bumps (by simpa using hbump)).2]

/-- **A call that changes the policy raises the counter**, while it has not run out. -/
theorem revision_lt_step {s : State} (hroom : s.currentRevision.val < u64.hi)
    (hne : (step host s c).policy ≠ s.policy) :
    s.currentRevision.val < (step host s c).currentRevision.val := by
  have hbump : bumpsRevision host s c = true := by
    by_contra hno
    exact hne (policy_of_not_bumps (by simpa using hno)).1
  rw [revision_of_bumps hbump]
  exact lt_min hroom (by omega)

/-- Fewer bumps than `u64` has values leave room at every call. -/
theorem revision_lt_hi (hfew : incrementsAt host calls calls.length < 2 ^ 64 - 1)
    (hc : calls[i]? = some c) : (stateAt host calls i).currentRevision.val < u64.hi := by
  have hi : i ≤ calls.length := (List.getElem?_eq_some_iff.mp hc).1.le
  have hle := incrementsAt_le host calls hi
  rw [revision_eq host calls i hi, u64_hi]
  omega

end

/-- **Revision is a sound join key.**  In every run that bumps the counter fewer than `2 ^ 64 - 1`
times: it never goes back, points with the same revision hold the same policy, a call that changes
the policy raises it, a policy event carries the counter after the call, and a decision event the
counter of the storage — hence the policy — it was decided on. -/
theorem revision_joinKey (host : Host) (calls : List Call)
    (hfew : incrementsAt host calls calls.length < 2 ^ 64 - 1) :
    (∀ i j, i ≤ j → (stateAt host calls i).currentRevision.val
        ≤ (stateAt host calls j).currentRevision.val) ∧
      (∀ i j, (stateAt host calls i).currentRevision = (stateAt host calls j).currentRevision →
        (stateAt host calls i).policy = (stateAt host calls j).policy) ∧
      (∀ i c, calls[i]? = some c →
        (stateAt host calls (i + 1)).policy ≠ (stateAt host calls i).policy →
          (stateAt host calls i).currentRevision.val
            < (stateAt host calls (i + 1)).currentRevision.val) ∧
      ∀ i c s' events, calls[i]? = some c →
        c.action.effect (c.env host) (stateAt host calls i) = .ok (s', events) →
        ∀ e ∈ events,
          (∀ revision, e.policyRevision? = some revision →
            revision = (stateAt host calls (i + 1)).currentRevision) ∧
          ∀ revision, e.authRevision? = some revision →
            revision = (stateAt host calls i).currentRevision ∧
              ∀ j, (stateAt host calls j).currentRevision = revision →
                (stateAt host calls j).policy = (stateAt host calls i).policy := by
  have hkey : ∀ i j, i ≤ j →
      (stateAt host calls i).currentRevision.val ≤ (stateAt host calls j).currentRevision.val ∧
        ((stateAt host calls i).currentRevision.val = (stateAt host calls j).currentRevision.val →
          (stateAt host calls i).policy = (stateAt host calls j).policy) := fun i j =>
    joinKey (fun s : State => s.currentRevision.val) State.policy
      (fun k c _ => revision_le_step host _ c)
      fun k c hc hne => revision_lt_step (revision_lt_hi hfew hc) hne
  have hjoin : ∀ i j,
      (stateAt host calls i).currentRevision = (stateAt host calls j).currentRevision →
        (stateAt host calls i).policy = (stateAt host calls j).policy := by
    intro i j h
    rcases le_total i j with hij | hji
    · exact (hkey i j hij).2 (congrArg BoundedInt.val h)
    · exact ((hkey j i hji).2 (congrArg BoundedInt.val h.symm)).symm
  refine ⟨fun i j hij => (hkey i j hij).1, hjoin, ?_, ?_⟩
  · intro i c hc hne
    rw [stateAt_succ hc] at hne ⊢
    exact revision_lt_step (revision_lt_hi hfew hc) hne
  · intro i c s' events hc heff e he
    have hattr := attributed_effect heff e he
    refine ⟨fun revision hr => ?_, fun revision hr => ⟨hattr.auth revision hr, fun j hj => ?_⟩⟩
    · rw [stateAt_succ hc, step_of_ok heff]
      exact hattr.policy revision hr
    · exact hjoin j i (hj.trans (hattr.auth revision hr))

namespace Sample

/-- An install, a transfer, a pause, the same pause again, a refused transfer, a revocation. -/
def lifecycle : List Call :=
  [call 1 (.initializeAccount admin (Vector.replicate 32 0)), call 100 (.setPolicy capFifty),
    auth 110 [pay 20], call 120 .pause, call 121 .pause, auth 130 [pay 20],
    call 140 .revokePolicy]

/-- Three bumps, and the two points under the paused policy agree. -/
theorem lifecycle_joinKey :
    incrementsAt host lifecycle lifecycle.length = 3 ∧
      (stateAt host lifecycle 4).currentRevision = 2 ∧
      (stateAt host lifecycle 4).policy = (stateAt host lifecycle 6).policy :=
  ⟨by decide, by decide, (revision_joinKey host lifecycle (by decide)).2.1 4 6 (by decide)⟩

end Sample

end AgentGuard
