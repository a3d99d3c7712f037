import AgentGuard.Contract.Gates
import AgentGuard.Contract.Provenance

/-!
# Contract/SignsOfLife — what the dead-man switch measures

The switch compares `now` with a stored clock.  Over a run that clock is the time of the last *sign
of life*: a first install, an `unfreeze`, or a heartbeat the account approved.  So the switch is
expired exactly when the whole grace has passed without one (`deadman_measures_silence`), and an
account that shows a sign of life often enough is never stopped by it.
-/

namespace AgentGuard

open Machinery

/-- **A sign of life.** -/
inductive SignOfLife (host : Host) (s : State) (c : Call) : Prop
  | install {cfg : PolicyConfig} (h : s.Commands c (.setPolicy cfg))
      (hvalid : validateConfig host.self cfg = .ok ()) (hfirst : s.policy = none)
  | unfreeze (h : s.Commands c .unfreeze)
  | beat {entry : AuthEntry} (haction : c.action = .heartbeat entry)
      (happroved : (approval host s c).isSome)

/-- **A call sets the clock**: to its own time, or to the sentinel. -/
inductive SetsClock (host : Host) (s : State) (c : Call) : U64 → Prop
  | setUp {key : Bytes32} (h : s.Initializes c key) : SetsClock host s c 0
  | sign (h : SignOfLife host s c) : SetsClock host s c c.timestamp

section

variable {host : Host} {s : State} {c : Call}

/-- What is set is what the clock shows. -/
theorem SetsClock.stored {v : U64} (h : SetsClock host s c v) :
    (step host s c).heartbeatOrZero = v := by
  obtain ⟨time, authorized, action⟩ := c
  cases h with
  | setUp h =>
    obtain ⟨hfresh, admin, rfl, hauth⟩ := h
    rw [step_initializeAccount hfresh hauth]
    rfl
  | sign h =>
    cases h with
    | @install cfg h hvalid hfirst =>
      obtain ⟨rfl, admin, hadmin, hauth⟩ := h
      rw [step_setPolicy hadmin hauth, hvalid]
      dsimp only
      rw [installPolicy_eq, hfirst]
      rfl
    | unfreeze h =>
      obtain ⟨rfl, admin, hadmin, hauth⟩ := h
      rw [step_unfreeze hadmin hauth]
      rfl
    | @beat entry haction happroved =>
      obtain rfl : action = .heartbeat entry := haction
      have heff := stepEffect host s ⟨time, authorized, .heartbeat entry⟩
      generalize step host s ⟨time, authorized, .heartbeat entry⟩ = s',
        approval host s ⟨time, authorized, .heartbeat entry⟩ = a at heff happroved
      cases heff with
      | heartbeat entry' cfg hentry hmem hgrants =>
        rw [recordHeartbeat_eq]
        split_ifs with hsame
        · exact hsame.symm
        · rfl
      | approved entry' cfg hentry => cases hentry
      | _ => cases happroved

/-- Nothing else moves the clock. -/
theorem heartbeatOrZero_kept (h : ∀ v, ¬SetsClock host s c v) :
    (step host s c).heartbeatOrZero = s.heartbeatOrZero := by
  have heff := stepEffect host s c
  have happroved := fun entry (haction : c.action = .heartbeat entry) hsome =>
    h _ (.sign (.beat haction hsome))
  generalize step host s c = s', approval host s c = a at heff happroved
  cases heff with
  | initialized admin key haction hfresh hauth =>
    exact absurd (.setUp ⟨hfresh, admin, haction, hauth⟩) (h _)
  | policySet admin cfg haction hadmin hauth hvalid =>
    cases hpolicy : s.policy with
    | none => exact absurd (.sign (.install ⟨haction, admin, hadmin, hauth⟩ hvalid hpolicy)) (h _)
    | some old => simp [installPolicy_eq, hpolicy, State.heartbeatOrZero]
  | unfrozen admin haction hadmin hauth =>
    exact absurd (.sign (.unfreeze ⟨haction, admin, hadmin, hauth⟩)) (h _)
  | approved => simp [State.heartbeatOrZero]
  | heartbeat entry cfg haction => exact absurd rfl (happroved entry haction)
  | _ => rfl

end

/-! ## Silence -/

/-- No call of the run showed a sign of life within the last `grace` seconds. -/
def Silent (host : Host) (calls : List Call) (grace now : U64) : Prop :=
  ∀ j c, calls[j]? = some c → SignOfLife host (stateAt host calls j) c →
    c.timestamp.val + grace.val < now.val

section

variable {host : Host} {calls : List Call} {cfg : PolicyConfig}

/-- **The clock shows the last sign of life**, under a policy. -/
theorem clock_is_last_sign (htimed : Timed Call.timestamp 0 calls)
    (hpos : ∀ c ∈ calls, 0 < c.timestamp.val)
    (hcfg : (stateAt host calls calls.length).policy = some cfg) :
    (∃ j c, calls[j]? = some c ∧ SignOfLife host (stateAt host calls j) c ∧
        c.timestamp = (stateAt host calls calls.length).heartbeatOrZero) ∧
      ∀ j c, calls[j]? = some c → SignOfLife host (stateAt host calls j) c →
        c.timestamp.val ≤ (stateAt host calls calls.length).heartbeatOrZero.val := by
  have hrunning := (clocked_run htimed hpos).2.running (by rw [hcfg]; rfl)
  generalize hclock : (stateAt host calls calls.length).heartbeatOrZero = clock at hrunning ⊢
  have hlast : LastSet (step host) State.empty calls (SetsClock host) calls.length
        (stateAt host calls calls.length).heartbeatOrZero ∨
      (stateAt host calls calls.length).heartbeatOrZero = State.empty.heartbeatOrZero :=
    lastSet (fun _ _ _ h => h.stored) (fun _ _ h => heartbeatOrZero_kept h) calls.length
  rw [hclock] at hlast
  rcases hlast with ⟨j, c, hj, hc, hset, hquiet⟩ | hsame
  · cases hset with
    | setUp => exact absurd rfl hrunning
    | sign hsign =>
      refine ⟨⟨j, c, hc, hsign, rfl⟩, fun k d hd hlive => ?_⟩
      have hk : k < calls.length := (List.getElem?_eq_some_iff.mp hd).1
      -- a later one would have set the clock again
      have hkj : k ≤ j := not_lt.mp fun hlt => hquiet k d _ hlt hk hd (.sign hlive)
      exact htimed.le_of_le hkj hd hc
  · exact absurd (congrArg BoundedInt.val hsame) hrunning

/-- **The switch is expired when there was only silence.** -/
theorem heartbeatExpired_iff_silent (htimed : Timed Call.timestamp 0 calls)
    (hpos : ∀ c ∈ calls, 0 < c.timestamp.val)
    (hcfg : (stateAt host calls calls.length).policy = some cfg) (now : U64) :
    heartbeatExpired cfg (stateAt host calls calls.length).heartbeatOrZero now = true
      ↔ 0 < cfg.dmsGraceSecs.val ∧ Silent host calls cfg.dmsGraceSecs now := by
  have hrunning := (clocked_run htimed hpos).2.running (by rw [hcfg]; rfl)
  obtain ⟨⟨j, c, hc, hsign, hclock⟩, hlatest⟩ := clock_is_last_sign htimed hpos hcfg
  rw [heartbeatExpired_iff]
  refine and_congr_right fun _ => ⟨fun ⟨_, hlate⟩ k d hd hlive => ?_, fun hsilent => ⟨hrunning, ?_⟩⟩
  · have := hlatest k d hd hlive
    omega
  · have := hsilent j c hc hsign
    rw [hclock] at this
    omega

end

/-! ## Answers -/

section

variable {self : Address} {cfg : PolicyConfig} {l : Ledger} {now : U64}

/-- Past the gates no context is blocked for a gate. -/
theorem not_isGate_of_evalContexts {e : Error} {contexts : List Context} : ∀ {st : Staging},
    .blocked e ∈ (evalContexts self cfg l now st contexts).1 → ¬e.IsGate := by
  induction contexts with
  | nil => simp [evalContexts]
  | cons ctx contexts ih =>
    intro st h
    rw [evalContexts] at h
    rcases List.mem_cons.mp h with hverdict | hrest
    · obtain ⟨e', he', hnot, -⟩ := evalCall_of_not_allowed (hverdict.symm.trans_ne (by simp))
      rw [he'] at hverdict
      exact Decision.blocked.inj hverdict ▸ hnot
    · exact ih hrest

theorem mem_of_firstError {verdicts : List Decision} {e : Error}
    (h : firstError verdicts = some e) : .blocked e ∈ verdicts := by
  induction verdicts with
  | nil => cases h
  | cons verdict verdicts ih =>
    cases verdict with
    | allowed => exact List.mem_cons_of_mem _ (ih h)
    | blocked e' =>
      obtain rfl := Option.some.inj h
      exact List.mem_cons_self

/-- **A gate answers for a request exactly when it is closed.** -/
theorem firstError_gate_iff {env : Env} {s : State} {contexts : List Context} {e : Error}
    (he : e.IsGate) (hcfg : s.policy = some cfg) (hne : contexts ≠ [])
    (hlen : contexts.length ≤ maxAuthContexts) :
    firstError (authDecision env s contexts).1 = some e
      ↔ gateError cfg ⟨s.frozenOrFalse, s.heartbeatOrZero⟩ env.timestamp = some e := by
  rw [authDecision, hcfg, verdicts_eq hlen]
  cases hgate : gateError cfg ⟨s.frozenOrFalse, s.heartbeatOrZero⟩ env.timestamp with
  | some e' =>
    obtain ⟨ctx, rest, rfl⟩ := List.exists_cons_of_ne_nil hne
    rfl
  | none =>
    refine ⟨fun h => ?_, fun h => by cases h⟩
    exact absurd he (not_isGate_of_evalContexts (mem_of_firstError h))

end

/-- The dead-man gate answers when nothing froze the account and the switch is expired. -/
theorem gateError_heartbeatExpired_iff {cfg : PolicyConfig} {state : AccountState} {now : U64} :
    gateError cfg state now = some .heartbeatExpired
      ↔ state.adminFrozen = false ∧ heartbeatExpired cfg state.lastHeartbeat now = true := by
  rw [gateError, accountError]
  split_ifs <;> simp_all

/-- **The dead-man switch measures silence.**  In every run of a deployed account at positive,
non-decreasing times that leaves a policy installed: a request with the agent's signature, at any
time, is refused as expired exactly when the account is not frozen, the switch is on, and the run
showed no sign of life for the whole grace (no first install, no `unfreeze`, no approved heartbeat);
and `dms_health` says expired exactly when the last two hold.  Nothing else a run contains
(payments, edits, rotations, resets, refused heartbeats) counts. -/
theorem deadman_measures_silence {env : Env} {calls : List Call} {cfg : PolicyConfig}
    (htimed : Timed Call.timestamp 0 calls) (hpos : ∀ c ∈ calls, 0 < c.timestamp.val)
    (hcfg : (stateAt env.host calls calls.length).policy = some cfg) :
    let s := stateAt env.host calls calls.length
    (readDmsHealth env s = .expired
        ↔ 0 < cfg.dmsGraceSecs.val ∧ Silent env.host calls cfg.dmsGraceSecs env.timestamp) ∧
      ∀ agent signaturePayload signature contexts, s.agentPubkey = some agent →
        env.host.ed25519Verify agent signaturePayload signature = true → contexts ≠ [] →
        contexts.length ≤ maxAuthContexts →
          (Refuses env s signaturePayload signature contexts .heartbeatExpired
            ↔ s.frozenOrFalse = false ∧ 0 < cfg.dmsGraceSecs.val ∧
              Silent env.host calls cfg.dmsGraceSecs env.timestamp) := by
  intro s
  have hrunning := (clocked_run htimed hpos).2.running (by rw [hcfg]; rfl)
  have hsilent := heartbeatExpired_iff_silent htimed hpos hcfg env.timestamp
  refine ⟨(readDmsHealth_eq_expired_iff hcfg hrunning).trans hsilent, ?_⟩
  intro agent signaturePayload signature contexts hkey hsig hne hlen
  calc Refuses env s signaturePayload signature contexts .heartbeatExpired
      ↔ firstError (authDecision env s contexts).1 = some .heartbeatExpired :=
        refuses_iff hkey hsig hcfg _
    _ ↔ gateError cfg ⟨s.frozenOrFalse, s.heartbeatOrZero⟩ env.timestamp
          = some .heartbeatExpired :=
        firstError_gate_iff (show Error.heartbeatExpired.IsGate from trivial) hcfg hne hlen
    _ ↔ _ := gateError_heartbeatExpired_iff.trans (and_congr_right fun _ => hsilent)

namespace Sample

/-- After a heartbeat at `105` the run falls silent for longer than its grace. -/
theorem lapse_silent : Silent host lapse guarded.dmsGraceSecs 130 := by
  have htimed : Timed Call.timestamp 0 lapse := by
    simp only [Timed, lapse]
    decide
  have hcfg : (stateAt ((call 130 .status).env host).host lapse lapse.length).policy
      = some guarded := by rfl
  exact ((deadman_measures_silence htimed (by decide) hcfg).1.mp (by decide)).2

end Sample

end AgentGuard
