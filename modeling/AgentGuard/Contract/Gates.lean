import AgentGuard.Contract.Events
import AgentGuard.Contract.Expiry
import AgentGuard.Contract.Headroom

/-!
# Contract/Gates — every view of the account gates agrees with the gate

The dead-man rule is written out in `decide`, `dms_health`, `status`, `refresh_deadman` and, as a
deadline, in the `heartbeat` event.  The forms differ at the sentinel `0` and in where they
saturate; they agree because no reachable account with a policy holds a clock of `0`
(`State.Clocked`).
-/

namespace AgentGuard

open Machinery

/-- **The clock of the storage** is not ahead of the ledger, and runs under a policy. -/
structure State.Clocked (now : U64) (s : State) : Prop where
  le_now : s.heartbeatOrZero.val ≤ now.val
  running : s.policy.isSome → s.heartbeatOrZero.val ≠ 0

/-! ## The clock along a run -/

section

variable {host : Host} {s : State} {t : U64} {c : Call}

theorem State.Clocked.mono {t' : U64} (h : s.Clocked t) (ht : t.val ≤ t'.val) : s.Clocked t' :=
  ⟨h.le_now.trans ht, h.running⟩

/-- A storage with the same clock, and no policy that was not there. -/
theorem State.Clocked.congr {s' : State} (h : s.Clocked t)
    (hclock : s'.lastHeartbeat = s.lastHeartbeat) (hpolicy : s'.policy.isSome → s.policy.isSome) :
    s'.Clocked t := by
  have hsame : s'.heartbeatOrZero = s.heartbeatOrZero := by
    rw [State.heartbeatOrZero, State.heartbeatOrZero, hclock]
  exact ⟨hsame ▸ h.le_now, fun hp => hsame ▸ h.running (hpolicy hp)⟩

/-- A clock that has just been set. -/
theorem clocked_of_set (ht : 0 < t.val) (h : s.lastHeartbeat = some t) : s.Clocked t := by
  have hset : s.heartbeatOrZero = t := by rw [State.heartbeatOrZero, h, Option.getD_some]
  rw [← hset] at ht
  exact ⟨hset ▸ le_rfl, fun _ => ht.ne'⟩

/-- **Every call at a positive time keeps the clock in shape.** -/
theorem State.Clocked.step (h : s.Clocked t) (hinv : s.Inv host t) (ht : t.val ≤ c.timestamp.val)
    (hpos : 0 < c.timestamp.val) : (step host s c).Clocked c.timestamp := by
  have hnow := h.mono ht
  have heff := stepEffect host s c
  generalize AgentGuard.step host s c = s', approval host s c = a at heff
  cases heff with
  -- before `initialize` no policy is installed
  | initialized admin key haction hfresh hauth =>
    refine ⟨by simpa [State.heartbeatOrZero] using c.timestamp.nonneg, fun hp => ?_⟩
    rw [hinv.initialized (hinv.admin hp)] at hfresh
    simp at hfresh
  | policySet admin cfg =>
    rw [installPolicy_eq]
    cases hpolicy : s.policy with
    | none => exact clocked_of_set hpos rfl
    | some old => exact hnow.congr rfl fun _ => by simp [hpolicy]
  | pausedSet admin cfg paused haction hadmin hauth hpolicy =>
    exact hnow.congr rfl fun _ => by simp [hpolicy]
  | policyRevoked => exact hnow.congr rfl fun hp => by simp [State.incrementRevision] at hp
  | unfrozen => exact clocked_of_set hpos rfl
  | approved => exact hnow.congr (by simp) (by simp)
  | heartbeat entry =>
    rw [recordHeartbeat_eq]
    split_ifs
    · exact hnow.congr (by simp) (by simp)
    · exact clocked_of_set hpos rfl
  | _ => exact hnow.congr rfl id

/-- **In every run at positive times the clock stays in shape.** -/
theorem clocked_run {calls : List Call} (htimed : Timed Call.timestamp 0 calls)
    (hpos : ∀ c ∈ calls, 0 < c.timestamp.val) :
    (stateAt host calls calls.length).Inv host (endTime Call.timestamp 0 calls) ∧
      (stateAt host calls calls.length).Clocked (endTime Call.timestamp 0 calls) := by
  rw [stateAt, pointAt_length]
  exact htimed.foldl_invariant (fun t s => s.Inv host t ∧ s.Clocked t)
    (fun c => 0 < c.timestamp.val)
    (fun t s c h ht hc => ⟨h.1.step ht, h.2.step h.1 ht hc⟩) calls 0 State.empty hpos
    ⟨inv_deployed host 0, by simp [State.empty, State.heartbeatOrZero], by simp [State.empty]⟩

end

/-! ## The views -/

section

variable {env : Env} {s : State} {cfg : PolicyConfig}

theorem status_heartbeatExpired (env : Env) (hcfg : s.policy = some cfg) :
    (status env s).heartbeatExpired = heartbeatExpired cfg s.heartbeatOrZero env.timestamp := by
  simp [status, hcfg, heartbeatExpired]

/-- **`dms_health` says expired when the gate does**, once the clock runs. -/
theorem readDmsHealth_eq_expired_iff (hcfg : s.policy = some cfg)
    (hclock : s.heartbeatOrZero.val ≠ 0) :
    readDmsHealth env s = .expired
      ↔ heartbeatExpired cfg s.heartbeatOrZero env.timestamp = true := by
  have hgrace := cfg.dmsGraceSecs.nonneg
  rw [readDmsHealth, hcfg, heartbeatExpired, decide_eq_true_eq]
  simp only [dmsHealth]
  split_ifs with hzero hlate hwarn
  · simp [hzero]
  · simp only [true_iff]
    exact ⟨by omega, hclock, hlate⟩
  · simp [hlate]
  · simp [hlate]

/-- **`refresh_deadman` records an expiry** that is there, while none is on record. -/
theorem refreshDeadman_eq (hcfg : s.policy = some cfg) :
    refreshDeadman env s
      = if heartbeatExpired cfg s.heartbeatOrZero env.timestamp = true ∧
            (s.autoFrozenAt.getD 0).val = 0 then
          .ok ({ s with autoFrozenAt := some env.timestamp }, [.dmsAutoFrozen env.timestamp])
        else .ok (s, []) := by
  rw [refreshDeadman, hcfg, Option.map_some, Option.getD_some, heartbeatExpired]
  simp only [decide_eq_true_eq, ite_and]

/-- **The first expiry is recorded.** -/
theorem refreshDeadman_records_iff (hcfg : s.policy = some cfg)
    (hunset : (s.autoFrozenAt.getD 0).val = 0) :
    refreshDeadman env s
        = .ok ({ s with autoFrozenAt := some env.timestamp }, [.dmsAutoFrozen env.timestamp])
      ↔ heartbeatExpired cfg s.heartbeatOrZero env.timestamp = true := by
  rw [refreshDeadman_eq hcfg]
  by_cases hexpired : heartbeatExpired cfg s.heartbeatOrZero env.timestamp = true
  · rw [if_pos ⟨hexpired, hunset⟩]
    exact ⟨fun _ => hexpired, fun _ => rfl⟩
  · rw [if_neg fun h => hexpired h.1]
    simp [hexpired]

/-- **One expiry is not recorded twice**: since an earlier refresh found it, a record is there. -/
theorem refreshDeadman_again {calls : List Call} (hpos : ∀ c ∈ calls, 0 < c.timestamp.val)
    (hcfg : (stateAt env.host calls calls.length).policy = some cfg)
    (hbefore : RefreshedBefore env.host calls calls.length) :
    refreshDeadman env (stateAt env.host calls calls.length)
      = .ok (stateAt env.host calls calls.length, []) := by
  obtain ⟨j, c, hj, hrefresh, -⟩ := hbefore
  have hlatch := @autoFrozenAt_stateAt env.host calls hpos calls.length
  rw [refreshDeadman_eq hcfg]
  generalize (stateAt env.host calls calls.length).autoFrozenAt = a at hlatch
  cases hlatch with
  | unset hnone => exact absurd hrefresh (hnone j c hj)
  | set _ c' _ hfirst _ =>
    have htime := hpos c' (List.mem_of_getElem? hfirst.call)
    exact if_neg fun h => htime.ne' h.2

/-- **A transfer check reports a gate exactly when that gate answers for the request.** -/
theorem check_gate (hinv : s.Inv env.host env.timestamp) (hcfg : s.policy = some cfg)
    (asset dest : Address) (amount : I128) :
    ∃ result events, check env s asset dest amount = .ok (result, events) ∧
      ∀ e : Error, e.IsGate → (result = .blocked e.reason ↔
        gateError cfg ⟨s.frozenOrFalse, s.heartbeatOrZero⟩ env.timestamp = some e) := by
  obtain ⟨verdict, events, hverdict, hcheck⟩ :=
    checkDetailed_eq hinv hcfg asset dest amount (.address asset)
  refine ⟨verdict.toCheckResult, events, by rw [check, hcheck]; rfl, fun e he => ?_⟩
  rw [toCheckResult_eq_blocked_iff]
  rw [authDecision, hcfg, verdicts_eq (by simp [maxAuthContexts])] at hverdict
  cases hgate : gateError cfg ⟨s.frozenOrFalse, s.heartbeatOrZero⟩ env.timestamp with
  | some e' =>
    simp only [hgate, blockAll, List.map_cons, List.map_nil, List.cons.injEq, and_true] at hverdict
    rw [← hverdict]
    simp
  | none =>
    simp only [hgate, evalContexts, List.cons.injEq, and_true] at hverdict
    refine ⟨fun hblocked => ?_, fun h => by simp at h⟩
    obtain ⟨e', he', hnot, -⟩ := evalCall_of_not_allowed (hverdict.trans_ne (by simp [hblocked]))
    rw [he', hblocked] at hverdict
    exact absurd (Decision.blocked.inj hverdict ▸ he) hnot

/-- The gates in their order, as `status` shows them. -/
theorem gateError_iff (env : Env) (hcfg : s.policy = some cfg) :
    let gate := gateError cfg ⟨s.frozenOrFalse, s.heartbeatOrZero⟩ env.timestamp
    let st := status env s
    (gate = some .adminFrozen ↔ st.adminFrozen = true) ∧
      (st.adminFrozen = false →
        (gate = some .heartbeatExpired ↔ st.heartbeatExpired = true)) ∧
      (st.adminFrozen = false → st.heartbeatExpired = false →
        (gate = some .paused ↔ st.paused = true)) ∧
      (st.adminFrozen = false → st.heartbeatExpired = false → st.paused = false →
        (gate = some .outsideActiveWindow ↔ st.outsideActiveWindow = true)) := by
  intro gate st
  have hfrozen : st.adminFrozen = s.frozenOrFalse := rfl
  have hexpired : st.heartbeatExpired = heartbeatExpired cfg s.heartbeatOrZero env.timestamp :=
    status_heartbeatExpired env hcfg
  have hpaused : st.paused = cfg.paused := by simp [st, status, hcfg]
  have houtside : st.outsideActiveWindow = outsideActiveWindow cfg env.timestamp := by
    simp [st, status, hcfg]
  rw [hfrozen, hexpired, hpaused, houtside]
  simp only [gate, gateError, accountError]
  split_ifs <;> simp_all

/-- Without an override, `status` shows the headroom a transfer check reports. -/
theorem windowRemaining_checkDetailed (hinv : s.Inv env.host env.timestamp)
    (hcfg : s.policy = some cfg) {asset dest : Address} {amount : I128} {detail : CheckDetail}
    {events : List Event} (hnone : recipientOverrideCap cfg dest = none)
    (hcheck : checkDetailed env s asset dest amount = .ok (detail, events)) :
    (status env s).windowRemaining = detail.remainingWindow := by
  obtain ⟨verdict, _, -, heq⟩ := checkDetailed_eq hinv hcfg asset dest amount (.address asset)
  obtain ⟨rfl, -⟩ := Prod.mk.inj (Except.ok.inj (heq.symm.trans hcheck))
  rw [windowRemaining_eq hcfg, ← capMetrics_of_none hnone]

end

/-! ## The deadline of a heartbeat event -/

/-- **The call leaves the clock alone**: it emits no heartbeat event, and is neither an `unfreeze`
nor a first install. -/
def KeepsClock (host : Host) (s : State) (c : Call) : Prop :=
  ∀ s' events, c.action.effect (c.env host) s = .ok (s', events) →
    (∀ e ∈ events, e.beat? = none) ∧ c.action ≠ .unfreeze ∧
      ∀ cfg, c.action = .setPolicy cfg → s.policy.isSome

section

variable {host : Host} {s s' : State} {c : Call} {env : Env} {events : List Event}

/-- A heartbeat that reports nothing was a repetition. -/
theorem lastHeartbeat_of_silent {entry : AuthEntry}
    (h : heartbeat env s entry = .ok (s', events)) (hsilent : ∀ e ∈ events, e.beat? = none) :
    s'.lastHeartbeat = s.lastHeartbeat := by
  obtain ⟨outcome, hcheck, hres, rfl, rfl⟩ := heartbeat_ok h
  obtain ⟨cfg, -, hstate⟩ := checkAuth_ok hcheck hres
  by_cases hsame : env.timestamp = outcome.state.heartbeatOrZero
  · rw [recordHeartbeat, if_pos hsame, hstate, admitted_lastHeartbeat]
  · have hbeat := hsilent _ (List.mem_append_right _ (by
      rw [recordHeartbeat, if_neg hsame]
      exact List.mem_singleton_self _))
    simp [Event.beat?] at hbeat

theorem KeepsClock.lastHeartbeat_step (h : KeepsClock host s c)
    (hinit : s.initialized = some true) : (step host s c).lastHeartbeat = s.lastHeartbeat := by
  cases heff : c.action.effect (c.env host) s with
  | error a => rw [step, heff]
  | ok r =>
    obtain ⟨s', events⟩ := r
    obtain ⟨hsilent, hunfreeze, hinstall⟩ := h s' events heff
    have hstep := stepEffect host s c
    rw [step_of_ok heff] at hstep ⊢
    generalize approval host s c = a at hstep
    cases hstep with
    | initialized admin key haction hfresh => simp [hinit] at hfresh
    | policySet admin cfg haction =>
      obtain ⟨old, hold⟩ := Option.isSome_iff_exists.mp (hinstall cfg haction)
      simp [installPolicy_eq, hold]
    | unfrozen admin haction => exact absurd haction hunfreeze
    | approved => simp
    | heartbeat entry cfg haction => exact lastHeartbeat_of_silent (haction ▸ heff) hsilent
    | _ => rfl

/-- **The deadline of an event is the gate's**, also where it saturates. -/
theorem heartbeatExpired_iff_deadline {cfg : PolicyConfig} {time expiresAt t : U64}
    (htime : time.val ≠ 0) (hnonzero : expiresAt.val ≠ 0)
    (hdeadline : expiresAt
      = if cfg.dmsGraceSecs.val = 0 then 0 else time.saturatingAdd cfg.dmsGraceSecs) :
    heartbeatExpired cfg time t = true ↔ expiresAt.val < t.val := by
  have hgrace := cfg.dmsGraceSecs.nonneg
  have ht := t.le_hi
  rw [heartbeatExpired_iff]
  split_ifs at hdeadline with hzero
  · simp [hdeadline] at hnonzero
  · rw [hdeadline, BoundedInt.val_saturatingAdd_of_nonneg _ hgrace]
    omega

end

section

variable {host : Host} {calls : List Call} {i : ℕ}

/-- Only an initialized account holds an admin or a policy. -/
theorem initialized_stateAt (host : Host) (calls : List Call) (i : ℕ) :
    ((stateAt host calls i).admin.isSome ∨ (stateAt host calls i).policy.isSome) →
      (stateAt host calls i).initialized = some true := by
  refine pointAt_of_le (P := fun s : State =>
    (s.admin.isSome ∨ s.policy.isSome) → s.initialized = some true) (fun s c h hsome => ?_)
    (Nat.zero_le i) (by simp [State.empty])
  by_cases hinit : s.initialized = some true
  · exact step_initialized hinit
  -- nothing but `initialize` succeeds before it
  · have hnone : ¬(s.admin.isSome ∨ s.policy.isSome) := mt h hinit
    have hstep := stepEffect host s c
    generalize step host s c = s', approval host s c = a at hstep hsome
    cases hstep with
    | initialized => rfl
    | idle | autoFrozen => exact absurd hsome hnone
    | approved => simp_all
    | heartbeat => simp_all [recordHeartbeat_eq]
    | policySet _ _ _ hadmin | windowReset _ _ hadmin | pausedSet _ _ _ _ hadmin
    | policyRevoked _ _ hadmin | keyRotated _ _ _ hadmin | rotationProposed _ _ _ hadmin
    | rotationConfirmed _ _ _ hadmin | rotationCancelled _ _ hadmin | frozen _ _ hadmin
    | unfrozen _ _ hadmin => simp [hadmin] at hnone

/-- **The clock stands still** along calls that leave it alone. -/
theorem lastHeartbeat_stateAt {time : U64} {j : ℕ}
    (hinit : (stateAt host calls i).initialized = some true)
    (hclock : (stateAt host calls i).lastHeartbeat = some time) (hij : i ≤ j)
    (hkeeps : ∀ k q, i ≤ k → k < j → calls[k]? = some q →
      KeepsClock host (stateAt host calls k) q) :
    (stateAt host calls j).lastHeartbeat = some time := by
  induction j, hij using Nat.le_induction with
  | base => exact hclock
  | succ j hj ih =>
    have hprev := ih fun k q hk hkj => hkeeps k q hk (by omega)
    cases hq : calls[j]? with
    | none => rwa [stateAt, pointAt_succ_of_none hq]
    | some q =>
      have hinit' : (stateAt host calls j).initialized = some true :=
        pointAt_of_le (P := fun s : State => s.initialized = some true)
          (fun _ _ h => step_initialized h) hj hinit
      rw [stateAt_succ hq, (hkeeps j q hj (by omega) hq).lastHeartbeat_step hinit', hprev]

/-- **The deadline of the last heartbeat event is when the gate fires.** -/
theorem deadline_stateAt {c : Call} {s' : State} {events : List Event} {time expiresAt : U64}
    {cfg : PolicyConfig} (hc : calls[i]? = some c) (hpos : 0 < c.timestamp.val)
    (heff : c.action.effect (c.env host) (stateAt host calls i) = .ok (s', events))
    (hbeat : .heartbeat time expiresAt ∈ events) (hnonzero : expiresAt.val ≠ 0)
    (hgrace : (stateAt host calls i).policy.map PolicyConfig.dmsGraceSecs
      = some cfg.dmsGraceSecs)
    (hkeeps : ∀ k q, i < k → calls[k]? = some q → KeepsClock host (stateAt host calls k) q)
    (t : U64) :
    heartbeatExpired cfg (stateAt host calls calls.length).heartbeatOrZero t = true
      ↔ expiresAt.val < t.val := by
  obtain ⟨rfl, hset, cfg₀, hcfg₀, hdeadline⟩ :=
    (attributed_effect heff _ hbeat).beat time expiresAt rfl
  have hi : i + 1 ≤ calls.length := (List.getElem?_eq_some_iff.mp hc).1
  rw [← step_of_ok heff, ← stateAt_succ hc] at hset
  have hinit : (stateAt host calls (i + 1)).initialized = some true := by
    rw [stateAt_succ hc]
    exact step_initialized (initialized_stateAt host calls i (.inr (by simp [hcfg₀])))
  have hclock : (stateAt host calls calls.length).heartbeatOrZero = c.timestamp := by
    rw [State.heartbeatOrZero,
      lastHeartbeat_stateAt hinit hset hi fun k q hk _ hq => hkeeps k q (by omega) hq]
    rfl
  rw [hcfg₀, Option.map_some, Option.some.injEq] at hgrace
  rw [hclock]
  exact heartbeatExpired_iff_deadline hpos.ne' hnonzero (by rw [hdeadline, hgrace]; rfl)

end

/-- **Every view of the account gates agrees with the gate.**  In every run of a deployed account at
positive, non-decreasing times that leaves a policy installed: the clock runs and is not ahead of
the ledger; `status`, `dms_health` and `decide` agree on the dead-man gate; `refresh_deadman`
records nothing before it fires, the first expiry when it does, and no expiry twice; a transfer
check names the first closed gate `status` shows; without an override the two report one headroom;
and the deadline of the last heartbeat event is when the gate fires, as long as nothing restarts the
clock or changes the grace. -/
theorem gates_agree {env : Env} {calls : List Call} {cfg : PolicyConfig}
    (htimed : Timed Call.timestamp 0 calls) (hpos : ∀ c ∈ calls, 0 < c.timestamp.val)
    (hnow : (endTime Call.timestamp 0 calls).val ≤ env.timestamp.val)
    (hcfg : (stateAt env.host calls calls.length).policy = some cfg) :
    let s := stateAt env.host calls calls.length
    let st := status env s
    (s.heartbeatOrZero.val ≠ 0 ∧ s.heartbeatOrZero.val ≤ env.timestamp.val) ∧
      (st.heartbeatExpired = heartbeatExpired cfg s.heartbeatOrZero env.timestamp ∧
        (readDmsHealth env s = .expired ↔ st.heartbeatExpired = true) ∧
        (st.heartbeatExpired = false → refreshDeadman env s = .ok (s, [])) ∧
        ((s.autoFrozenAt.getD 0).val = 0 →
          (refreshDeadman env s = .ok ({ s with autoFrozenAt := some env.timestamp },
              [.dmsAutoFrozen env.timestamp])
            ↔ st.heartbeatExpired = true)) ∧
        (RefreshedBefore env.host calls calls.length → refreshDeadman env s = .ok (s, []))) ∧
      (∀ asset dest amount, ∃ result events, check env s asset dest amount = .ok (result, events) ∧
        (result = .blocked Error.adminFrozen.reason ↔ st.adminFrozen = true) ∧
        (st.adminFrozen = false →
          (result = .blocked Error.heartbeatExpired.reason ↔ st.heartbeatExpired = true)) ∧
        (st.adminFrozen = false → st.heartbeatExpired = false →
          (result = .blocked Error.paused.reason ↔ st.paused = true)) ∧
        (st.adminFrozen = false → st.heartbeatExpired = false → st.paused = false →
          (result = .blocked Error.outsideActiveWindow.reason
            ↔ st.outsideActiveWindow = true))) ∧
      (∀ asset dest amount detail events, recipientOverrideCap cfg dest = none →
        checkDetailed env s asset dest amount = .ok (detail, events) →
          st.windowRemaining = detail.remainingWindow) ∧
      ∀ i c s' events time expiresAt, calls[i]? = some c →
        c.action.effect (c.env env.host) (stateAt env.host calls i) = .ok (s', events) →
        .heartbeat time expiresAt ∈ events → expiresAt.val ≠ 0 →
        (stateAt env.host calls i).policy.map PolicyConfig.dmsGraceSecs
          = some cfg.dmsGraceSecs →
        (∀ k q, i < k → calls[k]? = some q → KeepsClock env.host (stateAt env.host calls k) q) →
          ∀ t : U64, time.val ≤ t.val →
            (heartbeatExpired cfg s.heartbeatOrZero t = true ↔ expiresAt.val < t.val) := by
  intro s st
  obtain ⟨hinv₀, hclocked₀⟩ : s.Inv env.host (endTime Call.timestamp 0 calls) ∧
      s.Clocked (endTime Call.timestamp 0 calls) := clocked_run htimed hpos
  have hinv := hinv₀.mono hnow
  have hclocked := hclocked₀.mono hnow
  have hrunning := hclocked.running (by simp [s, hcfg])
  have hexpired := status_heartbeatExpired env hcfg
  refine ⟨⟨hrunning, hclocked.le_now⟩, ⟨hexpired, ?_, fun hlive => ?_, fun hunset => ?_,
    refreshDeadman_again hpos hcfg⟩, fun asset dest amount => ?_,
    fun asset dest amount detail events => windowRemaining_checkDetailed hinv hcfg, ?_⟩
  · rw [readDmsHealth_eq_expired_iff hcfg hrunning, ← hexpired]
  · rw [refreshDeadman_eq hcfg, ← hexpired]
    exact if_neg fun h => Bool.false_ne_true (hlive.symm.trans h.1)
  · rw [refreshDeadman_records_iff hcfg hunset, ← hexpired]
  · obtain ⟨result, events, hcheck, hgate⟩ := check_gate hinv hcfg asset dest amount
    obtain ⟨hfrozen, hexp, hpaused, houtside⟩ := gateError_iff env hcfg
    refine ⟨result, events, hcheck, ?_, fun h1 => ?_, fun h1 h2 => ?_, fun h1 h2 h3 => ?_⟩
    · rw [hgate .adminFrozen trivial, hfrozen]
    · rw [hgate .heartbeatExpired trivial, hexp h1]
    · rw [hgate .paused trivial, hpaused h1 h2]
    · rw [hgate .outsideActiveWindow trivial, houtside h1 h2 h3]
  · intro i c s' events time expiresAt hc heff hbeat hnonzero hgrace hkeeps t _
    exact deadline_stateAt hc (hpos c (List.mem_of_getElem? hc)) heff hbeat hnonzero hgrace hkeeps t

namespace Sample

/-- An install at `100` under a grace of ten seconds, a heartbeat, and the refresh of a lapse. -/
def lapse : List Call :=
  [call 1 (.initializeAccount admin (Vector.replicate 32 0)), call 100 (.setPolicy guarded),
    call 105 (.heartbeat ⟨[], [], [heartbeatContext host.self]⟩), call 130 .refreshDeadman]

/-- **A second refresh records nothing**, although the account is still expired. -/
theorem refresh_recorded_once :
    (status ((call 140 .status).env host) (stateAt host lapse lapse.length)).heartbeatExpired
        = true ∧
      refreshDeadman ((call 140 .status).env host) (stateAt host lapse lapse.length)
        = .ok (stateAt host lapse lapse.length, []) := by
  refine ⟨by decide, by rfl⟩

/-- The same run through the theorem: expired for `dms_health`, since the deadline `115` passed. -/
theorem lapse_expired :
    readDmsHealth ((call 140 .status).env host) (stateAt host lapse lapse.length) = .expired := by
  have htimed : Timed Call.timestamp 0 lapse := by
    simp only [Timed, lapse]
    decide
  have hpos : ∀ c ∈ lapse, 0 < c.timestamp.val := by decide
  have hcfg : (stateAt ((call 140 .status).env host).host lapse lapse.length).policy
      = some guarded := by rfl
  have hnow : (endTime Call.timestamp 0 lapse).val
      ≤ ((call 140 .status).env host).timestamp.val := by decide
  exact (gates_agree htimed hpos hnow hcfg).2.1.2.1.mpr (by decide)

end Sample

end AgentGuard
