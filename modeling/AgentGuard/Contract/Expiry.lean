import Mathlib.Data.Nat.Find
import AgentGuard.Contract.Deadman
import AgentGuard.Contract.Exactness

/-!
# Contract/Expiry — which expiries `refresh_deadman` records

`refresh_deadman` writes `AutoFrozenAt` while it is unset, and nothing ever clears it: the key holds
the time of the first refresh of the account's life that found the switch expired
(`autoFrozenAt_stateAt`).  An expiry is therefore recorded exactly when no earlier one was.
-/

namespace AgentGuard

open Machinery

/-- The last second of the grace. -/
def State.deadline (s : State) : ℤ :=
  s.heartbeatOrZero.val + ((s.policy.map PolicyConfig.dmsGraceSecs).getD 0).val

section

variable {host : Host} {s : State} {c : Call}

theorem Lapsed.deadline_lt (h : Lapsed c.timestamp s) : s.deadline < c.timestamp.val := by
  obtain ⟨cfg, hcfg, -, -, hlate⟩ := h
  simp only [State.deadline, hcfg, Option.map_some, Option.getD_some]
  omega

/-- What `refresh_deadman` tests before it looks for a record. -/
theorem lapsed_iff {now : U64} :
    Lapsed now s
      ↔ 0 < ((s.policy.map PolicyConfig.dmsGraceSecs).getD 0).val ∧ s.heartbeatOrZero.val ≠ 0 ∧
        (now.saturatingSub s.heartbeatOrZero).val
          > ((s.policy.map PolicyConfig.dmsGraceSecs).getD 0).val := by
  cases hcfg : s.policy with
  | none => simp [Lapsed, hcfg]
  | some cfg =>
    have hgate := @heartbeatExpired_iff cfg now s.heartbeatOrZero
    rw [heartbeatExpired, decide_eq_true_eq] at hgate
    rw [Option.map_some, Option.getD_some, hgate]
    simp [Lapsed, hcfg]

/-- Nothing to record: the switch has not expired. -/
theorem refresh_idle (haction : c.action = .refreshDeadman) (h : ¬Lapsed c.timestamp s) :
    c.action.effect (c.env host) s = .ok (s, []) := by
  rw [haction, Action.effect, refreshDeadman]
  exact if_neg fun hexpired => h (lapsed_iff.mpr hexpired)

/-- **The first record.** -/
theorem refresh_first (haction : c.action = .refreshDeadman) (h : Lapsed c.timestamp s)
    (hunset : s.autoFrozenAt = none) :
    c.action.effect (c.env host) s
      = .ok ({ s with autoFrozenAt := some c.timestamp }, [.dmsAutoFrozen c.timestamp]) := by
  rw [haction, Action.effect, refreshDeadman]
  exact (if_pos (lapsed_iff.mp h)).trans (if_pos (by rw [hunset]; rfl))

/-- **A record is there**, of whichever expiry. -/
theorem refresh_again {time : U64} (haction : c.action = .refreshDeadman)
    (h : Lapsed c.timestamp s) (hset : s.autoFrozenAt = some time) (htime : 0 < time.val) :
    c.action.effect (c.env host) s = .ok (s, []) := by
  rw [haction, Action.effect, refreshDeadman]
  refine (if_pos (lapsed_iff.mp h)).trans (if_neg ?_)
  rw [hset, Option.getD_some]
  exact htime.ne'

/-- Nothing else writes the record. -/
theorem autoFrozenAt_step (haction : c.action ≠ .refreshDeadman) :
    (step host s c).autoFrozenAt = s.autoFrozenAt := by
  have heff := stepEffect host s c
  generalize step host s c = s', approval host s c = a at heff
  cases heff with
  | autoFrozen hrefresh => exact absurd hrefresh haction
  | policySet => rw [installPolicy_eq]
  | approved => rw [admitted_eq]
  | heartbeat => rw [recordHeartbeat_eq, admitted_eq]
  | _ => rfl

end

/-! ## Episodes -/

/-- The `i`-th call is a `refresh_deadman` that finds the switch expired. -/
structure RefreshAt (host : Host) (calls : List Call) (i : ℕ) (c : Call) : Prop where
  call : calls[i]? = some c
  action : c.action = .refreshDeadman
  lapsed : Lapsed c.timestamp (stateAt host calls i)

/-- **One expiry from the `j`-th call to the `i`-th**: no call in between leaves a switch that is
not expired. -/
def SameEpisode (host : Host) (calls : List Call) (j i : ℕ) : Prop :=
  ∀ k c, j ≤ k → k < i → calls[k]? = some c → Lapsed c.timestamp (stateAt host calls (k + 1))

/-- An earlier refresh of the same expiry. -/
def RefreshedBefore (host : Host) (calls : List Call) (i : ℕ) : Prop :=
  ∃ j c, j < i ∧ RefreshAt host calls j c ∧ SameEpisode host calls j i

/-- **The refresh does its job**: the record it leaves is of the current expiry, and it reports the
expiry once, with the first refresh. -/
structure Recorded (host : Host) (calls : List Call) (i : ℕ) (c : Call) : Prop where
  current : (stateAt host calls (i + 1)).deadline
    < ((stateAt host calls (i + 1)).autoFrozenAt.getD 0).val
  first : ¬RefreshedBefore host calls i →
    c.events host (stateAt host calls i) = [.dmsAutoFrozen c.timestamp]
  later : RefreshedBefore host calls i → c.events host (stateAt host calls i) = []

/-- **No earlier expiry was recorded**: every earlier refresh belongs to the same expiry, and no
edit has moved the deadline past it. -/
def OnlyExpiry (host : Host) (calls : List Call) (i : ℕ) : Prop :=
  ∀ j c, j < i → RefreshAt host calls j c →
    SameEpisode host calls j i ∧ (stateAt host calls i).deadline < c.timestamp.val

section

variable {host : Host} {calls : List Call} {i j k : ℕ} {c : Call}

theorem SameEpisode.trans (hji : SameEpisode host calls j i) (hik : SameEpisode host calls i k) :
    SameEpisode host calls j k := fun m c hm hmk hc => by
  rcases lt_or_ge m i with hlt | hge
  · exact hji m c hm hlt hc
  · exact hik m c hge hmk hc

theorem SameEpisode.of_le (h : SameEpisode host calls j i) (hjk : j ≤ k) :
    SameEpisode host calls k i := fun m c hm hmi hc => h m c (hjk.trans hm) hmi hc

/-- The record holds the first refresh that found the switch expired. -/
inductive Latch (host : Host) (calls : List Call) (i : ℕ) : Option U64 → Prop
  | unset (hnone : ∀ j c, j < i → ¬RefreshAt host calls j c) : Latch host calls i none
  | set (j : ℕ) (c : Call) (hji : j < i) (hrefresh : RefreshAt host calls j c)
      (hfirst : ∀ k c', RefreshAt host calls k c' → j ≤ k) : Latch host calls i (some c.timestamp)

/-- A call that records nothing leaves the record as it is. -/
theorem Latch.succ {a : Option U64} (h : Latch host calls i a)
    (hno : a = none → ∀ c, ¬RefreshAt host calls i c) : Latch host calls (i + 1) a := by
  cases h with
  | unset hnone =>
    refine .unset fun j c hj hrefresh => ?_
    rcases Nat.lt_succ_iff_lt_or_eq.mp hj with hlt | rfl
    · exact hnone j c hlt hrefresh
    · exact hno rfl c hrefresh
  | set j c hji hrefresh hfirst => exact .set j c (Nat.lt_succ_of_lt hji) hrefresh hfirst

/-- A refresh that finds no record makes it. -/
theorem RefreshAt.latch (h : RefreshAt host calls i c)
    (hnone : ∀ j c', j < i → ¬RefreshAt host calls j c') :
    Latch host calls (i + 1) (some c.timestamp) :=
  .set i c (Nat.lt_succ_self i) h fun k c' hk => by
    by_contra hlt
    exact hnone k c' (not_le.mp hlt) hk

/-- **The record is the first of the account's life.** -/
theorem autoFrozenAt_stateAt (hpos : ∀ c ∈ calls, 0 < c.timestamp.val) (i : ℕ) :
    Latch host calls i (stateAt host calls i).autoFrozenAt := by
  induction i with
  | zero => exact .unset fun j c hj => absurd hj (Nat.not_lt_zero j)
  | succ i ih =>
    cases hc : calls[i]? with
    | none =>
      have hsame : stateAt host calls (i + 1) = stateAt host calls i := pointAt_succ_of_none hc
      rw [hsame]
      exact ih.succ fun _ c hrefresh => by simp [hrefresh.call] at hc
    | some c =>
      rw [stateAt_succ hc]
      by_cases hrefresh : RefreshAt host calls i c
      · generalize hrecord : (stateAt host calls i).autoFrozenAt = a at ih
        cases ih with
        | unset hnone =>
          rw [step_of_ok (refresh_first hrefresh.action hrefresh.lapsed hrecord)]
          exact hrefresh.latch hnone
        | set j c' hji hearlier hfirst =>
          have htime := hpos c' (List.mem_of_getElem? hearlier.call)
          rw [step_of_ok (refresh_again hrefresh.action hrefresh.lapsed hrecord htime), hrecord]
          exact .set j c' (Nat.lt_succ_of_lt hji) hearlier hfirst
      · have hsame : (step host (stateAt host calls i) c).autoFrozenAt
            = (stateAt host calls i).autoFrozenAt := by
          by_cases haction : c.action = .refreshDeadman
          · rw [step_of_ok (refresh_idle haction fun hlapsed => hrefresh ⟨hc, haction, hlapsed⟩)]
          · exact autoFrozenAt_step haction
        rw [hsame]
        refine ih.succ fun _ c' hc' => hrefresh ?_
        obtain rfl : c' = c := Option.some.inj (hc'.call.symm.trans hc)
        exact hc'

/-- What a refresh finds and leaves, by whether one came before it. -/
theorem RefreshAt.cases (h : RefreshAt host calls i c) (hpos : ∀ c ∈ calls, 0 < c.timestamp.val) :
    ((∀ j c', j < i → ¬RefreshAt host calls j c') ∧
        c.events host (stateAt host calls i) = [.dmsAutoFrozen c.timestamp] ∧
        stateAt host calls (i + 1)
          = { stateAt host calls i with autoFrozenAt := some c.timestamp }) ∨
      ∃ j c', j < i ∧ RefreshAt host calls j c' ∧
        (∀ k c'', RefreshAt host calls k c'' → j ≤ k) ∧
        c.events host (stateAt host calls i) = [] ∧
        stateAt host calls (i + 1) = stateAt host calls i ∧
        (stateAt host calls i).autoFrozenAt = some c'.timestamp := by
  have hlatch := @autoFrozenAt_stateAt host calls hpos i
  generalize hrecord : (stateAt host calls i).autoFrozenAt = a at hlatch
  cases hlatch with
  | unset hnone =>
    have heff := @refresh_first host _ c h.action h.lapsed hrecord
    refine .inl ⟨hnone, ?_, ?_⟩
    · rw [Call.events, heff]
    · rw [stateAt_succ h.call, step_of_ok heff]
  | set j c' hji hearlier hfirst =>
    have htime := hpos c' (List.mem_of_getElem? hearlier.call)
    have heff := @refresh_again host _ c _ h.action h.lapsed hrecord htime
    refine .inr ⟨j, c', hji, hearlier, hfirst, ?_, ?_, rfl⟩
    · rw [Call.events, heff]
    · rw [stateAt_succ h.call, step_of_ok heff]

/-- **The only expiry so far is recorded.** -/
theorem RefreshAt.recorded (h : RefreshAt host calls i c)
    (hpos : ∀ c ∈ calls, 0 < c.timestamp.val) (honly : OnlyExpiry host calls i) :
    Recorded host calls i c := by
  rcases h.cases hpos with ⟨hnone, hevents, hstate⟩ |
    ⟨j, c', hji, hearlier, -, hevents, hstate, hrecord⟩
  · refine ⟨?_, fun _ => hevents, ?_⟩
    · rw [hstate]
      exact h.lapsed.deadline_lt
    · rintro ⟨j, c', hji, hearlier, -⟩
      exact absurd hearlier (hnone j c' hji)
  · obtain ⟨hsame, hdeadline⟩ := honly j c' hji hearlier
    refine ⟨?_, fun hfirst => ?_, fun _ => hevents⟩
    · rw [hstate, hrecord]
      exact hdeadline
    · exact absurd ⟨j, c', hji, hearlier, hsame⟩ hfirst

/-- The first refresh of an expiry. -/
theorem RefreshAt.exists_first (h : RefreshAt host calls i c) :
    ∃ m c', m ≤ i ∧ RefreshAt host calls m c' ∧ SameEpisode host calls m i ∧
      ¬RefreshedBefore host calls m := by
  classical
  have hexists : ∃ m, ∃ c', m ≤ i ∧ RefreshAt host calls m c' ∧ SameEpisode host calls m i :=
    ⟨i, c, le_rfl, h, fun k _ hk hki => absurd hk (not_le.mpr hki)⟩
  obtain ⟨c', hle, hrefresh, hsame⟩ := Nat.find_spec hexists
  refine ⟨Nat.find hexists, c', hle, hrefresh, hsame, ?_⟩
  rintro ⟨j, d, hlt, hearlier, hepisode⟩
  exact Nat.find_min hexists hlt ⟨d, by omega, hearlier, hepisode.trans hsame⟩

/-- **An expiry is recorded and reported exactly when it is the only one so far.** -/
theorem expiries_recorded_iff (htimed : Timed Call.timestamp 0 calls)
    (hpos : ∀ c ∈ calls, 0 < c.timestamp.val) :
    (∀ i c, RefreshAt host calls i c → Recorded host calls i c)
      ↔ ∀ i c, RefreshAt host calls i c → OnlyExpiry host calls i := by
  constructor
  · intro hall i c h j d hji hearlier
    constructor
    · -- otherwise the first refresh of this expiry finds the record of another one
      by_contra hother
      obtain ⟨m, c', hmi, hrefresh, hsame, hfirst⟩ := h.exists_first
      have hjm : j < m := not_le.mp fun hmj => hother (hsame.of_le hmj)
      rcases hrefresh.cases hpos with ⟨hnone, -⟩ | ⟨-, -, -, -, -, hevents, -⟩
      · exact hnone j d hjm hearlier
      · simp [(hall m c' hrefresh).first hfirst] at hevents
    · have hcurrent := (hall i c h).current
      rcases h.cases hpos with ⟨hnone, -⟩ | ⟨m, c', -, hset, hleast, -, hstate, hrecord⟩
      · exact absurd hearlier (hnone j d hji)
      · rw [hstate, hrecord, Option.getD_some] at hcurrent
        exact hcurrent.trans_le (htimed.le_of_le (hleast j d hearlier) hset.call hearlier.call)
  · exact fun hall i c h => h.recorded hpos (hall i c h)

end

namespace Sample

/-- One expiry, refreshed twice. -/
def expiry : List Call :=
  [call 1 (.initializeAccount admin (Vector.replicate 32 0)), call 100 (.setPolicy guarded),
    call 130 .refreshDeadman, call 140 .refreshDeadman]

/-- A second expiry after the admin has revived the account. -/
def relapse : List Call :=
  [call 1 (.initializeAccount admin (Vector.replicate 32 0)), call 100 (.setPolicy guarded),
    call 130 .refreshDeadman, call 140 .unfreeze, call 160 .refreshDeadman]

theorem lapsed_guarded {now : U64} {s : State} (hcfg : s.policy = some guarded)
    (hbeat : s.heartbeatOrZero.val ≠ 0) (hlate : 10 < now.val - s.heartbeatOrZero.val) :
    Lapsed now s := ⟨guarded, hcfg, by decide, hbeat, hlate⟩

theorem expiry_refreshes {i : ℕ} {c : Call} (h : RefreshAt host expiry i c) :
    i = 2 ∧ c = call 130 .refreshDeadman ∨ i = 3 ∧ c = call 140 .refreshDeadman := by
  obtain ⟨hcall, haction, -⟩ := h
  rcases i with _ | _ | _ | _ | i
  · obtain rfl : call 1 _ = c := Option.some.inj hcall
    simp [call] at haction
  · obtain rfl : call 100 _ = c := Option.some.inj hcall
    simp [call] at haction
  · exact .inl ⟨rfl, (Option.some.inj hcall).symm⟩
  · exact .inr ⟨rfl, (Option.some.inj hcall).symm⟩
  · simp [expiry] at hcall

/-- Over one expiry the first refresh records and reports it, and the second says nothing. -/
theorem expiry_recorded :
    Recorded host expiry 2 (call 130 .refreshDeadman) ∧
      Recorded host expiry 3 (call 140 .refreshDeadman) := by
  have honly : ∀ i c, RefreshAt host expiry i c → OnlyExpiry host expiry i := by
    intro i c h j d hji hearlier
    -- the one pair of refreshes there is
    obtain ⟨rfl, rfl, rfl⟩ : i = 3 ∧ j = 2 ∧ d = call 130 .refreshDeadman := by
      rcases expiry_refreshes h with ⟨rfl, -⟩ | ⟨rfl, -⟩ <;>
        rcases expiry_refreshes hearlier with ⟨rfl, hd⟩ | ⟨rfl, -⟩ <;> simp_all
    refine ⟨fun k e hk hk' he => ?_, by decide⟩
    obtain rfl : k = 2 := by omega
    obtain rfl : call 130 .refreshDeadman = e := Option.some.inj he
    exact lapsed_guarded (by rfl) (by decide) (by decide)
  have hrecorded := (expiries_recorded_iff (by simp only [Timed, expiry]; decide)
    (by simp only [expiry]; decide)).mpr honly
  exact ⟨hrecorded 2 _ ⟨rfl, rfl, lapsed_guarded (by rfl) (by decide) (by decide)⟩,
    hrecorded 3 _ ⟨rfl, rfl, lapsed_guarded (by rfl) (by decide) (by decide)⟩⟩

/-- The second expiry is neither recorded nor reported: its first refresh leaves the record of the
first expiry, from before the deadline, and emits nothing. -/
theorem relapse_unrecorded :
    RefreshAt host relapse 4 (call 160 .refreshDeadman) ∧ ¬RefreshedBefore host relapse 4 ∧
      (call 160 .refreshDeadman).events host (stateAt host relapse 4) = [] ∧
      (stateAt host relapse 5).autoFrozenAt = some 130 ∧
      (stateAt host relapse 5).deadline = 150 := by
  refine ⟨⟨rfl, rfl, lapsed_guarded (by rfl) (by decide) (by decide)⟩, ?_, by rfl, by rfl, by rfl⟩
  rintro ⟨j, c, hj, hrefresh, hepisode⟩
  -- the unfreeze in between ends whatever expiry there was
  have hj3 : j ≤ 3 := by omega
  obtain ⟨cfg, -, -, -, hlate⟩ := hepisode 3 (call 140 .unfreeze) hj3 (by omega) rfl
  have hgrace := cfg.dmsGraceSecs.nonneg
  have hclock : (call 140 .unfreeze).timestamp.val
      - (stateAt host relapse (3 + 1)).heartbeatOrZero.val = 0 := by decide
  omega

end Sample

end AgentGuard
