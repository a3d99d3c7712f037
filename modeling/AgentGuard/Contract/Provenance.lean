import AgentGuard.Contract.Calls
import AgentGuard.Contract.Deny
import AgentGuard.Machinery.LastWord

/-!
# Contract/Provenance — nothing is approved against the admin's last word

An approval reads the agent key, the policy, its pause flag and the freeze out of the storage.  Each
of them is what some earlier call set, with the authorization the contract asks for, and what no
call in between set again (`approval_provenance`): a key that was rotated out signs nothing, a
policy that was replaced or revoked allows nothing, and what was paused or frozen stays so until
that very stop is lifted.
-/

namespace AgentGuard

open Machinery

/-! ## The calls that set something -/

/-- The call is one its admin stands behind. -/
def State.Commands (s : State) (c : Call) (action : Action) : Prop :=
  c.action = action ∧ ∃ admin, s.admin = some admin ∧ c.authorized admin = true

/-- The call initializes the account, as the admin it names. -/
def State.Initializes (s : State) (c : Call) (key : Bytes32) : Prop :=
  s.initialized.getD false = false ∧
    ∃ admin, c.action = .initializeAccount admin key ∧ c.authorized admin = true

/-- **A call sets the agent key.** -/
inductive SetsKey (s : State) (c : Call) : Option Bytes32 → Prop
  | setUp {key : Bytes32} (h : s.Initializes c key) : SetsKey s c (some key)
  | rotate {key : Bytes32} (h : s.Commands c (.rotateAgentKey key)) (hkey : s.agentPubkey.isSome) :
      SetsKey s c (some key)

/-- A policy, with its pause flag off. -/
def PolicyConfig.unpaused (cfg : PolicyConfig) : PolicyConfig := { cfg with paused := false }

/-- **A call sets the policy**, pause flag apart. -/
inductive SetsPolicy (host : Host) (s : State) (c : Call) : Option PolicyConfig → Prop
  | install {cfg : PolicyConfig} (h : s.Commands c (.setPolicy cfg))
      (hvalid : validateConfig host.self cfg = .ok ()) : SetsPolicy host s c (some cfg.unpaused)
  | revoke (h : s.Commands c .revokePolicy) : SetsPolicy host s c none

/-- **A call sets the pause flag.** -/
inductive SetsPaused (host : Host) (s : State) (c : Call) : Option Bool → Prop
  | install {cfg : PolicyConfig} (h : s.Commands c (.setPolicy cfg))
      (hvalid : validateConfig host.self cfg = .ok ()) : SetsPaused host s c (some cfg.paused)
  | pause (h : s.Commands c .pause) (hpolicy : s.policy.isSome) : SetsPaused host s c (some true)
  | resume (h : s.Commands c .resume) (hpolicy : s.policy.isSome) : SetsPaused host s c (some false)
  | revoke (h : s.Commands c .revokePolicy) : SetsPaused host s c none

/-- **A call sets the freeze.** -/
inductive SetsFrozen (s : State) (c : Call) : Option Bool → Prop
  | setUp {key : Bytes32} (h : s.Initializes c key) : SetsFrozen s c (some false)
  | freeze (h : s.Commands c .freeze) : SetsFrozen s c (some true)
  | unfreeze (h : s.Commands c .unfreeze) : SetsFrozen s c (some false)

section

variable {host : Host} {s : State} {c : Call}

/-- What `pause` and `resume` leave. -/
theorem State.Commands.step_setPaused {cfg : PolicyConfig} {paused : Bool} {action : Action}
    (h : s.Commands c action) (hpolicy : s.policy = some cfg)
    (heff : ∀ env, action.effect env s = setPaused env s paused) :
    (step host s c).policy = some { cfg with paused } := by
  obtain ⟨time, authorized, action⟩ := c
  obtain ⟨rfl, admin, hadmin, hauth⟩ := h
  rw [step_asAdmin hadmin hauth time (heff _), hpolicy]
  dsimp only
  by_cases hflip : cfg.paused ≠ paused
  · rw [if_pos hflip]
    rfl
  · rw [if_neg hflip, ← not_not.mp hflip]
    exact hpolicy

theorem State.Commands.step_install {cfg : PolicyConfig} (h : s.Commands c (.setPolicy cfg))
    (hvalid : validateConfig host.self cfg = .ok ()) : (step host s c).policy = some cfg := by
  obtain ⟨time, authorized, action⟩ := c
  obtain ⟨rfl, admin, hadmin, hauth⟩ := h
  rw [step_setPolicy hadmin hauth, hvalid]
  dsimp only
  rw [installPolicy_eq]

theorem State.Commands.step_revoke (h : s.Commands c .revokePolicy) :
    (step host s c).policy = none := by
  obtain ⟨time, authorized, action⟩ := c
  obtain ⟨rfl, admin, hadmin, hauth⟩ := h
  rw [step_revokePolicy hadmin hauth]
  rfl

theorem State.Initializes.step_eq {key : Bytes32} (h : s.Initializes c key) :
    (step host s c).agentPubkey = some key ∧ (step host s c).adminFrozen = some false := by
  obtain ⟨time, authorized, action⟩ := c
  obtain ⟨hfresh, admin, rfl, hauth⟩ := h
  rw [step_initializeAccount hfresh hauth]
  exact ⟨rfl, rfl⟩

/-! ## What is set is what is stored -/

theorem SetsKey.stored {v : Option Bytes32} (h : SetsKey s c v) :
    (step host s c).agentPubkey = v := by
  cases h with
  | setUp h => exact h.step_eq.1
  | @rotate key h hkey =>
    obtain ⟨time, authorized, action⟩ := c
    obtain ⟨rfl, admin, hadmin, hauth⟩ := h
    rw [step_rotateAgentKey hadmin hauth time hkey]

theorem SetsPolicy.stored {v : Option PolicyConfig} (h : SetsPolicy host s c v) :
    (step host s c).policy.map PolicyConfig.unpaused = v := by
  cases h with
  | install h hvalid => rw [h.step_install hvalid, Option.map_some]
  | revoke h => rw [h.step_revoke, Option.map_none]

theorem SetsPaused.stored {v : Option Bool} (h : SetsPaused host s c v) :
    (step host s c).policy.map PolicyConfig.paused = v := by
  cases h with
  | install h hvalid => rw [h.step_install hvalid, Option.map_some]
  | pause h hpolicy =>
    obtain ⟨cfg, hcfg⟩ := Option.isSome_iff_exists.mp hpolicy
    rw [h.step_setPaused hcfg fun _ => rfl, Option.map_some]
  | resume h hpolicy =>
    obtain ⟨cfg, hcfg⟩ := Option.isSome_iff_exists.mp hpolicy
    rw [h.step_setPaused hcfg fun _ => rfl, Option.map_some]
  | revoke h => rw [h.step_revoke, Option.map_none]

theorem SetsFrozen.stored {v : Option Bool} (h : SetsFrozen s c v) :
    (step host s c).adminFrozen = v := by
  cases h with
  | setUp h => exact h.step_eq.2
  | freeze h =>
    obtain ⟨time, authorized, action⟩ := c
    obtain ⟨rfl, admin, hadmin, hauth⟩ := h
    rw [step_asAdmin hadmin hauth time rfl]
    rfl
  | unfreeze h =>
    obtain ⟨time, authorized, action⟩ := c
    obtain ⟨rfl, admin, hadmin, hauth⟩ := h
    rw [step_unfreeze hadmin hauth]

/-! ## Nothing else is written -/

theorem agentPubkey_kept (h : ∀ v, ¬SetsKey s c v) :
    (step host s c).agentPubkey = s.agentPubkey := by
  have heff := stepEffect host s c
  generalize step host s c = s', approval host s c = a at heff
  cases heff with
  | initialized admin key haction hfresh hauth =>
    exact absurd (.setUp ⟨hfresh, admin, haction, hauth⟩) (h _)
  | keyRotated admin key haction hadmin hauth hkey =>
    exact absurd (.rotate ⟨haction, admin, hadmin, hauth⟩ hkey) (h _)
  | policySet => simp [installPolicy_eq]
  | approved => simp [admitted_eq]
  | heartbeat => simp [recordHeartbeat_eq, admitted_eq]
  | _ => rfl

theorem unpaused_kept (h : ∀ v, ¬SetsPolicy host s c v) :
    (step host s c).policy.map PolicyConfig.unpaused = s.policy.map PolicyConfig.unpaused := by
  have heff := stepEffect host s c
  generalize step host s c = s', approval host s c = a at heff
  cases heff with
  | policySet admin cfg haction hadmin hauth hvalid =>
    exact absurd (.install ⟨haction, admin, hadmin, hauth⟩ hvalid) (h _)
  | policyRevoked admin haction hadmin hauth =>
    exact absurd (.revoke ⟨haction, admin, hadmin, hauth⟩) (h _)
  | pausedSet admin cfg paused haction hadmin hauth hpolicy => rw [hpolicy]; rfl
  | approved => simp
  | heartbeat => simp [recordHeartbeat_eq]
  | _ => rfl

theorem paused_kept (h : ∀ v, ¬SetsPaused host s c v) :
    (step host s c).policy.map PolicyConfig.paused = s.policy.map PolicyConfig.paused := by
  have heff := stepEffect host s c
  generalize step host s c = s', approval host s c = a at heff
  cases heff with
  | policySet admin cfg haction hadmin hauth hvalid =>
    exact absurd (.install ⟨haction, admin, hadmin, hauth⟩ hvalid) (h _)
  | policyRevoked admin haction hadmin hauth =>
    exact absurd (.revoke ⟨haction, admin, hadmin, hauth⟩) (h _)
  | pausedSet admin cfg paused haction hadmin hauth hpolicy =>
    have hsome : s.policy.isSome := by rw [hpolicy]; rfl
    rcases haction with ⟨haction, -⟩ | ⟨haction, -⟩
    · exact absurd (.pause ⟨haction, admin, hadmin, hauth⟩ hsome) (h _)
    · exact absurd (.resume ⟨haction, admin, hadmin, hauth⟩ hsome) (h _)
  | approved => simp
  | heartbeat => simp [recordHeartbeat_eq]
  | _ => rfl

theorem adminFrozen_kept (h : ∀ v, ¬SetsFrozen s c v) :
    (step host s c).adminFrozen = s.adminFrozen := by
  have heff := stepEffect host s c
  generalize step host s c = s', approval host s c = a at heff
  cases heff with
  | initialized admin key haction hfresh hauth =>
    exact absurd (.setUp ⟨hfresh, admin, haction, hauth⟩) (h _)
  | frozen admin haction hadmin hauth =>
    exact absurd (.freeze ⟨haction, admin, hadmin, hauth⟩) (h _)
  | unfrozen admin haction hadmin hauth =>
    exact absurd (.unfreeze ⟨haction, admin, hadmin, hauth⟩) (h _)
  | policySet => simp [installPolicy_eq]
  | approved => simp [admitted_eq]
  | heartbeat => simp [recordHeartbeat_eq, admitted_eq]
  | _ => rfl

/-! ## Approvals -/

/-- The call asks the account for an authorization. -/
def Call.Requests (host : Host) (c : Call) (entry : AuthEntry) : Prop :=
  c.action = .checkAuth entry ∨
    c.action = .heartbeat entry ∧ heartbeatContext host.self ∈ entry.contexts

theorem approvalOf_eq_some {env : Env} {entry : AuthEntry} {a : Approval}
    (h : approvalOf env s entry = some a) :
    ∃ key cfg, s.agentPubkey = some key ∧
      env.host.ed25519Verify key entry.signaturePayload entry.signature = true ∧
      Grants env s cfg entry.contexts ∧ a = ⟨env.timestamp, cfg, entry.contexts⟩ := by
  rw [approvalOf] at h
  cases hcheck : checkAuth env s entry.signaturePayload entry.signature entry.contexts with
  | error e => simp [hcheck] at h
  | ok outcome =>
    rcases checkAuth_cases hcheck with ⟨e, hres, -⟩ | ⟨key, cfg, hkey, hsig, hgrants, hres, -⟩
    · cases hpolicy : s.policy <;> simp [hcheck, hpolicy, hres] at h
    · simp only [hcheck, hgrants.policy, hres, Option.some.injEq] at h
      exact ⟨key, cfg, hkey, hsig, hgrants, h.symm⟩

/-- **An approval**, unfolded. -/
theorem approval_eq_some {a : Approval} (h : approval host s c = some a) :
    ∃ entry key cfg, c.Requests host entry ∧ s.agentPubkey = some key ∧
      host.ed25519Verify key entry.signaturePayload entry.signature = true ∧
      Grants (c.env host) s cfg entry.contexts ∧ a = ⟨c.timestamp, cfg, entry.contexts⟩ := by
  rw [approval] at h
  cases haction : c.action with
  | checkAuth entry =>
    simp only [haction] at h
    obtain ⟨key, cfg, hkey, hsig, hgrants, rfl⟩ := approvalOf_eq_some h
    exact ⟨entry, key, cfg, .inl haction, hkey, hsig, hgrants, rfl⟩
  | heartbeat entry =>
    simp only [haction] at h
    split_ifs at h with hmem
    obtain ⟨key, cfg, hkey, hsig, hgrants, rfl⟩ := approvalOf_eq_some h
    exact ⟨entry, key, cfg, .inr ⟨haction, hmem⟩, hkey, hsig, hgrants, rfl⟩
  | _ => simp [haction] at h

/-- **Nothing is granted past a closed gate**, but the empty request. -/
theorem Grants.openPolicy_eq {env : Env} {cfg : PolicyConfig} {contexts : List Context}
    (hg : Grants env s cfg contexts) (hne : contexts ≠ []) :
    openPolicy s.policy ⟨s.frozenOrFalse, s.heartbeatOrZero⟩ env.timestamp = some cfg := by
  have hall := hg.allowed
  have hlen : contexts.length ≤ maxAuthContexts := by
    by_contra hlong
    rw [authDecision, decideContexts_oversized _ _ _ _ _ (not_le.mp hlong)] at hall
    simp [Decision.isAllowed] at hall
  cases hopen : openPolicy s.policy ⟨s.frozenOrFalse, s.heartbeatOrZero⟩ env.timestamp with
  | none =>
    obtain ⟨e, he⟩ := decideContexts_closed env.host.self hlen hopen
    rw [authDecision, he] at hall
    obtain ⟨ctx, contexts, rfl⟩ := List.exists_cons_of_ne_nil hne
    simp [blockAll, Decision.isAllowed] at hall
  | some cfg' => rw [← hg.policy, policy_of_openPolicy hopen]

end

/-- **What an approval goes back to**: a signature under the last key that was set, the last policy
that was set, and, when anything was asked for, a last word that it run — neither paused nor
frozen. -/
structure Approval.Traced (host : Host) (calls : List Call) (i : ℕ) (c : Call) (a : Approval) :
    Prop where
  signed : ∃ entry key, c.Requests host entry ∧ a = ⟨c.timestamp, a.policy, entry.contexts⟩ ∧
    LastSet (step host) State.empty calls SetsKey i (some key) ∧
    host.ed25519Verify key entry.signaturePayload entry.signature = true
  policy : LastSet (step host) State.empty calls (SetsPolicy host) i (some a.policy.unpaused)
  unpaused : a.contexts ≠ [] →
    LastSet (step host) State.empty calls (SetsPaused host) i (some false)
  unfrozen : a.contexts ≠ [] → LastSet (step host) State.empty calls SetsFrozen i (some false)

section

variable {host : Host} {calls : List Call} {i : ℕ} {s : State}

/-- What is stored was set. -/
theorem lastSet_of_some {β : Type} {Sets : State → Call → Option β → Prop} (val : State → Option β)
    {b : β} (hset : ∀ x c v, Sets x c v → val (step host x c) = v)
    (hkeep : ∀ x c, (∀ v, ¬Sets x c v) → val (step host x c) = val x)
    (hempty : val State.empty = none) (h : val (stateAt host calls i) = some b) :
    LastSet (step host) State.empty calls Sets i (some b) := by
  rcases lastSet hset hkeep i with hlast | hsame
  · exact h ▸ hlast
  · rw [hempty] at hsame
    exact absurd (h.symm.trans hsame) (by simp)

/-- **Nothing is approved against the admin's last word.**  In every run of a deployed account,
whoever called what and in whatever order, every approval is signed under the key that was set last,
under the policy that was installed last, and not while a pause or a freeze is in force; each of
them was set by a call its admin authorized, and by none after it. -/
theorem approval_provenance {c : Call} {a : Approval}
    (h : approval host (stateAt host calls i) c = some a) : a.Traced host calls i c := by
  obtain ⟨entry, key, cfg, hrequests, hkey, hsig, hgrants, rfl⟩ := approval_eq_some h
  have hopen (hne : entry.contexts ≠ []) := openPolicy_eq_some_iff.mp (hgrants.openPolicy_eq hne)
  refine ⟨⟨entry, key, hrequests, rfl, ?_, hsig⟩, ?_, fun hne => ?_, fun hne => ?_⟩
  · exact lastSet_of_some State.agentPubkey (fun _ _ _ h => h.stored)
      (fun _ _ h => agentPubkey_kept h) rfl hkey
  · refine lastSet_of_some (fun s => s.policy.map PolicyConfig.unpaused) (fun _ _ _ h => h.stored)
      (fun _ _ h => unpaused_kept h) rfl ?_
    rw [hgrants.policy, Option.map_some]
  · refine lastSet_of_some (fun s => s.policy.map PolicyConfig.paused) (fun _ _ _ h => h.stored)
      (fun _ _ h => paused_kept h) rfl ?_
    obtain ⟨hpolicy, -, herror⟩ := hopen hne
    rw [hpolicy, Option.map_some, (accountError_eq_none_iff.mp herror).2.1]
  · refine lastSet_of_some State.adminFrozen (fun _ _ _ h => h.stored)
      (fun _ _ h => adminFrozen_kept h) rfl ?_
    obtain ⟨-, hfrozen, -⟩ := hopen hne
    have hstored := (setUp_stateAt host calls i).frozen (by rw [hkey]; rfl)
    obtain ⟨b, hb⟩ := Option.isSome_iff_exists.mp hstored
    have hoff : (stateAt host calls i).adminFrozen.getD false = false := hfrozen
    rw [hb] at hoff ⊢
    exact congrArg some hoff

end

namespace Sample

/-- A deployment and a policy. -/
def setUp : List Call :=
  [call 1 (.initializeAccount admin (Vector.replicate 32 0)), call 100 (.setPolicy capFifty)]

/-- A payment after the setup goes back to it. -/
theorem payment_traced :
    Approval.Traced host setUp 2 (auth 110 [pay 20]) ⟨110, capFifty, [pay 20]⟩ :=
  approval_provenance (by rfl)

end Sample

end AgentGuard
