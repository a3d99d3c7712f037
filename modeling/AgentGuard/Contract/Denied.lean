import AgentGuard.Contract.Preflight

/-!
# Contract/Denied — a denied request leaves no trace

A request with a blocked context leaves the ledger as it was or pruned, and a prune is absorbed by
the prune of any later request that gets that far.  So whatever denied requests come in between, no
later decision changes.
-/

namespace AgentGuard

open Machinery

/-- At least one context is blocked. -/
def Denied (verdicts : List Decision) : Prop := ∃ e, .blocked e ∈ verdicts

/-- **The request is refused before the ledger is looked at**: it is oversized, or an account gate
is closed. -/
def RefusedEarly (policy : Option PolicyConfig) (state : AccountState) (now : U64)
    (contexts : List Context) : Prop :=
  maxAuthContexts < contexts.length ∨ openPolicy policy state now = none

/-- **`l'` is `l`, pruned at some time up to `now` or not at all.** -/
def Forgot (policy : Option PolicyConfig) (now : U64) (l l' : Ledger) : Prop :=
  l' = l ∨ ∃ cfg time, policy = some cfg ∧ time.val ≤ now.val ∧ l' = pruneFor cfg l time

section

variable {self : Address} {policy : Option PolicyConfig} {state : AccountState}
  {l l' : Ledger} {now now' t : U64} {contexts : List Context}

/-- Such a request leaves the ledger alone. -/
theorem RefusedEarly.ledger (h : RefusedEarly policy state now contexts) (self : Address)
    (l : Ledger) : (decideContexts self policy state l now contexts).2 = l := by
  by_cases hlen : contexts.length ≤ maxAuthContexts
  · obtain ⟨e, he⟩ := decideContexts_closed self hlen (h.resolve_left (not_lt.mpr hlen))
    rw [he]
  · rw [decideContexts_oversized _ _ _ _ _ (not_le.mp hlen)]

/-- **What a denied request does to the ledger.** -/
theorem ledger_of_denied (h : Denied (decideContexts self policy state l now contexts).1) :
    (decideContexts self policy state l now contexts).2 = l ∨
      ∃ cfg, policy = some cfg ∧
        (decideContexts self policy state l now contexts).2 = pruneFor cfg l now := by
  by_cases hearly : RefusedEarly policy state now contexts
  · exact .inl (hearly.ledger self l)
  rw [RefusedEarly, not_or, not_lt] at hearly
  obtain ⟨cfg, hopen⟩ := Option.ne_none_iff_exists'.mp hearly.2
  refine .inr ⟨cfg, policy_of_openPolicy hopen, ?_⟩
  rw [decideContexts_open hearly.1 hopen] at h ⊢
  dsimp only at h ⊢
  split_ifs at h ⊢ with hall
  · obtain ⟨e, he⟩ := h
    have hallowed := List.all_eq_true.mp hall _ he
    simp [Decision.isAllowed] at hallowed
  · rfl

/-- **An earlier prune is absorbed by the prune of a later request.** -/
theorem Ledger.Rep.pruneFor_pruneFor (hl : l.Rep t) (cfg : PolicyConfig)
    (hnow : now.val ≤ now'.val) :
    AgentGuard.pruneFor cfg (AgentGuard.pruneFor cfg l now) now'
      = AgentGuard.pruneFor cfg l now' := by
  by_cases hlimits : limitsWindow cfg = true
  · rw [AgentGuard.pruneFor, AgentGuard.pruneFor, AgentGuard.pruneFor, if_pos hlimits,
      if_pos hlimits, if_pos hlimits, hl.prune_prune hnow]
  · rw [AgentGuard.pruneFor, AgentGuard.pruneFor, AgentGuard.pruneFor, if_neg hlimits,
      if_neg hlimits, if_neg hlimits]

theorem Forgot.mono (h : Forgot policy now l l') (hnow : now.val ≤ now'.val) :
    Forgot policy now' l l' := by
  obtain hsame | ⟨cfg, time, hcfg, htime, hpruned⟩ := h
  · exact .inl hsame
  · exact .inr ⟨cfg, time, hcfg, htime.trans hnow, hpruned⟩

/-- The telemetry is not touched. -/
theorem Forgot.merges (h : Forgot policy now l l') : l'.merges = l.merges := by
  obtain rfl | ⟨cfg, time, -, -, rfl⟩ := h
  · rfl
  · rw [pruneFor]
    split_ifs <;> rfl

/-- Whatever was forgotten, a request that gets to prune finds the same. -/
theorem Forgot.pruneFor (hl : l.Rep t) (h : Forgot policy now l l') {cfg : PolicyConfig}
    (hcfg : policy = some cfg) (hnow : now.val ≤ now'.val) :
    AgentGuard.pruneFor cfg l' now' = AgentGuard.pruneFor cfg l now' := by
  obtain rfl | ⟨cfg', time, hcfg', htime, rfl⟩ := h
  · rfl
  · obtain rfl := Option.some.inj (hcfg.symm.trans hcfg')
    exact hl.pruneFor_pruneFor cfg (htime.trans hnow)

/-- A denied request forgets at most what it prunes. -/
theorem Forgot.denied (hl : l.Rep t) (h : Forgot policy now l l') (hnow : now.val ≤ now'.val)
    (hdenied : Denied (decideContexts self policy state l' now' contexts).1) :
    Forgot policy now' l (decideContexts self policy state l' now' contexts).2 := by
  obtain hsame | ⟨cfg, hcfg, hpruned⟩ := ledger_of_denied hdenied
  · rw [hsame]
    exact h.mono hnow
  · rw [hpruned, h.pruneFor hl hcfg hnow]
    exact .inr ⟨cfg, now', hcfg, le_rfl, rfl⟩

/-- **What was forgotten is not missed by any later request.** -/
theorem Forgot.decideContexts (hl : l.Rep t) (h : Forgot policy now l l')
    (hnow : now.val ≤ now'.val) (self : Address) (state : AccountState) (contexts : List Context) :
    (AgentGuard.decideContexts self policy state l' now' contexts).1
        = (AgentGuard.decideContexts self policy state l now' contexts).1 ∧
      (¬RefusedEarly policy state now' contexts →
        (AgentGuard.decideContexts self policy state l' now' contexts).2
          = (AgentGuard.decideContexts self policy state l now' contexts).2) := by
  refine ⟨decideContexts_congr (fun cfg hcfg => h.pruneFor hl hcfg hnow) (fun _ => rfl) rfl,
    fun hearly => ?_⟩
  rw [RefusedEarly, not_or, not_lt] at hearly
  obtain ⟨cfg, hopen⟩ := Option.ne_none_iff_exists'.mp hearly.2
  rw [decideContexts_open hearly.1 hopen, decideContexts_open hearly.1 hopen,
    h.pruneFor hl (policy_of_openPolicy hopen) hnow]

end

/-! ## Sequences of denied requests -/

/-- A request and when it comes. -/
structure Request where
  time : U64
  contexts : List Context

/-- The ledger a request leaves. -/
def submit (self : Address) (policy : Option PolicyConfig) (state : AccountState) (l : Ledger)
    (r : Request) : Ledger := (decideContexts self policy state l r.time r.contexts).2

/-- **Every request is denied**, on the ledger it finds. -/
def AllDenied (self : Address) (policy : Option PolicyConfig) (state : AccountState) :
    Ledger → List Request → Prop
  | _, [] => True
  | l, r :: requests => Denied (decideContexts self policy state l r.time r.contexts).1 ∧
      AllDenied self policy state (submit self policy state l r) requests

section

variable {self : Address} {policy : Option PolicyConfig} {state : AccountState} {l : Ledger}
  {t : U64}

/-- **Denied requests forget at most what they prune**, however many there are. -/
theorem forgot_foldl (hl : l.Rep t) (requests : List Request) :
    ∀ (now : U64) (l' : Ledger), Forgot policy now l l' → Timed Request.time now requests →
      AllDenied self policy state l' requests →
        Forgot policy (endTime Request.time now requests) l
          (requests.foldl (submit self policy state) l') := by
  induction requests with
  | nil => exact fun _ _ h _ _ => h
  | cons r requests ih =>
    intro now l' h htimed hdenied
    exact ih r.time _ (h.denied hl htimed.1 hdenied.1) htimed.2 hdenied.2

/-- **A denied batch is unobservable.**  It leaves the ledger as it was or pruned, with no admission
and no merge; and after any sequence of denied batches, a later request under the same policy and
account state gets the verdicts it would have got without them, and leaves the ledger it would have
left — but for a request that is refused before the ledger is looked at, which returns the ledger it
was given. -/
theorem denied_unobservable (hl : l.Rep t) :
    (∀ now contexts, Denied (decideContexts self policy state l now contexts).1 →
      ((decideContexts self policy state l now contexts).2 = l ∨
        ∃ cfg, policy = some cfg ∧
          (decideContexts self policy state l now contexts).2 = l.prune now cfg.windowSecs) ∧
      (decideContexts self policy state l now contexts).2.merges = l.merges) ∧
    ∀ now requests, Timed Request.time now requests → AllDenied self policy state l requests →
      ∀ (now' : U64) contexts, (endTime Request.time now requests).val ≤ now'.val →
        let l' := requests.foldl (submit self policy state) l
        (decideContexts self policy state l' now' contexts).1
            = (decideContexts self policy state l now' contexts).1 ∧
          (¬RefusedEarly policy state now' contexts →
            (decideContexts self policy state l' now' contexts).2
              = (decideContexts self policy state l now' contexts).2) ∧
          (RefusedEarly policy state now' contexts →
            (decideContexts self policy state l' now' contexts).2 = l' ∧
              (decideContexts self policy state l now' contexts).2 = l) := by
  refine ⟨fun now contexts hdenied => ⟨?_, ?_⟩,
    fun now requests htimed hdenied now' contexts hnow => ?_⟩
  · obtain hsame | ⟨cfg, hcfg, hpruned⟩ := ledger_of_denied hdenied
    · exact .inl hsame
    · rw [hpruned, pruneFor]
      split_ifs
      · exact .inr ⟨cfg, hcfg, rfl⟩
      · exact .inl rfl
  · have hstart : Forgot policy now l l := .inl rfl
    exact (hstart.denied hl le_rfl hdenied).merges
  · have hforgot := forgot_foldl hl requests now l (.inl rfl) htimed hdenied
    obtain ⟨hverdicts, hledger⟩ := hforgot.decideContexts hl hnow self state contexts
    exact ⟨hverdicts, hledger, fun hearly => ⟨hearly.ledger self _, hearly.ledger self l⟩⟩

end

namespace Sample

/-- **A request that is refused early shows the difference**: at time `200` the entry of time `110`
has expired, a denied transfer of `60` prunes it, and an oversized request returns what it was
given. -/
theorem denied_observable :
    spent.loadWindow.1.Rep 110 ∧
      Denied (decideContexts self (some capFifty) ⟨false, 100⟩ spent.loadWindow.1 200 [pay 60]).1 ∧
      (decideContexts self (some capFifty) ⟨false, 100⟩
          (decideContexts self (some capFifty) ⟨false, 100⟩ spent.loadWindow.1 200 [pay 60]).2 200
          (List.replicate 65 (pay 1))).2
        ≠ (decideContexts self (some capFifty) ⟨false, 100⟩ spent.loadWindow.1 200
          (List.replicate 65 (pay 1))).2 :=
  ⟨reachable_spent.inv.ledger, ⟨.windowCapExceeded, by decide⟩, by decide⟩

/-- Two denied transfers of `60` do not change the verdict on one of `30`. -/
theorem denied_twice :
    (decideContexts self (some capFifty) ⟨false, 100⟩
        ([⟨120, [pay 60]⟩, ⟨200, [pay 10, pay 60]⟩].foldl
          (submit self (some capFifty) ⟨false, 100⟩) spent.loadWindow.1) 210 [pay 30]).1
      = (decideContexts self (some capFifty) ⟨false, 100⟩ spent.loadWindow.1 210 [pay 30]).1 := by
  have htimed : Timed Request.time 110 [⟨120, [pay 60]⟩, ⟨200, [pay 10, pay 60]⟩] :=
    ⟨show (110 : U64).val ≤ (120 : U64).val by decide,
      show (120 : U64).val ≤ (200 : U64).val by decide, trivial⟩
  have hdenied : AllDenied self (some capFifty) ⟨false, 100⟩ spent.loadWindow.1
      [⟨120, [pay 60]⟩, ⟨200, [pay 10, pay 60]⟩] :=
    ⟨⟨.windowCapExceeded, by decide⟩, ⟨.windowCapExceeded, by decide⟩, trivial⟩
  exact ((denied_unobservable reachable_spent.inv.ledger).2 110 _ htimed hdenied 210 [pay 30]
    (show (200 : U64).val ≤ (210 : U64).val by decide)).1

end Sample

end AgentGuard
