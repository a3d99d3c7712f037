import AgentGuard.Contract.Deny
import AgentGuard.Contract.Events
import AgentGuard.Machinery.RollingBudget

/-!
# Contract/Ceilings — the rolling limits over whole runs

The history of a run is the list of its approved authorizations.  Each of the three meters *follows*
its reading of the history (`Follows`): an approval forgets up to the policy's horizon and charges
what it costs, under the policy's cap.  Along a run that keeps the cap and the width, that makes the
cap a ceiling on every window of the width, whatever the entry points in between.  What an approval
costs is read off its contexts (`approval_amounts`).
-/

namespace AgentGuard

open Machinery

/-! ## Readings of the history -/

/-- What an approved authorization transfers. -/
def Approval.spend (host : Host) (a : Approval) : ℤ :=
  ((parseAll host.self a.policy a.contexts).map ParsedCall.spend).sum

/-- What it transfers to `recipient`. -/
def Approval.spendTo (host : Host) (recipient : Address) (a : Approval) : ℤ :=
  ((parseAll host.self a.policy a.contexts).map (ParsedCall.spendTo recipient)).sum

/-- How many protocol calls it makes. -/
def Approval.protocolCalls (host : Host) (a : Approval) : ℤ :=
  ((parseAll host.self a.policy a.contexts).map ParsedCall.protocolCalls).sum

section

variable {host : Host} {a : Approval}

/-- A sum over the parsed calls, context by context. -/
theorem exists_amounts {f : ParsedCall → ℤ} {R : Context → ℤ → Prop} (htotal : ∀ ctx, ∃ n, R ctx n)
    (hread : ∀ {ctx n}, R ctx n → f (parseCall host.self ctx a.policy) = n) :
    ∃ amounts, List.Forall₂ R a.contexts amounts ∧
      ((parseAll host.self a.policy a.contexts).map f).sum = amounts.sum := by
  refine ⟨_, ?_, rfl⟩
  rw [parseAll, List.map_map, List.forall₂_map_right_iff]
  refine List.forall₂_same.mpr fun ctx _ => ?_
  obtain ⟨n, hn⟩ := htotal ctx
  rwa [Function.comp_apply, hread hn]

/-- Every approval of a run was given under a policy the account had accepted. -/
theorem accepted_of_mem_run {t : U64} {s : State} {calls : List Call} (hinv : s.Inv host t)
    (htimed : Timed Call.timestamp t calls) (ha : a ∈ (run host s calls).2) :
    a.policy.Accepted host.self := by
  have hrun : (run host s calls).1.Inv host (endTime Call.timestamp t calls) ∧
      ∀ a ∈ (run host s calls).2, a.policy.Accepted host.self := by
    refine htimed.foldl_invariant (fun t (sh : State × List Approval) => sh.1.Inv host t ∧
      ∀ a ∈ sh.2, a.policy.Accepted host.self) (fun _ => True) (fun t sh c h ht _ => ?_) calls t
      (s, []) (fun _ _ => trivial) ⟨hinv, fun _ ha => absurd ha List.not_mem_nil⟩
    refine ⟨h.1.step ht, fun a ha => ?_⟩
    rcases List.mem_append.mp ha with hnew | hold
    · have heff := stepEffect host sh.1 c
      rw [Option.mem_toList.mp hnew] at heff
      generalize step host sh.1 c = s' at heff
      cases heff with
      | approved entry cfg haction hgrants => exact h.1.accepted hgrants.policy
      | heartbeat entry cfg haction hmem hgrants => exact h.1.accepted hgrants.policy
    · exact h.2 a hold
  exact hrun.2 a ha

/-- **The readings are those of the contexts.**  Every approval of a run transfers, to anyone and to
each recipient, what the well-formed transfers of allowed assets among its contexts ask for, and
makes as many protocol calls as it has contexts on protocols its policy lists. -/
theorem approval_amounts {t : U64} {s : State} {calls : List Call} (hinv : s.Inv host t)
    (htimed : Timed Call.timestamp t calls) (ha : a ∈ (run host s calls).2) :
    (∃ amounts, List.Forall₂ (Spends a.policy Set.univ) a.contexts amounts ∧
        a.spend host = amounts.sum) ∧
      (∀ recipient, ∃ amounts, List.Forall₂ (Spends a.policy {recipient}) a.contexts amounts ∧
        a.spendTo host recipient = amounts.sum) ∧
      ∃ amounts, List.Forall₂ (CountsCall a.policy) a.contexts amounts ∧
        a.protocolCalls host = amounts.sum := by
  have hacc := accepted_of_mem_run hinv htimed ha
  exact ⟨exists_amounts (exists_spends a.policy _) fun h => h.spend_eq hacc,
    fun recipient => exists_amounts (exists_spends a.policy _) fun h => h.spendTo_eq hacc,
    exists_amounts (exists_countsCall a.policy) fun h => h.protocolCalls_eq hacc⟩

end

/-- The approvals with a timestamp in `(x, t]`. -/
def approvedIn (x t : ℤ) (history : List Approval) : List Approval :=
  history.filter fun a => x < a.time.val ∧ a.time.val ≤ t

/-- What the approvals of `(x, t]` transferred, exactly. -/
def transferredIn (host : Host) (x t : ℤ) (history : List Approval) : ℤ :=
  ((approvedIn x t history).map (Approval.spend host)).sum

/-- What they transferred to `recipient`. -/
def transferredToIn (host : Host) (recipient : Address) (x t : ℤ) (history : List Approval) : ℤ :=
  ((approvedIn x t history).map (Approval.spendTo host recipient)).sum

/-- How many protocol calls they made. -/
def protocolCallsIn (host : Host) (x t : ℤ) (history : List Approval) : ℤ :=
  ((approvedIn x t history).map (Approval.protocolCalls host)).sum

/-- The global meter's reading: a spend counts while the cap is enabled. -/
def globalMetering (host : Host) : Metering Approval where
  time a := a.time.val
  amount := Approval.spend host
  counted a := 0 < a.policy.windowCap.val
  horizon a := pruneHorizon a.policy a.time

/-- A recipient meter's reading: a spend counts while there is an override. -/
def recipientMetering (host : Host) (recipient : Address) : Metering Approval where
  time a := a.time.val
  amount := Approval.spendTo host recipient
  counted a := hasRecipientWindowCap a.policy recipient
  horizon a := pruneHorizon a.policy a.time

/-- The call counter's reading: a call counts while there is a rate limit. -/
def callMetering (host : Host) : Metering Approval where
  time a := a.time.val
  amount := Approval.protocolCalls host
  counted a := 0 < a.policy.protocolCallsPerWindow.val
  horizon a := pruneHorizon a.policy a.time

theorem cost_globalMetering (host : Host) (a : Approval) : (globalMetering host).cost a
    = globalDemand a.policy (parseAll host.self a.policy a.contexts) := by
  simp only [Metering.cost, globalMetering, globalDemand, Approval.spend, decide_eq_true_eq]

theorem cost_recipientMetering (host : Host) (r : Address) (a : Approval) :
    (recipientMetering host r).cost a
      = recipientDemand a.policy r (parseAll host.self a.policy a.contexts) := rfl

theorem cost_callMetering (host : Host) (a : Approval) : (callMetering host).cost a
    = callDemand a.policy (parseAll host.self a.policy a.contexts) := by
  simp only [Metering.cost, callMetering, callDemand, Approval.protocolCalls, decide_eq_true_eq]

/-! ## Meters that follow the history -/

variable {V : IntRange}

/-- **What an approval does to a meter** that reads it as `m`: nothing, when it amounts to nothing;
otherwise it forgets, finds room under the cap and charges. -/
def Moves (m : Metering Approval) (cap : ℤ) (a : Approval) (l l' : Rolling u64 V) : Prop :=
  (m.amount a = 0 ∧ l' = l) ∨
    (0 < m.cost a → (l.keepAfter (m.horizon a)).total.val + m.cost a ≤ cap) ∧
      l' = (l.keepAfter (m.horizon a)).charge maxWindowEntries a.time (m.cost a)

/-- **A meter that moves with an approval still speaks for all it remembers.** -/
theorem Moves.knows {m : Metering Approval} {cap : ℤ} {a : Approval} {l l' : Rolling u64 V}
    {cs : List Approval} (h : Moves m cap a l l') (hknows : m.Knows cs l)
    (hs : l.Sound maxWindowEntries a.time.val) (htime : m.time a = a.time.val)
    (hamount : 0 ≤ m.amount a) (hlo : V.lo ≤ 0) (hcap : cap ≤ V.hi) : m.Knows (a :: cs) l' := by
  rcases h with ⟨hzero, rfl⟩ | ⟨hroom, rfl⟩
  · exact hknows.idle hs (by rw [Metering.cost, hzero, ite_self])
  · have hcost : 0 ≤ m.cost a := by
      rw [Metering.cost]
      split_ifs
      · exact hamount
      · exact le_rfl
    exact hknows.charge (by decide) hlo hs htime hcost
      (BoundedInt.add_le_hi_of_room _ hcost hroom hcap)

/-- **A meter that counts an approval is under its cap afterwards.** -/
theorem Moves.total_le {m : Metering Approval} {cap : ℤ} {a : Approval} {l l' : Rolling u64 V}
    (h : Moves m cap a l l') (hs : l.Sound maxWindowEntries a.time.val) (hlo : V.lo ≤ 0)
    (hcap : cap ≤ V.hi) (hcost : 0 < m.cost a) : l'.total.val ≤ cap := by
  rcases h with ⟨hzero, rfl⟩ | ⟨hroom, rfl⟩
  · rw [Metering.cost, hzero, ite_self] at hcost
    omega
  · have hfit := hroom hcost
    have hnn := (hs.keepAfter hlo (m.horizon a)).total_nonneg
    rw [Rolling.val_total_charge hlo hcost.le (by omega)]
    omega

/-- **The meter `μ` follows the reading `m`** under policies that satisfy `ok`. -/
structure Follows (host : Host) (m : Metering Approval) (μ : Ledger → Rolling u64 V)
    (capOf : PolicyConfig → ℤ) (ok : PolicyConfig → Prop) : Prop where
  time : ∀ a, m.time a = a.time.val
  horizon : ∀ a, m.horizon a = pruneHorizon a.policy a.time
  moves : ∀ (env : Env) (s : State) (cfg : PolicyConfig) (contexts : List Context),
    env.host = host → s.Inv host env.timestamp → s.window.isSome → ok cfg →
    (μ s.loadWindow.1).Sound maxWindowEntries env.timestamp.val →
    Grants env s cfg contexts →
      0 ≤ m.amount ⟨env.timestamp, cfg, contexts⟩ ∧
        Moves m (capOf cfg) ⟨env.timestamp, cfg, contexts⟩ (μ s.loadWindow.1)
          (μ (s.admitted env contexts).loadWindow.1)

/-- The override of a recipient, `0` without one. -/
def overrideCap (recipient : Address) (cfg : PolicyConfig) : ℤ :=
  ((recipientOverrideCap cfg recipient).map BoundedInt.val).getD 0

/-- **The global meter follows its reading.** -/
theorem follows_global (host : Host) :
    Follows host (globalMetering host) Ledger.single (fun cfg => cfg.windowCap.val)
      fun _ => True where
  time _ := rfl
  horizon _ := rfl
  moves := by
    rintro env s cfg contexts rfl hinv - - - hg
    have hstored := (loadWindow_admitted (hinv.decided contexts)).1
    obtain ⟨-, ⟨-, rfl, hsame⟩ | ⟨-, hperm, hfits, hcharged⟩⟩ := hg.cases hinv
    · exact ⟨le_rfl, .inl ⟨rfl, by rw [hstored, hsame]⟩⟩
    have hpruned := hinv.ledger.single_pruneFor cfg env.timestamp
    refine ⟨sum_map_nonneg fun call hc => (hperm call hc).spend_nonneg, .inr ⟨?_, ?_⟩⟩
    · rw [cost_globalMetering]
      intro hpos
      have hroom := hfits.global hpos
      rwa [show (pruneFor cfg s.loadWindow.1 env.timestamp).total = _ from
        congrArg Rolling.total hpruned] at hroom
    · rw [hstored, hcharged.single, hpruned, cost_globalMetering]
      rfl

/-- **A recipient's meter follows its reading.** -/
theorem follows_recipient (host : Host) (r : Address) :
    Follows host (recipientMetering host r) (fun l => l.meter r) (overrideCap r)
      fun _ => True where
  time _ := rfl
  horizon _ := rfl
  moves := by
    rintro env s cfg contexts rfl hinv - - - hg
    have hstored := (loadWindow_admitted (hinv.decided contexts)).2 r
    obtain ⟨-, ⟨-, rfl, hsame⟩ | ⟨-, hperm, hfits, hcharged⟩⟩ := hg.cases hinv
    · exact ⟨le_rfl, .inl ⟨rfl, by rw [hstored, hsame]⟩⟩
    have hpruned := hinv.ledger.meter_pruneFor cfg env.timestamp r
    refine ⟨sum_map_nonneg fun call hc => (hperm call hc).spendTo_nonneg r, .inr ⟨?_, ?_⟩⟩
    · rw [cost_recipientMetering]
      intro hpos
      obtain ⟨cap, hcap⟩ := override_of_recipientDemand_pos hpos
      have hroom := hfits.recipient r cap hcap hpos
      rw [hpruned] at hroom
      rwa [overrideCap, hcap]
    · rw [hstored, hcharged.meter, hpruned, cost_recipientMetering]
      rfl

/-- **The call counter follows its reading**, below a limit that is the whole range. -/
theorem follows_calls (host : Host) :
    Follows host (callMetering host) Ledger.calls (fun cfg => cfg.protocolCallsPerWindow.val)
      fun cfg => cfg.protocolCallsPerWindow.val < u32.hi where
  time _ := rfl
  horizon _ := rfl
  moves := by
    rintro env s cfg contexts rfl hinv hwindow hlimit hsound hg
    have hstored := calls_loadWindow_admitted (hinv.decided contexts)
      (persists_of_window hwindow _)
    obtain ⟨hlen, ⟨-, rfl, hsame⟩ | ⟨-, hperm, hfits, hcharged⟩⟩ := hg.cases hinv
    · refine ⟨le_rfl, .inl ⟨rfl, ?_⟩⟩
      rw [hstored, hsame]
      exact hsound.recount
    have hpruned := hinv.ledger.calls_pruneFor cfg env.timestamp
    have hdemand := callDemand_nonneg cfg (parseAll env.host.self cfg contexts)
    have hroom : 0 < callDemand cfg (parseAll env.host.self cfg contexts) →
        (s.loadWindow.1.calls.keepAfter (pruneHorizon cfg env.timestamp)).total.val
          + callDemand cfg (parseAll env.host.self cfg contexts)
            ≤ cfg.protocolCallsPerWindow.val := by
      intro hpos
      have hmin := hfits.calls hpos
      rw [show (pruneFor cfg s.loadWindow.1 env.timestamp).protocolCallTotal = _ from
        congrArg Rolling.total hpruned] at hmin
      exact (min_le_iff.mp hmin).resolve_left (not_le.mpr hlimit)
    have hfit := BoundedInt.add_le_hi_of_room _ hdemand hroom (BoundedInt.le_hi _)
    refine ⟨sum_map_nonneg fun call _ => call.protocolCalls_nonneg, .inr ⟨?_, ?_⟩⟩
    · rw [cost_callMetering]
      exact hroom
    -- the counter is counted again when it is loaded, and a sound one comes back as it was
    · have hleft := hcharged.calls
      rw [hpruned] at hleft
      have hcounted := (hsound.keepAfter (by decide) (pruneHorizon cfg env.timestamp)).charge
        (by decide) (by decide) hdemand hfit
      rw [← hleft] at hcounted
      rw [hstored, cost_callMetering]
      exact hcounted.recount.trans hleft

/-! ## Steady runs -/

/-- A call of a steady run: no reset, no revocation, and every edit keeps what has to be kept. -/
def Steady (keeps : PolicyConfig → Prop) (c : Call) : Prop :=
  c.action ≠ .resetWindow ∧ c.action ≠ .revokePolicy ∧
    ∀ cfg, c.action = .setPolicy cfg → keeps cfg

/-- **A step of a steady run** leaves the stored window alone or grants a request. -/
theorem steady_step (host : Host) {keeps : PolicyConfig → Prop} {s : State} {c : Call}
    {cfg : PolicyConfig}
    (hpaused : ∀ cfg paused, keeps cfg → keeps { cfg with paused })
    (hc : Steady keeps c) (hpolicy : s.policy = some cfg) (hkeeps : keeps cfg) :
    (∃ cfg', (step host s c).policy = some cfg' ∧ keeps cfg') ∧
      ((approval host s c = none ∧ (step host s c).window = s.window) ∨
        ∃ contexts, Grants (c.env host) s cfg contexts ∧
          approval host s c = some ⟨c.timestamp, cfg, contexts⟩ ∧
          (step host s c).window = (s.admitted (c.env host) contexts).window) := by
  have heff := stepEffect host s c
  generalize step host s c = s', approval host s c = a at heff
  cases heff with
  | policySet admin cfg' haction hadmin hauth hvalid =>
    rw [installPolicy_eq, hpolicy]
    exact ⟨⟨cfg', rfl, hc.2.2 cfg' haction⟩, .inl ⟨rfl, rfl⟩⟩
  | windowReset admin haction hadmin hauth => exact absurd haction hc.1
  | pausedSet admin cfg' paused haction hadmin hauth hpolicy' hflip =>
    obtain rfl : cfg = cfg' := Option.some.inj (hpolicy.symm.trans hpolicy')
    exact ⟨⟨_, rfl, hpaused cfg paused hkeeps⟩, .inl ⟨rfl, rfl⟩⟩
  | policyRevoked admin haction hadmin hauth => exact absurd haction hc.2.1
  | approved entry cfg' haction hgrants =>
    obtain rfl : cfg = cfg' := Option.some.inj (hpolicy.symm.trans hgrants.policy)
    exact ⟨⟨cfg, by simpa using hpolicy, hkeeps⟩, .inr ⟨entry.contexts, hgrants, rfl, rfl⟩⟩
  | heartbeat entry cfg' haction hmem hgrants =>
    obtain rfl : cfg = cfg' := Option.some.inj (hpolicy.symm.trans hgrants.policy)
    rw [recordHeartbeat_eq]
    exact ⟨⟨cfg, by simpa using hpolicy, hkeeps⟩, .inr ⟨entry.contexts, hgrants, rfl, rfl⟩⟩
  -- everything else touches neither the policy nor the window
  | _ => exact ⟨⟨cfg, hpolicy, hkeeps⟩, .inl ⟨rfl, rfl⟩⟩

/-! ## The ceiling along a steady run -/

/-- **The policies a run keeps to** fix the cap and the width of the meter, and count everything. -/
structure Fixes (host : Host) (m : Metering Approval) (capOf : PolicyConfig → ℤ)
    (ok keeps : PolicyConfig → Prop) (cap width : ℤ) : Prop where
  paused : ∀ cfg paused, keeps cfg → keeps { cfg with paused }
  ok : ∀ cfg, cfg.Accepted host.self → keeps cfg → ok cfg
  cap : ∀ cfg, cfg.Accepted host.self → keeps cfg → capOf cfg = cap
  counted : ∀ cfg, cfg.Accepted host.self → keeps cfg →
    ∀ now contexts, m.counted ⟨now, cfg, contexts⟩ = true
  horizon : ∀ cfg, cfg.Accepted host.self → keeps cfg →
    ∀ now : U64, now.val < u64.hi → pruneHorizon cfg now = now.val - width

/-- **An approval of a steady run, counted**: the meter forgets a width behind the clock, finds room
under the cap and charges. -/
structure Counts (m : Metering Approval) (cap width : ℤ) (a : Approval) (l l' : Rolling u64 V) :
    Prop where
  time : m.time a = a.time.val
  counted : m.counted a = true
  horizon : m.horizon a = a.time.val - width
  amount : 0 ≤ m.amount a
  moves : (m.amount a = 0 ∧ l' = l) ∨
    (0 < m.amount a → (l.keepAfter (a.time.val - width)).total.val + m.amount a ≤ cap) ∧
      l' = (l.keepAfter (a.time.val - width)).charge maxWindowEntries a.time (m.amount a)

/-- **The invariant of a steady run.** -/
structure Guarded (host : Host) (m : Metering Approval) (μ : Ledger → Rolling u64 V)
    (keeps : PolicyConfig → Prop) (cap width : ℤ) (t : U64) (sh : State × List Approval) :
    Prop where
  inv : sh.1.Inv host t
  window : sh.1.window.isSome
  policy : ∃ cfg, sh.1.policy = some cfg ∧ keeps cfg
  capped : m.Capped maxWindowEntries cap width t.val sh.2 (μ sh.1.loadWindow.1)

section

variable {host : Host} {m : Metering Approval} {μ : Ledger → Rolling u64 V}
  {capOf : PolicyConfig → ℤ} {ok keeps : PolicyConfig → Prop} {cap width : ℤ}

theorem loadWindow_congr {s s' : State} (h : s.window = s'.window) :
    s.loadWindow = s'.loadWindow := by rw [State.loadWindow, State.loadWindow, h]

/-- **What a call of a steady run does to the meter**: nothing, or an approval is counted. -/
theorem Guarded.counts {t : U64} {sh : State × List Approval} {c : Call}
    (hf : Follows host m μ capOf ok) (hx : Fixes host m capOf ok keeps cap width)
    (h : Guarded host m μ keeps cap width t sh) (ht : t.val ≤ c.timestamp.val)
    (hend : c.timestamp.val < u64.hi) (hc : Steady keeps c) :
    (approval host sh.1 c = none ∧ (step host sh.1 c).window = sh.1.window) ∨
      ∃ cfg contexts, Grants (c.env host) sh.1 cfg contexts ∧
        approval host sh.1 c = some ⟨c.timestamp, cfg, contexts⟩ ∧
        (step host sh.1 c).window.isSome ∧
        Counts m cap width ⟨c.timestamp, cfg, contexts⟩ (μ sh.1.loadWindow.1)
          (μ (step host sh.1 c).loadWindow.1) := by
  obtain ⟨cfg, hpolicy, hkeeps⟩ := h.policy
  have hacc := h.inv.accepted hpolicy
  obtain ⟨-, hquiet | ⟨contexts, hgrants, happroval, hwindow⟩⟩ :=
    steady_step host hx.paused hc hpolicy hkeeps
  · exact .inl hquiet
  obtain ⟨hamount, hmoves⟩ := hf.moves (c.env host) sh.1 cfg contexts rfl (h.inv.mono ht) h.window
    (hx.ok cfg hacc hkeeps) (h.capped.mono ht).sound hgrants
  have hcounted := hx.counted cfg hacc hkeeps c.timestamp contexts
  have hhorizon := (hf.horizon ⟨c.timestamp, cfg, contexts⟩).trans
    (hx.horizon cfg hacc hkeeps c.timestamp hend)
  have hcost : m.cost ⟨c.timestamp, cfg, contexts⟩ = m.amount ⟨c.timestamp, cfg, contexts⟩ :=
    if_pos hcounted
  rw [Moves, Call.env_timestamp, hx.cap cfg hacc hkeeps, hcost, hhorizon] at hmoves
  rw [loadWindow_congr hwindow, hwindow]
  exact .inr ⟨cfg, contexts, hgrants, happroval,
    window_admitted_isSome h.window (c.env host) contexts, hf.time _, hcounted, hhorizon, hamount,
    hmoves⟩

theorem Guarded.step {t : U64} {sh : State × List Approval} {c : Call}
    (hf : Follows host m μ capOf ok) (hx : Fixes host m capOf ok keeps cap width)
    (hlo : V.lo ≤ 0) (hcap : cap ≤ V.hi) (h : Guarded host m μ keeps cap width t sh)
    (ht : t.val ≤ c.timestamp.val) (hend : c.timestamp.val < u64.hi) (hc : Steady keeps c) :
    Guarded host m μ keeps cap width c.timestamp (exec host sh c) := by
  obtain ⟨cfg, hpolicy, hkeeps⟩ := h.policy
  have hpolicy' := (steady_step host hx.paused hc hpolicy hkeeps).1
  have hcapped := h.capped.mono ht
  rcases h.counts hf hx ht hend hc with
    ⟨happroval, hwindow⟩ | ⟨_, contexts, -, happroval, hwindow, hcounts⟩
  · refine ⟨h.inv.step ht, ?_, hpolicy', ?_⟩
    · rw [exec, hwindow]
      exact h.window
    · rw [exec, happroval, loadWindow_congr hwindow]
      exact hcapped
  refine ⟨h.inv.step ht, hwindow, hpolicy', ?_⟩
  rw [exec, happroval]
  rcases hcounts.moves with ⟨hzero, hsame⟩ | ⟨hroom, hcharge⟩
  · show m.Capped _ _ _ _ _ (μ (AgentGuard.step host sh.1 c).loadWindow.1)
    rw [hsame]
    exact hcapped.idle hcounts.time hcounts.counted hcounts.horizon hzero
  · show m.Capped _ _ _ _ _ (μ (AgentGuard.step host sh.1 c).loadWindow.1)
    rw [hcharge]
    exact hcapped.charge (by decide) hlo hcap hcounts.time hcounts.counted hcounts.horizon
      hcounts.amount hroom

/-- **Every steady run keeps the ceiling.** -/
theorem Guarded.run {t : U64} {s : State} (hf : Follows host m μ capOf ok)
    (hx : Fixes host m capOf ok keeps cap width) (hlo : V.lo ≤ 0) (hcap : cap ≤ V.hi)
    (h : Guarded host m μ keeps cap width t (s, [])) {calls : List Call}
    (htimed : Timed Call.timestamp t calls) (hend : ∀ c ∈ calls, c.timestamp.val < u64.hi)
    (hsteady : ∀ c ∈ calls, Steady keeps c) :
    Guarded host m μ keeps cap width (endTime Call.timestamp t calls)
      (AgentGuard.run host s calls) :=
  Timed.foldl_invariant (fun t sh => Guarded host m μ keeps cap width t sh)
    (fun c => c.timestamp.val < u64.hi ∧ Steady keeps c)
    (fun _ _ _ hg ht hc => hg.step hf hx hlo hcap ht hc.1 hc.2) calls t (s, []) htimed
    (fun c hc => ⟨hend c hc, hsteady c hc⟩) h

end

/-! ## From a first install -/

/-- **A first install**: `set_policy` succeeds at `now` in a reachable state without a policy, and
leaves `s`. -/
structure FirstInstall (host : Host) (now : U64) (cfg : PolicyConfig) (s : State) : Prop where
  install : ∃ (t : U64) (before : State) (authorized : Address → Bool) (events : List Event),
    Reachable host t before ∧ t.val ≤ now.val ∧ before.policy = none ∧
      setPolicy ⟨host, now, authorized⟩ before cfg = .ok (s, events)

section

variable {host : Host} {now : U64} {cfg : PolicyConfig} {s : State}

/-- It leaves the accepted policy and an empty window. -/
theorem FirstInstall.spec (h : FirstInstall host now cfg s) :
    s.Inv host now ∧ s.policy = some cfg ∧ s.window = some Ledger.empty.toState ∧
      cfg.Accepted host.self := by
  obtain ⟨t, before, authorized, events, hreach, ht, hnone, hset⟩ := h.install
  have hinv : s.Inv host now := by
    have := hreach.inv.step (c := ⟨now, authorized, .setPolicy cfg⟩) ht
    rwa [step, Action.effect, Call.env, hset] at this
  have hpolicy : s = installPolicy before cfg now := by
    obtain ⟨admin, -, -, hbody⟩ := adminOrPanic_bind_ok hset
    split at hbody
    · cases hbody
    · exact (pure_eq_ok hbody).1.symm
  have hfields : s.policy = some cfg ∧ s.window = some Ledger.empty.toState := by
    rw [hpolicy, installPolicy, hnone]
    exact ⟨rfl, rfl⟩
  exact ⟨hinv, hfields.1, hfields.2, hinv.accepted hfields.1⟩

/-- The meters start empty. -/
theorem FirstInstall.loadWindow (h : FirstInstall host now cfg s) :
    s.loadWindow.1 = Ledger.empty := by
  rw [State.loadWindow, h.spec.2.2.1]
  rfl

/-- It starts a steady run. -/
theorem FirstInstall.guarded {m : Metering Approval} {μ : Ledger → Rolling u64 V}
    {keeps : PolicyConfig → Prop} {cap width : ℤ} (h : FirstInstall host now cfg s)
    (hnn : 0 ≤ cap) (hμ : (μ Ledger.empty).Sound maxWindowEntries now.val) (hkeeps : keeps cfg) :
    Guarded host m μ keeps cap width now (s, []) where
  inv := h.spec.1
  window := by rw [h.spec.2.2.1]; rfl
  policy := ⟨cfg, h.spec.2.1, hkeeps⟩
  capped := .nil hnn (by rw [h.loadWindow]; exact hμ)

/-- **A ceiling from a first install on**, for a meter that follows the history. -/
theorem FirstInstall.ceiling {m : Metering Approval} {μ : Ledger → Rolling u64 V}
    {capOf : PolicyConfig → ℤ} {ok keeps : PolicyConfig → Prop} {cap width : ℤ}
    (h : FirstInstall host now cfg s) (hf : Follows host m μ capOf ok)
    (hx : Fixes host m capOf ok keeps cap width) (hlo : V.lo ≤ 0) (hnn : 0 ≤ cap)
    (hcap : cap ≤ V.hi) (hμ : (μ Ledger.empty).Sound maxWindowEntries now.val)
    (hkeeps : keeps cfg) {calls : List Call} (htimed : Timed Call.timestamp now calls)
    (hbound : ∀ c ∈ calls, c.timestamp.val < u64.hi - maxWindowSecs)
    (hsteady : ∀ c ∈ calls, Steady keeps c) (t : ℤ) :
    m.spentIn (t - width) t (run host s calls).2 ≤ cap := by
  have hend : ∀ c ∈ calls, c.timestamp.val < u64.hi := fun c hc =>
    (hbound c hc).trans (by decide)
  have hrun := (h.guarded hnn hμ hkeeps).run hf hx hlo hcap htimed hend hsteady
  exact hrun.capped.ceiling t

end

/-- The sample account's first install of a policy the validator accepts. -/
theorem Sample.firstInstall {cfg : PolicyConfig} (h : validateConfig Sample.self cfg = .ok ()) :
    FirstInstall Sample.host 100 cfg (Sample.installed cfg) := by
  have hset : setPolicy ⟨Sample.host, 100, fun a => a = Sample.admin⟩ Sample.fresh cfg
      = .ok (installPolicy Sample.fresh cfg 100, [.policySet Sample.admin 1]) := by
    have hadmin : adminOrPanic ⟨Sample.host, 100, fun a => a = Sample.admin⟩ Sample.fresh
        = .ok Sample.admin := rfl
    have hvalid : validateConfig Sample.host.self cfg = .ok () := h
    rw [setPolicy, hadmin]
    simp only [bind, Except.bind, hvalid]
    rfl
  refine ⟨1, Sample.fresh, fun a => a = Sample.admin, [.policySet Sample.admin 1],
    Sample.reachable_fresh, by decide, rfl, hset.trans ?_⟩
  rw [Sample.installed, step, Action.effect.eq_def]
  exact congrArg (fun r : Effect => Except.ok (Effect.stateOr r Sample.fresh, _)) hset.symm

/-! ## The three ceilings -/

/-- A rolling limit makes the horizon a width behind the clock. -/
theorem pruneHorizon_eq {cfg : PolicyConfig} (hlimits : limitsWindow cfg = true)
    (hsecs : 0 < cfg.windowSecs.val) {now : U64} (hnow : now.val < u64.hi) :
    pruneHorizon cfg now = now.val - cfg.windowSecs.val := by
  rw [pruneHorizon, if_pos hlimits, horizon_eq hsecs.ne' hnow]

/-- Keeping the cap and the width fixes the global meter's. -/
theorem fixes_windowCap (host : Host) {cfg : PolicyConfig} (hcap : 0 < cfg.windowCap.val) :
    Fixes host (globalMetering host) (fun cfg => cfg.windowCap.val) (fun _ => True)
      (fun cfg' => cfg'.windowCap = cfg.windowCap ∧ cfg'.windowSecs = cfg.windowSecs)
      cfg.windowCap.val cfg.windowSecs.val where
  paused := fun _ _ h => h
  ok := fun _ _ _ => trivial
  cap := fun _ _ h => by rw [h.1]
  counted := fun _ _ h _ _ => by simpa [globalMetering, h.1] using hcap
  horizon := fun cfg' hacc h time htime => by
    have hcap' : 0 < cfg'.windowCap.val := h.1 ▸ hcap
    rw [pruneHorizon_eq (limitsWindow_of_windowCap hcap') (hacc.windowSecs_of_windowCap hcap')
      htime, h.2]

/-- Keeping an override and the width fixes the recipient's meter. -/
theorem fixes_override (host : Host) {rc : RecipientCap} (windowSecs : U64)
    (hcap : 0 < rc.cap.val) :
    Fixes host (recipientMetering host rc.recipient) (overrideCap rc.recipient) (fun _ => True)
      (fun cfg' => rc ∈ cfg'.recipientWindowCaps ∧ cfg'.windowSecs = windowSecs)
      rc.cap.val windowSecs.val where
  paused := fun _ _ h => h
  ok := fun _ _ _ => trivial
  cap := fun _ hacc h => by
    rw [overrideCap, recipientOverrideCap_of_mem hacc h.1 hcap]
    rfl
  counted := fun _ hacc h _ _ => by
    simp [recipientMetering, hasRecipientWindowCap, recipientOverrideCap_of_mem hacc h.1 hcap]
  horizon := fun cfg' hacc h time htime => by
    rw [pruneHorizon_eq (limitsWindow_of_recipientCap h.1)
      (hacc.windowSecs_of_recipientCap rc h.1 hcap) htime, h.2]

/-- **The global rolling ceiling.**  From a first install of a policy with a cap, in every run that
keeps the cap and the width, no window of that width sees more than the cap approved. -/
theorem transferredIn_le_windowCap {host : Host} {now : U64} {cfg : PolicyConfig} {s : State}
    (hinstall : FirstInstall host now cfg s) (hcap : 0 < cfg.windowCap.val) {calls : List Call}
    (htimed : Timed Call.timestamp now calls)
    (hbound : ∀ c ∈ calls, c.timestamp.val < u64.hi - maxWindowSecs)
    (hsteady : ∀ c ∈ calls, Steady (fun cfg' => cfg'.windowCap = cfg.windowCap ∧
      cfg'.windowSecs = cfg.windowSecs) c) (t : ℤ) :
    transferredIn host (t - cfg.windowSecs.val) t (run host s calls).2 ≤ cfg.windowCap.val := by
  exact hinstall.ceiling (follows_global host) (fixes_windowCap host hcap) (by decide) hcap.le
    cfg.windowCap.le_hi (sound_empty now.val) ⟨rfl, rfl⟩ htimed hbound hsteady t

namespace Sample

/-- All rolling limits at once. -/
def limitedPolicy : PolicyConfig :=
  { policy with
    windowCap := 100
    recipientWindowCaps := [⟨payee, 50⟩]
    protocolCallsPerWindow := 2 }

/-- Ninety to the payee in two goes, of which only the first fits, with a pause in between; then
the rest of the global cap and of the rate. -/
def limitedRun : List Call :=
  [auth 110 [pay 45, use], call 111 .pause, call 112 .resume, auth 120 [pay 45],
    auth 130 [use, transferContext asset admin 55], auth 131 [use]]

theorem timed_limitedRun : Timed Call.timestamp 100 limitedRun := by
  simp only [Timed, limitedRun]
  decide

theorem limitedRun_bound : ∀ c ∈ limitedRun, c.timestamp.val < u64.hi - maxWindowSecs := by
  simp only [limitedRun]
  decide

theorem limitedRun_steady (keeps : PolicyConfig → Prop) : ∀ c ∈ limitedRun, Steady keeps c := by
  simp [limitedRun, Steady, auth, call]

theorem limited_global :
    transferredIn host 70 130 (run host (installed limitedPolicy) limitedRun).2 = 100 ∧
      transferredIn host (130 - limitedPolicy.windowSecs.val) 130
        (run host (installed limitedPolicy) limitedRun).2 ≤ limitedPolicy.windowCap.val :=
  ⟨by decide, transferredIn_le_windowCap (firstInstall (by rfl)) (by decide) timed_limitedRun
    limitedRun_bound (limitedRun_steady _) 130⟩

end Sample

/-- **The per-recipient rolling ceiling**, whatever the global cap and the other recipients do. -/
theorem transferredToIn_le_override {host : Host} {now : U64} {cfg : PolicyConfig} {s : State}
    (hinstall : FirstInstall host now cfg s) {rc : RecipientCap}
    (hmem : rc ∈ cfg.recipientWindowCaps) (hcap : 0 < rc.cap.val) {calls : List Call}
    (htimed : Timed Call.timestamp now calls)
    (hbound : ∀ c ∈ calls, c.timestamp.val < u64.hi - maxWindowSecs)
    (hsteady : ∀ c ∈ calls, Steady (fun cfg' => rc ∈ cfg'.recipientWindowCaps ∧
      cfg'.windowSecs = cfg.windowSecs) c) (t : ℤ) :
    transferredToIn host rc.recipient (t - cfg.windowSecs.val) t (run host s calls).2
      ≤ rc.cap.val := by
  exact hinstall.ceiling (follows_recipient host rc.recipient)
    (fixes_override host cfg.windowSecs hcap) (by decide) hcap.le rc.cap.le_hi
    (sound_empty now.val) ⟨hmem, rfl⟩ htimed hbound hsteady t

theorem Sample.limited_recipient :
    transferredToIn host payee 70 130 (run host (installed limitedPolicy) limitedRun).2 = 45 ∧
      transferredToIn host payee (130 - limitedPolicy.windowSecs.val) 130
        (run host (installed limitedPolicy) limitedRun).2 ≤ (50 : I128).val :=
  ⟨by decide, transferredToIn_le_override (firstInstall (by rfl))
    (show ⟨payee, 50⟩ ∈ limitedPolicy.recipientWindowCaps by decide) (by decide)
    timed_limitedRun limitedRun_bound (limitedRun_steady _) 130⟩

/-- **The protocol-call rate ceiling.** -/
theorem protocolCallsIn_le_protocolCallsPerWindow {host : Host} {now : U64} {cfg : PolicyConfig}
    {s : State} (hinstall : FirstInstall host now cfg s)
    (hpos : 0 < cfg.protocolCallsPerWindow.val) (hlimit : cfg.protocolCallsPerWindow.val < u32.hi)
    (hsecs : 0 < cfg.windowSecs.val) {calls : List Call}
    (htimed : Timed Call.timestamp now calls)
    (hbound : ∀ c ∈ calls, c.timestamp.val < u64.hi - maxWindowSecs)
    (hsteady : ∀ c ∈ calls, Steady (fun cfg' =>
      cfg'.protocolCallsPerWindow = cfg.protocolCallsPerWindow ∧
        cfg'.windowSecs = cfg.windowSecs) c) (t : ℤ) :
    protocolCallsIn host (t - cfg.windowSecs.val) t (run host s calls).2
      ≤ cfg.protocolCallsPerWindow.val := by
  have hfixes : Fixes host (callMetering host) (fun cfg => cfg.protocolCallsPerWindow.val)
      (fun cfg => cfg.protocolCallsPerWindow.val < u32.hi)
      (fun cfg' => cfg'.protocolCallsPerWindow = cfg.protocolCallsPerWindow ∧
        cfg'.windowSecs = cfg.windowSecs)
      cfg.protocolCallsPerWindow.val cfg.windowSecs.val :=
    { paused := fun _ _ h => h
      ok := fun _ _ h => h.1 ▸ hlimit
      cap := fun _ _ h => by rw [h.1]
      counted := fun _ _ h _ _ => by simpa [callMetering, h.1] using hpos
      horizon := fun cfg' _ h time htime => by
        have hpos' : 0 < cfg'.protocolCallsPerWindow.val := h.1 ▸ hpos
        rw [pruneHorizon_eq (limitsWindow_of_calls hpos') (h.2 ▸ hsecs) htime, h.2] }
  exact hinstall.ceiling (follows_calls host) hfixes (by decide) hpos.le
    cfg.protocolCallsPerWindow.le_hi ⟨Ordered.nil _ _, rfl⟩ ⟨rfl, rfl⟩ htimed hbound hsteady t

theorem Sample.limited_calls :
    protocolCallsIn host 71 131 (run host (installed limitedPolicy) limitedRun).2 = 2 ∧
      protocolCallsIn host (131 - limitedPolicy.windowSecs.val) 131
        (run host (installed limitedPolicy) limitedRun).2
          ≤ limitedPolicy.protocolCallsPerWindow.val :=
  ⟨by decide, protocolCallsIn_le_protocolCallsPerWindow (firstInstall (by rfl)) (by decide)
    (by decide) (by decide) timed_limitedRun limitedRun_bound (limitedRun_steady _) 131⟩

end AgentGuard
