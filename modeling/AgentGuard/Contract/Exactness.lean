import AgentGuard.Contract.Ceilings
import AgentGuard.Contract.Verdicts

/-!
# Contract/Exactness — a window block is exact below the entry bound

Every merge of a ledger is reported in an event.  As long as none is, the meters *agree* with the
history: what they hold when a request has pruned them is what was approved in the window that ends
now, no more and no less.  So a transfer is blocked by the window exactly when it is too much.
-/

namespace AgentGuard

open Machinery

/-! ## A merge is noted -/

section

variable {now : U64}

theorem noteMerge_eq_nil {kind : WindowMergeKind} {merge : Option (U64 × I128)}
    (h : Ledger.noteMerge kind merge = []) : merge = none := by
  cases merge with
  | none => rfl
  | some m => simp [Ledger.noteMerge] at h

/-- Notes are only ever added. -/
theorem merges_foldl {α : Type*} {f : Ledger → α → Ledger}
    (hf : ∀ l x, (f l x).merges = [] → l.merges = []) (xs : List α) :
    ∀ l : Ledger, (xs.foldl f l).merges = [] → l.merges = [] := by
  induction xs with
  | nil => exact fun _ h => h
  | cons x xs ih => exact fun l h => hf l x (ih (f l x) h)

theorem merges_admitSpend {l : Ledger} {ts : U64} {amount : I128}
    (h : (l.admitSpend ts amount).merges = []) :
    l.merges = [] ∧ ¬Full maxWindowEntries ts l.entries := by
  obtain ⟨hold, hnote⟩ := List.append_eq_nil_iff.mp h
  exact ⟨hold, Rolling.not_full_of_record (l := l.single) (noteMerge_eq_nil hnote)⟩

theorem admitToRecipients_snd (now : U64) (recipient : Address) (amount : I128)
    (rs : List RecipientLedger) :
    (Ledger.admitToRecipients now recipient amount rs).2
      = (admitToLedger (meterOf rs recipient) now amount).2 := by
  induction rs with
  | nil => rfl
  | cons r rs ih =>
    rw [Ledger.admitToRecipients, meterOf_cons]
    split_ifs with hr
    · rfl
    · exact ih

theorem merges_admitForRecipient {l : Ledger} {recipient : Address} {amount : I128}
    (h : (l.admitForRecipient now recipient amount).merges = []) :
    l.merges = [] ∧ ¬Full maxWindowEntries now (l.meter recipient).entries := by
  obtain ⟨hold, hnote⟩ := List.append_eq_nil_iff.mp h
  have hnone := noteMerge_eq_nil hnote
  rw [admitToRecipients_snd] at hnone
  exact ⟨hold, Rolling.not_full_of_record hnone⟩

theorem merges_admitProtocolCall {l : Ledger} (h : (l.admitProtocolCall now).merges = []) :
    l.merges = [] := (List.append_eq_nil_iff.mp h).1

/-- **No staged recipient was full**, if nothing was noted. -/
theorem not_full_foldl_admitForRecipient (rs : List Address) :
    ∀ (as : List I128) (l : Ledger), rs.Nodup → rs.length = as.length →
      ((rs.zip as).foldl (fun l ra => l.admitForRecipient now ra.1 ra.2) l).merges = [] →
      ∀ r ∈ rs, ¬Full maxWindowEntries now (l.meter r).entries := by
  induction rs with
  | nil => simp
  | cons r rs ih =>
    intro as l hnd hlen h
    cases as with
    | nil => simp at hlen
    | cons a as =>
      obtain ⟨hr, hnd'⟩ := List.nodup_cons.mp hnd
      rw [List.zip_cons_cons, List.foldl_cons] at h
      have hfirst := merges_foldl (fun l ra h => (merges_admitForRecipient h).1) _ _ h
      refine List.forall_mem_cons.mpr ⟨(merges_admitForRecipient hfirst).2, fun r' hr' => ?_⟩
      have hne : r ≠ r' := by
        rintro rfl
        exact hr hr'
      have hmeter : (l.admitForRecipient now r a).meter r' = l.meter r' :=
        (meterOf_admitToRecipients now r a l.recipients r').trans (if_neg hne)
      rw [← hmeter]
      exact ih as (l.admitForRecipient now r a) hnd' (by simpa using hlen) h r' hr'

end

section

variable {cfg : PolicyConfig} {now : U64} {calls : List ParsedCall} {st : Staging}

/-- **A commit that notes nothing charged no meter that was full.** -/
theorem commit_not_full (hst : Staged cfg now calls st) {l : Ledger}
    (h : (commit l now st).merges = []) :
    (0 < globalDemand cfg calls → ¬Full maxWindowEntries now l.entries) ∧
      ∀ r, 0 < recipientDemand cfg r calls →
        ¬Full maxWindowEntries now (l.meter r).entries := by
  have hrecipients := merges_foldl (fun _ _ h => merges_admitProtocolCall h) _ _ h
  have hspends := merges_foldl (fun l ra h => (merges_admitForRecipient h).1) _ _ hrecipients
  refine ⟨fun hpos => ?_, fun r hpos => ?_⟩
  · cases hadm : st.admission with
    | nil =>
      have := hst.admission
      rw [hadm, valueSum_nil] at this
      omega
    | cons e rest =>
      rw [hadm, List.foldl_cons] at hspends
      have hfirst := merges_foldl (fun l e h => (merges_admitSpend h).1) _ _ hspends
      have hts := (hst.instant e (by simp [hadm])).1
      exact hts ▸ (merges_admitSpend hfirst).2
  · have hmem : r ∈ st.pendingRecipients := by
      by_contra hno
      have := hst.staged r
      rw [amountOf_of_notMem hno, I128.val_zero] at this
      omega
    have hsame := (foldl_admitSpend now st.admission l fun e he => (hst.instant e he).1).2.1
    have hfull := not_full_foldl_admitForRecipient _ _ _ hst.nodup hst.parallel hrecipients r hmem
    rwa [Ledger.meter, hsame] at hfull

/-- **An approval that notes nothing charged no meter that was full.** -/
theorem Grants.not_full {host : Host} {env : Env} {s : State} {contexts : List Context}
    (hg : Grants env s cfg contexts) (h : s.Inv host env.timestamp)
    (hmerges : (authDecision env s contexts).2.merges = []) :
    (0 < globalDemand cfg (parseAll env.host.self cfg contexts) →
        ¬Full maxWindowEntries env.timestamp
          (pruneFor cfg s.loadWindow.1 env.timestamp).entries) ∧
      ∀ r, 0 < recipientDemand cfg r (parseAll env.host.self cfg contexts) →
        ¬Full maxWindowEntries env.timestamp
          ((pruneFor cfg s.loadWindow.1 env.timestamp).meter r).entries := by
  obtain ⟨hlen, ⟨-, rfl, -⟩ | ⟨hopen, -⟩⟩ := hg.cases h
  · simp [parseAll]
  · have hall := hg.allowed
    rw [authDecision, decideContexts_open hlen hopen] at hall hmerges
    dsimp only at hall hmerges
    split_ifs at hall hmerges with hyes
    · have hstaged :=
        (evalContexts_pruned env.host.self cfg env.timestamp contexts h.ledger).2 hyes
      exact commit_not_full hstaged hmerges
    · exact absurd hall hyes

end

/-! ## A merge is reported -/

/-- The events of a call; an aborted call leaves none. -/
def Call.events (host : Host) (s : State) (c : Call) : List Event :=
  match c.action.effect (c.env host) s with
  | .ok (_, events) => events
  | .error _ => []

/-- The events of a run. -/
def emitted (host : Host) : State → List Call → List Event
  | _, [] => []
  | s, c :: calls => c.events host s ++ emitted host (step host s c) calls

def Event.isMerge : Event → Bool
  | .windowMerged .. => true
  | _ => false

section

variable {host : Host} {s : State} {c : Call} {env : Env} {entry : AuthEntry} {a : Approval}

/-- An approval comes with the events of its merges. -/
theorem approvalOf_events (h : approvalOf env s entry = some a) :
    ∃ outcome, checkAuth env s entry.signaturePayload entry.signature entry.contexts = .ok outcome ∧
      outcome.result = .ok () ∧ a.contexts = entry.contexts ∧
      ∀ merge ∈ (authDecision env s entry.contexts).2.merges,
        emitWindowMerge merge ∈ outcome.events := by
  rcases approvalOf_eq env s entry with ⟨hnone, -⟩ | ⟨cfg, outcome, -, hcheck, hres, -, hsome⟩
  · simp [hnone] at h
  obtain rfl := Option.some.inj (hsome.symm.trans h)
  refine ⟨outcome, hcheck, hres, rfl, fun merge hmerge => ?_⟩
  cases checkAuth_returns hcheck with
  | approved => exact List.mem_append_right _ (List.mem_map_of_mem hmerge)
  | _ => cases hres

/-- **Every merge of an approved authorization is in the events of the call.** -/
theorem approval_events (h : approval host s c = some a) :
    ∀ merge ∈ (authDecision (c.env host) s a.contexts).2.merges,
      emitWindowMerge merge ∈ c.events host s := by
  rw [approval] at h
  split at h
  · rename_i entry haction
    obtain ⟨outcome, hcheck, hres, hctx, hevents⟩ := approvalOf_events h
    rw [Call.events, haction, Action.effect, hcheck, hctx]
    exact hevents
  · rename_i entry haction
    split_ifs at h with hmem
    have hnamed : heartbeatContext (c.env host).host.self ∈ entry.contexts := hmem
    obtain ⟨outcome, hcheck, hres, hctx, hevents⟩ := approvalOf_events h
    rw [Call.events, haction, Action.effect, AgentGuard.heartbeat, if_neg (not_not.mpr hnamed),
      hcheck, hctx]
    simp only [bind, Except.bind, hres]
    exact fun merge hmerge => List.mem_append_left _ (hevents merge hmerge)
  · simp at h

/-- **A call without merge events merges nothing.** -/
theorem merges_eq_nil (h : approval host s c = some a)
    (hquiet : ∀ e ∈ c.events host s, e.isMerge = false) :
    (authDecision (c.env host) s a.contexts).2.merges = [] := by
  refine List.eq_nil_iff_forall_not_mem.mpr fun merge hmerge => ?_
  have := hquiet _ (approval_events h merge hmerge)
  simp [emitWindowMerge, Event.isMerge] at this

end

/-! ## Meters that agree with the history -/

variable {V : IntRange}

/-- **A meter whose merges are noted**: an approval that notes none does not find it full. -/
def Noted (host : Host) (m : Metering Approval) (μ : Ledger → Rolling u64 V) : Prop :=
  ∀ (env : Env) (s : State) (cfg : PolicyConfig) (contexts : List Context),
    env.host = host → s.Inv host env.timestamp → Grants env s cfg contexts →
    (authDecision env s contexts).2.merges = [] → 0 < m.cost ⟨env.timestamp, cfg, contexts⟩ →
      ¬Full maxWindowEntries env.timestamp
        ((μ s.loadWindow.1).keepAfter (pruneHorizon cfg env.timestamp)).entries

theorem noted_global (host : Host) : Noted host (globalMetering host) Ledger.single := by
  rintro env s cfg contexts rfl hinv hg hmerges hpos
  rw [cost_globalMetering] at hpos
  rw [← hinv.ledger.single_pruneFor cfg env.timestamp]
  exact (hg.not_full hinv hmerges).1 hpos

theorem noted_recipient (host : Host) (r : Address) :
    Noted host (recipientMetering host r) fun l => l.meter r := by
  rintro env s cfg contexts rfl hinv hg hmerges hpos
  rw [cost_recipientMetering] at hpos
  rw [← hinv.ledger.meter_pruneFor cfg env.timestamp r]
  exact (hg.not_full hinv hmerges).2 r hpos

/-- **The invariant of a steady run without merges.** -/
structure Tracked (host : Host) (m : Metering Approval) (μ : Ledger → Rolling u64 V)
    (keeps : PolicyConfig → Prop) (cap width : ℤ) (t : U64) (sh : State × List Approval) :
    Prop extends Guarded host m μ keeps cap width t sh where
  agrees : m.Agrees width t.val sh.2 (μ sh.1.loadWindow.1)

section

variable {host : Host} {m : Metering Approval} {μ : Ledger → Rolling u64 V}
  {capOf : PolicyConfig → ℤ} {ok keeps : PolicyConfig → Prop} {cap width : ℤ}

theorem Tracked.step {t : U64} {sh : State × List Approval} {c : Call}
    (hf : Follows host m μ capOf ok) (hx : Fixes host m capOf ok keeps cap width)
    (hn : Noted host m μ) (hlo : V.lo ≤ 0) (hcap : cap ≤ V.hi)
    (h : Tracked host m μ keeps cap width t sh) (ht : t.val ≤ c.timestamp.val)
    (hend : c.timestamp.val < u64.hi) (hc : Steady keeps c)
    (hquiet : ∀ e ∈ c.events host sh.1, e.isMerge = false) :
    Tracked host m μ keeps cap width c.timestamp (exec host sh c) := by
  refine ⟨h.toGuarded.step hf hx hlo hcap ht hend hc, ?_⟩
  have hagrees := h.agrees.mono ht
  rcases h.counts hf hx ht hend hc with
    ⟨happroval, hwindow⟩ | ⟨cfg, contexts, hgrants, happroval, -, hcounts⟩
  · rw [exec, happroval, loadWindow_congr hwindow]
    exact hagrees
  rw [exec, happroval]
  show m.Agrees _ _ _ (μ (AgentGuard.step host sh.1 c).loadWindow.1)
  rcases hcounts.moves with ⟨hzero, hsame⟩ | ⟨hroom, hcharge⟩
  · rw [hsame]
    exact hagrees.idle hzero
  rw [hcharge]
  refine hagrees.charge (by decide) hlo (h.capped.mono ht).sound hcounts.time hcounts.amount
    (BoundedInt.add_le_hi_of_room _ hcounts.amount hroom hcap) fun hpos => ?_
  have hcost : m.cost ⟨c.timestamp, cfg, contexts⟩ = m.amount ⟨c.timestamp, cfg, contexts⟩ :=
    if_pos hcounts.counted
  have hfull := hn (c.env host) sh.1 cfg contexts rfl (h.inv.mono ht) hgrants
    (merges_eq_nil happroval hquiet) (hcost.symm ▸ hpos)
  rwa [Call.env_timestamp, ← hf.horizon ⟨c.timestamp, cfg, contexts⟩, hcounts.horizon] at hfull

/-- **A steady run without merges** leaves a meter that agrees with its history. -/
theorem Tracked.run (hf : Follows host m μ capOf ok)
    (hx : Fixes host m capOf ok keeps cap width) (hn : Noted host m μ) (hlo : V.lo ≤ 0)
    (hcap : cap ≤ V.hi) (calls : List Call) :
    ∀ (t : U64) (sh : State × List Approval), Tracked host m μ keeps cap width t sh →
      Timed Call.timestamp t calls → (∀ c ∈ calls, c.timestamp.val < u64.hi) →
      (∀ c ∈ calls, Steady keeps c) → (∀ e ∈ emitted host sh.1 calls, e.isMerge = false) →
      Tracked host m μ keeps cap width (endTime Call.timestamp t calls)
        (calls.foldl (exec host) sh) := by
  induction calls with
  | nil => exact fun _ _ h _ _ _ _ => h
  | cons c calls ih =>
    intro t sh h htimed hend hsteady hquiet
    obtain ⟨hendc, hend⟩ := List.forall_mem_cons.mp hend
    obtain ⟨hsteadyc, hsteady⟩ := List.forall_mem_cons.mp hsteady
    obtain ⟨hquietc, hquiet⟩ := List.forall_mem_append.mp hquiet
    exact ih c.timestamp (exec host sh c)
      (h.step hf hx hn hlo hcap htimed.1 hendc hsteadyc hquietc) htimed.2 hend hsteady hquiet

/-- **What a request finds in a meter** after a steady run without merges: what was spent in the
window that ends now. -/
theorem FirstInstall.total_eq {now time : U64} {cfg cfg' : PolicyConfig} {s : State}
    (h : FirstInstall host now cfg s) (hf : Follows host m μ capOf ok)
    (hx : Fixes host m capOf ok keeps cap width) (hn : Noted host m μ) (hlo : V.lo ≤ 0)
    (hnn : 0 ≤ cap) (hcap : cap ≤ V.hi) (hempty : (μ Ledger.empty) = ⟨0, []⟩) (hkeeps : keeps cfg)
    {calls : List Call} (htimed : Timed Call.timestamp now calls)
    (hbound : ∀ c ∈ calls, c.timestamp.val < u64.hi - maxWindowSecs)
    (hsteady : ∀ c ∈ calls, Steady keeps c)
    (hquiet : ∀ e ∈ emitted host s calls, e.isMerge = false)
    (hcfg : (AgentGuard.run host s calls).1.policy = some cfg')
    (htime : (endTime Call.timestamp now calls).val ≤ time.val)
    (hend : time.val < u64.hi - maxWindowSecs) :
    ((μ (AgentGuard.run host s calls).1.loadWindow.1).keepAfter (pruneHorizon cfg' time)).total.val
      = m.spentIn (time.val - width) time.val (AgentGuard.run host s calls).2 := by
  have hlimit : u64.hi - maxWindowSecs ≤ u64.hi := by decide
  have hsound : (⟨0, []⟩ : Rolling u64 V).Sound maxWindowEntries now.val :=
    ⟨Ordered.nil _ _, BoundedInt.val_ofNat hlo (hnn.trans hcap)⟩
  have hstart : Tracked host m μ keeps cap width now (s, []) :=
    { h.guarded hnn (hempty ▸ hsound) hkeeps with
      agrees := fun x _ => by rw [h.loadWindow, hempty]; rfl }
  have hrun := Tracked.run hf hx hn hlo hcap calls now (s, []) hstart htimed
    (fun c hc => (hbound c hc).trans_le hlimit) hsteady hquiet
  obtain ⟨cfg'', hpolicy, hkeeps'⟩ := hrun.policy
  obtain rfl := Option.some.inj (hcfg.symm.trans hpolicy)
  have hcapped := hrun.capped.mono htime
  rw [hx.horizon cfg' (hrun.inv.accepted hpolicy) hkeeps' time (hend.trans_le hlimit)]
  exact (hrun.agrees.mono htime).total_keepAfter hlo hcapped.sound hcapped.past

end

/-! ## The verdict -/

section

variable {env : Env} {s : State} {cfg : PolicyConfig} {contexts : List Context} {ctx : Context}
  {i : ℕ} {asset dest : Address} {amount : I128}

/-- **A transfer past every other rule** is blocked by the window exactly when it exceeds a cap on
top of the allowed contexts before it. -/
theorem authDecision_windowCapExceeded_iff (hinv : s.Inv env.host env.timestamp)
    (hcfg : s.policy = some cfg) (hlen : contexts.length ≤ maxAuthContexts)
    (hgate : gateError cfg ⟨s.frozenOrFalse, s.heartbeatOrZero⟩ env.timestamp = none)
    (hctx : contexts[i]? = some ctx)
    (hparse : parseCall env.host.self ctx cfg = .assetTransfer asset dest amount)
    (hrules : Permitted cfg (.assetTransfer asset dest amount)) :
    (authDecision env s contexts).1[i]? = some (.blocked .windowCapExceeded)
      ↔ Exceeds cfg (pruneFor cfg s.loadWindow.1 env.timestamp)
        (allowedBefore (parseAll env.host.self cfg contexts) (authDecision env s contexts).1 i)
        dest amount := by
  have hverdicts : (authDecision env s contexts).1 = (evalContexts env.host.self cfg
      (pruneFor cfg s.loadWindow.1 env.timestamp) env.timestamp Staging.empty contexts).1 := by
    rw [authDecision, hcfg, verdicts_eq hlen, hgate]
  have hrep := hinv.ledger.pruneFor cfg env.timestamp
  obtain ⟨st, hst, hperm, hverdict⟩ := evalContexts_getElem? env.host.self contexts
    (staged_empty cfg env.timestamp) (by simp) (fits_nil cfg _) hrep.single.total_nonneg
    (fun r => (hrep.meter r).total_nonneg) i ctx hctx
  rw [List.nil_append] at hst hperm
  rw [hverdicts, hverdict, hparse, evalCall, evalTransfer_verdict hst hperm hrules]
  split_ifs with hexceeds <;> simp [hexceeds]

end

/-- The policies that keep the spend limits of `cfg`. -/
def KeepsLimits (cfg cfg' : PolicyConfig) : Prop :=
  cfg'.windowCap = cfg.windowCap ∧ cfg'.windowSecs = cfg.windowSecs ∧
    cfg'.recipientWindowCaps = cfg.recipientWindowCaps

theorem Steady.imp {keeps keeps' : PolicyConfig → Prop} {c : Call}
    (h : ∀ cfg, keeps cfg → keeps' cfg) (hc : Steady keeps c) : Steady keeps' c :=
  ⟨hc.1, hc.2.1, fun cfg hcfg => h cfg (hc.2.2 cfg hcfg)⟩

/-- A steady run keeps the invariant and what it has to keep of the policy. -/
theorem steady_run {host : Host} {keeps : PolicyConfig → Prop}
    (hpaused : ∀ cfg paused, keeps cfg → keeps { cfg with paused }) {t : U64} {s : State}
    {cfg : PolicyConfig} (hinv : s.Inv host t) (hpolicy : s.policy = some cfg)
    (hkeeps : keeps cfg) {calls : List Call} (htimed : Timed Call.timestamp t calls)
    (hsteady : ∀ c ∈ calls, Steady keeps c) :
    (run host s calls).1.Inv host (endTime Call.timestamp t calls) ∧
      ∃ cfg', (run host s calls).1.policy = some cfg' ∧ keeps cfg' := by
  refine Timed.foldl_invariant
    (fun t (sh : State × List Approval) =>
      sh.1.Inv host t ∧ ∃ cfg', sh.1.policy = some cfg' ∧ keeps cfg') (Steady keeps)
    (fun t sh c h ht hc => ?_) calls t (s, []) htimed hsteady ⟨hinv, cfg, hpolicy, hkeeps⟩
  obtain ⟨hinv, cfg', hpolicy, hkeeps⟩ := h
  exact ⟨hinv.step ht, (steady_step host hpaused hc hpolicy hkeeps).1⟩

/-- **The runs in question**: from a first install on the spend limits are kept, time does not go
back and stays clear of the end of `u64`, and no ledger has ever merged. -/
structure UnmergedRun (host : Host) (now : U64) (cfg : PolicyConfig) (s : State)
    (calls : List Call) : Prop where
  install : FirstInstall host now cfg s
  timed : Timed Call.timestamp now calls
  bound : ∀ c ∈ calls, c.timestamp.val < u64.hi - maxWindowSecs
  steady : ∀ c ∈ calls, Steady (KeepsLimits cfg) c
  unmerged : ∀ e ∈ emitted host s calls, e.isMerge = false

namespace UnmergedRun

variable {host : Host} {now time : U64} {cfg cfg' : PolicyConfig} {s : State} {calls : List Call}

theorem spec (h : UnmergedRun host now cfg s calls)
    (htime : (endTime Call.timestamp now calls).val ≤ time.val)
    (hcfg : (run host s calls).1.policy = some cfg') :
    (run host s calls).1.Inv host time ∧ KeepsLimits cfg cfg' := by
  obtain ⟨hinv, cfg'', hpolicy, hkeeps⟩ := steady_run (fun _ _ h => h) h.install.spec.1
    h.install.spec.2.1 (⟨rfl, rfl, rfl⟩ : KeepsLimits cfg cfg) h.timed h.steady
  obtain rfl := Option.some.inj (hcfg.symm.trans hpolicy)
  exact ⟨hinv.mono htime, hkeeps⟩

/-- The global meter, as a request finds it. -/
theorem total_eq (h : UnmergedRun host now cfg s calls)
    (htime : (endTime Call.timestamp now calls).val ≤ time.val)
    (hend : time.val < u64.hi - maxWindowSecs)
    (hcfg : (run host s calls).1.policy = some cfg') (hcap : 0 < cfg.windowCap.val) :
    (pruneFor cfg' (run host s calls).1.loadWindow.1 time).total.val
      = transferredIn host (time.val - cfg.windowSecs.val) time.val (run host s calls).2 := by
  have htotal := h.install.total_eq (follows_global host) (fixes_windowCap host hcap)
    (noted_global host) (by decide) hcap.le cfg.windowCap.le_hi rfl ⟨rfl, rfl⟩ h.timed h.bound
    (fun c hc => (h.steady c hc).imp fun cfg'' (hk : KeepsLimits cfg cfg'') => ⟨hk.1, hk.2.1⟩)
    h.unmerged hcfg htime hend
  rw [← (h.spec htime hcfg).1.ledger.single_pruneFor] at htotal
  exact htotal

/-- A recipient's meter, as a request finds it. -/
theorem meter_total_eq (h : UnmergedRun host now cfg s calls)
    (htime : (endTime Call.timestamp now calls).val ≤ time.val)
    (hend : time.val < u64.hi - maxWindowSecs)
    (hcfg : (run host s calls).1.policy = some cfg') {rc : RecipientCap}
    (hmem : rc ∈ cfg.recipientWindowCaps) (hcap : 0 < rc.cap.val) :
    ((pruneFor cfg' (run host s calls).1.loadWindow.1 time).meter rc.recipient).total.val
      = transferredToIn host rc.recipient (time.val - cfg.windowSecs.val) time.val
        (run host s calls).2 := by
  have htotal := h.install.total_eq (follows_recipient host rc.recipient)
    (fixes_override host cfg.windowSecs hcap) (noted_recipient host rc.recipient) (by decide)
    hcap.le rc.cap.le_hi rfl ⟨hmem, rfl⟩ h.timed h.bound
    (fun c hc => (h.steady c hc).imp fun cfg'' (hk : KeepsLimits cfg cfg'') =>
      ⟨hk.2.2.symm ▸ hmem, hk.2.1⟩) h.unmerged hcfg htime hend
  rw [← (h.spec htime hcfg).1.ledger.meter_pruneFor] at htotal
  exact htotal

end UnmergedRun

/-- **Window blocks are exact.**  From a first install on, in every run that keeps the spend limits
and merges nothing, a transfer past every other rule is blocked by the window exactly when what was
approved in the window that ends now, with what was allowed before it in the same request and the
transfer itself, is more than the global cap — or, to its recipient alone, more than the
recipient's override. -/
theorem windowCapExceeded_iff {host : Host} {now : U64} {cfg cfg' : PolicyConfig} {s : State}
    {calls : List Call} (hrun : UnmergedRun host now cfg s calls) (env : Env)
    (hhost : env.host = host)
    (htime : (endTime Call.timestamp now calls).val ≤ env.timestamp.val)
    (hend : env.timestamp.val < u64.hi - maxWindowSecs)
    (hcfg : (run host s calls).1.policy = some cfg') {contexts : List Context}
    (hlen : contexts.length ≤ maxAuthContexts)
    (hgate : gateError cfg' ⟨(run host s calls).1.frozenOrFalse,
      (run host s calls).1.heartbeatOrZero⟩ env.timestamp = none)
    {i : ℕ} {ctx : Context} (hctx : contexts[i]? = some ctx) {asset dest : Address} {amount : I128}
    (hparse : parseCall host.self ctx cfg' = .assetTransfer asset dest amount)
    (hrules : Permitted cfg' (.assetTransfer asset dest amount)) :
    let verdicts := (authDecision env (run host s calls).1 contexts).1
    let before := allowedBefore (parseAll host.self cfg' contexts) verdicts i
    let start := env.timestamp.val - cfg.windowSecs.val
    verdicts[i]? = some (.blocked .windowCapExceeded) ↔
      (0 < cfg.windowCap.val ∧ cfg.windowCap.val
        < transferredIn host start env.timestamp.val (run host s calls).2
          + (before.map ParsedCall.spend).sum + amount.val) ∨
      ∃ rc ∈ cfg.recipientWindowCaps, rc.recipient = dest ∧ 0 < rc.cap.val ∧ rc.cap.val
        < transferredToIn host dest start env.timestamp.val (run host s calls).2
          + (before.map (ParsedCall.spendTo dest)).sum + amount.val := by
  subst hhost
  obtain ⟨hinv, hwindowCap, -, hcaps⟩ := hrun.spec htime hcfg
  have hoverride : recipientOverrideCap cfg' dest = recipientOverrideCap cfg dest := by
    rw [recipientOverrideCap, recipientOverrideCap, hcaps]
  intro verdicts before start
  rw [authDecision_windowCapExceeded_iff hinv hcfg hlen hgate hctx hparse hrules, Exceeds,
    globalDemand, recipientDemand, hasRecipientWindowCap, hwindowCap, hoverride]
  refine or_congr (and_congr_right fun hcap => ?_) ⟨?_, ?_⟩
  · rw [if_pos hcap, hrun.total_eq htime hend hcfg hcap]
  · rintro ⟨cap, hcap, hlt⟩
    obtain ⟨hmem, hpos⟩ := mem_of_recipientOverrideCap hcap
    rw [hcap, Option.isSome_some, if_pos rfl] at hlt
    refine ⟨_, hmem, rfl, hpos, ?_⟩
    rw [← hrun.meter_total_eq htime hend hcfg hmem hpos]
    exact hlt
  · rintro ⟨rc, hmem, rfl, hpos, hlt⟩
    have hcap := recipientOverrideCap_of_mem hrun.install.spec.2.2.2 hmem hpos
    refine ⟨rc.cap, hcap, ?_⟩
    rw [hcap, Option.isSome_some, if_pos rfl, hrun.meter_total_eq htime hend hcfg hmem hpos]
    exact hlt

namespace Sample

theorem unmerged_limitedRun : UnmergedRun host 100 limitedPolicy (installed limitedPolicy)
    limitedRun where
  install := firstInstall (by rfl)
  timed := timed_limitedRun
  bound := limitedRun_bound
  steady := limitedRun_steady _
  unmerged := by decide

/-- At time `170` the first transfer of `45`, a window ago, is out; the `55` of time `130` and an
allowed transfer of `40` leave no room for another `10`. -/
theorem limited_blocked :
    (authDecision ((auth 170 []).env host) (run host (installed limitedPolicy) limitedRun).1
      [pay 40, pay 10]).1[1]? = some (.blocked .windowCapExceeded) := by
  have hcfg : (run host (installed limitedPolicy) limitedRun).1.policy = some limitedPolicy := by
    decide
  have htime : (endTime Call.timestamp 100 limitedRun).val ≤ (170 : U64).val := by decide
  have hrules : Permitted limitedPolicy (.assetTransfer asset payee 10) :=
    ⟨rfl, by decide, by decide, .inl rfl, by decide⟩
  exact (windowCapExceeded_iff unmerged_limitedRun ((auth 170 []).env host) rfl htime
    (by decide) hcfg (by decide) (by decide) rfl rfl hrules).mpr (.inl (by decide))

end Sample

end AgentGuard
