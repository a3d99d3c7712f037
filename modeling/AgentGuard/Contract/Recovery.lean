import AgentGuard.Contract.Ceilings
import AgentGuard.Contract.Verdicts

/-!
# Contract/Recovery — when a protocol-call rate limit recovers

Every entry of the stored call counter carries the time of an approved authorization with protocol
calls (`CallsRecorded`), a merge included: it keeps the newer of two such times.  So once a width
has gone by without a protocol call, everything in the counter has expired — if it can expire.  The
validator asks for a width with a spend cap only, and a width of `0` prunes nothing: without one the
rate is a limit for life.
-/

namespace AgentGuard

open Machinery

/-! ## Where the counter's entries come from -/

/-- **Every counted call was approved when the counter says.** -/
def CallsRecorded (host : Host) (sh : State × List Approval) : Prop :=
  ∀ e ∈ sh.1.loadWindow.1.protocolCallEntries,
    ∃ a ∈ sh.2, a.time = e.ts ∧ 0 < a.protocolCalls host

section

variable {host : Host} {t : U64} {s s' : State} {history : List Approval}

/-- A storage with the same window, and a longer history. -/
theorem CallsRecorded.mono (h : CallsRecorded host (s, history)) (hwindow : s'.window = s.window)
    (newer : List Approval) : CallsRecorded host (s', newer ++ history) := fun e he => by
  obtain ⟨a, ha, hts, hpos⟩ := h e (by rwa [← loadWindow_congr hwindow])
  exact ⟨a, List.mem_append_right _ ha, hts, hpos⟩

theorem callsRecorded_of_empty {sh : State × List Approval}
    (h : sh.1.loadWindow.1.protocolCallEntries = []) : CallsRecorded host sh := fun e he => by
  simp [h] at he

/-- **What an approval leaves in the counter** was there, or is of this instant. -/
theorem exists_ts_of_grants {env : Env} {cfg : PolicyConfig} {contexts : List Context}
    (hg : Grants env s cfg contexts) (hinv : s.Inv host env.timestamp) {e : ProtocolCallEntry}
    (he : e ∈ (authDecision env s contexts).2.protocolCallEntries) :
    (e.ts = env.timestamp ∧ 0 < callDemand cfg (parseAll env.host.self cfg contexts)) ∨
      ∃ e' ∈ s.loadWindow.1.protocolCallEntries, e'.ts = e.ts := by
  obtain ⟨-, ⟨-, -, hsame⟩ | ⟨-, -, -, hcharged⟩⟩ := hg.cases hinv
  · exact .inr ⟨e, hsame ▸ he, rfl⟩
  have hcalls := hcharged.calls
  rw [hinv.ledger.calls_pruneFor] at hcalls
  have hmem : e ∈ (authDecision env s contexts).2.calls.entries := he
  rw [hcalls] at hmem
  rcases Rolling.exists_ts_charge (by decide) hmem with hnew | ⟨e', he', hts⟩
  · exact .inl hnew
  · rw [Rolling.entries_keepAfter] at he'
    exact .inr ⟨e', List.mem_of_mem_filter he', hts⟩

/-- A demand on the counter is a protocol call of the approval. -/
theorem protocolCalls_pos_of_callDemand {cfg : PolicyConfig} {contexts : List Context}
    (h : 0 < callDemand cfg (parseAll host.self cfg contexts)) (time : U64) :
    0 < Approval.protocolCalls host ⟨time, cfg, contexts⟩ := by
  rw [callDemand] at h
  split_ifs at h
  · exact h
  · omega

/-- **An approval is recorded with what it leaves.** -/
theorem CallsRecorded.admitted {env : Env} {cfg : PolicyConfig} {contexts : List Context}
    (h : CallsRecorded env.host (s, history)) (hinv : s.Inv env.host env.timestamp)
    (hg : Grants env s cfg contexts)
    (hwindow : s'.window = (s.admitted env contexts).window) :
    CallsRecorded env.host (s', ⟨env.timestamp, cfg, contexts⟩ :: history) := by
  by_cases hp : persists s (authDecision env s contexts).2 = true
  · intro e he
    have hloaded := calls_loadWindow_admitted (hinv.decided contexts) hp
    rw [← loadWindow_congr hwindow] at hloaded
    rw [show s'.loadWindow.1.protocolCallEntries = _ from congrArg Rolling.entries hloaded] at he
    rcases exists_ts_of_grants hg hinv he with ⟨hts, hpos⟩ | ⟨e', he', hts⟩
    · exact ⟨_, List.mem_cons_self, hts.symm, protocolCalls_pos_of_callDemand hpos env.timestamp⟩
    · obtain ⟨a, ha, hats, hapos⟩ := h e' he'
      exact ⟨a, List.mem_cons_of_mem _ ha, hats.trans hts, hapos⟩
  · refine h.mono ?_ [_]
    rw [hwindow, admitted_eq, if_neg hp]

/-- **Every call keeps the record**, whatever it is. -/
theorem CallsRecorded.step {sh : State × List Approval} {c : Call} (h : CallsRecorded host sh)
    (hinv : sh.1.Inv host c.timestamp) : CallsRecorded host (exec host sh c) := by
  obtain ⟨s, history⟩ := sh
  have henv : s.Inv host (c.env host).timestamp := hinv
  have heff := stepEffect host s c
  rw [exec]
  dsimp only at heff ⊢
  generalize AgentGuard.step host s c = s', approval host s c = a at heff
  cases heff with
  | policySet admin cfg haction hadmin hauth hvalid =>
    rw [installPolicy_eq]
    by_cases hnone : s.policy.isNone = true
    · exact callsRecorded_of_empty (by simp only [State.loadWindow, hnone, if_true]; rfl)
    · exact h.mono (by simp only [hnone, Bool.false_eq_true, if_false]) []
  | windowReset | policyRevoked => exact callsRecorded_of_empty rfl
  | approved entry cfg haction hgrants =>
    exact @CallsRecorded.admitted _ _ _ (c.env host) _ _ h henv hgrants rfl
  | heartbeat entry cfg haction hmem hgrants =>
    exact @CallsRecorded.admitted _ _ _ (c.env host) _ _ h henv hgrants (by rw [recordHeartbeat_eq])
  -- everything else leaves the window alone
  | _ => exact h.mono rfl []

/-- **In every run from a first install** the counter speaks of approved calls only. -/
theorem FirstInstall.callsRecorded {now : U64} {cfg : PolicyConfig}
    (h : FirstInstall host now cfg s)
    {calls : List Call} (htimed : Timed Call.timestamp now calls) :
    (run host s calls).1.Inv host (endTime Call.timestamp now calls) ∧
      CallsRecorded host (run host s calls) := by
  refine Timed.foldl_invariant
    (fun t (sh : State × List Approval) => sh.1.Inv host t ∧ CallsRecorded host sh)
    (fun _ => True) (fun t sh c hsh ht _ => ?_) calls now (s, []) htimed (fun _ _ => trivial)
    ⟨h.spec.1, callsRecorded_of_empty (by rw [h.loadWindow]; rfl)⟩
  exact ⟨hsh.1.step ht, hsh.2.step (hsh.1.mono ht)⟩

end

/-! ## A batch of protocol calls -/

/-- A protocol call the policy permits, the rate apart. -/
def PermittedProtocol (self : Address) (cfg : PolicyConfig) (ctx : Context) : Prop :=
  ∃ contract fname, parseCall self ctx cfg = .protocol contract fname ∧
    Permitted cfg (.protocol contract fname)

section

variable {self : Address} {cfg : PolicyConfig} {l : Ledger} {now : U64} {contexts : List Context}

/-- It is allowed, or refused for the rate. -/
theorem evalProtocol_of_permitted {contract : Address} {fname : Symbol} (st : Staging)
    (h : Permitted cfg (.protocol contract fname)) :
    (evalProtocol cfg l st contract fname).1 = .allowed ∨
      (evalProtocol cfg l st contract fname).1 = .blocked .protocolCallRateExceeded := by
  obtain ⟨rule, hrule, hpaused, hfns⟩ := h
  rw [evalProtocol, hrule]
  dsimp only
  split_ifs with hp hfn
  · simp [hpaused] at hp
  · cases hopt : rule.fns with
    | none => simp [hopt] at hfn
    | some fns => simp [hopt, hfns fns hopt] at hfn
  · exact .inr rfl
  · exact .inl rfl
  · exact .inl rfl

theorem evalContexts_of_permitted (h : ∀ ctx ∈ contexts, PermittedProtocol self cfg ctx) :
    ∀ st : Staging, ∀ v ∈ (evalContexts self cfg l now st contexts).1,
      v = .allowed ∨ v = .blocked .protocolCallRateExceeded := by
  induction contexts with
  | nil => simp [evalContexts]
  | cons ctx contexts ih =>
    intro st
    obtain ⟨⟨contract, fname, hparse, hperm⟩, hrest⟩ := List.forall_mem_cons.mp h
    simp only [evalContexts, hparse, evalCall]
    exact List.forall_mem_cons.mpr ⟨evalProtocol_of_permitted st hperm, ih hrest _⟩

/-- The batch asks for its length of the counter, and nothing of the other meters. -/
theorem demand_of_permitted (hpos : 0 < cfg.protocolCallsPerWindow.val)
    (h : ∀ ctx ∈ contexts, PermittedProtocol self cfg ctx) :
    globalDemand cfg (parseAll self cfg contexts) = 0 ∧
      (∀ r, recipientDemand cfg r (parseAll self cfg contexts) = 0) ∧
      callDemand cfg (parseAll self cfg contexts) = contexts.length := by
  induction contexts with
  | nil => simp [parseAll]
  | cons ctx contexts ih =>
    obtain ⟨⟨contract, fname, hparse, -⟩, hrest⟩ := List.forall_mem_cons.mp h
    obtain ⟨hglobal, hrecipient, hcalls⟩ := ih hrest
    have hsplit : parseAll self cfg (ctx :: contexts)
        = [.protocol contract fname] ++ parseAll self cfg contexts := by
      rw [parseAll, List.map_cons, hparse]
      rfl
    rw [hsplit]
    refine ⟨?_, fun r => ?_, ?_⟩
    · rw [globalDemand_append, hglobal]
      simp [globalDemand, ParsedCall.spend]
    · rw [recipientDemand_append, hrecipient]
      simp [recipientDemand, ParsedCall.spendTo]
    · rw [callDemand_append, hcalls, callDemand, if_pos hpos, List.length_cons]
      simp only [List.map_cons, List.map_nil, List.sum_cons, List.sum_nil, ParsedCall.protocolCalls]
      omega

/-- **The batch fits when the counter has room for all of it.** -/
theorem fits_of_permitted (hpos : 0 < cfg.protocolCallsPerWindow.val)
    (h : ∀ ctx ∈ contexts, PermittedProtocol self cfg ctx) :
    Fits cfg l (parseAll self cfg contexts) ↔ contexts = [] ∨
      min u32.hi (l.protocolCallTotal.val + contexts.length) ≤ cfg.protocolCallsPerWindow.val := by
  obtain ⟨hglobal, hrecipient, hcalls⟩ := demand_of_permitted hpos h
  refine ⟨fun hfits => ?_,
    fun hroom => ⟨by simp [hglobal], by simp [hrecipient], fun hdemand => ?_⟩⟩
  · by_cases hnil : contexts = []
    · exact .inl hnil
    · have hlen := List.length_pos_iff.mpr hnil
      have := hfits.calls (by omega)
      rw [hcalls] at this
      exact .inr this
  · rw [hcalls] at hdemand ⊢
    refine hroom.resolve_left fun hnil => ?_
    simp [hnil] at hdemand

end

section

variable {host : Host} {env : Env} {s : State} {cfg : PolicyConfig} {contexts : List Context}

/-- **Exactly when the rate refuses one of the batch.** -/
theorem not_rateExceeded_iff (hinv : s.Inv env.host env.timestamp) (hcfg : s.policy = some cfg)
    (hpos : 0 < cfg.protocolCallsPerWindow.val) (hlen : contexts.length ≤ maxAuthContexts)
    (hgate : gateError cfg ⟨s.frozenOrFalse, s.heartbeatOrZero⟩ env.timestamp = none)
    (hbatch : ∀ ctx ∈ contexts, PermittedProtocol env.host.self cfg ctx) :
    (∀ v ∈ (authDecision env s contexts).1, v ≠ .blocked .protocolCallRateExceeded) ↔
      contexts = [] ∨ min u32.hi ((pruneFor cfg s.loadWindow.1 env.timestamp).protocolCallTotal.val
        + contexts.length) ≤ cfg.protocolCallsPerWindow.val := by
  have hopen : openPolicy s.policy ⟨s.frozenOrFalse, s.heartbeatOrZero⟩ env.timestamp = some cfg :=
    hcfg ▸ openPolicy_of_gateError hgate
  have hperm : ∀ c ∈ parseAll env.host.self cfg contexts, Permitted cfg c := fun c hc => by
    obtain ⟨ctx, hctx, rfl⟩ := List.mem_map.mp hc
    obtain ⟨contract, fname, hparse, hp⟩ := hbatch ctx hctx
    rwa [hparse]
  have hverdicts : ∀ v ∈ (authDecision env s contexts).1,
      v = .allowed ∨ v = .blocked .protocolCallRateExceeded := by
    rw [authDecision, hcfg, verdicts_eq hlen, hgate]
    exact evalContexts_of_permitted hbatch Staging.empty
  have hgranted : (authDecision env s contexts).1.all Decision.isAllowed = true
      ↔ Fits cfg (pruneFor cfg s.loadWindow.1 env.timestamp)
        (parseAll env.host.self cfg contexts) :=
    (decideContexts_granted_iff hinv.ledger hlen hopen).trans (and_iff_right hperm)
  rw [← fits_of_permitted hpos hbatch, ← hgranted, List.all_eq_true]
  refine forall₂_congr fun v hv => ?_
  rcases hverdicts v hv with rfl | rfl <;> simp [Decision.isAllowed]

/-- A width behind the last protocol call, every stored one has expired. -/
theorem expired_of_quiet {history : List Approval} (hinv : s.Inv host env.timestamp)
    (hpos : 0 < cfg.protocolCallsPerWindow.val) (hsecs : 0 < cfg.windowSecs.val)
    (hrecorded : CallsRecorded host (s, history))
    (hquiet : protocolCallsIn host (env.timestamp.val - cfg.windowSecs.val) env.timestamp.val
      history = 0) :
    ∀ e ∈ s.loadWindow.1.protocolCallEntries, e.ts.val ≤ pruneHorizon cfg env.timestamp := by
  intro e he
  obtain ⟨a, ha, hts, hcalls⟩ := hrecorded e he
  have hrecent := hinv.ledger.calls.recent e he
  -- an approval within the width would have been counted
  have hold : ¬env.timestamp.val - cfg.windowSecs.val < e.ts.val := fun hlt => by
    have hmem : a ∈ approvedIn (env.timestamp.val - cfg.windowSecs.val) env.timestamp.val
        history := List.mem_filter.mpr ⟨ha, by rw [hts]; simpa using ⟨hlt, hrecent⟩⟩
    have hnn : ∀ x ∈ (approvedIn (env.timestamp.val - cfg.windowSecs.val) env.timestamp.val
        history).map (Approval.protocolCalls host), 0 ≤ x := fun x hx => by
      obtain ⟨b, -, rfl⟩ := List.mem_map.mp hx
      exact sum_map_nonneg fun call _ => call.protocolCalls_nonneg
    have hle := List.single_le_sum hnn _ (List.mem_map_of_mem hmem)
    rw [← protocolCallsIn, hquiet] at hle
    omega
  have hend := e.ts.le_hi
  rw [pruneHorizon, if_pos (limitsWindow_of_calls hpos), horizon, if_neg hsecs.ne']
  split_ifs <;> omega

/-- A width behind the last protocol call, the counter is empty again. -/
theorem protocolCallTotal_of_quiet {history : List Approval} (hinv : s.Inv host env.timestamp)
    (hpos : 0 < cfg.protocolCallsPerWindow.val) (hsecs : 0 < cfg.windowSecs.val)
    (hrecorded : CallsRecorded host (s, history))
    (hquiet : protocolCallsIn host (env.timestamp.val - cfg.windowSecs.val) env.timestamp.val
      history = 0) :
    (pruneFor cfg s.loadWindow.1 env.timestamp).protocolCallTotal.val = 0 := by
  have hordered := hinv.ledger.calls
  have hexpired := expired_of_quiet hinv hpos hsecs hrecorded hquiet
  have hnone : sumAfter (pruneHorizon cfg env.timestamp) s.loadWindow.1.protocolCallEntries
      = 0 := by
    rw [sumAfter, List.filter_eq_nil_iff.mpr fun e he => by simpa using hexpired e he]
    rfl
  have hcounted := hinv.recounted.1
  have htotal := congrArg Rolling.total (hinv.ledger.calls_pruneFor cfg env.timestamp)
  have hsum := valueSum_nonneg hordered.positive
  have hsplit := sumUpTo_add_sumAfter (pruneHorizon cfg env.timestamp)
    s.loadWindow.1.protocolCallEntries
  rw [show (pruneFor cfg s.loadWindow.1 env.timestamp).protocolCallTotal = _ from htotal,
    Rolling.val_total_keepAfter hordered.positive]
  simp only [Ledger.calls, hcounted, U32.val_clamp hsum, u32_lo]
  omega

end

/-- **When a protocol-call rate limit recovers.**  In every run from a first install, merges and
edits included: when no protocol call was approved in the width that ends now, a batch of permitted
protocol calls within the limit is not refused for the rate, exactly if the policy has a width — or
if there is room for the batch on top of every call still stored. -/
theorem rate_recovers_iff {host : Host} {now : U64} {cfg₀ cfg : PolicyConfig} {s : State}
    (hinstall : FirstInstall host now cfg₀ s) {calls : List Call}
    (htimed : Timed Call.timestamp now calls) {env : Env} (hhost : env.host = host)
    (htime : (endTime Call.timestamp now calls).val ≤ env.timestamp.val)
    (hcfg : (run host s calls).1.policy = some cfg) (hpos : 0 < cfg.protocolCallsPerWindow.val)
    (hgate : gateError cfg ⟨(run host s calls).1.frozenOrFalse,
      (run host s calls).1.heartbeatOrZero⟩ env.timestamp = none)
    (hquiet : protocolCallsIn host (env.timestamp.val - cfg.windowSecs.val) env.timestamp.val
      (run host s calls).2 = 0)
    {contexts : List Context} (hlen : contexts.length ≤ maxAuthContexts)
    (hlimit : contexts.length ≤ cfg.protocolCallsPerWindow.val)
    (hbatch : ∀ ctx ∈ contexts, PermittedProtocol host.self cfg ctx) :
    (∀ v ∈ (authDecision env (run host s calls).1 contexts).1,
        v ≠ .blocked .protocolCallRateExceeded) ↔
      0 < cfg.windowSecs.val ∨ contexts = [] ∨
        min u32.hi ((run host s calls).1.loadWindow.1.protocolCallTotal.val + contexts.length)
          ≤ cfg.protocolCallsPerWindow.val := by
  subst hhost
  obtain ⟨hend, hrecorded⟩ := hinstall.callsRecorded htimed
  have hinv := hend.mono htime
  rw [not_rateExceeded_iff hinv hcfg hpos hlen hgate hbatch]
  by_cases hsecs : 0 < cfg.windowSecs.val
  · rw [protocolCallTotal_of_quiet hinv hpos hsecs hrecorded hquiet, zero_add]
    exact iff_of_true (.inr ((min_le_right _ _).trans hlimit)) (.inl hsecs)
  · have hzero : cfg.windowSecs.val = 0 := by
      have := cfg.windowSecs.nonneg
      omega
    have hkept := hinv.ledger.calls_pruneFor cfg env.timestamp
    rw [pruneHorizon, if_pos (limitsWindow_of_calls hpos),
      keepAfter_horizon_zero _ env.timestamp hzero] at hkept
    rw [show (pruneFor cfg (run env.host s calls).1.loadWindow.1 env.timestamp).protocolCallTotal
      = _ from congrArg Rolling.total hkept, or_iff_right hsecs]
    rfl

namespace Sample

/-- One protocol call a minute. -/
def oneCall : PolicyConfig := { policy with protocolCallsPerWindow := 1 }

/-- The same limit without a width; the validator does not ask for one. -/
def oneCallEver : PolicyConfig := { oneCall with windowSecs := 0 }

theorem permitted_use : ∀ ctx ∈ [use], PermittedProtocol host.self oneCall ctx := by
  intro ctx hctx
  obtain rfl := List.mem_singleton.mp hctx
  exact ⟨protocol, "swap", rfl, ⟨protocol, none, false⟩, rfl, rfl, by simp⟩

/-- A minute after the only call of the minute, the next one goes through. -/
theorem oneCall_recovers :
    FirstInstall host 100 oneCall (installed oneCall) ∧
      ∀ v ∈ (authDecision ((auth 170 []).env host)
          (run host (installed oneCall) [auth 110 [use]]).1 [use]).1,
        v ≠ .blocked .protocolCallRateExceeded := by
  have hinstall : FirstInstall host 100 oneCall (installed oneCall) := firstInstall (by rfl)
  have hrecovers := @rate_recovers_iff host 100 oneCall oneCall (installed oneCall) hinstall
    [auth 110 [use]] (by simp only [Timed]; decide) ((auth 170 []).env host) rfl (by decide)
    (by decide) (by decide) (by decide) (by decide) [use] (by decide) (by decide) permitted_use
  exact ⟨hinstall, hrecovers.mpr (.inl (by decide))⟩

/-- Without a width it never does: the call of time `110` is still counted at time `1000000`. -/
theorem oneCallEver_never_recovers :
    FirstInstall host 100 oneCallEver (installed oneCallEver) ∧
      protocolCallsIn host (1000000 - oneCallEver.windowSecs.val) 1000000
        (run host (installed oneCallEver) [auth 110 [use]]).2 = 0 ∧
      PermittedProtocol host.self oneCallEver use ∧
      (authDecision ((auth 1000000 []).env host)
        (run host (installed oneCallEver) [auth 110 [use]]).1 [use]).1
          = [.blocked .protocolCallRateExceeded] :=
  ⟨firstInstall (by rfl), by decide,
    ⟨protocol, "swap", rfl, ⟨protocol, none, false⟩, rfl, rfl, by simp⟩, by decide⟩

end Sample

end AgentGuard
