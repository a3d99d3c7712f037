import AgentGuard.Contract.Window

/-!
# Contract/Engine — the decision engine

`engine.rs`: classify every authorization context of a request, evaluate the account gates and the
per-context rules in order, stage what a passing context would record, and commit the staged
admissions only when every context passed.
-/

namespace AgentGuard

open Machinery

/-- Account-level state the account gates are evaluated against. -/
structure AccountState where
  adminFrozen : Bool
  lastHeartbeat : U64
deriving DecidableEq

/-- Verdict for one authorization context. -/
inductive Decision
  | allowed
  | blocked (e : Error)
deriving DecidableEq

/-- Whether a verdict admits its context. -/
def Decision.isAllowed : Decision → Bool
  | .allowed => true
  | .blocked _ => false

/-! ## Caps -/

/-- The override cap of a recipient: the first positive entry. -/
def recipientOverrideCap (cfg : PolicyConfig) (recipient : Address) : Option I128 :=
  (cfg.recipientWindowCaps.find? fun rc => rc.recipient = recipient ∧ 0 < rc.cap.val).map
    RecipientCap.cap

def hasRecipientWindowCap (cfg : PolicyConfig) (recipient : Address) : Bool :=
  (recipientOverrideCap cfg recipient).isSome

/-- A cap of `0` is disabled. -/
def enabledCap (cap : I128) : Option I128 := if 0 < cap.val then some cap else none

def effectiveWindowCap (cfg : PolicyConfig) (recipient : Address) : Option I128 :=
  (recipientOverrideCap cfg recipient).or (enabledCap cfg.windowCap)

/-- Effective per-transaction cap of an asset: its first override when there is one, otherwise the
global cap. -/
def effectivePerTxCap (cfg : PolicyConfig) (asset : Address) : Option I128 :=
  match cfg.assetCaps.find? fun ac => ac.asset = asset with
  | some ac => enabledCap ac.perTxCap
  | none => enabledCap cfg.perTxCap

/-- `cap.saturating_sub(total).max(0)`. -/
def headroom (cap total : I128) : I128 :=
  if (cap.saturatingSub total).val < 0 then 0 else cap.saturatingSub total

/-- Advisory cap metrics: remaining window, per-transaction cap, effective window cap. -/
def capMetrics (policy : PolicyConfig) (ledger : Ledger) (recipient : Address) :
    Option I128 × Option I128 × Option I128 :=
  let windowCap := effectiveWindowCap policy recipient
  let trackedTotal :=
    if hasRecipientWindowCap policy recipient then ledger.recipientTotal recipient
    else ledger.total
  (windowCap.map fun cap => headroom cap trackedTotal, enabledCap policy.perTxCap, windowCap)

/-- Global remaining window headroom, `none` when the global cap is disabled. -/
def globalWindowRemaining (policy : PolicyConfig) (ledger : Ledger) : Option I128 :=
  if 0 < policy.windowCap.val then some (headroom policy.windowCap ledger.total) else none

/-- Overflow-checked running sum `base + staged + amount`. -/
def checkedWindowProjection (base staged amount : I128) : Option I128 :=
  (base.checkedAdd staged).bind fun s => s.checkedAdd amount

/-- Whether a projection exceeds its cap; a sum beyond `i128` exceeds every cap. -/
def overCap (projected : Option I128) (cap : I128) : Bool :=
  match projected with
  | some projected => projected.val > cap.val
  | none => true

/-- Dead-man switch health at `now`. -/
def dmsHealth (now lastHeartbeat : U64) (policy : PolicyConfig) : DmsHealthStatus :=
  if policy.dmsGraceSecs.val = 0 then .ok
  else if lastHeartbeat.val = 0 then .expired
  else
    let elapsed := now.saturatingSub lastHeartbeat
    if elapsed.val > policy.dmsGraceSecs.val then .expired
    else
      let warnThreshold :=
        (BoundedInt.clamp (policy.dmsGraceSecs.val * dmsWarnThresholdPercent) : U64).val / 100
      if elapsed.val ≥ warnThreshold then .warn else .ok

/-! ## Context parsing -/

/-- The argument positions of recipient and amount. -/
def transferIndices (fnName : Symbol) : ℕ × ℕ := if fnName = "transfer" then (1, 2) else (2, 3)

def expectedArity (fnName : Symbol) : ℕ := if fnName = "transfer" then 3 else 4

/-- Classify one authorization context. -/
def parseCall (self : Address) (ctx : Context) (cfg : PolicyConfig) : ParsedCall :=
  match ctx with
  | .contract ⟨contract, fnName, args⟩ =>
    if contract = self then .selfCall fnName
    else if contract ∈ cfg.assets ∧ (fnName = "transfer" ∨ fnName = "transfer_from") then
      if args.length ≠ expectedArity fnName then .unknown contract fnName
      else
        match args[(transferIndices fnName).1]?, args[(transferIndices fnName).2]? with
        | some toVal, some amtVal =>
          match toVal.toAddress?, amtVal.toI128? with
          | some dest, some amount => .assetTransfer contract dest amount
          -- malformed SAC arguments: default deny
          | _, _ => .unknown contract fnName
        | _, _ => .unknown contract fnName
    else if contract ∈ cfg.assets then .assetOther contract fnName
    else if cfg.protocols.any fun r => r.contract = contract then .protocol contract fnName
    else .unknown contract fnName
  | .createContractHostFn => .createContract
  | .createContractWithCtorHostFn => .createContract

/-! ## Per-context rules -/

/-- What the passing contexts of a request have staged so far.  `pendingRecipients` and
`pendingRecipientAmounts` are parallel. -/
structure Staging where
  pending : I128
  admission : List SpendEntry
  pendingRecipients : List Address
  pendingRecipientAmounts : List I128
  pendingProtocolCalls : U32
deriving DecidableEq

def Staging.empty : Staging := ⟨0, [], [], [], 0⟩

/-- Whether the asset's first override pauses it. -/
def assetPaused (cfg : PolicyConfig) (asset : Address) : Bool :=
  match cfg.assetCaps.find? fun cap => cap.asset = asset with
  | some cap => cap.paused
  | none => false

/-- The slot a recipient's staged amount is kept in, with the amount. -/
def Staging.recipientSlot (st : Staging) (dest : Address) : Option ℕ × I128 :=
  match st.pendingRecipients.findIdx? fun r => r = dest with
  | some i => (some i, (st.pendingRecipientAmounts[i]?).getD 0)
  | none => (none, 0)

/-- Write a recipient's staged amount back, in its slot or in a new one. -/
def Staging.stageRecipient (st : Staging) (slot : Option ℕ) (dest : Address) (next : I128) :
    Staging :=
  match slot with
  | some i => { st with pendingRecipientAmounts := st.pendingRecipientAmounts.set i next }
  | none =>
    { st with
      pendingRecipients := st.pendingRecipients ++ [dest]
      pendingRecipientAmounts := st.pendingRecipientAmounts ++ [next] }

/-- The rolling-window rule of a transfer that passed every other rule. -/
def evalWindow (cfg : PolicyConfig) (ledger : Ledger) (now : U64) (st : Staging) (dest : Address)
    (amount : I128) : Decision × Staging :=
  let recipCap := recipientOverrideCap cfg dest
  let (stagedIdx, stagedRecip) :=
    if recipCap.isSome then st.recipientSlot dest else (none, 0)
  let globalProjected := checkedWindowProjection ledger.total st.pending amount
  let recipProjected := checkedWindowProjection (ledger.recipientTotal dest) stagedRecip amount
  let globalOver := decide (0 < cfg.windowCap.val) && overCap globalProjected cfg.windowCap
  let recipOver :=
    match recipCap with
    | some cap => overCap recipProjected cap
    | none => false
  if globalOver || recipOver then (.blocked .windowCapExceeded, st)
  else
    let st :=
      if 0 < cfg.windowCap.val then
        { st with
          pending := st.pending.saturatingAdd amount
          admission := st.admission ++ [⟨now, amount⟩] }
      else st
    let st :=
      if recipCap.isSome then
        st.stageRecipient stagedIdx dest (stagedRecip.saturatingAdd amount)
      else st
    (.allowed, st)

/-- The rules of an asset transfer, in order. -/
def evalTransfer (cfg : PolicyConfig) (ledger : Ledger) (now : U64) (st : Staging)
    (asset dest : Address) (amount : I128) : Decision × Staging :=
  if assetPaused cfg asset then (.blocked .assetNotAllowed, st)
  else if amount.val ≤ 0 then (.blocked .invalidAmount, st)
  else if dest ∈ cfg.blockedRecipients then (.blocked .recipientBlocked, st)
  else if !cfg.allowAnyRecipient && decide (dest ∉ cfg.recipients) then
    (.blocked .recipientNotAllowed, st)
  else if (effectivePerTxCap cfg asset).any fun cap => amount.val > cap.val then
    (.blocked .perTxCapExceeded, st)
  else evalWindow cfg ledger now st dest amount

/-- The rules of a protocol call: the first rule for the contract decides. -/
def evalProtocol (cfg : PolicyConfig) (ledger : Ledger) (st : Staging) (contract : Address)
    (fname : Symbol) : Decision × Staging :=
  match cfg.protocols.find? fun rule => rule.contract = contract with
  | none => (.blocked .protocolNotAllowed, st)
  | some rule =>
    let fnOk :=
      match rule.fns with
      | none => true
      | some fns => decide (fname ∈ fns)
    if rule.paused then (.blocked .protocolNotAllowed, st)
    else if !fnOk then (.blocked .functionNotAllowed, st)
    else if 0 < cfg.protocolCallsPerWindow.val then
      let projectedCalls :=
        (ledger.protocolCallTotal.saturatingAdd st.pendingProtocolCalls).saturatingAdd 1
      if projectedCalls.val > cfg.protocolCallsPerWindow.val then
        (.blocked .protocolCallRateExceeded, st)
      else
        (.allowed, { st with pendingProtocolCalls := st.pendingProtocolCalls.saturatingAdd 1 })
    else (.allowed, st)

/-- Evaluate one parsed call against what is staged so far. -/
def evalCall (cfg : PolicyConfig) (ledger : Ledger) (now : U64) (st : Staging) :
    ParsedCall → Decision × Staging
  | .selfCall fname =>
    if fname = "heartbeat" then (.allowed, st) else (.blocked .selfFunctionNotAllowed, st)
  | .createContract => (.blocked .createContractNotAllowed, st)
  | .unknown _ _ => (.blocked .unknownContract, st)
  | .assetOther asset _ =>
    if assetPaused cfg asset then (.blocked .assetNotAllowed, st)
    else (.blocked .assetFnNotAllowed, st)
  | .assetTransfer asset dest amount => evalTransfer cfg ledger now st asset dest amount
  | .protocol contract fname => evalProtocol cfg ledger st contract fname

/-- The loop over the contexts, threading the staging. -/
def evalContexts (self : Address) (cfg : PolicyConfig) (ledger : Ledger) (now : U64)
    (st : Staging) : List Context → List Decision × Staging
  | [] => ([], st)
  | ctx :: rest =>
    let (verdict, st) := evalCall cfg ledger now st (parseCall self ctx cfg)
    let (verdicts, st) := evalContexts self cfg ledger now st rest
    (verdict :: verdicts, st)

/-! ## Decision -/

/-- The dead-man gate: the grace has elapsed since a heartbeat that did happen. -/
def heartbeatExpired (cfg : PolicyConfig) (lastHeartbeat now : U64) : Bool :=
  0 < cfg.dmsGraceSecs.val ∧ lastHeartbeat.val ≠ 0 ∧
    (now.saturatingSub lastHeartbeat).val > cfg.dmsGraceSecs.val

/-- The active-window gate; a bound of `0` is unrestricted. -/
def outsideActiveWindow (cfg : PolicyConfig) (now : U64) : Bool :=
  (cfg.activeFrom.val ≠ 0 ∧ now.val < cfg.activeFrom.val) ∨
    (cfg.activeUntil.val ≠ 0 ∧ now.val > cfg.activeUntil.val)

/-- The policy-level account gates, in order. -/
def accountError (cfg : PolicyConfig) (state : AccountState) (now : U64) : Option Error :=
  if heartbeatExpired cfg state.lastHeartbeat now then some .heartbeatExpired
  else if cfg.paused then some .paused
  else if outsideActiveWindow cfg now then some .outsideActiveWindow
  else none

/-- Whether any rolling limit is configured, so that the window is pruned up front. -/
def limitsWindow (cfg : PolicyConfig) : Bool :=
  0 < cfg.windowCap.val ∨ cfg.recipientWindowCaps ≠ [] ∨ 0 < cfg.protocolCallsPerWindow.val

/-- The one up-front prune of a request. -/
def pruneFor (cfg : PolicyConfig) (ledger : Ledger) (now : U64) : Ledger :=
  if limitsWindow cfg then ledger.prune now cfg.windowSecs else ledger

/-- Commit the staged admissions: every global spend, one aggregated spend for each staged
recipient, every protocol call. -/
def commit (ledger : Ledger) (now : U64) (st : Staging) : Ledger :=
  let ledger := st.admission.foldl (fun l e => l.admitSpend e.ts e.value) ledger
  let ledger := (st.pendingRecipients.zip st.pendingRecipientAmounts).foldl
    (fun l ra => l.admitForRecipient now ra.1 ra.2) ledger
  (List.range st.pendingProtocolCalls.val.toNat).foldl (fun l _ => l.admitProtocolCall now) ledger

/-- The same blocking verdict for every context. -/
def blockAll (contexts : List Context) (e : Error) : List Decision :=
  contexts.map fun _ => .blocked e

/-- Evaluate the decision table over every context.  One verdict for each context, except that an
oversized request gets a single aggregate one; the ledger changes only by the up-front prune and,
when every context passed, by the commit. -/
def decideContexts (self : Address) (policy : Option PolicyConfig) (state : AccountState)
    (ledger : Ledger) (now : U64) (contexts : List Context) : List Decision × Ledger :=
  if contexts.length > maxAuthContexts then ([.blocked .tooManyAuthContexts], ledger)
  else if state.adminFrozen then (blockAll contexts .adminFrozen, ledger)
  else
    match policy with
    | none => (blockAll contexts .noPolicy, ledger)
    | some cfg =>
      match accountError cfg state now with
      | some e => (blockAll contexts e, ledger)
      | none =>
        let ledger := pruneFor cfg ledger now
        let (verdicts, st) := evalContexts self cfg ledger now Staging.empty contexts
        if verdicts.all Decision.isAllowed then (verdicts, commit ledger now st)
        else (verdicts, ledger)

end AgentGuard
