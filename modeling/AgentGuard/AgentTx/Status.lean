import AgentGuard.AgentTx.Entries
import AgentGuard.Contract.Gates

/-!
# AgentTx/Status — the dead-man status the CLI prints

`cmd_status` rebuilds the account status from the fetched entries.  It reads the policy, the freeze
and the clock as the contract does, but compares the clock, a unix time, with the ledger *sequence*,
after dropping all but its low 32 bits: its `heartbeat_expired` agrees with the contract's only
where the two comparisons happen to fall the same way.
-/

namespace AgentGuard.AgentTx

open Machinery

/-! ## The command -/

/-- The RPC, as the command sees it: the `entries` array of a `getLedgerEntries` response, if there
is one, with the decoded `xdr` of each entry that has one; and the latest ledger sequence. -/
structure Rpc where
  getLedgerEntries : List LedgerKey → Option (List (Option LedgerEntryData))
  latestLedger : U32

/-- `as u32`: the low 32 bits. -/
def asU32 (x : U64) : U32 :=
  ⟨x.val % 4294967296, Int.emod_nonneg _ (by decide), by
    have := Int.emod_lt_of_pos x.val (show (0 : ℤ) < 4294967296 by decide)
    simp only [u32_hi]
    omega⟩

/-- The first `u64` under a field name. -/
def extractU64FromMap (fieldName : Symbol) : ScMap → Option U64
  | .nil => none
  | .cons (.symbol sym) (.u64 ts) rest =>
    if sym = fieldName then some ts else extractU64FromMap fieldName rest
  | .cons _ _ rest => extractU64FromMap fieldName rest

/-- The grace of a stored policy; `0` when it is malformed. -/
def extractDmsGraceSecs : ScVal → U64
  | .map m => (extractU64FromMap "dms_grace_secs" m).getD 0
  | _ => 0

/-- What the pass over the entries collects. -/
structure StatusScan where
  hasPolicy : Bool
  adminFrozen : Bool
  lastHeartbeat : U64
deriving DecidableEq

/-- One entry of the pass. -/
def scanEntry (acc : StatusScan) : LedgerEntryData → StatusScan
  | .contractData _ key _ val =>
    if key = GuardKey.policy.scval then { acc with hasPolicy := val ≠ .void }
    else if key = GuardKey.adminFrozen.scval then
      match val with
      | .bool frozen => { acc with adminFrozen := frozen }
      | _ => acc
    else if key = GuardKey.lastHeartbeat.scval then
      match val with
      | .u64 ts => { acc with lastHeartbeat := ts }
      | _ => acc
    else acc
  | .other _ => acc

/-- The value of a `Policy` entry. -/
def policyValue? : LedgerEntryData → Option ScVal
  | .contractData _ key _ val => if key = GuardKey.policy.scval then some val else none
  | .other _ => none

/-- The expiry rule of the command: a heartbeat of `0` never happened and has expired. -/
def expiredAt (now : U32) (lastHeartbeat dmsGraceSecs : U64) : Bool :=
  if 0 < dmsGraceSecs.val then
    if lastHeartbeat.val = 0 then true
    else (now.saturatingSub (asU32 lastHeartbeat)).val > dmsGraceSecs.val
  else false

/-- What the command prints. -/
structure StatusReport where
  hasPolicy : Bool
  adminFrozen : Bool
  heartbeatExpired : Bool
  lastHeartbeat : U64
  now : U32
deriving DecidableEq

/-- The keys the command asks for. -/
def statusKeys (guard : Address) : List LedgerKey :=
  [guardInstanceKey guard, guardDataKey guard .policy, guardDataKey guard .lastHeartbeat,
    guardDataKey guard .adminFrozen]

/-- The report on the fetched entries. -/
def statusReport (entries : List LedgerEntryData) (latest : U32) : StatusReport :=
  let scan := entries.foldl scanEntry ⟨false, false, 0⟩
  -- the second pass stops at the first `Policy` entry
  let policy := entries.findSome? policyValue?
  { hasPolicy := scan.hasPolicy
    adminFrozen := scan.adminFrozen
    heartbeatExpired := scan.hasPolicy && (policy.map fun val =>
      expiredAt latest scan.lastHeartbeat (extractDmsGraceSecs val)).getD false
    lastHeartbeat := scan.lastHeartbeat
    now := latest }

def cmdStatus (rpc : Rpc) (guard : Address) : Except String StatusReport :=
  match rpc.getLedgerEntries (statusKeys guard) with
  | none => .error "no entries in response"
  | some entries => do
    let entries ← entries.mapM fun entry => entry.elim (.error "missing xdr") .ok
    return statusReport entries rpc.latestLedger

/-! ## The served ledger -/

/-- The entry a ledger has under a key. -/
def ledgerEntry (ledger : LedgerKey → Option ScVal) : LedgerKey → Option LedgerEntryData
  | .contractData contract key durability =>
    (ledger (.contractData contract key durability)).map (.contractData contract key durability ·)
  | .other _ => none

/-- **The RPC serves a ledger**: a request returns the entries that exist under its keys, in some
order. -/
structure Rpc.Serves (rpc : Rpc) (ledger : LedgerKey → Option ScVal) (latest : U32) : Prop where
  latest : rpc.latestLedger = latest
  entries : ∀ keys, ∃ entries : List LedgerEntryData,
    rpc.getLedgerEntries keys = some (entries.map some) ∧
      entries.Perm (keys.filterMap (ledgerEntry ledger))

/-- A persistent entry of the guard. -/
def dataEntry (guard : Address) (key : GuardKey) (val : ScVal) : LedgerEntryData :=
  .contractData guard key.scval .persistent val

/-- The entry of the guard's instance. -/
def instanceEntry (guard : Address) (inst : ScVal) : LedgerEntryData :=
  .contractData guard .ledgerKeyContractInstance .persistent inst

section

variable {guard : Address} {inst : ScVal} {s : State} {cfg : PolicyConfig} {acc : StatusScan}

@[simp] theorem scanEntry_instance : scanEntry acc (instanceEntry guard inst) = acc := by
  simp [scanEntry, instanceEntry, GuardKey.scval, unitVariant]

@[simp] theorem scanEntry_policy : scanEntry acc (dataEntry guard .policy (policyConfigScVal cfg))
    = { acc with hasPolicy := true } := by
  simp [scanEntry, dataEntry, policyConfigScVal]

@[simp] theorem scanEntry_frozen (frozen : Bool) :
    scanEntry acc (dataEntry guard .adminFrozen (.bool frozen))
      = { acc with adminFrozen := frozen } := rfl

@[simp] theorem scanEntry_heartbeat (ts : U64) :
    scanEntry acc (dataEntry guard .lastHeartbeat (.u64 ts))
      = { acc with lastHeartbeat := ts } := rfl

theorem ledgerEntry_guardInstanceKey :
    ledgerEntry (guardEntry guard inst s) (guardInstanceKey guard)
      = some (instanceEntry guard inst) := by
  rw [guardInstanceKey, ledgerEntry, ← guardInstanceKey, guardEntry_instance]
  rfl

theorem ledgerEntry_guardDataKey (key : GuardKey) :
    ledgerEntry (guardEntry guard inst s) (guardDataKey guard key)
      = (storedValue s key.dataKey).map (dataEntry guard key) := by
  have h := @guardEntry_guardDataKey guard inst s key
  rw [← h, guardDataKey, ledgerEntry]
  rfl

/-- **The entries the command gets** under a policy: one of each kind, where there is one. -/
def fetched (guard : Address) (inst : ScVal) (s : State) (cfg : PolicyConfig) :
    List LedgerEntryData :=
  instanceEntry guard inst :: dataEntry guard .policy (policyConfigScVal cfg) ::
    ((s.lastHeartbeat.map fun ts => dataEntry guard .lastHeartbeat (.u64 ts)).toList ++
      (s.adminFrozen.map fun frozen => dataEntry guard .adminFrozen (.bool frozen)).toList)

theorem filterMap_statusKeys (hcfg : s.policy = some cfg) :
    (statusKeys guard).filterMap (ledgerEntry (guardEntry guard inst s))
      = fetched guard inst s cfg := by
  simp only [statusKeys, fetched, List.filterMap_cons, ledgerEntry_guardInstanceKey,
    ledgerEntry_guardDataKey, GuardKey.dataKey, storedValue, hcfg, Option.map_some]
  cases s.lastHeartbeat <;> cases s.adminFrozen <;> rfl

theorem mem_fetched {x : LedgerEntryData} : x ∈ fetched guard inst s cfg ↔
    x = instanceEntry guard inst ∨ x = dataEntry guard .policy (policyConfigScVal cfg) ∨
      (∃ ts, s.lastHeartbeat = some ts ∧ dataEntry guard .lastHeartbeat (.u64 ts) = x) ∨
      ∃ frozen, s.adminFrozen = some frozen ∧ dataEntry guard .adminFrozen (.bool frozen) = x := by
  simp [fetched]

/-- **The order of the response does not matter**: the entries set different fields. -/
theorem foldl_scanEntry {entries : List LedgerEntryData}
    (hperm : entries.Perm (fetched guard inst s cfg)) :
    entries.foldl scanEntry ⟨false, false, 0⟩ = ⟨true, s.frozenOrFalse, s.heartbeatOrZero⟩ := by
  have hcomm : ∀ x ∈ fetched guard inst s cfg, ∀ y ∈ fetched guard inst s cfg, ∀ z,
      scanEntry (scanEntry z x) y = scanEntry (scanEntry z y) x := by
    intro x hx y hy z
    rw [mem_fetched] at hx hy
    rcases hx with rfl | rfl | ⟨ts, hts, rfl⟩ | ⟨frozen, hfrozen, rfl⟩ <;>
      rcases hy with rfl | rfl | ⟨ts', hts', rfl⟩ | ⟨frozen', hfrozen', rfl⟩ <;>
      simp_all
  rw [← hperm.symm.foldl_eq' hcomm, fetched, State.frozenOrFalse, State.heartbeatOrZero]
  cases s.lastHeartbeat <;> cases s.adminFrozen <;> simp

/-- The policy entry is found wherever it stands. -/
theorem findSome?_policyValue? {entries : List LedgerEntryData}
    (hperm : entries.Perm (fetched guard inst s cfg)) :
    entries.findSome? policyValue? = some (policyConfigScVal cfg) := by
  cases hfind : entries.findSome? policyValue? with
  | none =>
    have hmem := hperm.mem_iff.mpr (mem_fetched.mpr (.inr (.inl rfl)))
    have hnone := List.findSome?_eq_none_iff.mp hfind _ hmem
    simp [policyValue?, dataEntry] at hnone
  | some val =>
    obtain ⟨x, hx, hval⟩ := List.exists_of_findSome?_eq_some hfind
    rcases mem_fetched.mp (hperm.mem_iff.mp hx) with rfl | rfl | ⟨ts, -, rfl⟩ | ⟨frozen, -, rfl⟩
    · simp [policyValue?, instanceEntry, GuardKey.scval, unitVariant] at hval
    · simpa [policyValue?, dataEntry, eq_comm] using hval
    · simp [policyValue?, dataEntry, GuardKey.scval, unitVariant, GuardKey.variant] at hval
    · simp [policyValue?, dataEntry, GuardKey.scval, unitVariant, GuardKey.variant] at hval

theorem extractDmsGraceSecs_policyConfigScVal :
    extractDmsGraceSecs (policyConfigScVal cfg) = cfg.dmsGraceSecs := rfl

/-- **What the command prints**, whatever the order of the entries. -/
theorem cmdStatus_eq {rpc : Rpc} {latest : U32} (hcfg : s.policy = some cfg)
    (h : rpc.Serves (guardEntry guard inst s) latest) :
    cmdStatus rpc guard = .ok
      { hasPolicy := true
        adminFrozen := s.frozenOrFalse
        heartbeatExpired := expiredAt latest s.heartbeatOrZero cfg.dmsGraceSecs
        lastHeartbeat := s.heartbeatOrZero
        now := latest } := by
  obtain ⟨entries, hget, hperm⟩ := h.entries (statusKeys guard)
  rw [filterMap_statusKeys hcfg] at hperm
  have hdecode : (entries.map some).mapM (fun entry => entry.elim (.error "missing xdr") .ok)
      = (.ok entries : Except String (List LedgerEntryData)) := by
    rw [List.mapM_map]
    exact (List.mapM_pure (m := Except String)).trans (by rw [List.map_id']; rfl)
  simp only [cmdStatus, hget, hdecode, bind, Except.bind, pure, Except.pure, statusReport, h.latest,
    foldl_scanEntry hperm, findSome?_policyValue? hperm, Option.map_some, Option.getD_some,
    Bool.true_and, extractDmsGraceSecs_policyConfigScVal]

/-- The command's rule, on exact values. -/
theorem expiredAt_iff {latest : U32} {last grace : U64} : expiredAt latest last grace = true ↔
    0 < grace.val ∧ (last.val = 0 ∨ last.val % 4294967296 + grace.val < latest.val) := by
  have hlow : (asU32 last).val = last.val % 4294967296 := rfl
  rw [expiredAt]
  split_ifs with hgrace hzero
  · simp [hgrace, hzero]
  · rw [decide_eq_true_eq, BoundedInt.val_saturatingSub_of_nonneg _ (asU32 last).nonneg, u32_lo,
      hlow]
    simp only [hgrace, hzero, true_and, false_or]
    omega
  · simp [hgrace]

/-- The contract's rule, on exact values. -/
theorem status_heartbeatExpired_iff {env : Env} (hcfg : s.policy = some cfg) :
    (status env s).heartbeatExpired = true ↔ 0 < cfg.dmsGraceSecs.val ∧
      s.heartbeatOrZero.val ≠ 0 ∧
        s.heartbeatOrZero.val + cfg.dmsGraceSecs.val < env.timestamp.val := by
  rw [status_heartbeatExpired env hcfg, heartbeatExpired_iff]
  refine and_congr_right fun _ => and_congr_right fun _ => ?_
  omega

/-- **The command against the contract**, over every storage with a policy, every latest ledger and
every order of the fetched entries.  The policy, the freeze and the clock always agree.  The two
expiry verdicts agree exactly when the switch is off, or a heartbeat has happened and the ledger's
timestamp and its sequence number stand on the same side of their deadlines — for the sequence
number, the grace counted from the low 32 bits of the clock. -/
theorem cmdStatus_agrees_iff {rpc : Rpc} {latest : U32} (env : Env) (hcfg : s.policy = some cfg)
    (h : rpc.Serves (guardEntry env.host.self inst s) latest) :
    ∃ report, cmdStatus rpc env.host.self = .ok report ∧
      report.hasPolicy = (status env s).hasPolicy ∧
      report.adminFrozen = (status env s).adminFrozen ∧
      report.lastHeartbeat = (status env s).lastHeartbeat ∧
      (report.heartbeatExpired = (status env s).heartbeatExpired ↔
        cfg.dmsGraceSecs.val = 0 ∨ (s.heartbeatOrZero.val ≠ 0 ∧
          (s.heartbeatOrZero.val + cfg.dmsGraceSecs.val < env.timestamp.val ↔
            s.heartbeatOrZero.val % 4294967296 + cfg.dmsGraceSecs.val < latest.val))) := by
  refine ⟨_, cmdStatus_eq hcfg h, by rw [status, hcfg]; rfl, rfl, rfl, ?_⟩
  have hgrace := cfg.dmsGraceSecs.nonneg
  rw [Bool.eq_iff_iff, expiredAt_iff, status_heartbeatExpired_iff hcfg]
  rcases hgrace.eq_or_lt with hzero | hpos
  · simp [← hzero]
  · by_cases hlast : s.heartbeatOrZero.val = 0
    · simp [hpos, hpos.ne', hlast]
    · simp only [hpos, hpos.ne', hlast, true_and, false_or, ne_eq, not_false_eq_true]
      exact iff_comm

end

namespace Sample

open AgentGuard.Sample

/-- An RPC that serves a ledger in the order of the request. -/
def rpcOver (ledger : LedgerKey → Option ScVal) (latest : U32) : Rpc where
  getLedgerEntries keys := some ((keys.filterMap (ledgerEntry ledger)).map some)
  latestLedger := latest

theorem rpcOver_serves (ledger : LedgerKey → Option ScVal) (latest : U32) :
    (rpcOver ledger latest).Serves ledger latest :=
  ⟨rfl, fun _ => ⟨_, rfl, .refl _⟩⟩

/-- A grace of ten seconds has long run out for the contract, at time `1000` of ledger `50`; the
command still reports the account alive. -/
theorem status_misreported :
    Reachable host 100 (installed guarded) ∧ (installed guarded).policy = some guarded ∧
      (rpcOver (guardEntry self (.other []) (installed guarded)) 50).Serves
        (guardEntry self (.other []) (installed guarded)) 50 ∧
      (status ((call 1000 .status).env host) (installed guarded)).heartbeatExpired = true ∧
      ∃ report, cmdStatus (rpcOver (guardEntry self (.other []) (installed guarded)) 50) self
          = .ok report ∧ report.heartbeatExpired = false :=
  ⟨reachable_installed guarded, by rfl, rpcOver_serves _ _, by decide, _, rfl, by decide⟩

/-- A second into the grace, on ledger `101`, command and contract agree. -/
theorem status_reported :
    ∃ report, cmdStatus (rpcOver (guardEntry self (.other []) (installed guarded)) 101) self
        = .ok report ∧
      report.heartbeatExpired
        = (status ((call 101 .status).env host) (installed guarded)).heartbeatExpired := by
  obtain ⟨report, hreport, -, -, -, hiff⟩ := cmdStatus_agrees_iff ((call 101 .status).env host)
    (show (installed guarded).policy = some guarded by rfl)
    (rpcOver_serves (guardEntry self (.other []) (installed guarded)) 101)
  exact ⟨report, hreport, hiff.mpr (.inr (by decide))⟩

end Sample

end AgentGuard.AgentTx
