import AgentGuard.Contract.Types

/-!
# Contract/Window — the rolling-window ledger

The in-memory ledger of `window.rs`: a global spend ledger, one ledger for each recipient with a cap
override, and the protocol-call counter.  Spend entries expire by binary search, call counts by a
linear scan; admission is the same coalescing, merge-forward admission for all three.
-/

namespace AgentGuard

open Machinery

/-- A single spend window: entries with their running total. -/
abbrev SingleLedger := Rolling u64 i128

/-- The protocol-call counter. -/
abbrev ProtocolCallLedger := Rolling u64 u32

inductive WindowMergeKind
  | globalSpend | recipientSpend | protocolCalls
deriving DecidableEq

/-- One merge at the entry bound; `mergedValue` is a spend amount or a call count. -/
structure WindowMerge where
  kind : WindowMergeKind
  mergedTs : U64
  mergedValue : I128
deriving DecidableEq

/-- Per-recipient rolling ledger. -/
structure RecipientLedger where
  recipient : Address
  total : I128
  entries : List SpendEntry
deriving DecidableEq

/-- In-memory rolling spend window. -/
structure Ledger where
  total : I128
  entries : List SpendEntry
  recipients : List RecipientLedger
  protocolCallEntries : List ProtocolCallEntry
  protocolCallTotal : U32
  merges : List WindowMerge
deriving DecidableEq

/-! ## Single rolling ledger helpers -/

/-- Expiry, in the addition form that cannot underflow at low timestamps. -/
def expired {V : IntRange} (now windowSecs : U64) (e : Stamped u64 V) : Bool :=
  (e.ts.saturatingAdd windowSecs).val ≤ now.val

def ledgerFromEntries (entries : List SpendEntry) : SingleLedger := Rolling.rebuild entries

/-- Pop `n` entries off the front, subtracting each from the total. -/
def popFront : ℕ → SingleLedger → SingleLedger
  | 0, l => l
  | n + 1, l =>
    match l.entries with
    | front :: rest => popFront n ⟨l.total.saturatingSub front.value, rest⟩
    | [] => popFront n l

/-- Drop fully-expired entries from a single window and update its total. -/
def pruneEntries (l : SingleLedger) (now windowSecs : U64) : SingleLedger :=
  if windowSecs.val = 0 then l
  else if l.entries.length = 0 then l
  else
    match partitionPoint (expired now windowSecs) l.entries with
    -- the search loop never closed its interval: the code would not return
    | none => l
    | some low => if low = l.entries.length then ⟨0, []⟩ else popFront low l

/-- Record `amount` in a single window at `now`, coalescing same-second spends. -/
def admitToLedger (l : SingleLedger) (now : U64) (amount : I128) :
    SingleLedger × Option (U64 × I128) := l.record maxWindowEntries now amount

/-- The front-to-back scan of `prune_protocol_call_entries`. -/
def popExpiredCalls (now windowSecs : U64) (total : U32) :
    List ProtocolCallEntry → ProtocolCallLedger
  | [] => ⟨total, []⟩
  | front :: rest =>
    if expired now windowSecs front then
      popExpiredCalls now windowSecs (total.saturatingSub front.value) rest
    else ⟨total, front :: rest⟩

def pruneProtocolCallEntries (l : ProtocolCallLedger) (now windowSecs : U64) :
    ProtocolCallLedger :=
  if windowSecs.val = 0 then l else popExpiredCalls now windowSecs l.total l.entries

def protocolCallEntriesFromState (entries : List ProtocolCallEntry) : ProtocolCallLedger :=
  Rolling.rebuild entries

/-- Record one protocol call at `now`. -/
def admitToProtocolCallLedger (l : ProtocolCallLedger) (now : U64) :
    ProtocolCallLedger × Option (U64 × U32) := l.record maxWindowEntries now 1

/-- A call count as the `i128` a merge event carries. -/
def i128FromU32 (n : U32) : I128 := BoundedInt.clamp n.val

/-! ## The ledger -/

/-- The spend window of one recipient. -/
def RecipientLedger.single (r : RecipientLedger) : SingleLedger := ⟨r.total, r.entries⟩

/-- A recipient's ledger with its window replaced. -/
def RecipientLedger.withSingle (r : RecipientLedger) (l : SingleLedger) : RecipientLedger :=
  { r with total := l.total, entries := l.entries }

def RecipientLedger.empty (recipient : Address) : RecipientLedger := ⟨recipient, 0, []⟩

namespace Ledger

/-- An empty window with no entries. -/
def empty : Ledger := ⟨0, [], [], [], 0, []⟩

/-- The global spend window. -/
def single (l : Ledger) : SingleLedger := ⟨l.total, l.entries⟩

/-- The protocol-call counter. -/
def calls (l : Ledger) : ProtocolCallLedger := ⟨l.protocolCallTotal, l.protocolCallEntries⟩

/-- Build from stored state, recomputing every total. -/
def fromState (state : WindowState) : Ledger :=
  let global := ledgerFromEntries state.entries
  let protoCallInfo := protocolCallEntriesFromState state.protocolCallEntries
  { total := global.total
    entries := global.entries
    recipients := state.recipients.map fun rws =>
      let inner := ledgerFromEntries rws.entries
      ⟨rws.recipient, inner.total, inner.entries⟩
    protocolCallEntries := protoCallInfo.entries
    protocolCallTotal := protoCallInfo.total
    merges := [] }

/-- Serialize back to stored state. -/
def toState (l : Ledger) : WindowState :=
  { total := l.total
    entries := l.entries
    recipients := l.recipients.map fun r => ⟨r.recipient, r.total, r.entries⟩
    protocolCallEntries := l.protocolCallEntries }

/-- Drop fully-expired entries from every tracked window. -/
def prune (l : Ledger) (now windowSecs : U64) : Ledger :=
  let global := pruneEntries l.single now windowSecs
  let calls := pruneProtocolCallEntries l.calls now windowSecs
  { l with
    total := global.total
    entries := global.entries
    recipients := l.recipients.map fun r => r.withSingle (pruneEntries r.single now windowSecs)
    protocolCallEntries := calls.entries
    protocolCallTotal := calls.total }

/-- The merge telemetry an admission leaves behind. -/
def noteMerge (kind : WindowMergeKind) : Option (U64 × I128) → List WindowMerge
  | some (mergedTs, mergedValue) => [⟨kind, mergedTs, mergedValue⟩]
  | none => []

/-- Record a spend against the global window at `now`. -/
def admitSpend (l : Ledger) (now : U64) (amount : I128) : Ledger :=
  let (global, merge) := admitToLedger l.single now amount
  { l with
    total := global.total
    entries := global.entries
    merges := l.merges ++ noteMerge .globalSpend merge }

/-- Current rolling total of a recipient, zero when none is tracked. -/
def recipientTotal (l : Ledger) (recipient : Address) : I128 :=
  match l.recipients.find? fun r => r.recipient = recipient with
  | some r => r.total
  | none => 0

/-- Record a spend in the first ledger kept for `recipient`, or in a fresh one at the end. -/
def admitToRecipients (now : U64) (recipient : Address) (amount : I128) :
    List RecipientLedger → List RecipientLedger × Option (U64 × I128)
  | [] =>
    let created := RecipientLedger.empty recipient
    let (updated, merge) := admitToLedger created.single now amount
    ([created.withSingle updated], merge)
  | r :: rest =>
    if r.recipient = recipient then
      let (updated, merge) := admitToLedger r.single now amount
      (r.withSingle updated :: rest, merge)
    else
      let (rest', merge) := admitToRecipients now recipient amount rest
      (r :: rest', merge)

/-- Record a spend for `recipient` against that recipient's own window. -/
def admitForRecipient (l : Ledger) (now : U64) (recipient : Address) (amount : I128) : Ledger :=
  let (recipients, merge) := admitToRecipients now recipient amount l.recipients
  { l with recipients, merges := l.merges ++ noteMerge .recipientSpend merge }

/-- Record a protocol call at `now`. -/
def admitProtocolCall (l : Ledger) (now : U64) : Ledger :=
  let (calls, merge) := admitToProtocolCallLedger l.calls now
  { l with
    protocolCallEntries := calls.entries
    protocolCallTotal := calls.total
    merges := l.merges ++ noteMerge .protocolCalls
      (merge.map fun (mergedTs, mergedCount) => (mergedTs, i128FromU32 mergedCount)) }

end Ledger

end AgentGuard
