import AgentGuard.Machinery.BoundedInt
import AgentGuard.Machinery.PartitionPoint
import AgentGuard.Machinery.RollingLedger
import AgentGuard.Contract.Types
import AgentGuard.Contract.Window
import AgentGuard.Contract.Engine
import AgentGuard.Contract.Validate
import AgentGuard.Contract.Account
import AgentGuard.Contract.Runs
import AgentGuard.Machinery.Meter
import AgentGuard.Machinery.RollingBudget
import AgentGuard.Contract.Ledger
import AgentGuard.Contract.Prune
import AgentGuard.Contract.Reload
import AgentGuard.Contract.Demand
import AgentGuard.Contract.Decide
import AgentGuard.Contract.Invariant
import AgentGuard.Contract.Deny
import AgentGuard.Contract.Ceilings
import AgentGuard.Contract.Edits
import AgentGuard.Contract.Persist
import AgentGuard.Machinery.CheckedLedger
import AgentGuard.Contract.Checked
import AgentGuard.Contract.Preflight
import AgentGuard.Contract.Batching
import AgentGuard.Contract.Deadman
import AgentGuard.Contract.Handover
import AgentGuard.Contract.Revision
import AgentGuard.Contract.Headroom
import AgentGuard.Contract.WellFormed
import AgentGuard.Contract.Exactness
import AgentGuard.Contract.Denied
import AgentGuard.Contract.Recovery
import AgentGuard.Contract.Growth
import AgentGuard.Contract.Expiry
import AgentGuard.Contract.Gates
import AgentGuard.Contract.Caps
import AgentGuard.Contract.Touches
import AgentGuard.AgentTx.StrKey
import AgentGuard.AgentTx.Base32
import AgentGuard.Machinery.Crc
import AgentGuard.AgentTx.Typos
import AgentGuard.AgentTx.Entries
import AgentGuard.AgentTx.Status
import AgentGuard.AgentTx.Footprint
import AgentGuard.AgentTx.Merge
import AgentGuard.AgentTx.Report
import AgentGuard.Machinery.Roster
import AgentGuard.AgentTx.Network
import AgentGuard.AgentTx.Registry
import AgentGuard.Machinery.Session
import AgentGuard.AgentTx.Process
import AgentGuard.AgentTx.Envelope
import AgentGuard.AgentTx.Submit
import AgentGuard.AgentTx.Broadcast
import AgentGuard.AgentTx.Fate
import AgentGuard.AgentTx.Quote
import AgentGuard.AgentTx.Request
import AgentGuard.Machinery.LastWord
import AgentGuard.AgentTx.Flags
import AgentGuard.AgentTx.Dispatch
import AgentGuard.AgentTx.Typed
import AgentGuard.Machinery.Replay
import AgentGuard.Contract.Replay
import AgentGuard.Contract.Calls
import AgentGuard.Contract.Reset
import AgentGuard.Contract.Provenance
import AgentGuard.Machinery.Dominance
import AgentGuard.Contract.Loosening
import AgentGuard.Contract.PolicyScVal
import AgentGuard.AgentTx.Guarded
import AgentGuard.Contract.SignsOfLife
import AgentGuard.Machinery.FirstMatch
import AgentGuard.Contract.DecisionTable
import AgentGuard.Machinery.Lease
import AgentGuard.Contract.Rent
import AgentGuard.Contract.Tending
import AgentGuard.Contract.Liveness
