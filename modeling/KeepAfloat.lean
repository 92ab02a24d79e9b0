import KeepAfloat.Library.Word64
import KeepAfloat.Library.Runs
import KeepAfloat.Library.Ascending
import KeepAfloat.Library.Balance
import KeepAfloat.Raft.Identity
import KeepAfloat.Raft.Admission
import KeepAfloat.Raft.Request
import KeepAfloat.Store.State
import KeepAfloat.Store.Eligibility
import KeepAfloat.Store.Assign
import KeepAfloat.Store.Reconcile
import KeepAfloat.Store.Membership
import KeepAfloat.Store.StateMachine
import KeepAfloat.Store.Fence
import KeepAfloat.Store.Generation
import KeepAfloat.Policy.Bind
import KeepAfloat.Policy.HandoffFence
import KeepAfloat.Store.SnapshotReplay
import KeepAfloat.Store.Placement
import KeepAfloat.Library.Checks
import KeepAfloat.Network.Authorization
import KeepAfloat.Network.Replay
import KeepAfloat.Store.AdmissionView
import KeepAfloat.Network.Simulation
import KeepAfloat.Network.Refinement
import KeepAfloat.Network.Barriers
import KeepAfloat.Library.Splice
import KeepAfloat.Store.Log
import KeepAfloat.Network.Frontier
import KeepAfloat.Network.FollowerLog
import KeepAfloat.Library.Maps
import KeepAfloat.Store.Failback
import KeepAfloat.Store.BootHealth
import KeepAfloat.Admission.Controller
import KeepAfloat.Runtime.Authority
import KeepAfloat.Admission.Cluster
import KeepAfloat.Admission.Exclusivity
import KeepAfloat.Freshness.Proof
import KeepAfloat.Freshness.Permits
import KeepAfloat.Vip.Takeover
import KeepAfloat.Vip.Witness
import KeepAfloat.Vip.NoOverlap
import KeepAfloat.Library.Async
import KeepAfloat.Vip.Process
import KeepAfloat.Vip.LocalVip
import KeepAfloat.Vip.Worker
import KeepAfloat.Vip.Interference
import KeepAfloat.Vip.Rules
import KeepAfloat.Vip.Binding
import KeepAfloat.Vip.Unbinding
import KeepAfloat.Vip.Footprint
import KeepAfloat.Vip.Release
import KeepAfloat.Vip.Watch
import KeepAfloat.Vip.Shutdown
import KeepAfloat.Vip.Marking
import KeepAfloat.Vip.Attribution
import KeepAfloat.Store.Continuity
import KeepAfloat.Store.LogFloor
import KeepAfloat.Vip.Intent
import KeepAfloat.Library.Movement
import KeepAfloat.Runtime.Promotion
import KeepAfloat.Store.Movement
import KeepAfloat.Network.AcceptedLog
import KeepAfloat.Network.VoterChanges
import KeepAfloat.Network.Snapshot
import KeepAfloat.Network.Receipts
import KeepAfloat.Library.Bytes
import KeepAfloat.Auth.Handshake
import KeepAfloat.Store.Delay
import KeepAfloat.Library.Framing
import KeepAfloat.Library.Keyed
import KeepAfloat.Store.LogRead
import KeepAfloat.Store.LogState
import KeepAfloat.Store.ProbeFrontier
import KeepAfloat.Store.ColdStart
import KeepAfloat.Store.NoChurn
import KeepAfloat.Library.Hex
import KeepAfloat.Raft.ReplicaText
import KeepAfloat.Auth.Inputs
import KeepAfloat.Config.Vips
import KeepAfloat.Config.Validation
import KeepAfloat.Library.Json
import KeepAfloat.Submit.Release
import KeepAfloat.Config.Fingerprint
import KeepAfloat.Store.RebalanceLoop
import KeepAfloat.Vip.Ownership
import KeepAfloat.Vip.Startup
import KeepAfloat.Library.Stamped
import KeepAfloat.Management.Leader
import KeepAfloat.Management.Serial
import KeepAfloat.Management.Blocked
import KeepAfloat.Network.Frame
import KeepAfloat.Health.Publication
import KeepAfloat.Raft.Guard
import KeepAfloat.Freshness.Incarnation
import KeepAfloat.Management.Recovery
