import KeepAfloat.Library.Word64
import KeepAfloat.Raft.Request

/-! The shared in-memory Raft state and its snapshot. The configuration constants
(`vipList`, `staleMissedProbes`, `failback`, `failbackDelayTicks`) never enter the
log; every other field below `lastAppliedLog` is replicated. The cached snapshot
and the test-only admission switch are not read by any function modelled here. -/

namespace KeepAfloat

open Std (ExtTreeMap)

/-- A VIP and the length of its network mask. -/
structure VipAddr where
  addr : IpAddr
  prefixLen : Nat
  deriving DecidableEq, Repr

/-- The configured VIPs with their interfaces. Configuration loading rejects
duplicate addresses, and the table carries that. -/
structure VipTable where
  entries : List (VipAddr × String)
  addrs_nodup : (entries.map fun entry => entry.1.addr).Nodup
  deriving DecidableEq

/-- Addresses in configuration order. -/
def VipTable.addrs (table : VipTable) : List IpAddr := table.entries.map fun entry => entry.1.addr

theorem VipTable.nodup_addrs (table : VipTable) : table.addrs.Nodup := table.addrs_nodup

/-- Committed VIP assignment with the fencing data of its handoff. -/
structure VipAssignment where
  holder : Nat
  generation : Nat
  previousHolder : Option Nat
  previousHolderReleased : Bool
  activationTick : Nat
  deriving DecidableEq, Repr

/-- Committed probe rounds that pass after a holder change before a replacement
may take over without a release. -/
def ownershipActivationHoldoffTicks : Nat := 1

structure KafSnapshot where
  preparedJoin : Option PreparedJoin
  completedJoins : ExtTreeMap Nat CompletedJoin
  genesis : Option Genesis
  appliedProgress : ExtTreeMap Nat AppliedHealthProgress
  lastApplied : Option LogId
  lastMembership : StoredMembership
  nodeHealth : ExtTreeMap Nat Bool
  nodeProbeTicks : ExtTreeMap Nat Nat
  latestProbeTick : Nat
  vipAssignments : ExtTreeMap IpAddr VipAssignment
  vipGeneration : ExtTreeMap IpAddr Nat
  vipLastHolder : ExtTreeMap IpAddr Nat
  clusterEpoch : Option (BitVec 128)
  nodeRecoveryTick : ExtTreeMap Nat Nat
  nodeFailbackBlocked : Finset Nat
  failoverSemantics : FailoverSemantics
  configIdentityEnforced : Bool
  nodeNopreempt : Finset Nat
  nodeRecoveryPending : Finset Nat
  deriving DecidableEq

structure KafStorageState where
  admission : Option AdmissionSession
  lastPurgedLogId : Option LogId
  log : ExtTreeMap Nat Entry
  vote : Option Vote
  committed : Option LogId
  vipList : VipTable
  staleMissedProbes : Nat
  failback : Bool
  failbackDelayTicks : Nat
  lastAppliedLog : Option LogId
  lastMembership : StoredMembership
  preparedJoin : Option PreparedJoin
  completedJoins : ExtTreeMap Nat CompletedJoin
  genesis : Option Genesis
  appliedProgress : ExtTreeMap Nat AppliedHealthProgress
  nodeHealth : ExtTreeMap Nat Bool
  nodeProbeTicks : ExtTreeMap Nat Nat
  latestProbeTick : Nat
  vipAssignments : ExtTreeMap IpAddr VipAssignment
  vipGeneration : ExtTreeMap IpAddr Nat
  vipLastHolder : ExtTreeMap IpAddr Nat
  clusterEpoch : Option (BitVec 128)
  nodeRecoveryTick : ExtTreeMap Nat Nat
  nodeFailbackBlocked : Finset Nat
  failoverSemantics : FailoverSemantics
  configIdentityEnforced : Bool
  nodeNopreempt : Finset Nat
  nodeRecoveryPending : Finset Nat
  deriving DecidableEq

namespace KafStorageState

/-- The empty store of a freshly started process. -/
def new (vipList : VipTable) (staleMissedProbes : Nat) (failback : Bool)
    (failbackDelayTicks : Nat) : KafStorageState where
  admission := none
  lastPurgedLogId := none
  log := ∅
  vote := none
  committed := none
  vipList := vipList
  staleMissedProbes := staleMissedProbes
  failback := failback
  failbackDelayTicks := failbackDelayTicks
  lastAppliedLog := none
  lastMembership := StoredMembership.default
  preparedJoin := none
  completedJoins := ∅
  genesis := none
  appliedProgress := ∅
  nodeHealth := ∅
  nodeProbeTicks := ∅
  latestProbeTick := 0
  vipAssignments := ∅
  vipGeneration := ∅
  vipLastHolder := ∅
  clusterEpoch := none
  nodeRecoveryTick := ∅
  nodeFailbackBlocked := ∅
  failoverSemantics := .legacy
  configIdentityEnforced := false
  nodeNopreempt := ∅
  nodeRecoveryPending := ∅

end KafStorageState

/-- The configuration constants that a store is started with. -/
structure StoreConfig where
  vipList : VipTable
  staleMissedProbes : Nat
  failback : Bool
  failbackDelayTicks : Nat

def StoreConfig.start (config : StoreConfig) : KafStorageState :=
  .new config.vipList config.staleMissedProbes config.failback config.failbackDelayTicks

/-- The snapshot of a state: every replicated field, verbatim. -/
def KafSnapshot.of (state : KafStorageState) : KafSnapshot where
  preparedJoin := state.preparedJoin
  completedJoins := state.completedJoins
  genesis := state.genesis
  appliedProgress := state.appliedProgress
  lastApplied := state.lastAppliedLog
  lastMembership := state.lastMembership
  nodeHealth := state.nodeHealth
  nodeProbeTicks := state.nodeProbeTicks
  latestProbeTick := state.latestProbeTick
  vipAssignments := state.vipAssignments
  vipGeneration := state.vipGeneration
  vipLastHolder := state.vipLastHolder
  clusterEpoch := state.clusterEpoch
  nodeRecoveryTick := state.nodeRecoveryTick
  nodeFailbackBlocked := state.nodeFailbackBlocked
  failoverSemantics := state.failoverSemantics
  configIdentityEnforced := state.configIdentityEnforced
  nodeNopreempt := state.nodeNopreempt
  nodeRecoveryPending := state.nodeRecoveryPending

/-- Restore replicated fields without changing local configuration, vote or log.
The failback sets follow the local configuration, not the snapshot. -/
def KafSnapshot.restoreInto (snapshot : KafSnapshot) (state : KafStorageState) :
    KafStorageState :=
  let restored : KafStorageState :=
    { state with
      preparedJoin := snapshot.preparedJoin
      completedJoins := snapshot.completedJoins
      genesis := snapshot.genesis
      appliedProgress := snapshot.appliedProgress
      lastAppliedLog := snapshot.lastApplied
      lastMembership := snapshot.lastMembership
      nodeHealth := snapshot.nodeHealth
      nodeProbeTicks := snapshot.nodeProbeTicks
      latestProbeTick := snapshot.latestProbeTick
      vipAssignments := snapshot.vipAssignments
      vipGeneration := snapshot.vipGeneration
      vipLastHolder := snapshot.vipLastHolder
      clusterEpoch := snapshot.clusterEpoch
      nodeRecoveryTick := snapshot.nodeRecoveryTick
      failoverSemantics := snapshot.failoverSemantics
      configIdentityEnforced := snapshot.configIdentityEnforced
      nodeNopreempt := snapshot.nodeNopreempt
      nodeRecoveryPending := snapshot.nodeRecoveryPending }
  match snapshot.failoverSemantics, state.failback with
  | .legacy, true => { restored with nodeFailbackBlocked := ∅ }
  | .legacy, false => { restored with nodeFailbackBlocked := snapshot.nodeFailbackBlocked }
  | .v2, true => { restored with nodeFailbackBlocked := ∅, nodeNopreempt := ∅ }
  | .v2, false =>
      { restored with
        nodeFailbackBlocked := ∅
        nodeRecoveryPending := ∅
        nodeRecoveryTick := ∅ }

end KeepAfloat
