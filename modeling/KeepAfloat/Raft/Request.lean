import KeepAfloat.Raft.Admission

/-! The replicated log: commands, the entries that carry them, and the answer
that applying an entry gives. -/

namespace KeepAfloat

/-- Replicated failover behaviour selected for one cluster incarnation. -/
inductive FailoverSemantics where
  | legacy
  | v2
  deriving DecidableEq, Repr

/-- Commands replicated through Raft and applied to the state machine. -/
inductive KafRequest where
  | healthProgress (progress : HealthProgress)
  | admissionGenesis (genesis : Genesis)
  | admissionMembership (command : AdmissionCommand)
  | healthUpdate (nodeId : Nat) (healthy : Bool)
  | vipReleased (nodeId : Nat) (vip : IpAddr) (generation : Nat)
  | clusterFormed (clusterId : BitVec 128) (failoverSemantics : FailoverSemantics)
      (configIdentityEnforced : Bool)
  | enableFailoverSemanticsV2
  | enableConfigIdentityV1
  deriving DecidableEq

inductive KafResponse where
  | ok
  | rejected (reason : String)
  deriving DecidableEq, Repr

inductive EntryPayload where
  | blank
  | normal (request : KafRequest)
  | membership (membership : Membership)
  deriving DecidableEq

structure Entry where
  logId : LogId
  payload : EntryPayload
  deriving DecidableEq

end KeepAfloat
