import KeepAfloat.Network.Authorization

/-! Validation of the completion receipts in a snapshot: each must fit the history that the
snapshot claims to cover. -/

namespace KeepAfloat

open Std (ExtTreeMap)

/-- What the checks of the receipts read of a snapshot body. -/
structure SnapshotIdentities where
  lastApplied : Option LogId
  lastMembership : StoredMembership
  completedJoins : ExtTreeMap Nat CompletedJoin

def KafSnapshot.identities (snapshot : KafSnapshot) : SnapshotIdentities where
  lastApplied := snapshot.lastApplied
  lastMembership := snapshot.lastMembership
  completedJoins := snapshot.completedJoins

def logAtOrBefore (earlier later : LogId) : Bool :=
  earlier.index ≤ later.index ∧ earlier.leaderId.term ≤ later.leaderId.term ∧
    (earlier.index ≠ later.index ∨ earlier = later)

namespace RaftAuthorization

/-- The checks of one completion receipt. -/
def snapshotCompletion (auth : RaftAuthorization) (snapshot : SnapshotIdentities) (physicalId : Nat)
    (completed : CompletedJoin) : Except AdmissionDenied Unit := do
  let prepared := completed.prepared
  auth.joinPlanData prepared.plan
  auth.log (some prepared.prepared)
  auth.log prepared.learnerApplied
  auth.log (some completed.promoted)
  let ack ← okOr prepared.learnerApplied "completed join has no learner acknowledgement"
  ensure (physicalId = prepared.plan.consumer.physicalId ∧
      physicalId ∈ auth.configuredPhysicalIds ∧
      prepared.prepared.index < ack.index ∧ logAtOrBefore prepared.prepared ack ∧
      ack.index < completed.promoted.index ∧ logAtOrBefore ack completed.promoted ∧
      snapshot.lastApplied.any (logAtOrBefore completed.promoted) ∧
      snapshot.lastMembership.logId.any (logAtOrBefore completed.promoted) ∧
      prepared.plan.consumer ∈ snapshot.lastMembership.membership.voterIds)
    "snapshot completion differs from its committed consumer or barriers"
  if snapshot.lastMembership.logId.any fun log => log.index = completed.promoted.index then
    ensure (snapshot.lastMembership.logId = some completed.promoted ∧
        snapshot.lastMembership.membership.getJointConfig = [prepared.plan.nextVoters])
      "snapshot final membership differs from completed promotion"

/-- The checks of the whole completion history. -/
def snapshotCompletions (auth : RaftAuthorization) (snapshot : SnapshotIdentities) :
    Except AdmissionDenied Unit := do
  ensure (snapshot.completedJoins.size ≤ auth.configuredPhysicalIds.card)
    "snapshot completion history exceeds the physical roster"
  forM snapshot.completedJoins.toList fun (physicalId, completed) =>
    auth.snapshotCompletion snapshot physicalId completed

end RaftAuthorization

end KeepAfloat
