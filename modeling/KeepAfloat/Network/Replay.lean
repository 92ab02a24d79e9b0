import KeepAfloat.Network.Authorization

/-! Validation of replicated entries. The validator replays the unapplied local
prefix and the entries of a request on the captured authority, and accepts only
what a join in its committed order allows. It never grants voting permission. -/

namespace KeepAfloat

open Std (ExtTreeMap)

structure AppendEntriesRequest where
  vote : Vote
  prevLogId : Option LogId
  entries : List Entry
  leaderCommit : Option LogId

/-- Where the replay stands. -/
structure SourceState where
  membership : StoredMembership
  pending : Option PreparedJoin
  cursor : Option LogId

/-- An authorized sender must backtrack because its replication prefix is
unavailable. -/
def replicationConflict : String := "replication prefix is unavailable"

namespace ReplicationHistory

open RaftAuthorization (stablePrevious)

/-- Whether a position lies at or below the commit frontier. -/
def isCommitted (log : LogId) (frontier : Option LogId) : Bool :=
  frontier.any fun committed => log.index < committed.index || log = committed

def membership (valid : MembershipCheck) (history : ReplicationHistory)
    (configs : List (Finset ReplicaId)) (ids : Finset ReplicaId) :
    Except AdmissionDenied Membership := do
  let nodes ← okOr (addressed (history.nodes[·]?) ids) "historical member is not configured"
  Membership.new valid configs nodes

/-- The data of one entry, whatever the state it is applied to. -/
def data (valid : MembershipCheck) (history : ReplicationHistory)
    (auth : RaftAuthorization) (entry : Entry) : Except AdmissionDenied Unit := do
  auth.log (some entry.logId)
  match entry.payload with
  | .membership membership => do
      let configs := membership.getJointConfig
      ensure (configs ≠ [] ∧ configs.length ≤ 2) "invalid historical membership shape"
      ensure (∀ voters ∈ configs, voters.Nonempty ∧
          (voters.image ReplicaId.physicalId).card = voters.card)
        "invalid historical voter identities"
      let expected ← history.membership valid configs membership.nodeIds
      ensure (expected = membership) "historical membership differs from configured addresses"
  | .normal (.admissionMembership (.prepareJoin plan)) => auth.joinPlanData plan
  | .normal (.admissionMembership (.cancelJoin plan prepared)) => do
      auth.joinPlanData plan
      auth.log (some prepared)
      ensure (prepared.index < entry.logId.index) "cancellation precedes preparation"
  | .normal (.admissionMembership (.learnerApplied consumer _ prepared)) => do
      ensure (consumer.physicalId ∈ history.nodes) "learner is not configured"
      auth.log (some prepared)
      ensure (prepared.index < entry.logId.index) "acknowledgement precedes preparation"
  | .normal request => auth.command request entry.logId
  | .blank => .ok ()

/-- Memberships that a pending join permits from its stable previous voters. -/
def stablePermitted (valid : MembershipCheck)
    (history : ReplicationHistory) (current : Membership) (pending : PreparedJoin)
    (frontier : Option LogId) : Except AdmissionDenied (List Membership) := do
  let plan := pending.plan
  let learners := insert plan.consumer current.nodeIds
  let added ← history.membership valid [plan.previousVoters] learners
  let removed ← history.membership valid [plan.previousVoters]
    (current.nodeIds.erase plan.consumer)
  if (pending.learnerApplied.any (isCommitted · frontier)) &&
      plan.consumer ∈ current.learnerIds then do
    let joint ← history.membership valid [plan.previousVoters, plan.nextVoters] learners
    return [added, removed, joint]
  else return [added, removed]

/-- The promoted membership, from the committed joint configuration. -/
def finalPermitted (valid : MembershipCheck)
    (history : ReplicationHistory) (current : StoredMembership) (pending : PreparedJoin)
    (frontier : Option LogId) : Except AdmissionDenied (List Membership) := do
  let plan := pending.plan
  ensure (current.membership.getJointConfig = [plan.previousVoters, plan.nextVoters] ∧
      pending.learnerApplied.any (isCommitted · frontier) ∧
      current.logId.any (isCommitted · frontier))
    "source final promotion requires committed joint membership"
  let promoted ← history.membership valid [plan.nextVoters]
    (current.membership.nodeIds \ (plan.previousVoters \ plan.nextVoters))
  return [promoted]

/-- Memberships that the pending join permits next. -/
def permittedNext (valid : MembershipCheck)
    (history : ReplicationHistory) (current : StoredMembership) (pending : PreparedJoin)
    (frontier : Option LogId) : Except AdmissionDenied (List Membership) :=
  if stablePrevious current.membership pending.plan then
    history.stablePermitted valid current.membership pending frontier
  else history.finalPermitted valid current pending frontier

def transition (valid : MembershipCheck) (history : ReplicationHistory)
    (source : SourceState) (membership : Membership) (log : LogId) (frontier : Option LogId) :
    Except AdmissionDenied SourceState :=
  if membership = source.membership.membership then
    .ok { source with membership := ⟨some log, membership⟩ }
  else do
    let pending ← okOr source.pending "source membership has no prepared transition"
    ensure (isCommitted pending.prepared frontier) "source preparation is not committed"
    let permitted ← history.permittedNext valid source.membership pending frontier
    ensure (membership ∈ permitted) "source membership skips a committed transition barrier"
    return { source with
      membership := ⟨some log, membership⟩
      pending := if stablePrevious source.membership.membership pending.plan then source.pending
        else none }

/-- The pending join after one admission command. -/
def applyCommand (source : SourceState) (command : AdmissionCommand) (log : LogId)
    (frontier : Option LogId) : Except AdmissionDenied (Option PreparedJoin) :=
  let membership := source.membership.membership
  match command with
  | .prepareJoin plan =>
      match source.pending with
      | some pending => do
          ensure (pending.plan = plan) "source has another pending join"
          return source.pending
      | none => do
          ensure (stablePrevious membership plan)
            "source preparation differs from stable previous voters"
          return some ⟨plan, log, none⟩
  | .cancelJoin plan prepared => do
      let pending ← okOr source.pending "source cancellation has no pending join"
      ensure (pending.plan = plan ∧ pending.prepared = prepared ∧ isCommitted prepared frontier ∧
          stablePrevious membership plan ∧ plan.consumer ∉ membership.nodes)
        "source cancellation differs from removed committed learner"
      return none
  | .learnerApplied consumer requestNonce prepared => do
      let pending ← okOr source.pending "source acknowledgement has no pending join"
      ensure (pending.plan.consumer = consumer ∧ pending.plan.requestNonce = requestNonce ∧
          pending.prepared = prepared ∧ isCommitted prepared frontier)
        "source acknowledgement differs from committed preparation"
      if pending.learnerApplied.isSome then return some pending
      ensure (stablePrevious membership pending.plan ∧ consumer ∈ membership.learnerIds ∧
          source.membership.logId.any (isCommitted · frontier))
        "source acknowledgement requires a committed learner"
      return some { pending with learnerApplied := some log }

def applyPayload (valid : MembershipCheck) (history : ReplicationHistory)
    (auth : RaftAuthorization) (frontier : Option LogId) (source : SourceState) (entry : Entry) :
    Except AdmissionDenied SourceState :=
  match entry.payload with
  | .membership membership => history.transition valid source membership entry.logId frontier
  | .normal (.admissionMembership command) => do
      let pending ← applyCommand source command entry.logId frontier
      return { source with pending := pending }
  | .normal request => do
      auth.command request entry.logId
      return source
  | .blank => .ok source

def apply (valid : MembershipCheck) (history : ReplicationHistory)
    (auth : RaftAuthorization) (frontier : Option LogId) (source : SourceState) (entry : Entry) :
    Except AdmissionDenied SourceState := do
  let source ← history.applyPayload valid auth frontier source entry
  return { source with cursor := some entry.logId }

/-! ### A whole request -/

/-- Entries must follow each other by index, and each must carry acceptable data. -/
def checkEntries (valid : MembershipCheck) (history : ReplicationHistory)
    (auth : RaftAuthorization) : Option Nat → List Entry → Except AdmissionDenied Unit
  | _, [] => .ok ()
  | next, entry :: rest => do
      ensure (some entry.logId.index = next) "replicated entries are not consecutive"
      history.data valid auth entry
      history.checkEntries valid auth (Word64.checkedAdd entry.logId.index 1) rest

/-- The applied state, or the genesis roster when nothing is applied. -/
def startState (valid : MembershipCheck) (history : ReplicationHistory)
    (auth : RaftAuthorization) : Except AdmissionDenied SourceState :=
  if auth.lastApplied.isSome then
    .ok ⟨auth.committedMembership, auth.preparedJoin, auth.lastApplied⟩
  else do
    let voters := auth.session.context.genesis.voters
    let membership ← history.membership valid [voters] voters
    return ⟨⟨none, membership⟩, none, none⟩

/-- The later of two positions; the new one wins a tie. -/
def laterOf (best : Option LogId) (log : LogId) : Option LogId :=
  if best.any fun known => log.index < known.index then best else some log

/-- The highest position known to be committed. -/
def frontier (history : ReplicationHistory) (auth : RaftAuthorization)
    (leaderCommit : Option LogId) : Option LogId :=
  ([history.committed, auth.lastApplied, leaderCommit].filterMap id).foldl laterOf none

/-- Replay one local entry by its index. -/
def replayLocal (valid : MembershipCheck) (history : ReplicationHistory)
    (auth : RaftAuthorization) (frontier : Option LogId) (source : SourceState) (index : Nat) :
    Except AdmissionDenied SourceState := do
  let entry ← okOr history.entries[index]? replicationConflict
  history.data valid auth entry
  history.apply valid auth frontier source entry

/-- Bring the replay to the position that the request builds on. -/
def catchUp (valid : MembershipCheck) (history : ReplicationHistory)
    (auth : RaftAuthorization) (frontier : Option LogId) (source : SourceState)
    (prevLogId : Option LogId) : Except AdmissionDenied SourceState :=
  match prevLogId with
  | none => .ok source
  | some previous =>
      if source.cursor.all fun log => log.index < previous.index then do
        let first := source.cursor.elim 0 fun log => log.index + 1
        let source ← (List.range' first (previous.index + 1 - first)).foldlM
          (history.replayLocal valid auth frontier) source
        ensure (source.cursor = some previous) replicationConflict
        return source
      else do
        ensure (source.cursor.all fun log => previous.index = log.index → log = previous)
          replicationConflict
        return source

/-- Replay one entry of the request. Entries at or below the applied position are
known and only compared at that position. -/
def replayEntry (valid : MembershipCheck) (history : ReplicationHistory)
    (auth : RaftAuthorization) (frontier : Option LogId) (source : SourceState) (entry : Entry) :
    Except AdmissionDenied SourceState :=
  if auth.lastApplied.any fun applied => entry.logId.index ≤ applied.index then do
    ensure (auth.lastApplied.all fun applied =>
        entry.logId.index = applied.index → applied = entry.logId) replicationConflict
    return source
  else do
    ensure (entry.logId.index = source.cursor.elim 0 fun log => log.index + 1) replicationConflict
    history.apply valid auth frontier source entry

/-- The replay of a request, with the state it ends in. -/
def replay (valid : MembershipCheck) (history : ReplicationHistory)
    (auth : RaftAuthorization) (request : AppendEntriesRequest) :
    Except AdmissionDenied SourceState := do
  let next := request.prevLogId.elim (some 0) fun log => Word64.checkedAdd log.index 1
  history.checkEntries valid auth next request.entries
  let source ← history.startState valid auth
  let frontier := history.frontier auth request.leaderCommit
  let source ← history.catchUp valid auth frontier source request.prevLogId
  request.entries.foldlM (history.replayEntry valid auth frontier) source

def validate (valid : MembershipCheck) (history : ReplicationHistory)
    (auth : RaftAuthorization) (request : AppendEntriesRequest) : Except AdmissionDenied Unit := do
  let _ ← history.replay valid auth request
  return ()

end ReplicationHistory

end KeepAfloat
