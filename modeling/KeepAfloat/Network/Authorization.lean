import KeepAfloat.Library.Checks
import KeepAfloat.Library.Word64
import KeepAfloat.Library.Ascending
import KeepAfloat.Store.State

/-! Local authority over Raft traffic. An authorization is captured from the local
configuration, the admission session and the committed state; nothing in it comes
from the peer. -/

namespace KeepAfloat

open Std (ExtTreeMap)

structure PeerConfig where
  id : Nat
  raftAddress : String
  deriving DecidableEq

/-- What authorization reads of the local configuration. Validation refuses a
duplicate peer id. The fingerprint is absent when it cannot be computed. -/
structure Config where
  nodeId : Nat
  peers : List PeerConfig
  ids_nodup : (peers.map PeerConfig.id).Nodup
  clusterConfigFingerprint : Option ClusterConfigFingerprint

namespace Config

def getPeer (cfg : Config) (id : Nat) : Option PeerConfig := cfg.peers.find? (·.id = id)

def physicalIds (cfg : Config) : Finset Nat := (cfg.peers.map PeerConfig.id).toFinset

/-- The address under which a physical member is configured. -/
def node (cfg : Config) (id : Nat) : Option BasicNode :=
  (cfg.getPeer id).map fun peer => ⟨peer.raftAddress⟩

end Config

/-- The addresses of all `ids`, if every one is configured. -/
def addressed (node : Nat → Option BasicNode) (ids : Finset ReplicaId) :
    Option (ExtTreeMap ReplicaId BasicNode) :=
  (Ascending.members ids).foldlM
    (fun nodes id => (node id.physicalId).map fun address => nodes.insert id address) ∅

theorem mem_addressed {node : Nat → Option BasicNode} {ids : Finset ReplicaId}
    {nodes : ExtTreeMap ReplicaId BasicNode} (h : addressed node ids = some nodes)
    (replica : ReplicaId) : replica ∈ nodes ↔ replica ∈ ids := by
  have hFold : ∀ (list : List ReplicaId) (start result : ExtTreeMap ReplicaId BasicNode),
      list.foldlM (fun nodes id => (node id.physicalId).map fun address => nodes.insert id address)
        start = some result → (replica ∈ result ↔ replica ∈ list ∨ replica ∈ start) := by
    intro list
    induction list with
    | nil =>
        intro start result hStart
        cases Option.some.inj hStart
        simp
    | cons id rest ih =>
        intro start result hResult
        simp only [List.foldlM_cons, Option.bind_eq_bind, Option.bind_eq_some_iff,
          Option.map_eq_some_iff] at hResult
        obtain ⟨_, ⟨address, _, rfl⟩, hRest⟩ := hResult
        rw [ih _ _ hRest]
        simp only [ExtTreeMap.mem_insert, compare_eq_iff_eq, List.mem_cons]
        grind
  rw [hFold _ _ _ h]
  simp

/-- Which memberships openraft's constructor refuses, and how. -/
abbrev MembershipCheck := Membership → Except AdmissionDenied Unit

/-- openraft's checked constructor. -/
def Membership.new (valid : MembershipCheck) (configs : List (Finset ReplicaId))
    (nodes : ExtTreeMap ReplicaId BasicNode) : Except AdmissionDenied Membership := do
  valid ⟨configs, nodes⟩
  return ⟨configs, nodes⟩

/-- A prepared join that discovery verified for this boot. -/
structure VerifiedJoinBootstrap where
  prepared : PreparedJoin
  deriving DecidableEq

/-- A local log prefix used only to validate replication data, never to authorize
a sender. -/
structure ReplicationHistory where
  nodes : ExtTreeMap Nat BasicNode
  entries : ExtTreeMap Nat Entry
  committed : Option LogId

/-- The unapplied part of the local log. -/
def ReplicationHistory.fromState (cfg : Config) (state : KafStorageState) : ReplicationHistory where
  nodes := cfg.peers.foldl (fun nodes peer => nodes.insert peer.id ⟨peer.raftAddress⟩) ∅
  entries := state.log.filter fun index _ =>
    state.lastAppliedLog.all fun applied => applied.index < index
  committed := state.committed

/-- Both lookups of a configured address agree, ids being distinct. -/
theorem ReplicationHistory.nodes_fromState (cfg : Config) (state : KafStorageState) (id : Nat) :
    (fromState cfg state).nodes[id]? = cfg.node id := by
  have hFold : ∀ (peers : List PeerConfig) (start : ExtTreeMap Nat BasicNode),
      (peers.map PeerConfig.id).Nodup →
        (peers.foldl (fun nodes peer => nodes.insert peer.id ⟨peer.raftAddress⟩) start)[id]? =
          ((peers.find? (·.id = id)).map fun peer => BasicNode.mk peer.raftAddress).or start[id]? := by
    intro peers
    induction peers with
    | nil => simp
    | cons peer rest ih =>
        intro start hNodup
        rw [List.map_cons, List.nodup_cons] at hNodup
        rw [List.foldl_cons, ih _ hNodup.2, ExtTreeMap.getElem?_insert, List.find?_cons]
        by_cases hId : peer.id = id
        · have hRest : rest.find? (·.id = id) = none := by
            rw [List.find?_eq_none]
            intro other hOther hSame
            exact hNodup.1 (List.mem_map.mpr ⟨other, hOther, (of_decide_eq_true hSame).trans hId.symm⟩)
          simp [hId, hRest]
        · simp [hId]
  rw [fromState, hFold _ _ cfg.ids_nodup]
  simp [Config.node, Config.getPeer]

/-- One coherent authorization view. -/
structure RaftAuthorization where
  session : AdmissionSession
  peer : ReplicaId
  /-- Physical roster from local configuration. -/
  configuredPhysicalIds : Finset Nat
  /-- Exact boots with current voting permission. -/
  voters : Finset ReplicaId
  logReplicas : Finset ReplicaId
  /-- Exact historical and committed-barrier transitions. -/
  memberships : List Membership
  committedMembership : StoredMembership
  lastApplied : Option LogId
  preparedJoin : Option PreparedJoin
  verifiedBootstrap : Option VerifiedJoinBootstrap
  replication : Option ReplicationHistory

namespace RaftAuthorization

def log (auth : RaftAuthorization) (log : Option LogId) : Except AdmissionDenied Unit :=
  ensure (∀ id ∈ log, id.leaderId.nodeId.physicalId ∈ auth.configuredPhysicalIds)
    "Raft log names an unauthorized replica"

def stablePrevious (membership : Membership) (plan : JoinPlan) : Bool :=
  membership.getJointConfig.length = 1 ∧ membership.getJointConfig.head? = some plan.previousVoters

@[simp] theorem stablePrevious_eq_true {membership : Membership} {plan : JoinPlan} :
    stablePrevious membership plan = true ↔ membership.configs = [plan.previousVoters] := by
  rw [stablePrevious, decide_eq_true_iff]
  simp only [Membership.getJointConfig]
  cases membership.configs with
  | nil => simp
  | cons config rest =>
      simp only [List.length_cons, List.head?_cons, Option.some.injEq, List.cons.injEq]
      constructor
      · rintro ⟨hLength, hConfig⟩
        exact ⟨hConfig, List.length_eq_zero_iff.mp (by omega)⟩
      · rintro ⟨hConfig, hRest⟩
        exact ⟨by simp [hRest], hConfig⟩

def joinPlanData (auth : RaftAuthorization) (plan : JoinPlan) : Except AdmissionDenied Unit := do
  plan.validate
  plan.genesis.validateRoster auth.configuredPhysicalIds
  ensure (plan.genesis = auth.session.context.genesis) "join plan differs from admission"
  ensure (∀ replica ∈ plan.previousVoters ∪ plan.nextVoters,
      replica.physicalId ∈ auth.configuredPhysicalIds)
    "join plan names an unconfigured physical member"

theorem joinPlanData_eq_ok {auth : RaftAuthorization} {plan : JoinPlan} :
    auth.joinPlanData plan = .ok () ↔
      plan.validate = .ok () ∧
      plan.genesis.validateRoster auth.configuredPhysicalIds = .ok () ∧
      plan.genesis = auth.session.context.genesis ∧
      ∀ replica ∈ plan.previousVoters ∪ plan.nextVoters,
        replica.physicalId ∈ auth.configuredPhysicalIds := by
  simp [joinPlanData]

def joinPlan (auth : RaftAuthorization) (plan : JoinPlan) (historical : Bool) :
    Except AdmissionDenied Unit := do
  auth.joinPlanData plan
  let stable := ensure
    (if historical then auth.memberships.any (stablePrevious · plan)
      else stablePrevious auth.committedMembership.membership plan &&
        auth.memberships.contains auth.committedMembership.membership)
    "join plan requires the exact authorized stable previous membership"
  match auth.preparedJoin.filter fun _ => !historical with
  | some pending => ensure (pending.plan = plan) "another committed join is pending"
  | none => stable

/-- An admission command outside replay: at or below the applied position only its
data is checked. -/
def admissionCommand (auth : RaftAuthorization) (command : AdmissionCommand) (log : LogId) :
    Except AdmissionDenied Unit :=
  let historical := auth.lastApplied.any fun applied => log.index ≤ applied.index
  let membership := auth.committedMembership.membership
  match command with
  | .prepareJoin plan => auth.joinPlan plan historical
  | .cancelJoin plan prepared => do
      auth.joinPlanData plan
      auth.log (some prepared)
      ensure (prepared.index < log.index) "cancellation precedes preparation"
      if historical then return
      let pending ← okOr auth.preparedJoin "no committed join is pending"
      ensure (pending.plan = plan ∧ pending.prepared = prepared ∧ stablePrevious membership plan ∧
          plan.consumer ∉ membership.nodes)
        "cancellation differs from the committed pending operation or removed learner"
  | .learnerApplied consumer requestNonce prepared => do
      ensure (consumer.physicalId ∈ auth.configuredPhysicalIds)
        "learner names an unauthorized replica"
      auth.log (some prepared)
      ensure (prepared.index < log.index) "learner acknowledgement precedes preparation"
      if historical then return
      let pending ← okOr auth.preparedJoin "no committed join is pending"
      auth.joinPlanData pending.plan
      ensure (pending.plan.consumer = consumer ∧ pending.plan.requestNonce = requestNonce ∧
          pending.prepared = prepared)
        "learner acknowledgement differs from committed preparation"
      ensure (pending.learnerApplied.isSome ||
          (stablePrevious membership pending.plan && consumer ∈ membership.learnerIds))
        "learner acknowledgement requires the committed learner stage"

def command (auth : RaftAuthorization) (request : KafRequest) (log : LogId) :
    Except AdmissionDenied Unit :=
  let context := auth.session.context
  match request with
  | .admissionMembership command => auth.admissionCommand command log
  | .admissionGenesis genesis =>
      ensure (genesis = context.genesis) "Raft genesis differs from admission"
  | .healthProgress progress => do
      progress.validate
      ensure (progress.genesis = context.genesis ∧
          progress.replica.physicalId ∈ auth.configuredPhysicalIds)
        "Raft progress differs from admission"
  | .clusterFormed clusterId _ _ =>
      ensure (clusterId = context.genesis.epoch) "Raft epoch differs from admission"
  | .healthUpdate _ _ => .ok ()
  | .vipReleased _ _ _ => .ok ()
  | .enableFailoverSemanticsV2 => .ok ()
  | .enableConfigIdentityV1 => .ok ()

/-- The membership is the joint configuration of the plan. -/
def jointOf (membership : Membership) (plan : JoinPlan) : Bool :=
  membership.getJointConfig = [plan.previousVoters, plan.nextVoters]

/-- Whether the acknowledgement at `ack` stands in order with the membership at
`membershipLog`: after the learner stage, before promotion or removal. -/
def ackInOrder (stable joint learner : Bool) (membershipLog : Option LogId) (ack : LogId) : Bool :=
  membershipLog.any fun log =>
    (stable && learner && log.index < ack.index) ||
      ((joint || (stable && !learner)) && ack.index < log.index)

/-- Order of the barriers of a pending join: preparation, learner membership,
acknowledgement, then promotion or removal. -/
def snapshotPreparedJoin (auth : RaftAuthorization) (prepared : PreparedJoin)
    (membership : StoredMembership) (lastApplied : Option LogId) : Except AdmissionDenied Unit := do
  auth.joinPlanData prepared.plan
  auth.log (some prepared.prepared)
  auth.log prepared.learnerApplied
  let applied ← okOr lastApplied "prepared snapshot has no applied log"
  ensure (prepared.prepared.index ≤ applied.index) "snapshot preparation is not applied"
  let plan := prepared.plan
  let stable := stablePrevious membership.membership plan
  let joint := jointOf membership.membership plan
  ensure (stable || joint) "snapshot preparation differs from its membership"
  let learner : Bool := plan.consumer ∈ membership.membership.learnerIds
  ensure (!(learner || joint) ||
      membership.logId.any fun log => prepared.prepared.index < log.index)
    "snapshot learner membership must follow preparation"
  match prepared.learnerApplied with
  | some ack => do
      ensure (prepared.prepared.index < ack.index ∧ ack.index ≤ applied.index)
        "snapshot learner acknowledgement is not applied after preparation"
      ensure (ackInOrder stable joint learner membership.logId ack)
        "snapshot acknowledgement differs from its committed learner stage"
  | none => ensure (!joint) "snapshot promotion lacks a learner acknowledgement"

/-- The order of the barriers, spelled out. -/
structure Barriers (auth : RaftAuthorization) (pending : PreparedJoin)
    (membership : StoredMembership) (applied : LogId) : Prop where
  plan : auth.joinPlanData pending.plan = .ok ()
  preparedLog : auth.log (some pending.prepared) = .ok ()
  ackLog : auth.log pending.learnerApplied = .ok ()
  prepared : pending.prepared.index ≤ applied.index
  stage : membership.membership.configs = [pending.plan.previousVoters] ∨
    membership.membership.configs = [pending.plan.previousVoters, pending.plan.nextVoters]
  learner : pending.plan.consumer ∈ membership.membership.learnerIds ∨
      membership.membership.configs = [pending.plan.previousVoters, pending.plan.nextVoters] →
    ∃ log ∈ membership.logId, pending.prepared.index < log.index
  ack : ∀ ack ∈ pending.learnerApplied, pending.prepared.index < ack.index ∧
    ack.index ≤ applied.index ∧
    ackInOrder (stablePrevious membership.membership pending.plan)
      (jointOf membership.membership pending.plan)
      (pending.plan.consumer ∈ membership.membership.learnerIds) membership.logId ack = true
  unacknowledged : pending.learnerApplied = none →
    membership.membership.configs ≠ [pending.plan.previousVoters, pending.plan.nextVoters]

theorem snapshotPreparedJoin_eq_ok {auth : RaftAuthorization} {pending : PreparedJoin}
    {membership : StoredMembership} {lastApplied : Option LogId} :
    auth.snapshotPreparedJoin pending membership lastApplied = .ok () ↔
      ∃ applied ∈ lastApplied, Barriers auth pending membership applied := by
  have hJoint : jointOf membership.membership pending.plan = true ↔
      membership.membership.configs = [pending.plan.previousVoters, pending.plan.nextVoters] := by
    rw [jointOf, decide_eq_true_iff]
    rfl
  constructor
  · intro h
    simp only [snapshotPreparedJoin, Checks.bind_eq_ok, okOr_eq_ok] at h
    obtain ⟨_, hPlan, _, hPrepared, _, hAckLog, applied, hApplied, _, hBefore, _, hStage, _,
      hLearner, hAck⟩ := h
    have hStage := ensure_eq_ok.mp hStage
    have hLearner := ensure_eq_ok.mp hLearner
    rw [Bool.or_eq_true, stablePrevious_eq_true, hJoint] at hStage
    rw [Bool.or_eq_true, Bool.not_eq_true', Bool.or_eq_false_iff] at hLearner
    refine ⟨applied, hApplied, hPlan, hPrepared, hAckLog,
      of_decide_eq_true (ensure_eq_ok.mp hBefore), hStage, fun hPresent => ?_, fun ack hMem => ?_,
      fun hNone => ?_⟩
    · rcases hLearner with ⟨hAbsent, hSplit⟩ | hLog
      · rcases hPresent with hPresent | hPresent
        · exact absurd hPresent (of_decide_eq_false hAbsent)
        · exact absurd (hJoint.mpr hPresent) (by simp [hSplit])
      · simpa [Option.any_eq_true] using hLog
    · rw [Option.mem_def.mp hMem] at hAck
      simp only [Checks.bind_eq_ok] at hAck
      obtain ⟨_, hOrder, hStageOrder⟩ := hAck
      obtain ⟨hAfter, hLe⟩ := of_decide_eq_true (ensure_eq_ok.mp hOrder)
      exact ⟨hAfter, hLe, ensure_eq_ok.mp hStageOrder⟩
    · rw [hNone] at hAck
      simp only [ensure_eq_ok, Bool.not_eq_true'] at hAck
      rw [Ne, ← hJoint, hAck]
      simp
  · rintro ⟨applied, hApplied, h⟩
    simp only [snapshotPreparedJoin, Checks.bind_eq_ok, okOr_eq_ok]
    refine ⟨(), h.plan, (), h.preparedLog, (), h.ackLog, applied, hApplied, (),
      by simpa using h.prepared, (), ?_, (), ?_, ?_⟩
    · simpa only [ensure_eq_ok, Bool.or_eq_true, stablePrevious_eq_true, hJoint] using h.stage
    · rw [ensure_eq_ok, Bool.or_eq_true, Bool.not_eq_true', or_iff_not_imp_left]
      intro hPresent
      rw [Bool.not_eq_false, Bool.or_eq_true, decide_eq_true_iff, hJoint] at hPresent
      simpa [Option.any_eq_true] using h.learner hPresent
    · cases hAck : pending.learnerApplied with
      | some ack =>
          obtain ⟨hAfter, hLe, hOrder⟩ := h.ack ack hAck
          simp only [Checks.bind_eq_ok]
          exact ⟨(), by simp [hAfter, hLe], ensure_eq_ok.mpr hOrder⟩
      | none =>
          have hNot := h.unacknowledged hAck
          rw [Ne, ← hJoint] at hNot
          simpa using hNot

/-! ### Capturing the authority -/

/-- A membership whose addresses all come from the local configuration. -/
def makeMembership (valid : MembershipCheck) (cfg : Config)
    (configs : List (Finset ReplicaId)) (ids : Finset ReplicaId) :
    Except AdmissionDenied Membership := do
  let nodes ← okOr (addressed cfg.node ids) "membership contains an unconfigured physical member"
  (Membership.new valid configs nodes).mapError fun _ => ⟨"invalid authorized membership"⟩

/-- The committed membership, or the genesis roster before any is applied. -/
def baseMembership (valid : MembershipCheck) (cfg : Config)
    (state : KafStorageState) (context : AdmissionContext) (bootstrapping : Option PreparedJoin) :
    Except AdmissionDenied StoredMembership :=
  if state.lastMembership.membership.voterIds = ∅ then do
    ensure (bootstrapping.isSome ∨ context.localReplica ∈ context.genesis.voters)
      "bootstrap requires a verified exact join roster"
    let membership ← makeMembership valid cfg [context.genesis.voters] context.genesis.voters
    return ⟨none, membership⟩
  else .ok state.lastMembership

/-- A verified join that should already be applied is pending or completed. -/
def containsJoin (state : KafStorageState) (localReplica : ReplicaId) (proof : PreparedJoin) :
    Bool :=
  (state.preparedJoin.any fun pending =>
      pending.plan = proof.plan && pending.prepared = proof.prepared) ||
    (state.completedJoins[localReplica.physicalId]?.any fun receipt =>
      receipt.prepared.plan = proof.plan && receipt.prepared.prepared = proof.prepared)

/-- Memberships that a bootstrapping replica may see before its join is applied. -/
def bootstrapMemberships (valid : MembershipCheck) (cfg : Config)
    (auth : RaftAuthorization) (bootstrapping : Option PreparedJoin) :
    Except AdmissionDenied (List Membership) :=
  match bootstrapping with
  | none => .ok []
  | some proof => do
      (auth.joinPlanData proof.plan).mapError fun _ => ⟨"invalid verified bootstrap roster"⟩
      let previous := proof.plan.previousVoters
      let stable ← makeMembership valid cfg [previous] previous
      let learner ← makeMembership valid cfg [previous] (insert proof.plan.consumer previous)
      return [stable, learner]

/-- Memberships that the pending join permits next. -/
def pendingMemberships (valid : MembershipCheck) (cfg : Config)
    (current : Membership) (pending : PreparedJoin) : Except AdmissionDenied (List Membership) :=
  let plan := pending.plan
  let learnerIds := insert plan.consumer current.nodeIds
  if stablePrevious current plan then do
    let added ← makeMembership valid cfg [plan.previousVoters] learnerIds
    let removed ← makeMembership valid cfg [plan.previousVoters]
      (current.nodeIds.erase plan.consumer)
    if pending.learnerApplied.isSome ∧ plan.consumer ∈ current.learnerIds then do
      let joint ← makeMembership valid cfg [plan.previousVoters, plan.nextVoters] learnerIds
      return [added, removed, joint]
    else return [added, removed]
  else if pending.learnerApplied.isSome then do
    let promoted ← makeMembership valid cfg [plan.nextVoters]
      (current.nodeIds \ (plan.previousVoters \ plan.nextVoters))
    return [promoted]
  else return []

/-- What the pending join adds, once its barriers are in order. Without one the
membership must be stable. -/
def pendingAuthority (valid : MembershipCheck) (cfg : Config)
    (auth : RaftAuthorization) : Except AdmissionDenied (List Membership × Finset ReplicaId) :=
  match auth.preparedJoin with
  | none => do
      ensure (auth.committedMembership.membership.getJointConfig.length = 1)
        "joint membership lacks a committed join operation"
      return ([], ∅)
  | some pending => do
      (auth.snapshotPreparedJoin pending auth.committedMembership auth.lastApplied).mapError
        fun _ => ⟨"pending join has no consistent committed barriers"⟩
      let memberships ← pendingMemberships valid cfg auth.committedMembership.membership pending
      return (memberships, pending.plan.previousVoters ∪ pending.plan.nextVoters)

/-- Capture local authority from the committed state. `check` is the answer of the
session's fence at this moment. -/
def fromState (valid : MembershipCheck) (cfg : Config)
    (state : KafStorageState) (check : Except AdmissionDenied Unit) (peer : ReplicaId)
    (verified : Option VerifiedJoinBootstrap) : Except AdmissionDenied RaftAuthorization := do
  let session ← okOr state.admission "no active admission session"
  check
  let context := session.context
  let bootstrap := verified.map VerifiedJoinBootstrap.prepared
  context.genesis.validateRoster cfg.physicalIds
  let unbound := "authorization context or bootstrap is not bound to applied state"
  ensure (context.localReplica.physicalId = cfg.nodeId) unbound
  let fingerprint ← okOr cfg.clusterConfigFingerprint "invalid local configuration"
  ensure (context.genesis.config = fingerprint ∧
      (∀ genesis ∈ state.genesis, genesis = context.genesis) ∧
      (state.clusterEpoch.all (· = context.genesis.epoch)) ∧
      ∀ pending ∈ bootstrap, pending.plan.consumer = context.localReplica ∧
        pending.plan.genesis = context.genesis ∧ pending.learnerApplied = none) unbound
  bootstrap.elim (.ok ()) fun pending => pending.plan.validate
  let bootstrapping := bootstrap.filter fun pending =>
    state.lastAppliedLog.all fun log => log.index < pending.prepared.index
  ensure (bootstrapping.isSome ∨ ∀ proof ∈ bootstrap,
      containsJoin state context.localReplica proof)
    "applied history does not contain the verified join"
  let committedMembership ← baseMembership valid cfg state context bootstrapping
  ensure (∀ log ∈ committedMembership.logId,
      ∃ applied ∈ state.lastAppliedLog, log.index ≤ applied.index)
    "membership is not committed locally"
  let current := committedMembership.membership
  let ids := current.nodeIds
  let expected ← makeMembership valid cfg current.getJointConfig ids
  ensure (expected = current) "membership addresses differ from configured roster"
  let base : RaftAuthorization :=
    { session := session
      peer := peer
      configuredPhysicalIds := cfg.physicalIds
      voters := current.voterIds
      logReplicas := context.genesis.voters ∪ ids
      memberships := [current]
      committedMembership := committedMembership
      lastApplied := state.lastAppliedLog
      preparedJoin := state.preparedJoin
      verifiedBootstrap := verified
      replication := some (.fromState cfg state) }
  let bootstrapMemberships ← bootstrapMemberships valid cfg base bootstrapping
  let (pendingMemberships, pendingReplicas) ← pendingAuthority valid cfg base
  let leaders := [state.lastPurgedLogId, state.lastAppliedLog, state.committed,
    state.lastMembership.logId].filterMap (Option.map fun log => log.leaderId.nodeId)
  let admittedPeer : Bool := match bootstrapping with
    | some proof => peer ∈ proof.plan.previousVoters
    | none => peer ∈ ids
  ensure (admittedPeer ∨ ∃ pending ∈ state.preparedJoin, pending.plan.consumer = peer)
    "peer is not an exact committed member or prepared learner"
  return { base with
    voters := bootstrapping.elim current.voterIds fun proof => proof.plan.previousVoters
    logReplicas := base.logReplicas ∪ pendingReplicas ∪ leaders.toFinset
    memberships := base.memberships ++ bootstrapMemberships ++ pendingMemberships }

/-- What a captured authorization has checked. -/
structure Captured (valid : MembershipCheck) (cfg : Config)
    (state : KafStorageState) (auth : RaftAuthorization) : Prop where
  session : state.admission = some auth.session
  genesis : ∀ genesis ∈ state.genesis, genesis = auth.session.context.genesis
  configuredPhysicalIds : auth.configuredPhysicalIds = cfg.physicalIds
  roster : state.lastMembership.membership.voterIds = ∅ →
    auth.committedMembership.logId = none ∧
      makeMembership valid cfg [auth.session.context.genesis.voters]
        auth.session.context.genesis.voters = .ok auth.committedMembership.membership
  committedMembership : state.lastMembership.membership.voterIds ≠ ∅ →
    auth.committedMembership = state.lastMembership
  lastApplied : auth.lastApplied = state.lastAppliedLog
  preparedJoin : auth.preparedJoin = state.preparedJoin
  replication : auth.replication = some (.fromState cfg state)
  barriers : ∀ pending ∈ state.preparedJoin,
    auth.snapshotPreparedJoin pending auth.committedMembership auth.lastApplied = .ok ()

theorem fromState_captured {valid : MembershipCheck} {cfg : Config}
    {state : KafStorageState} {check : Except AdmissionDenied Unit} {peer : ReplicaId}
    {verified : Option VerifiedJoinBootstrap} {auth : RaftAuthorization}
    (h : fromState valid cfg state check peer verified = .ok auth) :
    Captured valid cfg state auth := by
  simp only [fromState, Checks.bind_eq_ok] at h
  obtain ⟨session, hSession, _, -, _, -, _, -, _, -, _, hBound, _, -, _, -, committed, hBase, _, -,
    _, -, _, -, _, -, added, hPending, _, -, hResult⟩ := h
  simp only [Checks.pure_eq_ok] at hResult
  subst hResult
  have hGenesis := (of_decide_eq_true (ensure_eq_ok.mp hBound)).2.1
  rw [okOr_eq_ok] at hSession
  refine ⟨hSession, hGenesis, rfl, fun hEmpty => ?_, fun hVoters => ?_, rfl, rfl, rfl,
    fun pending hMem => ?_⟩
  · simp only [baseMembership, hEmpty, if_true, Checks.bind_eq_ok, Checks.pure_eq_ok] at hBase
    obtain ⟨_, -, membership, hMembership, rfl⟩ := hBase
    exact ⟨rfl, hMembership⟩
  · rw [baseMembership, if_neg hVoters] at hBase
    exact (Except.ok.inj hBase).symm
  · simp only [pendingAuthority, Option.mem_def.mp hMem, Checks.bind_eq_ok,
      Checks.mapError_eq_ok] at hPending
    obtain ⟨_, hBarriers, -⟩ := hPending
    exact hBarriers

end RaftAuthorization

end KeepAfloat
