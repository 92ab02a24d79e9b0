import KeepAfloat.Library.Stamped
import KeepAfloat.Network.Refinement

/-! Join preparations in the logs of a cluster. A `manage` call holds the mutation lock of its
node, reads the applied state and submits a preparation. It can be dropped at any await, with
its lock, while what it has submitted stays in the log. Calls, elections, replication, commits
and applies interleave freely. -/

namespace KeepAfloat

/-- The plan of a join preparation. -/
def Entry.preparation (entry : Entry) : Option JoinPlan :=
  match entry.payload with
  | .normal (.admissionMembership (.prepareJoin plan)) => some plan
  | _ => none

namespace Management

/-- A request to prepare a join, from an authenticated peer. -/
structure JoinRequest where
  peer : ReplicaId
  genesis : Genesis
  operationNonce : BitVec 256
  deriving DecidableEq

/-- The preparation that the call submits, from the voters it has read. -/
def JoinRequest.plan (request : JoinRequest) (previousVoters : Finset ReplicaId) : JoinPlan where
  genesis := request.genesis
  consumer := request.peer
  requestNonce := request.operationNonce
  previousVoters := previousVoters
  nextVoters := insert request.peer
    (previousVoters.filter fun id => id.physicalId ≠ request.peer.physicalId)

/-- Where a call waits: with its lock, after it has found itself on the leader, after it has found
no prepared join, with a plan, for the answer to its preparation, and for the learner to be
added. -/
inductive ManagePhase where
  | requested (request : JoinRequest)
  | leading (request : JoinRequest)
  | unclaimed (request : JoinRequest)
  | planned (plan : JoinPlan)
  | submitted (plan : JoinPlan) (position : Nat)
  | prepared (peer : ReplicaId)
  deriving DecidableEq

/-- A node with its whole log, how much of it is committed and applied, the identity under which
it leads, and the call that holds its mutation lock. -/
structure Replica where
  log : List Entry
  committed : Nat
  applied : Nat
  leader : Option LeaderId
  call : Option ManagePhase

namespace Replica

variable (config : StoreConfig)

def state (replica : Replica) : KafStorageState := stateAfter config replica.log replica.applied

def release (replica : Replica) : Replica := { replica with call := none }

def wait (replica : Replica) (phase : ManagePhase) : Replica := { replica with call := some phase }

/-- A leader logs an entry. -/
def append (replica : Replica) (id : LeaderId) (payload : EntryPayload) : Replica :=
  { replica with log := replica.log ++ [⟨⟨id, replica.log.length⟩, payload⟩] }

/-- The preparation at a position was applied with success. -/
def answered (replica : Replica) (position : Nat) : Bool :=
  replica.log[position]?.any fun entry =>
    ((stateAfter config replica.log position).applyOne entry).2 = .ok

/-- The prepared join is the one that is asked for. -/
def claims (prepared : PreparedJoin) (request : JoinRequest) : Bool :=
  prepared.plan.consumer = request.peer ∧ prepared.plan.requestNonce = request.operationNonce ∧
    prepared.plan.genesis = request.genesis

/-- A `PrepareJoin` call goes on to its next await. `session` is the genesis of the session if
it is coherent and passes its check. The learner that is added at the end is logged as any other
membership. -/
def manage (replica : Replica) (session : Option Genesis) : Replica :=
  let state := replica.state config
  match replica.call with
  | none => replica
  | some (.requested request) =>
      if replica.leader.isNone ∨ session ≠ some request.genesis then replica.release
      else replica.wait (.leading request)
  | some (.leading request) =>
      if state.genesis ≠ some request.genesis then replica.release
      else
        match state.preparedJoin with
        | none => replica.wait (.unclaimed request)
        | some prepared =>
            if claims prepared request then replica.wait (.prepared request.peer)
            else replica.release
  | some (.unclaimed request) =>
      let membership := state.lastMembership.membership
      let plan := request.plan membership.voterIds
      if membership.getJointConfig.length ≠ 1 ∨ plan.validate ≠ .ok () then replica.release
      else replica.wait (.planned plan)
  | some (.planned plan) =>
      match replica.leader with
      | none => replica.release
      | some id =>
          if session.isNone then replica.release
          else
            (replica.append id (.normal (.admissionMembership (.prepareJoin plan)))).wait
              (.submitted plan replica.log.length)
  | some (.submitted plan position) =>
      if position < replica.applied then
        if replica.answered config position ∧ state.preparedJoin.any (·.plan = plan) then
          replica.wait (.prepared plan.consumer)
        else replica.release
      else if replica.leader.isNone then replica.release
      else replica
  | some (.prepared _) => replica.release

end Replica

/-- The nodes, the logs that leaders have sent, and the identities used by leaders so far. -/
structure Cluster (Node : Type) where
  replica : Node → Replica
  sent : List (List Entry)
  elected : List LeaderId

def Cluster.start (Node : Type) : Cluster Node := ⟨fun _ => ⟨[], 0, 0, none, none⟩, [], []⟩

inductive ClusterEvent (Node : Type) where
  | request (node : Node) (request : JoinRequest)
  | manage (node : Node) (session : Option Genesis)
  | cancel (node : Node)
  | propose (node : Node) (payload : EntryPayload)
  | send (node : Node)
  | receive (node : Node) (log : List Entry) (length : Nat)
  | commit (node : Node) (length : Nat)
  | apply (node : Node)
  | elect (node : Node) (id : LeaderId)
  | stepDown (node : Node)

/-- What other tasks of a leader log: no preparation, and no membership without a voter. -/
def otherPayload (payload : EntryPayload) : Bool :=
  match payload with
  | .membership membership => membership.voterIds ≠ ∅
  | .normal (.admissionMembership (.prepareJoin _)) => false
  | _ => true

namespace Cluster

variable {Node : Type} [DecidableEq Node]

def set (cluster : Cluster Node) (node : Node) (replica : Replica) : Cluster Node :=
  { cluster with replica := Function.update cluster.replica node replica }

/-- A follower takes over the front of a log that a leader has sent. What it has committed is
in that log. -/
def accepts (cluster : Cluster Node) (node : Node) (log : List Entry) (length : Nat) : Bool :=
  let replica := cluster.replica node
  replica.leader.isNone ∧ log ∈ cluster.sent ∧ replica.committed ≤ length ∧ length ≤ log.length ∧
    log.take replica.committed = replica.log.take replica.committed

def step (config : StoreConfig) (cluster : Cluster Node) : ClusterEvent Node → Cluster Node
  | .request node request =>
      let replica := cluster.replica node
      if replica.call.isSome then cluster else cluster.set node (replica.wait (.requested request))
  | .manage node session => cluster.set node ((cluster.replica node).manage config session)
  | .cancel node => cluster.set node (cluster.replica node).release
  | .propose node payload =>
      let replica := cluster.replica node
      match replica.leader with
      | none => cluster
      | some id =>
          if otherPayload payload then cluster.set node (replica.append id payload) else cluster
  | .send node =>
      let replica := cluster.replica node
      if replica.leader.isSome then { cluster with sent := replica.log :: cluster.sent } else cluster
  | .receive node log length =>
      if cluster.accepts node log length then
        cluster.set node { cluster.replica node with log := log.take length }
      else cluster
  | .commit node length =>
      let replica := cluster.replica node
      if replica.committed ≤ length ∧ length ≤ replica.log.length then
        cluster.set node { replica with committed := length }
      else cluster
  | .apply node =>
      let replica := cluster.replica node
      if replica.applied < replica.committed then
        cluster.set node { replica with applied := replica.applied + 1 }
      else cluster
  | .elect node id =>
      if id ∈ cluster.elected then cluster
      else
        { cluster.set node { cluster.replica node with leader := some id } with
          elected := id :: cluster.elected }
  | .stepDown node => cluster.set node { cluster.replica node with leader := none }

end Cluster

/-! ### Serial logs -/

section Logs

variable (config : StoreConfig)

/-- A preparation meets no other join that is pending at its position. -/
def JoinsSerial (log : List Entry) : Prop :=
  ∀ position entry plan, log[position]? = some entry → entry.preparation = some plan →
    ∀ pending ∈ (stateAfter config log position).preparedJoin, pending.plan = plan

/-- The admission part of the state after a number of entries. -/
def admissionAt (log : List Entry) (position : Nat) : AdmissionView :=
  (stateAfter config log position).admissionView

variable {config} {log : List Entry} {position : Nat}

theorem admissionAt_eq_foldl :
    admissionAt config log position =
      (log.take position).foldl AdmissionView.step config.start.admissionView :=
  KafStorageState.admissionView_foldl config.start (log.take position)

theorem admissionAt_succ {entry : Entry} (h : log[position]? = some entry) :
    admissionAt config log (position + 1) = (admissionAt config log position).step entry := by
  obtain ⟨hLt, rfl⟩ := List.getElem?_eq_some_iff.mp h
  rw [admissionAt, stateAfter_succ hLt, KafStorageState.admissionView_step]
  rfl

/-- What comes later does not matter. -/
theorem stateAfter_congr {other : List Entry} (h : log.take position = other.take position) :
    stateAfter config log position = stateAfter config other position := by
  rw [stateAfter, stateAfter, Runs.stateAt, Runs.stateAt, h]

theorem admissionAt_congr {other : List Entry} (h : log.take position = other.take position) :
    admissionAt config log position = admissionAt config other position := by
  rw [admissionAt, admissionAt, stateAfter_congr h]

/-- Without preparations no join becomes pending. -/
theorem preparedJoin_step_none {view : AdmissionView} {entry : Entry}
    (hNone : view.preparedJoin = none) (hEntry : entry.preparation = none) :
    (view.step entry).preparedJoin = none := by
  rw [AdmissionView.step]
  split
  · simp [AdmissionView.pendingAfter, hNone]
  · next command hPayload =>
      cases command with
      | prepareJoin plan => simp [Entry.preparation, hPayload] at hEntry
      | cancelJoin plan prepared => simp [admissionOutcome, hNone]
      | learnerApplied consumer nonce prepared => simp [admissionOutcome, hNone]
  all_goals exact hNone

/-- A log in which preparations come one after the other, on a cluster that is formed. -/
structure Sound (config : StoreConfig) (log : List Entry) : Prop where
  serial : JoinsSerial config log
  ready : ∀ {position : Nat} {entry : Entry} {plan : JoinPlan},
    log[position]? = some entry → entry.preparation = some plan →
      (admissionAt config log position).Ready plan.genesis
  voters : ∀ {position : Nat} {entry : Entry} {membership : Membership},
    log[position]? = some entry → entry.payload = .membership membership → membership.voterIds ≠ ∅
  indexed : ∀ {position : Nat} {entry : Entry},
    log[position]? = some entry → entry.logId.index = position

theorem sound_nil : Sound config [] where
  serial := fun _ _ _ h => by cases h
  ready := fun h => by cases h
  voters := fun h => by cases h
  indexed := fun h => by cases h

theorem Sound.take (h : Sound config log) (length : Nat) : Sound config (log.take length) where
  serial := by
    intro position entry plan hEntry hPlan
    obtain ⟨hLt, hEntry⟩ := Stamped.getElem?_of_take hEntry
    have hPast : (log.take length).take position = log.take position := by
      rw [List.take_take, Nat.min_eq_left hLt.le]
    rw [stateAfter_congr hPast]
    exact h.serial position entry plan hEntry hPlan
  ready := by
    intro position entry plan hEntry hPlan
    obtain ⟨hLt, hEntry⟩ := Stamped.getElem?_of_take hEntry
    have hPast : (log.take length).take position = log.take position := by
      rw [List.take_take, Nat.min_eq_left hLt.le]
    rw [admissionAt_congr hPast]
    exact h.ready hEntry hPlan
  voters := fun hEntry => h.voters (Stamped.getElem?_of_take hEntry).2
  indexed := fun hEntry => h.indexed (Stamped.getElem?_of_take hEntry).2

/-- Readiness at one position is kept to later ones. -/
theorem Sound.ready_upTo (h : Sound config log) {genesis : Genesis} {first last : Nat}
    (hLe : first ≤ last) (hLast : last ≤ log.length)
    (hReady : (admissionAt config log first).Ready genesis) :
    (admissionAt config log last).Ready genesis := by
  induction last, hLe using Nat.le_induction with
  | base => exact hReady
  | succ last hLe ih =>
      have hEntry := List.getElem?_eq_getElem (show last < log.length from hLast)
      rw [admissionAt_succ hEntry]
      exact (ih (Nat.le_of_succ_le hLast)).step fun membership => h.voters hEntry

/-- A preparation may be logged where no join is pending. -/
theorem Sound.append (h : Sound config log) {entry : Entry} (hIndex : entry.logId.index = log.length)
    (hVoters : ∀ membership, entry.payload = .membership membership → membership.voterIds ≠ ∅)
    (hPlan : ∀ plan, entry.preparation = some plan →
      (admissionAt config log log.length).preparedJoin = none ∧
        (admissionAt config log log.length).Ready plan.genesis) :
    Sound config (log ++ [entry]) := by
  have hPast : ∀ {position}, position ≤ log.length →
      (log ++ [entry]).take position = log.take position :=
    fun hLe => List.take_append_of_le_length hLe
  constructor
  · intro position found plan hFound hPrepares pending hPending
    rcases Runs.getElem?_concat hFound with hOld | ⟨rfl, rfl⟩
    · have hLt := (List.getElem?_eq_some_iff.mp hOld).1
      rw [stateAfter_congr (hPast hLt.le)] at hPending
      exact h.serial position found plan hOld hPrepares pending hPending
    · rw [stateAfter_congr (hPast le_rfl)] at hPending
      have hNone : (stateAfter config log log.length).preparedJoin = none := (hPlan plan hPrepares).1
      rw [hNone] at hPending
      cases hPending
  · intro position found plan hFound hPrepares
    rcases Runs.getElem?_concat hFound with hOld | ⟨rfl, rfl⟩
    · have hLt := (List.getElem?_eq_some_iff.mp hOld).1
      rw [admissionAt_congr (hPast hLt.le)]
      exact h.ready hOld hPrepares
    · rw [admissionAt_congr (hPast le_rfl)]
      exact (hPlan plan hPrepares).2
  · intro position found membership hFound hPayload
    rcases Runs.getElem?_concat hFound with hOld | ⟨-, rfl⟩
    · exact h.voters hOld hPayload
    · exact hVoters membership hPayload
  · intro position found hFound
    rcases Runs.getElem?_concat hFound with hOld | ⟨rfl, rfl⟩
    · exact h.indexed hOld
    · exact hIndex

end Logs

end Management

end KeepAfloat
