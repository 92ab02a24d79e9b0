import KeepAfloat.Library.Checks
import KeepAfloat.Raft.Identity

/-! Immutable admission context and the replicated join operations. Nothing in
these records grants permission; they are the data that the validators of the
store, of the transport and of the admission protocol compare. -/

namespace KeepAfloat

/-- Versioned digest of the canonical cluster configuration. -/
structure ClusterConfigFingerprint where
  version : BitVec 8
  digest : BitVec 256
  deriving DecidableEq, Repr

/-- A refusal and the reason that the source attaches to it. -/
structure AdmissionDenied where
  reason : String
  deriving DecidableEq, Repr

/-- Fail with `reason` unless `accepted`. -/
def ensure (accepted : Bool) (reason : String) : Except AdmissionDenied Unit :=
  if accepted then .ok () else .error ⟨reason⟩

@[simp] theorem ensure_eq_ok {accepted : Bool} {reason : String} :
    ensure accepted reason = .ok () ↔ accepted = true := by
  cases accepted <;> simp [ensure]

/-- The value, or `reason` when there is none. -/
def okOr {α : Type} (value : Option α) (reason : String) : Except AdmissionDenied α :=
  value.elim (.error ⟨reason⟩) .ok

@[simp] theorem okOr_eq_ok {α : Type} {value : Option α} {reason : String} {result : α} :
    okOr value reason = .ok result ↔ value = some result := by
  cases value <;> simp [okOr]

section Reasons

variable {α : Type} {reason : String} {denied : AdmissionDenied}

theorem avoids_ensure (h : reason ≠ denied.reason) (accepted : Bool) :
    Checks.Avoids denied (ensure accepted reason) := by
  cases accepted with
  | true => exact Checks.Avoids.ok _ _
  | false => exact Checks.Avoids.error fun hSame => h (congrArg AdmissionDenied.reason hSame)

theorem avoids_guard {next : Unit → Except AdmissionDenied α} {accepted : Bool}
    (h : reason ≠ denied.reason) (hNext : Checks.Avoids denied (next ())) :
    Checks.Avoids denied (ensure accepted reason >>= next) :=
  (avoids_ensure h accepted).bind fun _ _ => hNext

theorem avoids_okOr (h : reason ≠ denied.reason) (value : Option α) :
    Checks.Avoids denied (okOr value reason) := by
  cases value with
  | some value => exact Checks.Avoids.ok _ _
  | none => exact Checks.Avoids.error fun hSame => h (congrArg AdmissionDenied.reason hSame)

end Reasons

/-- The exact consenting cold roster. -/
structure Genesis where
  config : ClusterConfigFingerprint
  epoch : BitVec 128
  voters : Finset ReplicaId
  deriving DecidableEq

namespace Genesis

/-- The physical members named by the voters. -/
def physicalIds (genesis : Genesis) : Finset Nat := genesis.voters.image ReplicaId.physicalId

def validateRoster (genesis : Genesis) (configured : Finset Nat) : Except AdmissionDenied Unit :=
  ensure (genesis.physicalIds.card = genesis.voters.card ∧ genesis.physicalIds ⊆ configured ∧
      configured.card / 2 < genesis.physicalIds.card)
    "genesis is not a distinct configured physical majority"

end Genesis

/-- Immutable context selected by admission. -/
structure AdmissionContext where
  localReplica : ReplicaId
  genesis : Genesis
  deriving DecidableEq

/-- Local authority handle. The fence behind it belongs to the process and moves
with its clock, so operations that consult it take its answer as an argument. -/
structure AdmissionSession where
  context : AdmissionContext
  deriving DecidableEq

/-- Fresh consumer challenge carried unchanged through the state machine.
A report without `healthy` renews admission and publishes no probe. -/
structure HealthProgress where
  nodeId : Nat
  healthy : Option Bool
  replica : ReplicaId
  epoch : BitVec 128
  requestNonce : BitVec 256
  genesis : Genesis
  deriving DecidableEq

def HealthProgress.validate (progress : HealthProgress) : Except AdmissionDenied Unit :=
  ensure (progress.nodeId = progress.replica.physicalId ∧ progress.epoch = progress.genesis.epoch)
    "progress identity or epoch mismatch"

structure AppliedHealthProgress where
  request : HealthProgress
  logId : LogId
  deriving DecidableEq

/-- One exact boot replacement. -/
structure JoinPlan where
  genesis : Genesis
  consumer : ReplicaId
  requestNonce : BitVec 256
  previousVoters : Finset ReplicaId
  nextVoters : Finset ReplicaId
  deriving DecidableEq

namespace JoinPlan

/-- The previous voters with the consumer in the place of its earlier boot. -/
def expectedVoters (plan : JoinPlan) : Finset ReplicaId :=
  insert plan.consumer
    (plan.previousVoters.filter fun replica => replica.physicalId ≠ plan.consumer.physicalId)

def validate (plan : JoinPlan) : Except AdmissionDenied Unit :=
  ensure (plan.previousVoters.Nonempty ∧
      (plan.previousVoters.image ReplicaId.physicalId).card = plan.previousVoters.card ∧
      plan.consumer ∉ plan.previousVoters ∧ plan.nextVoters = plan.expectedVoters)
    "join plan is not one exact boot replacement"

/-- What a validated plan is. -/
theorem validate_eq_ok {plan : JoinPlan} :
    plan.validate = .ok () ↔
      plan.previousVoters.Nonempty ∧
      (plan.previousVoters.image ReplicaId.physicalId).card = plan.previousVoters.card ∧
      plan.consumer ∉ plan.previousVoters ∧ plan.nextVoters = plan.expectedVoters := by
  simp [validate]

theorem consumer_mem_next {plan : JoinPlan} (h : plan.validate = .ok ()) :
    plan.consumer ∈ plan.nextVoters := by
  obtain ⟨-, -, -, hNext⟩ := validate_eq_ok.mp h
  rw [hNext]
  exact Finset.mem_insert_self _ _

/-- The consumer is what tells the two voter sets apart. -/
theorem previous_ne_next {plan : JoinPlan} (h : plan.validate = .ok ()) :
    plan.previousVoters ≠ plan.nextVoters := by
  obtain ⟨-, -, hFresh, -⟩ := validate_eq_ok.mp h
  intro hEq
  exact hFresh (hEq ▸ consumer_mem_next h)

/-- Every other member is in both voter sets or in none. -/
theorem mem_next_of_other {plan : JoinPlan} (h : plan.validate = .ok ())
    {replica : ReplicaId} (hOther : replica.physicalId ≠ plan.consumer.physicalId) :
    replica ∈ plan.nextVoters ↔ replica ∈ plan.previousVoters := by
  obtain ⟨-, -, -, hNext⟩ := validate_eq_ok.mp h
  have hNe : replica ≠ plan.consumer := fun hSame => hOther (congrArg ReplicaId.physicalId hSame)
  rw [hNext, expectedVoters, Finset.mem_insert, Finset.mem_filter]
  simp [hNe, hOther]

end JoinPlan

/-- A join whose plan is committed, with the commit positions of the plan and
of the learner's acknowledgement. -/
structure PreparedJoin where
  plan : JoinPlan
  prepared : LogId
  learnerApplied : Option LogId
  deriving DecidableEq

structure CompletedJoin where
  prepared : PreparedJoin
  promoted : LogId
  deriving DecidableEq

/-- Replicated, resumable learner admission operations. -/
inductive AdmissionCommand where
  | prepareJoin (plan : JoinPlan)
  | cancelJoin (plan : JoinPlan) (prepared : LogId)
  | learnerApplied (consumer : ReplicaId) (requestNonce : BitVec 256) (prepared : LogId)
  deriving DecidableEq

end KeepAfloat
