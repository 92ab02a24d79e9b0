import KeepAfloat.Freshness.Permits
import KeepAfloat.Health.Local
import KeepAfloat.Policy.Bind

/-! Completed bindings. A binding that was checked against one intent keeps a witness
of it; the witness is retained while the process stays healthy and its consensus proof
unbroken, and it holds the address while the applied state still shows the intent. -/

namespace KeepAfloat

/-- What a local effect was decided on. -/
structure EffectIntent where
  assignment : Option VipAssignment
  bindPolicy : Bool
  vip : IpAddr
  nodeId : Nat
  gates : BindGates
  activatedGeneration : Option Nat
  previousTick : Option Nat
  deriving DecidableEq, Repr

namespace EffectIntent

def activated (intent : EffectIntent) : EffectIntent :=
  { intent with activatedGeneration := intent.assignment.map VipAssignment.generation }

def capture (vip : IpAddr) (nodeId : Nat) (gates : BindGates) (state : KafStorageState)
    (activatedGeneration : Option Nat) : EffectIntent where
  assignment := state.vipAssignments[vip]?
  bindPolicy := shouldBindOrKeepVip gates nodeId state.vipAssignments[vip]? state.nodeProbeTicks
    state.latestProbeTick state.staleMissedProbes activatedGeneration
  vip := vip
  nodeId := nodeId
  gates := gates
  activatedGeneration := activatedGeneration
  previousTick := (state.vipAssignments[vip]?.bind VipAssignment.previousHolder).bind
    fun node => state.nodeProbeTicks[node]?

/-- The assignment that the state has to show. A completed release opens the same
handoff fence without revoking its incumbent. -/
def expected (intent : EffectIntent) (current : Option VipAssignment) : Option VipAssignment :=
  intent.assignment.map fun assignment =>
    if assignment.holder = intent.nodeId ∧
        intent.activatedGeneration = some assignment.generation ∧
        current.any VipAssignment.previousHolderReleased then
      { assignment with previousHolderReleased := true }
    else assignment

/-- A first activation still depends on the silence of the previous holder. -/
def waitingForPredecessor (intent : EffectIntent) : Bool :=
  intent.assignment.any fun assignment =>
    assignment.holder = intent.nodeId ∧ assignment.previousHolder.isSome ∧
      !assignment.previousHolderReleased ∧
      intent.activatedGeneration ≠ some assignment.generation

def remainsValid (intent : EffectIntent) (state : KafStorageState) (gates : BindGates) : Bool :=
  let current := capture intent.vip intent.nodeId gates state intent.activatedGeneration
  if intent.expected current.assignment ≠ current.assignment ∨ intent.gates ≠ gates ∨
      intent.bindPolicy ≠ current.bindPolicy then
    false
  else !intent.waitingForPredecessor || intent.previousTick = current.previousTick

/-- An intent is valid only under the generation that it was captured in. -/
theorem remainsValid_generation {intent : EffectIntent} {state : KafStorageState}
    {gates : BindGates} {assignment : VipAssignment} (h : intent.remainsValid state gates = true)
    (hIntent : intent.assignment = some assignment) :
    ∃ current, state.vipAssignments[intent.vip]? = some current ∧
      current.generation = assignment.generation := by
  simp only [remainsValid] at h
  split at h
  · cases h
  · rename_i hValid
    simp only [not_or, not_not] at hValid
    obtain ⟨hSame, -, -⟩ := hValid
    refine ⟨_, hSame.symm.trans (by rw [expected, hIntent, Option.map_some]), ?_⟩
    split <;> rfl

end EffectIntent

/-- An exact completed binding. -/
structure CompletedBindingWitness where
  intent : EffectIntent
  health : HealthContinuity
  iface : String
  vip : VipAddr
  context : AdmissionContext
  stamp : RetentionStamp
  deriving DecidableEq

namespace CompletedBindingWitness

section Clocked

variable {Instant : Type} [CommRing Instant] [LinearOrder Instant]
variable (digest : Genesis → BitVec 256) (fits : Instant → Bool)
variable (freshness : ConsensusFreshness Instant) (authority : RuntimeAuthority Instant)
  (status : HealthStatus) (now : Instant)

def completed (vip : VipAddr) (iface : String) (intent : EffectIntent) (health : HealthContinuity)
    (permit : Permit Instant) : Option CompletedBindingWitness :=
  if !permit.check digest freshness authority now || !health.check status || !intent.bindPolicy then
    none
  else do
    let assignment ← intent.assignment
    if assignment.holder ≠ permit.stamp.context.localReplica.physicalId then none
    else
      return {
        intent := intent.activated
        health := health
        iface := iface
        vip := vip
        context := permit.stamp.context
        stamp := permit.stamp }

def retain (witness : CompletedBindingWitness) (vip : VipAddr) (iface : String) :
    Option (Permit Instant) :=
  if witness.vip.addr ≠ vip.addr ∨ witness.vip.prefixLen ≠ vip.prefixLen ∨ witness.iface ≠ iface ∨
      !witness.health.check status then
    none
  else do
    let permit ← freshness.retain digest fits witness.stamp authority now
    if permit.stamp.context = witness.context ∧ permit.check digest freshness authority now then
      return permit
    else none

/-- Retaining a binding retains its stamp. -/
theorem retain_stamp {witness : CompletedBindingWitness} {vip : VipAddr} {iface : String}
    {permit : Permit Instant}
    (h : witness.retain digest fits freshness authority status now vip iface = some permit) :
    freshness.retain digest fits witness.stamp authority now = some permit := by
  simp only [retain] at h
  split at h
  · cases h
  · obtain ⟨retained, hRetained, h⟩ := Option.bind_eq_some_iff.mp h
    split at h
    · rw [hRetained, ← Option.some.inj h]
    · cases h

end Clocked

def matchesState (witness : CompletedBindingWitness) (status : HealthStatus)
    (state : KafStorageState) : Bool :=
  witness.intent.remainsValid state ⟨true, witness.health.check status, true⟩

end CompletedBindingWitness

end KeepAfloat
