import KeepAfloat.Store.StateMachine

/-! The pure bind decision. A node may attach a VIP when its local gates are
open, the committed assignment names it and is past its activation tick, and the
handoff fence to the previous holder is open or was already passed. -/

namespace KeepAfloat

open Std (ExtTreeMap)

/-- Process-local preconditions of every bind. -/
structure BindGates where
  hasLeader : Bool
  localHealthy : Bool
  consensusFresh : Bool
  deriving DecidableEq, Repr

namespace BindGates

def allOpen (gates : BindGates) : Bool :=
  gates.hasLeader && gates.localHealthy && gates.consensusFresh

/-- Gates that hold nothing back. -/
def opened : BindGates := ⟨true, true, true⟩

end BindGates

/-- The bind policy. An activation of the same generation stands in for the
handoff fence; it never bypasses the gates, the holder or the tick. -/
def shouldBindOrKeepVip (gates : BindGates) (nodeId : Nat) (assignment : Option VipAssignment)
    (nodeProbeTicks : ExtTreeMap Nat Nat) (latestProbeTick staleMissedProbes : Nat)
    (activatedGeneration : Option Nat) : Bool :=
  if !gates.allOpen then false
  else
    match assignment with
    | none => false
    | some assignment =>
        if assignment.holder ≠ nodeId ∨ latestProbeTick < assignment.activationTick then false
        else if activatedGeneration = some assignment.generation then true
        else
          match assignment.previousHolder with
          | none => true
          | some previousHolder =>
              if assignment.previousHolderReleased then true
              else !isNodeProbeFresh previousHolder nodeProbeTicks latestProbeTick
                staleMissedProbes

/-- Whether the node still publishes within the staleness window of this state. -/
def KafStorageState.probeFresh (state : KafStorageState) (nodeId : Nat) : Bool :=
  isNodeProbeFresh nodeId state.nodeProbeTicks state.latestProbeTick state.staleMissedProbes

/-- The committed state alone lets `nodeId` activate `vip` under `generation`:
the policy says yes with every gate open and nothing activated before. -/
def Authorised (state : KafStorageState) (vip : IpAddr) (nodeId generation : Nat) : Prop :=
  ∃ assignment, state.vipAssignments[vip]? = some assignment ∧
    assignment.generation = generation ∧
    shouldBindOrKeepVip .opened nodeId (some assignment) state.nodeProbeTicks
      state.latestProbeTick state.staleMissedProbes none = true

/-- What a first activation has passed. -/
theorem Authorised.cases {state : KafStorageState} {vip : IpAddr} {nodeId generation : Nat}
    (h : Authorised state vip nodeId generation) :
    ∃ assignment, state.vipAssignments[vip]? = some assignment ∧
      assignment.generation = generation ∧ assignment.holder = nodeId ∧
      assignment.activationTick ≤ state.latestProbeTick ∧
      ∀ previous, assignment.previousHolder = some previous →
        assignment.previousHolderReleased = true ∨ state.probeFresh previous = false := by
  obtain ⟨assignment, hAssignment, hGeneration, hBind⟩ := h
  simp only [shouldBindOrKeepVip, BindGates.allOpen, BindGates.opened, Bool.and_self,
    Bool.not_true, Bool.false_eq_true, if_false] at hBind
  split at hBind
  · simp at hBind
  · next hHolds =>
    simp only [not_or, not_not, not_lt] at hHolds
    refine ⟨assignment, hAssignment, hGeneration, hHolds.1, hHolds.2, fun previous hPrevious => ?_⟩
    simp only [reduceCtorEq, if_false, hPrevious] at hBind
    cases hReleased : assignment.previousHolderReleased with
    | true => exact Or.inl rfl
    | false =>
        rw [hReleased] at hBind
        exact Or.inr (by simpa [KafStorageState.probeFresh] using hBind)

end KeepAfloat
