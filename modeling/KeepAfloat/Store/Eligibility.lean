import KeepAfloat.Library.Ascending
import KeepAfloat.Store.State

/-! Which nodes may hold a VIP. Eligibility reads the committed membership, the
reported health, the committed probe rounds and the recovery history, and nothing
else. -/

namespace KeepAfloat

open Std (ExtTreeMap)

/-- One voter of the loop in `uniqueVoters`: remember it, and remember its
physical id as ambiguous when another boot of it was seen before. -/
def collectVoter (seen : ExtTreeMap Nat ReplicaId × Finset Nat) (replica : ReplicaId) :
    ExtTreeMap Nat ReplicaId × Finset Nat :=
  (seen.1.insert replica.physicalId replica,
    if replica.physicalId ∈ seen.1 then insert replica.physicalId seen.2 else seen.2)

/-- A joint replacement with two boots for one physical member is not a VIP
candidate. -/
def uniqueVoters (membership : Membership) : ExtTreeMap Nat ReplicaId :=
  let seen := (Ascending.members membership.voterIds).foldl collectVoter (∅, ∅)
  seen.1.filter fun id _ => id ∉ seen.2

/-- What the loop has recorded after the voters `done`. -/
private structure VotersSeen (done : List ReplicaId)
    (seen : ExtTreeMap Nat ReplicaId × Finset Nat) : Prop where
  recorded : ∀ id replica, seen.1[id]? = some replica → replica ∈ done ∧ replica.physicalId = id
  present : ∀ replica ∈ done, replica.physicalId ∈ seen.1
  ambiguous : ∀ id, id ∈ seen.2 ↔
    ∃ first ∈ done, ∃ second ∈ done, first.physicalId = id ∧ second.physicalId = id ∧ first ≠ second

private theorem votersSeen_step {done : List ReplicaId}
    {seen : ExtTreeMap Nat ReplicaId × Finset Nat} (hSeen : VotersSeen done seen)
    {replica : ReplicaId} (hFresh : replica ∉ done) :
    VotersSeen (done ++ [replica]) (collectVoter seen replica) where
  recorded := by
    intro id other hOther
    rw [collectVoter, ExtTreeMap.getElem?_insert] at hOther
    split at hOther
    · next hEq =>
      obtain rfl := Option.some.inj hOther
      exact ⟨by simp, compare_eq_iff_eq.mp hEq⟩
    · obtain ⟨hMem, hId⟩ := hSeen.recorded id other hOther
      exact ⟨List.mem_append_left _ hMem, hId⟩
  present := by
    intro other hOther
    rw [collectVoter, ExtTreeMap.mem_insert]
    rcases List.mem_append.mp hOther with hMem | hMem
    · exact Or.inr (hSeen.present other hMem)
    · rw [List.mem_singleton.mp hMem]
      exact Or.inl (compare_eq_iff_eq.mpr rfl)
  ambiguous := by
    intro id
    have hRepeat : replica.physicalId ∈ seen.1 ↔
        ∃ other ∈ done, other.physicalId = replica.physicalId := by
      constructor
      · intro hMem
        obtain ⟨other, hOther⟩ := ExtTreeMap.mem_iff_isSome_getElem?.mp hMem
          |> Option.isSome_iff_exists.mp
        exact ⟨other, hSeen.recorded _ _ hOther⟩
      · rintro ⟨other, hMem, hId⟩
        exact hId ▸ hSeen.present other hMem
    constructor
    · intro hMem
      rw [collectVoter] at hMem
      have hCases : id ∈ seen.2 ∨ (replica.physicalId ∈ seen.1 ∧ id = replica.physicalId) := by
        split at hMem
        · next hPresent =>
          rcases Finset.mem_insert.mp hMem with hEq | hOld
          · exact Or.inr ⟨hPresent, hEq⟩
          · exact Or.inl hOld
        · exact Or.inl hMem
      rcases hCases with hOld | ⟨hPresent, rfl⟩
      · obtain ⟨first, hFirst, second, hSecond, hRest⟩ := (hSeen.ambiguous id).mp hOld
        exact ⟨first, by simp [hFirst], second, by simp [hSecond], hRest⟩
      · obtain ⟨other, hOther, hId⟩ := hRepeat.mp hPresent
        exact ⟨other, by simp [hOther], replica, by simp, hId, rfl, fun hEq => hFresh (hEq ▸ hOther)⟩
    · rintro ⟨first, hFirst, second, hSecond, hIdFirst, hIdSecond, hNe⟩
      have hKeep : ∀ old, old ∈ seen.2 → old ∈ (collectVoter seen replica).2 := by
        intro old hOld
        rw [collectVoter]
        split
        · exact Finset.mem_insert_of_mem hOld
        · exact hOld
      have hNew : ∀ other ∈ done, other.physicalId = replica.physicalId →
          replica.physicalId ∈ (collectVoter seen replica).2 := by
        intro other hOther hId
        rw [collectVoter, if_pos (hRepeat.mpr ⟨other, hOther, hId⟩)]
        exact Finset.mem_insert_self _ _
      simp only [List.mem_append, List.mem_singleton] at hFirst hSecond
      rcases hFirst with hFirst | rfl <;> rcases hSecond with hSecond | rfl
      · exact hKeep _ ((hSeen.ambiguous id).mpr ⟨_, hFirst, _, hSecond, hIdFirst, hIdSecond, hNe⟩)
      · exact hIdSecond ▸ hNew first hFirst (hIdFirst.trans hIdSecond.symm)
      · exact hIdFirst ▸ hNew second hSecond (hIdSecond.trans hIdFirst.symm)
      · exact absurd rfl hNe

private theorem votersSeen_foldl (voters : List ReplicaId) (hNodup : voters.Nodup) :
    VotersSeen voters (voters.foldl collectVoter (∅, ∅)) := by
  induction voters using List.reverseRecOn with
  | nil => exact ⟨by simp, by simp, by simp⟩
  | append_singleton voters replica ih =>
      have hSplit := List.nodup_append.mp hNodup
      rw [List.foldl_append]
      exact votersSeen_step (ih hSplit.1) fun hMem => hSplit.2.2 _ hMem _ (by simp) rfl

/-- A physical member is a candidate through the one boot that votes for it. -/
theorem getElem?_uniqueVoters {membership : Membership} {id : Nat} {replica : ReplicaId} :
    (uniqueVoters membership)[id]? = some replica ↔
      replica ∈ membership.voterIds ∧ replica.physicalId = id ∧
        ∀ other ∈ membership.voterIds, other.physicalId = id → other = replica := by
  have hSeen := votersSeen_foldl _ (Ascending.members_nodup membership.voterIds)
  rw [uniqueVoters]
  set seen := (Ascending.members membership.voterIds).foldl collectVoter (∅, ∅)
  have hGet : (seen.1.filter fun id _ => id ∉ seen.2)[id]? = some replica ↔
      seen.1[id]? = some replica ∧ id ∉ seen.2 := by
    simp [ExtTreeMap.getElem?_filter]
  rw [hGet, hSeen.ambiguous]
  simp only [Ascending.mem_members]
  constructor
  · rintro ⟨hRecorded, hClear⟩
    obtain ⟨hMem, hId⟩ := hSeen.recorded id replica hRecorded
    rw [Ascending.mem_members] at hMem
    refine ⟨hMem, hId, fun other hOther hOtherId => ?_⟩
    by_contra hNe
    exact hClear ⟨other, hOther, replica, hMem, hOtherId, hId, hNe⟩
  · rintro ⟨hMem, hId, hUnique⟩
    have hPresent := hSeen.present replica (Ascending.mem_members.mpr hMem)
    obtain ⟨found, hFound⟩ := Option.isSome_iff_exists.mp
      (ExtTreeMap.mem_iff_isSome_getElem?.mp (hId ▸ hPresent))
    obtain ⟨hFoundMem, hFoundId⟩ := hSeen.recorded id found hFound
    have hSame : found = replica := hUnique found (Ascending.mem_members.mp hFoundMem) hFoundId
    refine ⟨hSame ▸ hFound, ?_⟩
    rintro ⟨first, hFirst, second, hSecond, hFirstId, hSecondId, hNe⟩
    exact hNe ((hUnique first hFirst hFirstId).trans (hUnique second hSecond hSecondId).symm)

/-- Committed inputs shared by legacy and V2 eligibility checks. -/
structure EligibilityInputs where
  nodeHealth : ExtTreeMap Nat Bool
  nodeProbeTicks : ExtTreeMap Nat Nat
  latestProbeTick : Nat
  staleMissedProbes : Nat
  failbackDelayTicks : Nat
  nodeRecoveryTick : ExtTreeMap Nat Nat

def EligibilityInputs.of (state : KafStorageState) : EligibilityInputs where
  nodeHealth := state.nodeHealth
  nodeProbeTicks := state.nodeProbeTicks
  latestProbeTick := state.latestProbeTick
  staleMissedProbes := state.staleMissedProbes
  failbackDelayTicks := state.failbackDelayTicks
  nodeRecoveryTick := state.nodeRecoveryTick

/-- Whether the node still publishes within the staleness window, whatever its
health. A fresh unhealthy holder is alive and must confirm VIP deletion. -/
def isNodeProbeFresh (nodeId : Nat) (nodeProbeTicks : ExtTreeMap Nat Nat)
    (latestProbeTick staleMissedProbes : Nat) : Bool :=
  match nodeProbeTicks[nodeId]? with
  | none => false
  | some lastTick => latestProbeTick - lastTick ≤ staleMissedProbes

/-- Health and freshness, before any blocking or recovery-delay policy. -/
def isNodeBaseEligible (nodeId : Nat) (nodeHealth : ExtTreeMap Nat Bool)
    (nodeProbeTicks : ExtTreeMap Nat Nat) (latestProbeTick staleMissedProbes : Nat) : Bool :=
  if !nodeHealth[nodeId]?.getD false then false
  else isNodeProbeFresh nodeId nodeProbeTicks latestProbeTick staleMissedProbes

/-- Whether a node in recovery has not yet been healthy for enough rounds. -/
def inFailbackDelay (nodeId : Nat) (inputs : EligibilityInputs) : Bool :=
  match inputs.nodeRecoveryTick[nodeId]? with
  | none => false
  | some recoveryTick => inputs.latestProbeTick - recoveryTick < inputs.failbackDelayTicks

def isNodeEligible (nodeId : Nat) (inputs : EligibilityInputs)
    (nodeFailbackBlocked : Finset Nat) : Bool :=
  if nodeId ∈ nodeFailbackBlocked then false
  else if !isNodeBaseEligible nodeId inputs.nodeHealth inputs.nodeProbeTicks
      inputs.latestProbeTick inputs.staleMissedProbes then false
  else !inFailbackDelay nodeId inputs

/-- A publishing node advances by one and never trails the cluster frontier. -/
def nextProbeTick (prev : Option Nat) (latestProbeTick : Nat) : Nat :=
  max (Word64.satAdd (prev.getD 0) 1) latestProbeTick

/-- Unique voters that pass the eligibility test, in ascending order. -/
def eligibleNodes (membership : StoredMembership) (inputs : EligibilityInputs)
    (nodeFailbackBlocked : Finset Nat) : List Nat :=
  ((uniqueVoters membership.membership).keys.insertionSort (· ≤ ·)).filter
    (isNodeEligible · inputs nodeFailbackBlocked)

theorem mem_eligibleNodes {membership : StoredMembership} {inputs : EligibilityInputs}
    {blocked : Finset Nat} {id : Nat} :
    id ∈ eligibleNodes membership inputs blocked ↔
      id ∈ uniqueVoters membership.membership ∧ isNodeEligible id inputs blocked = true := by
  simp [eligibleNodes, List.mem_insertionSort]

end KeepAfloat
