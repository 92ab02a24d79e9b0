import KeepAfloat.Store.Eligibility

/-! Admission history and exact-boot membership transitions of the state
machine. -/

namespace KeepAfloat

open Std (ExtTreeMap)

/-- The pending join after one admission command at its log position, and the
answer. Every refusal leaves the pending join as it was. -/
def admissionOutcome (preparedJoin : Option PreparedJoin) (genesis : Option Genesis)
    (membership : Membership) (command : AdmissionCommand) (logId : LogId) :
    Option PreparedJoin × KafResponse :=
  match command with
  | .cancelJoin plan prepared =>
      match preparedJoin with
      | none => (preparedJoin, .rejected "no join is pending")
      | some pending =>
          if pending.plan ≠ plan ∨ pending.prepared ≠ prepared ∨
              genesis ≠ some plan.genesis ∨ logId.index ≤ prepared.index ∨
              membership.getJointConfig.length ≠ 1 ∨ membership.voterIds ≠ plan.previousVoters ∨
              plan.consumer ∈ membership.nodes then
            (preparedJoin,
              .rejected "cancellation requires the exact pending join and removed learner")
          else (none, .ok)
  | .prepareJoin plan =>
      if plan.validate ≠ .ok () ∨ genesis ≠ some plan.genesis then
        (preparedJoin, .rejected "join plan differs from immutable genesis or replacement")
      else
        match preparedJoin with
        | some pending =>
            if pending.plan = plan then (preparedJoin, .ok)
            else (preparedJoin, .rejected "another join is pending")
        | none =>
            if membership.getJointConfig.length ≠ 1 ∨
                membership.voterIds ≠ plan.previousVoters then
              (preparedJoin, .rejected "join requires the exact stable applied voter set")
            else (some ⟨plan, logId, none⟩, .ok)
  | .learnerApplied consumer requestNonce prepared =>
      match preparedJoin with
      | none => (preparedJoin, .rejected "no join is pending")
      | some pending =>
          if pending.plan.consumer ≠ consumer ∨ pending.plan.requestNonce ≠ requestNonce ∨
              pending.prepared ≠ prepared ∨ genesis ≠ some pending.plan.genesis then
            (preparedJoin, .rejected "learner acknowledgement differs from prepared join")
          else if pending.learnerApplied.isSome then (preparedJoin, .ok)
          else if consumer ∉ membership.learnerIds ∨ membership.getJointConfig.length ≠ 1 ∨
              membership.voterIds ≠ pending.plan.previousVoters ∨ logId.index ≤ prepared.index then
            (preparedJoin, .rejected "acknowledgement requires the prepared learner stage")
          else (some { pending with learnerApplied := some logId }, .ok)

/-- What one admission command can do to the pending join: nothing, end it, start one, or
record the acknowledgement of its learner. -/
theorem admissionOutcome_cases (preparedJoin : Option PreparedJoin) (genesis : Option Genesis)
    (membership : Membership) (command : AdmissionCommand) (logId : LogId) :
    let outcome := admissionOutcome preparedJoin genesis membership command logId
    outcome.1 = preparedJoin ∨ outcome.1 = none ∨
      (∃ plan, command = .prepareJoin plan ∧ preparedJoin = none ∧ plan.validate = .ok () ∧
        genesis = some plan.genesis ∧ membership.voterIds = plan.previousVoters ∧
        outcome.1 = some ⟨plan, logId, none⟩) ∨
      ∃ pending, preparedJoin = some pending ∧ pending.prepared.index < logId.index ∧
        outcome.1 = some { pending with learnerApplied := some logId } := by
  cases command with
  | cancelJoin plan prepared =>
      simp only [admissionOutcome]
      split
      · exact .inl rfl
      · split
        · exact .inl rfl
        · exact .inr (.inl rfl)
  | prepareJoin plan =>
      simp only [admissionOutcome]
      split
      · exact .inl rfl
      · next hPlan =>
          rw [not_or, not_not, not_not] at hPlan
          cases preparedJoin with
          | some pending =>
              dsimp only
              split <;> exact .inl rfl
          | none =>
              dsimp only
              split
              · exact .inl rfl
              · next hStable =>
                  rw [not_or, not_not, not_not] at hStable
                  exact .inr (.inr (.inl ⟨plan, rfl, rfl, hPlan.1, hPlan.2, hStable.2, rfl⟩))
  | learnerApplied consumer requestNonce prepared =>
      cases preparedJoin with
      | none => exact .inl rfl
      | some pending =>
          simp only [admissionOutcome]
          split
          · exact .inl rfl
          · next hExact =>
              split
              · exact .inl rfl
              · split
                · exact .inl rfl
                · next hStage =>
                    simp only [not_or, not_not, Nat.not_le] at hExact hStage
                    refine .inr (.inr (.inr ⟨pending, rfl, ?_, rfl⟩))
                    rw [hExact.2.2.1]
                    exact hStage.2.2.2

def KafStorageState.applyAdmissionMembership (state : KafStorageState) (command : AdmissionCommand)
    (logId : LogId) : KafStorageState × KafResponse :=
  let outcome := admissionOutcome state.preparedJoin state.genesis state.lastMembership.membership
    command logId
  ({ state with preparedJoin := outcome.1 }, outcome.2)

/-- What the store remembers about a physical member's current boot. -/
structure BootEvidence where
  nodeHealth : ExtTreeMap Nat Bool
  nodeProbeTicks : ExtTreeMap Nat Nat
  nodeRecoveryTick : ExtTreeMap Nat Nat
  appliedProgress : ExtTreeMap Nat AppliedHealthProgress

def BootEvidence.forget (evidence : BootEvidence) (id : Nat) : BootEvidence where
  nodeHealth := evidence.nodeHealth.erase id
  nodeProbeTicks := evidence.nodeProbeTicks.erase id
  nodeRecoveryTick := evidence.nodeRecoveryTick.erase id
  appliedProgress := evidence.appliedProgress.erase id

/-- Once genesis is set, a member whose voting boot changes loses its evidence. -/
def KafStorageState.retainedEvidence (state : KafStorageState) (membership : Membership) :
    BootEvidence :=
  let before := uniqueVoters state.lastMembership.membership
  let after := uniqueVoters membership
  (Ascending.members (before.keys.toFinset ∪ after.keys.toFinset)).foldl
    (fun evidence id =>
      if state.genesis.isSome ∧ before[id]? ≠ after[id]? then evidence.forget id else evidence)
    ⟨state.nodeHealth, state.nodeProbeTicks, state.nodeRecoveryTick, state.appliedProgress⟩

/-- Whether this membership entry completes the pending join. -/
def PreparedJoin.completedBy (pending : PreparedJoin) (membership : Membership) (logId : LogId) :
    Bool :=
  pending.learnerApplied.any (fun ack => ack.index < logId.index) &&
    (membership.getJointConfig.length = 1) && (membership.voterIds = pending.plan.nextVoters)

def KafStorageState.applyMembership (state : KafStorageState) (membership : Membership)
    (logId : LogId) : KafStorageState :=
  let evidence := state.retainedEvidence membership
  let completed := state.preparedJoin.filter (·.completedBy membership logId)
  { state with
    nodeHealth := evidence.nodeHealth
    nodeProbeTicks := evidence.nodeProbeTicks
    nodeRecoveryTick := evidence.nodeRecoveryTick
    appliedProgress := evidence.appliedProgress.filter fun _ progress =>
      progress.request.replica ∈ membership.nodes
    completedJoins := match completed with
      | some pending => state.completedJoins.insert pending.plan.consumer.physicalId ⟨pending, logId⟩
      | none => state.completedJoins
    preparedJoin := if completed.isSome then none else state.preparedJoin
    lastMembership := ⟨some logId, membership⟩ }

/-! ### What a membership entry keeps of one member's evidence -/

/-- The evidence of one physical member. -/
structure MemberEvidence where
  health : Option Bool
  probeTick : Option Nat
  recoveryTick : Option Nat
  progress : Option AppliedHealthProgress

def BootEvidence.of (evidence : BootEvidence) (id : Nat) : MemberEvidence where
  health := evidence.nodeHealth[id]?
  probeTick := evidence.nodeProbeTicks[id]?
  recoveryTick := evidence.nodeRecoveryTick[id]?
  progress := evidence.appliedProgress[id]?

theorem BootEvidence.of_forget (evidence : BootEvidence) (forgotten id : Nat) :
    (evidence.forget forgotten).of id =
      if forgotten = id then ⟨none, none, none, none⟩ else evidence.of id := by
  simp only [BootEvidence.forget, BootEvidence.of, ExtTreeMap.getElem?_erase, compare_eq_iff_eq]
  split <;> rfl

/-- A member whose voting boot changes loses everything, the others nothing. -/
theorem KafStorageState.retainedEvidence_of (state : KafStorageState) (membership : Membership)
    (id : Nat) :
    (state.retainedEvidence membership).of id =
      if state.genesis.isSome ∧ (uniqueVoters state.lastMembership.membership)[id]? ≠
          (uniqueVoters membership)[id]? then ⟨none, none, none, none⟩
      else ⟨state.nodeHealth[id]?, state.nodeProbeTicks[id]?, state.nodeRecoveryTick[id]?,
        state.appliedProgress[id]?⟩ := by
  set before := uniqueVoters state.lastMembership.membership
  set after := uniqueVoters membership
  have hFold : ∀ (ids : List Nat) (evidence : BootEvidence),
      (ids.foldl (fun evidence id => if state.genesis.isSome ∧ before[id]? ≠ after[id]? then
          evidence.forget id else evidence) evidence).of id =
        if id ∈ ids ∧ state.genesis.isSome ∧ before[id]? ≠ after[id]? then ⟨none, none, none, none⟩
        else evidence.of id := by
    intro ids
    induction ids with
    | nil => simp
    | cons first rest ih =>
        intro evidence
        rw [List.foldl_cons, ih]
        by_cases hChanged : state.genesis.isSome ∧ before[id]? ≠ after[id]?
        · by_cases hFirst : first = id
          · subst hFirst
            simp [hChanged, BootEvidence.of_forget]
          · have hKept : (if state.genesis.isSome ∧ before[first]? ≠ after[first]? then
                evidence.forget first else evidence).of id = evidence.of id := by
              split
              · rw [BootEvidence.of_forget, if_neg hFirst]
              · rfl
            rw [hKept]
            simp [Ne.symm hFirst]
        · have hKept : (if state.genesis.isSome ∧ before[first]? ≠ after[first]? then
              evidence.forget first else evidence).of id = evidence.of id := by
            split
            · next hFirst =>
                rw [BootEvidence.of_forget, if_neg]
                rintro rfl
                exact hChanged hFirst
            · rfl
          rw [hKept, if_neg (fun h => hChanged h.2), if_neg (fun h => hChanged h.2)]
  rw [retainedEvidence, hFold]
  have hListed : before[id]? ≠ after[id]? →
      id ∈ Ascending.members (before.keys.toFinset ∪ after.keys.toFinset) := by
    intro hNe
    rw [Ascending.mem_members, Finset.mem_union, List.mem_toFinset, List.mem_toFinset,
      ExtTreeMap.mem_keys, ExtTreeMap.mem_keys]
    by_contra hNone
    rw [not_or] at hNone
    rw [ExtTreeMap.getElem?_eq_none hNone.1, ExtTreeMap.getElem?_eq_none hNone.2] at hNe
    exact hNe rfl
  by_cases hChanged : state.genesis.isSome ∧ before[id]? ≠ after[id]?
  · rw [if_pos ⟨hListed hChanged.2, hChanged⟩, if_pos hChanged]
  · rw [if_neg (fun h => hChanged h.2), if_neg hChanged]
    rfl

end KeepAfloat
