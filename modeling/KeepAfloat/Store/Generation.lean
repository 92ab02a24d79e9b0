import KeepAfloat.Store.Fence

/-! Generation discipline of the replicated assignments. The results speak about
the maps of the store; they are the chain of the fence machine read through the
refinement. -/

namespace KeepAfloat

/-- The last generation that a VIP used, zero before the first. -/
def KafStorageState.generationOf (state : KafStorageState) (vip : IpAddr) : Nat :=
  state.vipGeneration[vip]?.getD 0

/-- The VIP has a holder after the step that was not its holder before it: it
changed hands, or it regained a holder after an ownerless interval. -/
def HolderGained (before after : KafStorageState) (vip : IpAddr) : Prop :=
  ∃ assignment, after.vipAssignments[vip]? = some assignment ∧
    ∀ old, before.vipAssignments[vip]? = some old → old.holder ≠ assignment.holder

theorem holderGained_iff {before after : KafStorageState} {vip : IpAddr} :
    HolderGained before after vip ↔ VipFence.GainsHolder (before.fence vip) (after.fence vip) := by
  simp only [HolderGained, VipFence.GainsHolder, KafStorageState.fence]
  refine exists_congr fun assignment => and_congr_right fun _ => ?_
  cases before.vipAssignments[vip]? with
  | none => simp
  | some old => simp

section Run

variable {config : StoreConfig} {entries : List Entry}

theorem generationOf_succ (hShort : entries.length < 2 ^ 64) {i : Nat} (hi : i < entries.length)
    (vip : IpAddr) :
    (HolderGained (stateAfter config entries i) (stateAfter config entries (i + 1)) vip →
        (stateAfter config entries (i + 1)).generationOf vip =
          (stateAfter config entries i).generationOf vip + 1) ∧
      (¬HolderGained (stateAfter config entries i) (stateAfter config entries (i + 1)) vip →
        (stateAfter config entries (i + 1)).generationOf vip =
          (stateAfter config entries i).generationOf vip) := by
  obtain ⟨events, hLength, -, hRun⟩ := exists_fence_run config entries vip
  have hEvents : events.length ≤ Word64.maxWord := by
    rw [hLength, Word64.maxWord]
    omega
  have hi' : i < events.length := hLength ▸ hi
  have hOver : HolderGained (stateAfter config entries i) (stateAfter config entries (i + 1)) vip ↔
      (fenceAt events i).HandsOver events[i] := by
    rw [holderGained_iff, hRun i hi.le, hRun (i + 1) hi, fenceAt_succ hi', VipFence.handsOver_iff]
  have hNumber : ∀ k, k ≤ entries.length →
      (stateAfter config entries k).generationOf vip = (fenceAt events k).lastGeneration := by
    intro k hk
    rw [← hRun k hk]
    rfl
  rw [hOver, hNumber i hi.le, hNumber (i + 1) hi]
  exact lastGeneration_succ hEvents hi'

/-- What a VIP is assigned under never falls below an earlier assignment, however long
the run. -/
theorem generation_le {vip : IpAddr} {i j : Nat} (hij : i ≤ j) (hj : j ≤ entries.length)
    {earlier later : VipAssignment}
    (hEarlier : (stateAfter config entries i).vipAssignments[vip]? = some earlier)
    (hLater : (stateAfter config entries j).vipAssignments[vip]? = some later) :
    earlier.generation ≤ later.generation := by
  obtain ⟨events, hLength, -, hRun⟩ := exists_fence_run config entries vip
  have hFirst : (fenceAt events i).assignment = some earlier := by
    rw [← hRun i (hij.trans hj)]
    exact hEarlier
  have hLast : (fenceAt events j).assignment = some later := by
    rw [← hRun j hj]
    exact hLater
  rw [(fenceAt_numbered events i).assigned _ hFirst, (fenceAt_numbered events j).assigned _ hLast]
  exact lastGeneration_mono hij (hLength ▸ hj)

/-- Generation discipline, for every run shorter than the 64-bit word. -/
theorem generation_discipline (config : StoreConfig) (entries : List Entry)
    (hShort : entries.length < 2 ^ 64) (vip : IpAddr) :
    (∀ i, i < entries.length →
      (HolderGained (stateAfter config entries i) (stateAfter config entries (i + 1)) vip →
        (stateAfter config entries (i + 1)).generationOf vip =
          (stateAfter config entries i).generationOf vip + 1) ∧
      (¬HolderGained (stateAfter config entries i) (stateAfter config entries (i + 1)) vip →
        (stateAfter config entries (i + 1)).generationOf vip =
          (stateAfter config entries i).generationOf vip)) ∧
    (∀ i, i ≤ entries.length → ∀ assignment,
      (stateAfter config entries i).vipAssignments[vip]? = some assignment →
        (stateAfter config entries i).vipGeneration[vip]? = some assignment.generation) ∧
    (∀ i j, i ≤ entries.length → j ≤ entries.length → ∀ first second,
      (stateAfter config entries i).vipAssignments[vip]? = some first →
      (stateAfter config entries j).vipAssignments[vip]? = some second →
      first.generation = second.generation →
        first.holder = second.holder ∧ first.previousHolder = second.previousHolder ∧
          first.activationTick = second.activationTick) ∧
    (∀ i, i ≤ entries.length → ∀ assignment,
      (stateAfter config entries i).vipAssignments[vip]? = some assignment →
        (assignment.previousHolder = none ↔ assignment.generation = 1) ∧
        ∀ previous, assignment.previousHolder = some previous →
          ∃ k, k < i ∧ ∃ earlier,
            (stateAfter config entries k).vipAssignments[vip]? = some earlier ∧
            earlier.generation + 1 = assignment.generation ∧ earlier.holder = previous) ∧
    (∀ i, i ≤ entries.length → ∀ assignment previous,
      (stateAfter config entries i).vipAssignments[vip]? = some assignment →
      assignment.previousHolder = some previous → assignment.previousHolderReleased = true →
        ∃ k, k < i ∧ ∃ entry, entries[k]? = some entry ∧
          entry.payload = .normal (.vipReleased previous vip assignment.generation) ∧
          ∃ standing, (stateAfter config entries k).vipAssignments[vip]? = some standing ∧
            standing.generation = assignment.generation) := by
  obtain ⟨events, hLength, hKnown, hRun⟩ := exists_fence_run config entries vip
  have hEvents : events.length ≤ Word64.maxWord := by
    rw [hLength, Word64.maxWord]
    omega
  have hAssigned : ∀ k, k ≤ entries.length →
      (stateAfter config entries k).vipAssignments[vip]? = (fenceAt events k).assignment := by
    intro k hk
    rw [← hRun k hk]
    rfl
  refine ⟨fun i hi => generationOf_succ hShort hi vip, ?_, ?_, ?_, ?_⟩
  · intro i hi assignment hAssignment
    rw [hAssigned i hi] at hAssignment
    obtain ⟨chain, -, -, -, hOn⟩ := exists_chain hEvents i (hLength ▸ hi)
    have hNumber := (hOn i le_rfl).generation_eq hAssignment
    rw [← hRun i hi] at hNumber
    exact hNumber
  · intro i j hi hj first second hFirst hSecond hGeneration
    rw [hAssigned i hi] at hFirst
    rw [hAssigned j hj] at hSecond
    have hSame := handoff_eq_of_generation_eq hEvents (hLength ▸ hi) (hLength ▸ hj) hFirst hSecond
      hGeneration
    exact ⟨congrArg Handoff.holder hSame, congrArg Handoff.previousHolder hSame,
      congrArg Handoff.activationTick hSame⟩
  · intro i hi assignment hAssignment
    rw [hAssigned i hi] at hAssignment
    obtain ⟨hNone, hSome⟩ := previousHolder_spec hEvents (hLength ▸ hi) hAssignment
    refine ⟨hNone, fun previous hPrevious => ?_⟩
    obtain ⟨k, hk, earlier, hEarlier, hRest⟩ := hSome previous hPrevious
    exact ⟨k, hk, earlier, (hAssigned k (by omega)).trans hEarlier, hRest⟩
  · intro i hi assignment previous hAssignment hPrevious hReleased
    rw [hAssigned i hi] at hAssignment
    obtain ⟨k, hk, hLt, hEvent, standing, hStanding, hNumber, -⟩ :=
      exists_release i (hLength ▸ hi) hAssignment hReleased hPrevious
    have hkLt : k < entries.length := hLength ▸ hLt
    obtain ⟨event, hAt, hExplains⟩ := hKnown k hkLt
    rw [List.getElem?_eq_getElem hLt, hEvent] at hAt
    obtain rfl := Option.some.inj hAt
    exact ⟨k, hk, entries[k], List.getElem?_eq_getElem hkLt, hExplains, standing,
      (hAssigned k hkLt.le).trans hStanding, hNumber⟩

end Run

/-! A log in which three healthy voters hand one VIP on twice: node 1 fails and
node 2 takes over, node 2 fails and node 3 takes over, node 2 acknowledges. -/

def handoffVip : IpAddr := .v4 0xC0000201

def handoffConfig : StoreConfig where
  vipList := ⟨[(⟨handoffVip, 24⟩, "eth0")], by decide⟩
  staleMissedProbes := 2
  failback := true
  failbackDelayTicks := 0

def handoffReplica (physicalId : Nat) : ReplicaId := ⟨physicalId, 1⟩

def handoffMembership : Membership where
  configs := [{handoffReplica 1, handoffReplica 2, handoffReplica 3}]
  nodes := .ofList [(handoffReplica 1, BasicNode.mk "a:1"), (handoffReplica 2, BasicNode.mk "b:1"),
    (handoffReplica 3, BasicNode.mk "c:1")]

def handoffPayloads : List EntryPayload :=
  [.membership handoffMembership, .normal (.healthUpdate 1 true), .normal (.healthUpdate 2 true),
    .normal (.healthUpdate 3 true), .normal (.healthUpdate 1 false),
    .normal (.healthUpdate 2 false), .normal (.vipReleased 2 handoffVip 3),
    .normal (.healthUpdate 3 true), .normal (.healthUpdate 1 false)]

def handoffLog : List Entry :=
  handoffPayloads.zipIdx.map fun (payload, index) => ⟨⟨⟨1, handoffReplica 1⟩, index⟩, payload⟩

theorem generation_discipline_handoff :
    handoffLog.length < 2 ^ 64 ∧
      ∃ k, k < 9 ∧ ∃ entry, handoffLog[k]? = some entry ∧
        entry.payload = .normal (.vipReleased 2 handoffVip 3) ∧
        ∃ standing, (stateAfter handoffConfig handoffLog k).vipAssignments[handoffVip]? =
          some standing ∧ standing.generation = 3 :=
  ⟨by decide, (generation_discipline handoffConfig handoffLog (by decide) handoffVip).2.2.2.2 9
    (by decide) ⟨3, 3, some 2, true, 3⟩ 2 (by decide +kernel) rfl rfl⟩

end KeepAfloat
