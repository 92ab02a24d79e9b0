import KeepAfloat.Store.Assign

/-! Recomputing the holders and merging them into the fenced assignments. The
merge is a loop over the configured VIPs on three maps. Its meaning for one VIP
is a transition of that VIP's fence: the current assignment, the last generation
used, and the last holder, which outlives an ownerless interval. -/

namespace KeepAfloat

open Std (ExtTreeMap)

/-- Legacy ownership: blocked nodes are not eligible, every eligible node may
receive a proactive move. -/
def recomputeVipHolder (membership : StoredMembership) (inputs : EligibilityInputs)
    (nodeFailbackBlocked : Finset Nat) (vipList : VipTable)
    (currentHolders : ExtTreeMap IpAddr Nat) : ExtTreeMap IpAddr Nat :=
  assignVipsMinimalMovement (eligibleNodes membership inputs nodeFailbackBlocked) vipList.addrs
    currentHolders

/-- V2 ownership: failed nopreempt nodes may receive orphans but not proactive
moves. -/
def recomputeVipHolderV2 (membership : StoredMembership) (inputs : EligibilityInputs)
    (nodeNopreempt : Finset Nat) (vipList : VipTable)
    (currentHolders : ExtTreeMap IpAddr Nat) : ExtTreeMap IpAddr Nat :=
  let eligible := eligibleNodes membership inputs ∅
  assignVipsMinimalMovementWithReceivers eligible (eligible.filter (· ∉ nodeNopreempt))
    vipList.addrs currentHolders

/-- The maps of the merge loop. `assignments` is drained into `next`. -/
structure ReconcileState where
  assignments : ExtTreeMap IpAddr VipAssignment
  generation : ExtTreeMap IpAddr Nat
  lastHolder : ExtTreeMap IpAddr Nat
  next : ExtTreeMap IpAddr VipAssignment

/-- One VIP of the merge loop. -/
def reconcileVip (newHolders : ExtTreeMap IpAddr Nat) (latestProbeTick : Nat)
    (state : ReconcileState) (vip : IpAddr) : ReconcileState :=
  let oldAssignment := state.assignments[vip]?
  let assignments := state.assignments.erase vip
  let currentGeneration := state.generation[vip]?.getD 0
  let lastHolder := match oldAssignment with
    | some assignment => state.lastHolder.insert vip assignment.holder
    | none => state.lastHolder
  match newHolders[vip]? with
  | none => { state with assignments := assignments, lastHolder := lastHolder }
  | some holder =>
      let nextGeneration := Word64.satAdd currentGeneration 1
      match oldAssignment with
      | some existing =>
          if existing.holder = holder then
            { assignments := assignments
              generation := state.generation
              lastHolder := lastHolder.insert vip holder
              next := state.next.insert vip existing }
          else
            { assignments := assignments
              generation := state.generation.insert vip nextGeneration
              lastHolder := lastHolder.insert vip holder
              next := state.next.insert vip
                { holder := holder
                  generation := nextGeneration
                  previousHolder := some existing.holder
                  previousHolderReleased := false
                  activationTick :=
                    Word64.satAdd latestProbeTick ownershipActivationHoldoffTicks } }
      | none =>
          let previousHolder := lastHolder[vip]?
          { assignments := assignments
            generation := state.generation.insert vip nextGeneration
            lastHolder := lastHolder.insert vip holder
            next := state.next.insert vip
              { holder := holder
                generation := nextGeneration
                previousHolder := previousHolder
                previousHolderReleased := previousHolder.isNone
                -- Only a true cold start may activate immediately.
                activationTick :=
                  if currentGeneration = 0 then latestProbeTick
                  else Word64.satAdd latestProbeTick ownershipActivationHoldoffTicks } }

/-- Merge the recomputed holders. VIPs outside the configured list lose their
assignment. -/
def reconcileVipAssignments (newHolders : ExtTreeMap IpAddr Nat) (latestProbeTick : Nat)
    (vipList : VipTable) (assignments : ExtTreeMap IpAddr VipAssignment)
    (generation lastHolder : ExtTreeMap IpAddr Nat) : ReconcileState :=
  vipList.addrs.foldl (reconcileVip newHolders latestProbeTick)
    { assignments := assignments, generation := generation, lastHolder := lastHolder, next := ∅ }

/-- The handoff state of one VIP. -/
structure VipFence where
  assignment : Option VipAssignment
  generation : Option Nat
  lastHolder : Option Nat
  deriving DecidableEq, Repr

namespace VipFence

/-- A holder is taken away. -/
def vacate (fence : VipFence) : VipFence where
  assignment := none
  generation := fence.generation
  lastHolder := (fence.assignment.map VipAssignment.holder).or fence.lastHolder

/-- A holder takes over under the next generation. -/
def handoff (latestProbeTick holder : Nat) (fence : VipFence) : VipFence :=
  let previousHolder := (fence.assignment.map VipAssignment.holder).or fence.lastHolder
  let generation := Word64.satAdd (fence.generation.getD 0) 1
  { assignment := some
      { holder := holder
        generation := generation
        previousHolder := previousHolder
        previousHolderReleased := fence.assignment.isNone && previousHolder.isNone
        activationTick :=
          if fence.assignment = none ∧ fence.generation.getD 0 = 0 then latestProbeTick
          else Word64.satAdd latestProbeTick ownershipActivationHoldoffTicks }
    generation := some generation
    lastHolder := some holder }

/-- A release acknowledgement, honoured only for the handoff that it names. -/
def release (nodeId generation : Nat) (fence : VipFence) : VipFence :=
  { fence with
    assignment := fence.assignment.map fun assignment =>
      if assignment.generation = generation ∧ assignment.previousHolder = some nodeId then
        { assignment with previousHolderReleased := true }
      else assignment }

/-- The merge as one VIP sees it. -/
def reconcile (latestProbeTick : Nat) (nextHolder : Option Nat) (fence : VipFence) : VipFence :=
  match nextHolder with
  | none => fence.vacate
  | some holder =>
      if fence.assignment.map VipAssignment.holder = some holder then
        { fence with lastHolder := some holder }
      else fence.handoff latestProbeTick holder

end VipFence

namespace ReconcileState

/-- The fence that a VIP brings into the loop. -/
def before (state : ReconcileState) (vip : IpAddr) : VipFence :=
  ⟨state.assignments[vip]?, state.generation[vip]?, state.lastHolder[vip]?⟩

/-- The fence that a VIP takes out of the loop. -/
def after (state : ReconcileState) (vip : IpAddr) : VipFence :=
  ⟨state.next[vip]?, state.generation[vip]?, state.lastHolder[vip]?⟩

end ReconcileState

theorem reconcileVip_after (newHolders : ExtTreeMap IpAddr Nat) (latestProbeTick : Nat)
    (state : ReconcileState) (vip : IpAddr) (hFree : state.next[vip]? = none) :
    (reconcileVip newHolders latestProbeTick state vip).after vip =
      (state.before vip).reconcile latestProbeTick newHolders[vip]? := by
  rw [reconcileVip, ReconcileState.before]
  cases hNext : newHolders[vip]? with
  | none =>
      cases hOld : state.assignments[vip]? with
      | none => simp [ReconcileState.after, VipFence.reconcile, VipFence.vacate, hFree]
      | some existing => simp [ReconcileState.after, VipFence.reconcile, VipFence.vacate, hFree]
  | some holder =>
      cases hOld : state.assignments[vip]? with
      | none => simp [ReconcileState.after, VipFence.reconcile, VipFence.handoff]
      | some existing =>
          by_cases hSame : existing.holder = holder
          · simp [ReconcileState.after, VipFence.reconcile, hSame]
          · simp [ReconcileState.after, VipFence.reconcile, VipFence.handoff, hSame]

/-- The loop body leaves the other VIPs alone. -/
theorem reconcileVip_frame (newHolders : ExtTreeMap IpAddr Nat) (latestProbeTick : Nat)
    (state : ReconcileState) {vip other : IpAddr} (hNe : other ≠ vip) :
    (reconcileVip newHolders latestProbeTick state vip).before other = state.before other ∧
      (reconcileVip newHolders latestProbeTick state vip).after other = state.after other := by
  have hNe' : ¬vip = other := Ne.symm hNe
  rw [reconcileVip]
  cases newHolders[vip]? with
  | none =>
      cases state.assignments[vip]? with
      | none =>
          simp [ReconcileState.before, ReconcileState.after, ExtTreeMap.getElem?_erase, hNe']
      | some existing =>
          simp [ReconcileState.before, ReconcileState.after, ExtTreeMap.getElem?_erase,
            ExtTreeMap.getElem?_insert, hNe']
  | some holder =>
      cases state.assignments[vip]? with
      | none =>
          simp [ReconcileState.before, ReconcileState.after, ExtTreeMap.getElem?_erase,
            ExtTreeMap.getElem?_insert, hNe']
      | some existing =>
          by_cases hSame : existing.holder = holder
          · simp [ReconcileState.before, ReconcileState.after, ExtTreeMap.getElem?_erase,
              ExtTreeMap.getElem?_insert, hNe', hSame]
          · simp [ReconcileState.before, ReconcileState.after, ExtTreeMap.getElem?_erase,
              ExtTreeMap.getElem?_insert, hNe', hSame]

private theorem reconcileVip_foldl (newHolders : ExtTreeMap IpAddr Nat) (latestProbeTick : Nat)
    (vips : List IpAddr) (hNodup : vips.Nodup) (state : ReconcileState)
    (hFree : ∀ vip : IpAddr, state.next[vip]? = none) (vip : IpAddr) :
    (vip ∉ vips →
        (vips.foldl (reconcileVip newHolders latestProbeTick) state).before vip =
          state.before vip) ∧
      (vips.foldl (reconcileVip newHolders latestProbeTick) state).after vip =
        if vip ∈ vips then (state.before vip).reconcile latestProbeTick newHolders[vip]?
        else state.after vip := by
  induction vips using List.reverseRecOn with
  | nil => simp
  | append_singleton vips last ih =>
      have hSplit := List.nodup_append.mp hNodup
      have hFresh : last ∉ vips := fun hMem => hSplit.2.2 _ hMem _ (by simp) rfl
      obtain ⟨hKept, hDone⟩ := ih hSplit.1
      rw [List.foldl_append, List.foldl_cons, List.foldl_nil]
      set done := vips.foldl (reconcileVip newHolders latestProbeTick) state
      by_cases hv : vip = last
      · subst hv
        rw [if_neg hFresh] at hDone
        have hNext : done.next[vip]? = none :=
          (congrArg VipFence.assignment hDone).trans (hFree vip)
        refine ⟨fun hNot => absurd (by simp) hNot, ?_⟩
        rw [reconcileVip_after _ _ _ _ hNext, hKept hFresh]
        simp
      · obtain ⟨hBefore, hAfter⟩ := reconcileVip_frame newHolders latestProbeTick done hv
        rw [hBefore, hAfter, hDone]
        refine ⟨fun hNot => hKept fun hMem => hNot (List.mem_append_left _ hMem), ?_⟩
        simp [hv]

/-- The merge, VIP by VIP. -/
theorem reconcileVipAssignments_after (newHolders : ExtTreeMap IpAddr Nat) (latestProbeTick : Nat)
    (vipList : VipTable) (assignments : ExtTreeMap IpAddr VipAssignment)
    (generation lastHolder : ExtTreeMap IpAddr Nat) (vip : IpAddr) :
    (reconcileVipAssignments newHolders latestProbeTick vipList assignments generation
        lastHolder).after vip =
      if vip ∈ vipList.addrs then
        VipFence.reconcile latestProbeTick newHolders[vip]?
          ⟨assignments[vip]?, generation[vip]?, lastHolder[vip]?⟩
      else ⟨none, generation[vip]?, lastHolder[vip]?⟩ := by
  have hFold := (reconcileVip_foldl newHolders latestProbeTick vipList.addrs vipList.nodup_addrs
    ⟨assignments, generation, lastHolder, ∅⟩ (by simp) vip).2
  rw [reconcileVipAssignments, hFold]
  simp [ReconcileState.before, ReconcileState.after]

end KeepAfloat
