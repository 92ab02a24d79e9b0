import KeepAfloat.Store.Generation
import KeepAfloat.Store.Placement

/-! No churn: a recomputation under the same eligible nodes and the same receivers finds the
placement that it left behind, and keeps every fence. -/

namespace KeepAfloat

open Std (ExtTreeMap)

/-! ### A placement is a fixed point of the assignment -/

section Fixed

variable {vips : List IpAddr} {eligible receivers : List Nat} {holders : ExtTreeMap IpAddr Nat}

/-- Placement speaks of the eligible nodes and the receivers as sets. -/
theorem Placed.congr {eligible' receivers' : List Nat} (h : Placed vips eligible receivers holders)
    (hEligible : ∀ node, node ∈ eligible' ↔ node ∈ eligible)
    (hReceivers : ∀ node, node ∈ receivers' ↔ node ∈ receivers) :
    Placed vips eligible' receivers' holders where
  placed_mem vip node hNode := by
    rw [hEligible]
    exact h.placed_mem vip node hNode
  total hSome := by
    obtain ⟨node, hNode⟩ := List.exists_mem_of_ne_nil _ hSome
    exact h.total (List.ne_nil_of_mem ((hEligible node).mp hNode))
  balanced donor hDonor recv hRecv hReceiver :=
    h.balanced donor ((hEligible donor).mp hDonor) recv ((hEligible recv).mp hRecv)
      ((hReceivers recv).mp hReceiver)

/-- Pass 1 keeps every holder of a placement. -/
theorem Placed.keptHolder_eq (h : Placed vips eligible receivers holders) (vip : IpAddr) :
    keptHolder eligible.toFinset holders vip = holders[vip]? := by
  cases hHolder : holders[vip]? with
  | none => simp [keptHolder, hHolder]
  | some holder =>
      exact keptHolder_eq_some.mpr
        ⟨hHolder, List.mem_toFinset.mpr (h.placed_mem vip holder hHolder).2⟩

/-- A placement leaves pass 2 without orphans and pass 3 without a move. -/
theorem Placed.assign_eq (h : Placed vips eligible receivers holders) (hNodup : vips.Nodup) :
    assignVipsMinimalMovementWithReceivers eligible receivers vips holders = holders := by
  rw [assignVipsMinimalMovementWithReceivers]
  by_cases hEmpty : eligible = []
  · rw [if_pos hEmpty]
    refine ExtTreeMap.ext_getElem? fun vip => ?_
    cases hHolder : holders[vip]? with
    | none => simp
    | some holder =>
        have hMem := (h.placed_mem vip holder hHolder).2
        rw [hEmpty] at hMem
        cases hMem
  · rw [if_neg hEmpty]
    have hPerm : (vips.insertionSort (· ≤ ·)).Perm vips := List.perm_insertionSort _ _
    have hSubset : ∀ vip ∈ vips.insertionSort (· ≤ ·), vip ∈ vips.toFinset := fun vip hVip =>
      List.mem_toFinset.mpr (hPerm.mem_iff.mp hVip)
    obtain ⟨hKept, hPlaced, hOrphans⟩ :=
      keepPass_foldl eligible holders _ (hPerm.nodup_iff.mpr hNodup) hSubset
    dsimp only
    set kept := (vips.insertionSort (· ≤ ·)).foldl (keepPass eligible.toFinset holders)
      (AssignState.seed eligible, [])
    have hNoOrphan : kept.2 = [] := by
      rw [hOrphans, List.filter_eq_nil_iff]
      intro vip hVip
      rw [h.keptHolder_eq]
      simpa [Option.isSome_iff_ne_none] using h.total hEmpty vip (hPerm.mem_iff.mp hVip)
    have hSame : kept.1.placement = fun vip => holders[vip]? := by
      funext vip
      rw [hPlaced, h.keptHolder_eq]
      split
      · rfl
      · next hOther =>
          cases hHolder : holders[vip]? with
          | none => rfl
          | some holder =>
              exact absurd (hPerm.mem_iff.mpr (h.placed_mem vip holder hHolder).1) hOther
    have hDone : rebalanceStep receivers.toFinset kept.1 = none := by
      rw [Option.eq_none_iff_forall_ne_some]
      intro next hNext
      obtain ⟨vip, donor, recv, -, hMove⟩ := rebalanceStep_some hKept hNext
      have hLevel := h.balanced donor (List.mem_toFinset.mp hMove.donor_mem) recv
        (List.mem_toFinset.mp hMove.recv_mem) (List.mem_toFinset.mp hMove.receiver)
      have hGap := hMove.gap
      rw [hSame] at hGap
      omega
    rw [hNoOrphan, orphanPass, rebalance_of_rebalanceStep hDone]
    exact ExtTreeMap.ext_getElem? fun vip => congrFun hSame vip

end Fixed

/-! ### The fence remembers its holder -/

namespace VipFence

/-- The holder of an assignment is also the last holder. -/
def Remembers (fence : VipFence) : Prop :=
  ∀ assignment, fence.assignment = some assignment → fence.lastHolder = some assignment.holder

theorem Remembers.advance {fence : VipFence} (h : fence.Remembers) (event : FenceEvent) :
    (fence.advance event).Remembers := by
  intro assignment hAssignment
  rcases advance_cases fence event with ⟨nodeId, generation, -, hEq⟩ | hEq | hEq |
    ⟨existing, hExisting, hEq⟩ | ⟨latestProbeTick, holder, -, -, hEq⟩
  · rw [hEq] at hAssignment ⊢
    obtain ⟨old, hOld, rfl⟩ := Option.map_eq_some_iff.mp hAssignment
    refine (h old hOld).trans ?_
    split
    · rfl
    · rfl
  · rw [hEq] at hAssignment ⊢
    exact h assignment hAssignment
  · rw [hEq] at hAssignment
    cases hAssignment
  · rw [hEq] at hAssignment ⊢
    rw [Option.some.inj (hExisting.symm.trans hAssignment)]
  · rw [hEq] at hAssignment ⊢
    obtain rfl := Option.some.inj hAssignment
    rfl

/-- Merging the holder that a fence already has changes nothing. -/
theorem Remembers.reconcile_holder {fence : VipFence} (h : fence.Remembers) (latestProbeTick : Nat) :
    fence.reconcile latestProbeTick (fence.assignment.map VipAssignment.holder) = fence := by
  obtain ⟨assignment, generation, lastHolder⟩ := fence
  cases assignment with
  | none => rfl
  | some assignment =>
      have hLast : lastHolder = some assignment.holder := h assignment rfl
      simp [reconcile, hLast]

end VipFence

theorem fence_remembers (config : StoreConfig) (entries : List Entry) (i : Nat) (vip : IpAddr) :
    ((stateAfter config entries i).fence vip).Remembers := by
  obtain ⟨events, -, -, hRun⟩ := exists_fence_run config (entries.take i) vip
  have hFence := hRun (entries.take i).length le_rfl
  rw [stateAfter, Runs.stateAt_length] at hFence
  have hInv : (fenceAt events (entries.take i).length).Remembers := by
    apply Runs.stateAt_invariant VipFence.advance VipFence.empty VipFence.Remembers
    · intro assignment hAssignment
      cases hAssignment
    · intro fence event h
      exact h.advance event
  rw [← hFence] at hInv
  exact hInv

/-! ### Recomputing from a reached state -/

namespace KafStorageState

/-- What placement promises of the stored assignments is what the assignment promises. -/
theorem Placement.placed {state : KafStorageState} (h : state.Placement)
    (hConfigured : ∀ vip, vip ∉ state.vipList.addrs → state.holderOf vip = none) :
    Placed state.vipList.addrs state.eligible state.rebalanceReceivers state.currentHolders := by
  have hHolders : (fun vip => state.currentHolders[vip]?) = state.holderOf :=
    funext state.getElem?_currentHolders
  refine ⟨fun vip node hNode => ?_, fun hSome vip hVip => ?_, fun donor hDonor recv hRecv hReceiver => ?_⟩
  · rw [getElem?_currentHolders] at hNode
    refine ⟨?_, mem_eligible.mpr ⟨h.holder_voter vip node hNode, h.holder_eligible vip node hNode⟩⟩
    by_contra hOther
    rw [hConfigured vip hOther] at hNode
    cases hNode
  · rw [getElem?_currentHolders]
    obtain ⟨node, hNode⟩ := List.exists_mem_of_ne_nil _ hSome
    exact h.assigned ⟨node, mem_eligible.mp hNode⟩ vip hVip
  · rw [hHolders, ← loadOf_eq, ← loadOf_eq]
    rw [rebalanceReceivers] at hReceiver
    cases hSemantics : state.failoverSemantics with
    | legacy => exact h.balanced (Or.inl hSemantics) donor hDonor recv hRecv
    | v2 =>
        cases hFailback : state.failback with
        | true => exact h.balanced (Or.inr hFailback) donor hDonor recv hRecv
        | false =>
            rw [hSemantics] at hReceiver
            have hOpen := (List.mem_filter.mp hReceiver).2
            exact h.nopreempt hSemantics hFailback donor hDonor recv hRecv (by simpa using hOpen)

/-- A recomputation that finds its own placement keeps every fence. -/
theorem fence_recompute_of_placed {state : KafStorageState}
    (hPlaced : Placed state.vipList.addrs state.recompute.eligible
      state.recompute.rebalanceReceivers state.currentHolders)
    (hRemembers : ∀ vip, (state.fence vip).Remembers) (vip : IpAddr) :
    state.recompute.fence vip = state.fence vip := by
  obtain ⟨nopreempt, pending, ticks, hTracked⟩ := trackFailback_frame state
  have hList : state.trackFailback.vipList = state.vipList := by rw [hTracked]
  have hCurrent : state.trackFailback.currentHolders = state.currentHolders := by rw [hTracked]; rfl
  have hHolders : state.trackFailback.recomputedHolders = state.currentHolders := by
    rw [recomputedHolders_eq, hList, hCurrent]
    exact hPlaced.assign_eq state.vipList.nodup_addrs
  have hHolder : state.currentHolders[vip]? = (state.fence vip).assignment.map VipAssignment.holder :=
    state.getElem?_currentHolders vip
  rw [fence_recompute, hHolders, hHolder]
  split
  · exact (hRemembers vip).reconcile_holder _
  · next hOther =>
      have hNone : (state.fence vip).assignment = none := by
        rw [← Option.map_eq_none_iff (f := VipAssignment.holder), ← hHolder,
          Option.eq_none_iff_forall_ne_some]
        exact fun node hNode => hOther (hPlaced.placed_mem vip node hNode).1
      rw [← hNone]

theorem sameVips_of_fence {first second : KafStorageState}
    (h : ∀ vip, first.fence vip = second.fence vip) : first.SameVips second where
  vipAssignments := ExtTreeMap.ext_getElem? fun vip => congrArg VipFence.assignment (h vip)
  vipGeneration := ExtTreeMap.ext_getElem? fun vip => congrArg VipFence.generation (h vip)
  vipLastHolder := ExtTreeMap.ext_getElem? fun vip => congrArg VipFence.lastHolder (h vip)

/-- Entries other than releases keep the VIP maps under the same eligible nodes and receivers. -/
theorem step_sameVips {before : KafStorageState} {entry : Entry}
    (hPlaced : Placed before.vipList.addrs before.eligible before.rebalanceReceivers
      before.currentHolders)
    (hRemembers : ∀ vip, (before.fence vip).Remembers)
    (hOther : ∀ nodeId vip generation, entry.payload ≠ .normal (.vipReleased nodeId vip generation))
    (hEligible : ∀ node, node ∈ (before.step entry).eligible ↔ node ∈ before.eligible)
    (hReceivers : ∀ node, node ∈ (before.step entry).rebalanceReceivers ↔
      node ∈ before.rebalanceReceivers) :
    (before.step entry).SameVips before := by
  obtain ⟨hConfig, hVips⟩ := dispatch_frame { before with lastAppliedLog := some entry.logId } entry
  have hSame := hVips hOther
  rw [step, applyOne, Dispatched.finish] at hEligible hReceivers ⊢
  set dispatched := { before with lastAppliedLog := some entry.logId }.dispatch entry
  dsimp only at hEligible hReceivers ⊢
  have hFence : ∀ vip, dispatched.state.fence vip = before.fence vip := fun vip =>
    fence_congr hSame.vipAssignments hSame.vipGeneration hSame.vipLastHolder vip
  have hList : dispatched.state.vipList = before.vipList := hConfig.vipList
  have hCurrent : dispatched.state.currentHolders = before.currentHolders := by
    rw [currentHolders, hSame.vipAssignments]
    rfl
  cases hRecompute : dispatched.shouldRecompute with
  | false => exact sameVips_of_fence hFence
  | true =>
      rw [hRecompute] at hEligible hReceivers
      have hAgain : Placed dispatched.state.vipList.addrs dispatched.state.recompute.eligible
          dispatched.state.recompute.rebalanceReceivers dispatched.state.currentHolders := by
        rw [hList, hCurrent]
        exact hPlaced.congr hEligible hReceivers
      refine sameVips_of_fence fun vip => ?_
      rw [← hFence vip]
      exact fence_recompute_of_placed hAgain (fun other => hFence other ▸ hRemembers other) vip

end KafStorageState

/-- No churn: an entry after which the eligible nodes and the receivers are the same sets as
before keeps generations, last holders and assignments, up to the release flag that a release
entry may set in the assignment it names. -/
theorem no_churn (config : StoreConfig) (entries : List Entry) (i : Nat) (entry : Entry) :
    let before := stateAfter config entries i
    let after := before.step entry
    (∀ node, node ∈ after.eligible ↔ node ∈ before.eligible) →
    (∀ node, node ∈ after.rebalanceReceivers ↔ node ∈ before.rebalanceReceivers) →
    after.vipGeneration = before.vipGeneration ∧ after.vipLastHolder = before.vipLastHolder ∧
      ((∀ nodeId vip generation, entry.payload ≠ .normal (.vipReleased nodeId vip generation)) →
        after.vipAssignments = before.vipAssignments) ∧
      ∀ vip : IpAddr, after.vipAssignments[vip]? = before.vipAssignments[vip]? ∨
        ∃ nodeId generation assignment, entry.payload = .normal (.vipReleased nodeId vip generation) ∧
          before.vipAssignments[vip]? = some assignment ∧
          after.vipAssignments[vip]? = some { assignment with previousHolderReleased := true } := by
  intro before after hEligible hReceivers
  by_cases hRelease : ∃ nodeId vip generation,
      entry.payload = .normal (.vipReleased nodeId vip generation)
  · obtain ⟨nodeId, released, generation, hEntry⟩ := hRelease
    have hAfter : after = { before with lastAppliedLog := some entry.logId }.recordRelease nodeId
      released generation := before.step_vipReleased hEntry
    refine ⟨by rw [hAfter]; rfl, by rw [hAfter]; rfl,
      fun hNot => absurd hEntry (hNot nodeId released generation), fun vip => ?_⟩
    have hFence : after.fence vip = if released = vip then (before.fence vip).release nodeId generation
        else before.fence vip := by
      rw [hAfter, KafStorageState.fence_recordRelease]
      rfl
    have hAssignment : after.vipAssignments[vip]? = (after.fence vip).assignment := rfl
    rw [hAssignment, hFence]
    by_cases hVip : released = vip
    · subst hVip
      rw [if_pos rfl]
      cases hOld : before.vipAssignments[released]? with
      | none => exact Or.inl (by simp [VipFence.release, KafStorageState.fence, hOld])
      | some assignment =>
          by_cases hNamed : assignment.generation = generation ∧ assignment.previousHolder = some nodeId
          · refine Or.inr ⟨nodeId, generation, assignment, hEntry, rfl, ?_⟩
            simp [VipFence.release, KafStorageState.fence, hOld, hNamed]
          · exact Or.inl (by simp [VipFence.release, KafStorageState.fence, hOld, hNamed])
    · rw [if_neg hVip]
      exact Or.inl rfl
  · simp only [not_exists] at hRelease
    have hConfigured : ∀ vip, vip ∉ before.vipList.addrs → before.holderOf vip = none := by
      intro vip hVip
      rw [stateAfter_vipList] at hVip
      exact Option.map_eq_none_iff.mpr (fence_unconfigured i hVip)
    have hPlaced := (stateAfter_placement config entries i).placed hConfigured
    have hSame : after.SameVips before := KafStorageState.step_sameVips hPlaced
      (fence_remembers config entries i) hRelease hEligible hReceivers
    exact ⟨hSame.vipGeneration, hSame.vipLastHolder, fun _ => hSame.vipAssignments,
      fun vip => Or.inl (by rw [hSame.vipAssignments])⟩

/-- The healthy report of a node that holds nothing leaves the assignment of the VIP alone. -/
theorem no_churn_report :
    ((stateAfter handoffConfig handoffLog 4).step
        ⟨⟨⟨1, handoffReplica 1⟩, 4⟩, .normal (.healthUpdate 2 true)⟩).vipAssignments =
      (stateAfter handoffConfig handoffLog 4).vipAssignments := by
  have hEligible : ((stateAfter handoffConfig handoffLog 4).step
      ⟨⟨⟨1, handoffReplica 1⟩, 4⟩, .normal (.healthUpdate 2 true)⟩).eligible =
        (stateAfter handoffConfig handoffLog 4).eligible := by
    decide +kernel
  have hReceivers : ((stateAfter handoffConfig handoffLog 4).step
      ⟨⟨⟨1, handoffReplica 1⟩, 4⟩, .normal (.healthUpdate 2 true)⟩).rebalanceReceivers =
        (stateAfter handoffConfig handoffLog 4).rebalanceReceivers := by
    decide +kernel
  have hKept := no_churn handoffConfig handoffLog 4
    ⟨⟨⟨1, handoffReplica 1⟩, 4⟩, .normal (.healthUpdate 2 true)⟩
    (fun node => by rw [hEligible]) (fun node => by rw [hReceivers])
  exact hKept.2.2.1 fun nodeId vip generation h => by cases h

end KeepAfloat
