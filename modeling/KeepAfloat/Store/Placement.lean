import KeepAfloat.Store.Fence

/-! Placement invariant of the replicated assignments. A recomputation establishes
it from the specification of the assignment algorithm; the entries that skip the
recomputation change nothing that it speaks about. -/

namespace KeepAfloat

namespace KafStorageState

/-- Nodes that the legacy block set excludes under the current semantics. -/
def blockedNodes (state : KafStorageState) : Finset Nat :=
  match state.failoverSemantics with
  | .legacy => state.nodeFailbackBlocked
  | .v2 => ∅

/-- Nodes eligible under the current semantics. -/
def eligible (state : KafStorageState) : List Nat :=
  eligibleNodes state.lastMembership (.of state) state.blockedNodes

def holderOf (state : KafStorageState) (vip : IpAddr) : Option Nat :=
  state.vipAssignments[vip]?.map VipAssignment.holder

theorem getElem?_currentHolders (state : KafStorageState) (vip : IpAddr) :
    state.currentHolders[vip]? = state.holderOf vip := by
  simp [currentHolders, holderOf]

/-- The number of configured VIPs that a node holds. -/
def loadOf (state : KafStorageState) (nodeId : Nat) : Nat :=
  (state.vipList.addrs.filter fun vip => state.holderOf vip = some nodeId).length

theorem loadOf_eq (state : KafStorageState) (nodeId : Nat) :
    state.loadOf nodeId = Balance.load state.vipList.addrs.toFinset state.holderOf nodeId := by
  rw [loadOf, Balance.load, ← List.toFinset_card_of_nodup (state.vipList.nodup_addrs.filter _)]
  congr 1
  ext vip
  simp

/-- Where the VIPs are. -/
structure Placement (state : KafStorageState) : Prop where
  holder_voter : ∀ vip node, state.holderOf vip = some node →
    node ∈ uniqueVoters state.lastMembership.membership
  holder_eligible : ∀ vip node, state.holderOf vip = some node →
    isNodeEligible node (.of state) state.blockedNodes = true
  assigned : (∃ node ∈ uniqueVoters state.lastMembership.membership,
      isNodeEligible node (.of state) state.blockedNodes = true) →
    ∀ vip ∈ state.vipList.addrs, (state.holderOf vip).isSome
  unassigned : (¬∃ node ∈ uniqueVoters state.lastMembership.membership,
      isNodeEligible node (.of state) state.blockedNodes = true) →
    ∀ vip : IpAddr, state.vipAssignments[vip]? = none
  balanced : state.failoverSemantics = .legacy ∨ state.failback = true →
    ∀ donor ∈ state.eligible, ∀ recv ∈ state.eligible,
      state.loadOf donor ≤ state.loadOf recv + 1
  nopreempt : state.failoverSemantics = .v2 → state.failback = false →
    ∀ donor ∈ state.eligible, ∀ recv ∈ state.eligible, recv ∉ state.nodeNopreempt →
      state.loadOf donor ≤ state.loadOf recv + 1

theorem mem_eligible {state : KafStorageState} {node : Nat} : node ∈ state.eligible ↔
    node ∈ uniqueVoters state.lastMembership.membership ∧
      isNodeEligible node (.of state) state.blockedNodes = true :=
  mem_eligibleNodes

/-! ### A recomputation places the VIPs -/

/-- The receivers of proactive moves. -/
def rebalanceReceivers (state : KafStorageState) : List Nat :=
  match state.failoverSemantics with
  | .legacy => state.eligible
  | .v2 => state.eligible.filter (· ∉ state.nodeNopreempt)

theorem recomputedHolders_eq (state : KafStorageState) :
    state.recomputedHolders = assignVipsMinimalMovementWithReceivers state.eligible
      state.rebalanceReceivers state.vipList.addrs state.currentHolders := by
  cases hSemantics : state.failoverSemantics with
  | legacy => simp [recomputedHolders, eligible, rebalanceReceivers, blockedNodes, hSemantics,
      recomputeVipHolder, assignVipsMinimalMovement]
  | v2 => simp [recomputedHolders, eligible, rebalanceReceivers, blockedNodes, hSemantics,
      recomputeVipHolderV2]

theorem recomputedHolders_placed (state : KafStorageState) :
    Placed state.vipList.addrs state.eligible state.rebalanceReceivers state.recomputedHolders := by
  rw [recomputedHolders_eq]
  exact assignVipsMinimalMovementWithReceivers_placed _ _ state.vipList.nodup_addrs _

/-- The merge takes every holder over from the recomputation. -/
theorem holderOf_recompute (state : KafStorageState) (vip : IpAddr) :
    state.recompute.holderOf vip = state.trackFailback.recomputedHolders[vip]? := by
  have hFence := fence_recompute state vip
  have hHolder : state.recompute.holderOf vip =
      (state.recompute.fence vip).assignment.map VipAssignment.holder := rfl
  obtain ⟨_, _, _, hTracked⟩ := trackFailback_frame state
  have hList : state.trackFailback.vipList = state.vipList := by rw [hTracked]
  rw [hHolder, hFence]
  by_cases hVip : vip ∈ state.vipList.addrs
  · rw [if_pos hVip, VipFence.holder_reconcile]
  · rw [if_neg hVip]
    cases hPlaced : state.trackFailback.recomputedHolders[vip]? with
    | none => rfl
    | some node =>
        have hMem := ((recomputedHolders_placed state.trackFailback).placed_mem vip node hPlaced).1
        exact absurd (hList ▸ hMem) hVip

theorem recompute_placement (state : KafStorageState) : state.recompute.Placement := by
  have hPlaced := recomputedHolders_placed state.trackFailback
  have hHolder := holderOf_recompute state
  have hEligible : state.recompute.eligible = state.trackFailback.eligible := rfl
  have hLoad : ∀ node, state.recompute.loadOf node =
      Balance.load state.trackFailback.vipList.addrs.toFinset
        (fun vip => state.trackFailback.recomputedHolders[vip]?) node := by
    intro node
    rw [loadOf_eq, show state.recompute.holderOf =
      fun vip => state.trackFailback.recomputedHolders[vip]? from funext hHolder]
    rfl
  have hNonempty : (∃ node ∈ uniqueVoters state.recompute.lastMembership.membership,
      isNodeEligible node (.of state.recompute) state.recompute.blockedNodes = true) ↔
        state.trackFailback.eligible ≠ [] := by
    rw [← hEligible]
    constructor
    · rintro ⟨node, hNode⟩
      exact List.ne_nil_of_mem (mem_eligible.mpr hNode)
    · intro hSome
      obtain ⟨node, hNode⟩ := List.exists_mem_of_ne_nil _ hSome
      exact ⟨node, mem_eligible.mp hNode⟩
  refine ⟨fun vip node h => ?_, fun vip node h => ?_, fun hSome vip hVip => ?_,
    fun hNone vip => ?_, fun hEven donor hDonor recv hRecv => ?_,
    fun hV2 hFailback donor hDonor recv hRecv hReceiver => ?_⟩
  · rw [hHolder] at h
    exact (mem_eligible.mp (hPlaced.placed_mem vip node h).2).1
  · rw [hHolder] at h
    exact (mem_eligible.mp (hPlaced.placed_mem vip node h).2).2
  · rw [hHolder]
    exact hPlaced.total (hNonempty.mp hSome) vip hVip
  · rw [hNonempty, not_not] at hNone
    have hEmpty : state.recompute.holderOf vip = none := by
      rw [hHolder]
      cases hNode : state.trackFailback.recomputedHolders[vip]? with
      | none => rfl
      | some node =>
          have hMem := (hPlaced.placed_mem vip node hNode).2
          rw [hNone] at hMem
          cases hMem
    exact Option.map_eq_none_iff.mp hEmpty
  · rw [hLoad, hLoad]
    refine hPlaced.balanced donor hDonor recv hRecv ?_
    have hReceivers : state.trackFailback.rebalanceReceivers = state.trackFailback.eligible := by
      cases hSemantics : state.failoverSemantics with
      | legacy => simp [trackFailback, hSemantics, rebalanceReceivers]
      | v2 =>
          have hFailback : state.failback = true := by
            rcases hEven with hLegacy | hFailback
            · obtain ⟨_, _, _, hTracked⟩ := trackFailback_frame state
              rw [recompute, hTracked] at hLegacy
              exact absurd (hSemantics.symm.trans hLegacy) (by simp)
            · exact (recompute_sameConfig state).failback ▸ hFailback
          simp [trackFailback, hSemantics, rebalanceReceivers, updateV2FailbackTracking, hFailback]
    rw [hReceivers]
    exact hRecv
  · rw [hLoad, hLoad]
    refine hPlaced.balanced donor hDonor recv hRecv ?_
    have hSemantics : state.trackFailback.failoverSemantics = .v2 := hV2
    rw [rebalanceReceivers, hSemantics]
    have hOpen : recv ∉ state.trackFailback.nodeNopreempt := hReceiver
    exact List.mem_filter.mpr ⟨hRecv, by simpa using hOpen⟩

/-! ### Entries that skip the recomputation -/

/-- Everything that placement speaks about agrees. -/
structure SamePlacement (first second : KafStorageState) : Prop where
  config : first.SameConfig second
  lastMembership : first.lastMembership = second.lastMembership
  nodeHealth : first.nodeHealth = second.nodeHealth
  nodeProbeTicks : first.nodeProbeTicks = second.nodeProbeTicks
  latestProbeTick : first.latestProbeTick = second.latestProbeTick
  nodeRecoveryTick : first.nodeRecoveryTick = second.nodeRecoveryTick
  nodeFailbackBlocked : first.nodeFailbackBlocked = second.nodeFailbackBlocked
  failoverSemantics : first.failoverSemantics = second.failoverSemantics
  nodeNopreempt : first.nodeNopreempt = second.nodeNopreempt
  holderOf : first.holderOf = second.holderOf

theorem Placement.congr {first second : KafStorageState} (hPlacement : second.Placement)
    (hSame : first.SamePlacement second) : first.Placement := by
  obtain ⟨⟨hList, hStale, hFailback, hDelay⟩, hMembership, hHealth, hTicks, hLatest, hRecovery,
    hBlocked, hSemantics, hNopreempt, hHolder⟩ := hSame
  have hInputs : EligibilityInputs.of first = .of second := by
    simp [EligibilityInputs.of, hHealth, hTicks, hLatest, hStale, hDelay, hRecovery]
  have hBlockedNodes : first.blockedNodes = second.blockedNodes := by
    simp [blockedNodes, hSemantics, hBlocked]
  have hEligible : first.eligible = second.eligible := by
    simp [eligible, hMembership, hInputs, hBlockedNodes]
  have hLoad : first.loadOf = second.loadOf := by
    funext node
    simp [loadOf, hList, hHolder]
  have hAssignment : ∀ vip : IpAddr, first.vipAssignments[vip]? = none ↔
      second.vipAssignments[vip]? = none := by
    intro vip
    rw [← Option.map_eq_none_iff (f := VipAssignment.holder),
      ← Option.map_eq_none_iff (f := VipAssignment.holder)]
    exact Eq.congr_left (congrFun hHolder vip)
  refine ⟨?_, ?_, ?_, ?_, ?_, ?_⟩
  · rw [hHolder, hMembership]
    exact hPlacement.holder_voter
  · rw [hHolder, hInputs, hBlockedNodes]
    exact hPlacement.holder_eligible
  · rw [hHolder, hInputs, hBlockedNodes, hMembership, hList]
    exact hPlacement.assigned
  · rw [hInputs, hBlockedNodes, hMembership]
    exact fun hNone vip => (hAssignment vip).mpr (hPlacement.unassigned hNone vip)
  · rw [hSemantics, hFailback, hEligible, hLoad]
    exact hPlacement.balanced
  · rw [hSemantics, hFailback, hEligible, hLoad, hNopreempt]
    exact hPlacement.nopreempt

theorem dispatch_samePlacement (state : KafStorageState) (entry : Entry)
    (hSkip : (state.dispatch entry).shouldRecompute = false) :
    (state.dispatch entry).state.SamePlacement state := by
  obtain ⟨_, _, _, _, _, _, hSkipped, hHolders⟩ := dispatch_skipped state entry hSkip
  rw [hSkipped]
  exact ⟨⟨rfl, rfl, rfl, rfl⟩, rfl, rfl, rfl, rfl, rfl, rfl, rfl, rfl, funext hHolders⟩

theorem step_placement {state : KafStorageState} (hState : state.Placement) (entry : Entry) :
    (state.step entry).Placement := by
  have hStart : { state with lastAppliedLog := some entry.logId }.Placement :=
    hState.congr ⟨⟨rfl, rfl, rfl, rfl⟩, rfl, rfl, rfl, rfl, rfl, rfl, rfl, rfl, rfl⟩
  rw [step, applyOne, Dispatched.finish]
  dsimp only
  split
  · exact recompute_placement _
  · next hNot => exact hStart.congr (dispatch_samePlacement _ entry (by simpa using hNot))

/-- Before the first entry there is no voter and no assignment. -/
theorem start_placement (config : StoreConfig) : config.start.Placement := by
  have hHolder : ∀ vip, config.start.holderOf vip = none := fun vip => by
    simp [holderOf, StoreConfig.start, new]
  have hVoters : ∀ node, node ∉ uniqueVoters config.start.lastMembership.membership := by
    intro node
    exact of_decide_eq_true rfl
  have hEligible : ∀ node, node ∉ config.start.eligible := fun node hNode =>
    hVoters node (mem_eligible.mp hNode).1
  refine ⟨fun vip node h => ?_, fun vip node h => ?_, fun hSome => ?_, fun _ vip => ?_,
    fun _ donor hDonor => absurd hDonor (hEligible donor),
    fun _ _ donor hDonor => absurd hDonor (hEligible donor)⟩
  · rw [hHolder] at h
    cases h
  · rw [hHolder] at h
    cases h
  · obtain ⟨node, hNode, _⟩ := hSome
    exact absurd hNode (hVoters node)
  · exact Option.map_eq_none_iff.mp (hHolder vip)

end KafStorageState

theorem stateAfter_placement (config : StoreConfig) (entries : List Entry) (i : Nat) :
    (stateAfter config entries i).Placement :=
  Runs.stateAt_invariant _ _ KafStorageState.Placement (KafStorageState.start_placement config)
    (fun _ entry hState => KafStorageState.step_placement hState entry) entries i

/-- Placement holds after every prefix of every log. -/
theorem placement_invariant (config : StoreConfig) (entries : List Entry) (i : Nat) :
    (stateAfter config entries i).Placement :=
  stateAfter_placement config entries i

end KeepAfloat
