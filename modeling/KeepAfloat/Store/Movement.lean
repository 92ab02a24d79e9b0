import KeepAfloat.Library.Movement
import KeepAfloat.Store.Assign

/-! Minimal movement is optimal: among the even assignments of the VIPs to the eligible
nodes, none leaves more VIPs with their current holder. -/

namespace KeepAfloat

open Std (ExtTreeMap)

/-- The number of VIPs that a map gives to a node. -/
def assignedLoad (vips : List IpAddr) (out : ExtTreeMap IpAddr Nat) (node : Nat) : Nat :=
  (vips.filter fun vip => out[vip]? = some node).length

/-- The number of VIPs that a map leaves with their current holder. -/
def keptVips (vips : List IpAddr) (currentHolders out : ExtTreeMap IpAddr Nat) : Nat :=
  (vips.filter fun vip => out[vip]?.isSome ∧ out[vip]? = currentHolders[vip]?).length

/-- A map that assigns exactly the VIPs, to eligible nodes only, with loads that differ by
at most one. -/
structure EvenAssignment (vips : List IpAddr) (eligible : List Nat) (out : ExtTreeMap IpAddr Nat) :
    Prop where
  domain : ∀ vip, vip ∈ out ↔ vip ∈ vips
  holder : ∀ (vip : IpAddr) (node : Nat), out[vip]? = some node → node ∈ eligible
  spread : ∀ first ∈ eligible, ∀ second ∈ eligible,
    assignedLoad vips out first ≤ assignedLoad vips out second + 1

section

variable {vips : List IpAddr} {eligible : List Nat} {currentHolders out : ExtTreeMap IpAddr Nat}

theorem assignedLoad_eq (hNodup : vips.Nodup) (node : Nat) :
    assignedLoad vips out node = Balance.load vips.toFinset (fun vip => out[vip]?) node := by
  rw [assignedLoad, Balance.load, ← List.toFinset_card_of_nodup (hNodup.filter _)]
  congr 1
  ext vip
  simp

theorem EvenAssignment.level (hNodup : vips.Nodup) (h : EvenAssignment vips eligible out) :
    Balance.Level vips.toFinset eligible.toFinset fun vip => out[vip]? where
  total vip hVip := by
    have hIn := (h.domain vip).mpr (List.mem_toFinset.mp hVip)
    obtain ⟨node, hNode⟩ := Option.isSome_iff_exists.mp (ExtTreeMap.mem_iff_isSome_getElem?.mp hIn)
    exact ⟨node, List.mem_toFinset.mpr (h.holder vip node hNode), hNode⟩
  spread first hFirst second hSecond := by
    have hSpread := h.spread first (List.mem_toFinset.mp hFirst) second (List.mem_toFinset.mp hSecond)
    rwa [assignedLoad_eq hNodup, assignedLoad_eq hNodup] at hSpread

/-- Only an eligible holder can keep a VIP. -/
theorem keptVips_eq (hNodup : vips.Nodup)
    (hHolder : ∀ (vip : IpAddr) (node : Nat), out[vip]? = some node → node ∈ eligible) :
    keptVips vips currentHolders out = Balance.kept vips.toFinset
      (keptHolder eligible.toFinset currentHolders) fun vip => out[vip]? := by
  rw [keptVips, Balance.kept, ← List.toFinset_card_of_nodup (hNodup.filter _)]
  congr 1
  ext vip
  simp only [List.mem_toFinset, List.mem_filter, Finset.mem_filter, decide_eq_true_eq,
    keptHolder_eq_some, Option.mem_def]
  refine and_congr_right fun _ => ⟨?_, ?_⟩
  · rintro ⟨hSome, hSame⟩
    obtain ⟨node, hNode⟩ := Option.isSome_iff_exists.mp hSome
    exact ⟨node, hNode, hSame.symm.trans hNode, hHolder vip node hNode⟩
  · rintro ⟨node, hNode, hCurrent, -⟩
    rw [hNode, hCurrent]
    exact ⟨rfl, rfl⟩

end

/-! ### The passes are frugal -/

section Passes

variable {vips : Finset IpAddr} {eligible : Finset Nat} {home : IpAddr → Option Nat}

/-- Pass 2 gives orphans to the emptiest nodes. -/
theorem orphanPass_homed (hEligible : eligible.Nonempty) (orphans : List IpAddr)
    (state : AssignState) (hState : state.Consistent vips eligible) (hNodup : orphans.Nodup)
    (hSubset : ∀ vip ∈ orphans, vip ∈ vips) (hFree : ∀ vip ∈ orphans, state.placement vip = none)
    (hOrphan : ∀ vip ∈ orphans, home vip = none)
    (hHomed : Balance.Homed vips eligible home state.placement) :
    Balance.Homed vips eligible home (orphanPass orphans state).placement := by
  induction orphans generalizing state with
  | nil => exact hHomed
  | cons vip rest ih =>
      obtain ⟨hFresh, hRestNodup⟩ := List.nodup_cons.mp hNodup
      obtain ⟨⟨target, least⟩, hLeast⟩ := hState.exists_least hEligible
      obtain ⟨hTarget, hLoad⟩ := hState.load_of_mem (leastLoadedNode_some hLeast).1
      have hVip := hSubset vip List.mem_cons_self
      have hNext : Balance.Homed vips eligible home (state.place vip target).placement := by
        rw [AssignState.placement_place]
        apply hHomed.update hVip (hFree vip List.mem_cons_self) (hOrphan vip List.mem_cons_self)
        intro other hOther
        rw [← hLoad]
        exact (leastLoadedNode_some hLeast).2 other _ (by rw [hState.load_eq, if_pos hOther])
      simp only [orphanPass, hLeast]
      refine ih _ (hState.place hVip hTarget (hFree vip List.mem_cons_self)) hRestNodup
        (fun v hv => hSubset v (List.mem_cons_of_mem _ hv)) (fun v hv => ?_)
        (fun v hv => hOrphan v (List.mem_cons_of_mem _ hv)) hNext
      have hNe : v ≠ vip := fun hEq => hFresh (hEq ▸ hv)
      rw [AssignState.placement_place, Function.update_of_ne hNe]
      exact hFree v (List.mem_cons_of_mem _ hv)

/-- Pass 3 moves VIPs from the fullest nodes to the emptiest. -/
theorem rebalance_frugal (fuel : Nat) {state : AssignState}
    (hState : state.Consistent vips eligible)
    (hFrugal : Balance.Frugal vips eligible home state.placement) :
    Balance.Frugal vips eligible home (rebalance eligible fuel state).placement := by
  induction fuel generalizing state with
  | zero => exact hFrugal
  | succ fuel ih =>
      rw [rebalance]
      cases hStep : rebalanceStep eligible state with
      | none => exact hFrugal
      | some next =>
          obtain ⟨moved, donor, recv, rfl, hMove⟩ := rebalanceStep_some hState hStep
          apply ih (hState.move hMove.recv_mem hMove.ne hMove.placed)
          rw [AssignState.placement_move]
          exact hFrugal.move hMove.donor_mem hMove.recv_mem
            (hState.placed_mem moved donor hMove.placed).1 hMove.placed hMove.gap hMove.most
            fun node hNode => hMove.least node hNode hNode

end Passes

/-- Pass 1 leaves every VIP with an eligible holder at home and moves none. -/
theorem keepPass_homed {vips : List IpAddr} {eligible : Finset Nat} {home : IpAddr → Option Nat}
    {state : AssignState}
    (hPlaced : ∀ vip, state.placement vip = if vip ∈ vips then home vip else none) :
    Balance.Homed vips.toFinset eligible home state.placement where
  not_missing bin _ := by
    rintro ⟨vip, hVip, hHome, hAway⟩
    rw [hPlaced, if_pos (List.mem_toFinset.mp hVip)] at hAway
    exact hAway hHome
  foreign_low bin _ := by
    rintro ⟨vip, hVip, hHere, hHome⟩
    rw [hPlaced, if_pos (List.mem_toFinset.mp hVip)] at hHere
    exact absurd hHere hHome

theorem assignVipsMinimalMovement_frugal {eligible : List Nat} (hEligible : eligible ≠ [])
    {vips : List IpAddr} (hNodup : vips.Nodup) (currentHolders : ExtTreeMap IpAddr Nat) :
    Balance.Frugal vips.toFinset eligible.toFinset (keptHolder eligible.toFinset currentHolders)
      fun vip => (assignVipsMinimalMovement eligible vips currentHolders)[vip]? := by
  have hNonempty : eligible.toFinset.Nonempty := by
    simpa [List.toFinset_nonempty_iff] using hEligible
  have hPerm : (vips.insertionSort (· ≤ ·)).Perm vips := List.perm_insertionSort _ _
  have hSorted : (vips.insertionSort (· ≤ ·)).Nodup := hPerm.nodup_iff.mpr hNodup
  rw [assignVipsMinimalMovement, assignVipsMinimalMovementWithReceivers, if_neg hEligible,
    ← List.toFinset_eq_of_perm _ _ hPerm]
  set sorted := vips.insertionSort (· ≤ ·)
  have hMem : ∀ vip ∈ sorted, vip ∈ sorted.toFinset := fun vip hVip => List.mem_toFinset.mpr hVip
  obtain ⟨hKept, hPlaced, hOrphans⟩ := keepPass_foldl eligible currentHolders sorted hSorted hMem
  dsimp only
  set kept := sorted.foldl (keepPass eligible.toFinset currentHolders) (AssignState.seed eligible, [])
  have hOrphan : ∀ vip ∈ kept.2, vip ∈ sorted ∧
      keptHolder eligible.toFinset currentHolders vip = none := by
    intro vip hVip
    rw [hOrphans, List.mem_filter] at hVip
    exact ⟨hVip.1, of_decide_eq_true hVip.2⟩
  have hFree : ∀ vip ∈ kept.2, kept.1.placement vip = none := by
    intro vip hVip
    obtain ⟨hIn, hNone⟩ := hOrphan vip hVip
    rw [hPlaced, if_pos hIn, hNone]
  have hOrphansNodup : kept.2.Nodup := hOrphans ▸ hSorted.filter _
  have hOrphansMem : ∀ vip ∈ kept.2, vip ∈ sorted.toFinset :=
    fun vip hVip => hMem vip (hOrphan vip hVip).1
  obtain ⟨hState, -, -⟩ := orphanPass_spec hNonempty kept.2 kept.1 hKept hOrphansNodup hOrphansMem
    hFree
  have hHomed := orphanPass_homed hNonempty kept.2 kept.1 hKept hOrphansNodup hOrphansMem hFree
    (fun vip hVip => (hOrphan vip hVip).2) (keepPass_homed hPlaced)
  exact rebalance_frugal _ hState hHomed.frugal

theorem assignVipsMinimalMovement_even {eligible : List Nat} (hEligible : eligible ≠ [])
    {vips : List IpAddr} (hNodup : vips.Nodup) (currentHolders : ExtTreeMap IpAddr Nat) :
    EvenAssignment vips eligible (assignVipsMinimalMovement eligible vips currentHolders) := by
  have hPlaced := assignVipsMinimalMovementWithReceivers_placed eligible eligible hNodup
    currentHolders
  refine ⟨fun vip => ⟨fun hIn => ?_, fun hVip => ?_⟩, fun vip node hNode => ?_,
    fun first hFirst second hSecond => ?_⟩
  · obtain ⟨node, hNode⟩ := Option.isSome_iff_exists.mp (ExtTreeMap.mem_iff_isSome_getElem?.mp hIn)
    exact (hPlaced.placed_mem vip node hNode).1
  · exact ExtTreeMap.mem_iff_isSome_getElem?.mpr (hPlaced.total hEligible vip hVip)
  · exact (hPlaced.placed_mem vip node hNode).2
  · rw [assignedLoad_eq hNodup, assignedLoad_eq hNodup]
    exact hPlaced.balanced first hFirst second hSecond hSecond

/-- Minimal movement is even, and no even assignment keeps more VIPs. -/
theorem assignVipsMinimalMovement_optimal (eligible : List Nat) (hEligible : eligible ≠ [])
    (vips : List IpAddr) (hNodup : vips.Nodup) (currentHolders : ExtTreeMap IpAddr Nat) :
    EvenAssignment vips eligible (assignVipsMinimalMovement eligible vips currentHolders) ∧
      ∀ other, EvenAssignment vips eligible other →
        keptVips vips currentHolders other ≤
          keptVips vips currentHolders (assignVipsMinimalMovement eligible vips currentHolders) := by
  have hEven := assignVipsMinimalMovement_even hEligible hNodup currentHolders
  refine ⟨hEven, fun other hOther => ?_⟩
  rw [keptVips_eq hNodup hOther.holder, keptVips_eq hNodup hEven.holder]
  exact (assignVipsMinimalMovement_frugal hEligible hNodup currentHolders).optimal
    (hEven.level hNodup) (hOther.level hNodup)

/-- Four VIPs on one of three nodes: two stay, one goes to each of the others. -/
def crowdedVips : List IpAddr := [.v4 1, .v4 2, .v4 3, .v4 4]

theorem assignVipsMinimalMovement_optimal_crowded :
    keptVips crowdedVips (.ofList (crowdedVips.map (·, 1)))
        (assignVipsMinimalMovement [1, 2, 3] crowdedVips (.ofList (crowdedVips.map (·, 1)))) = 2 ∧
      ∀ other, EvenAssignment crowdedVips [1, 2, 3] other →
        keptVips crowdedVips (.ofList (crowdedVips.map (·, 1))) other ≤ 2 := by
  have hKept : keptVips crowdedVips (.ofList (crowdedVips.map (·, 1)))
      (assignVipsMinimalMovement [1, 2, 3] crowdedVips (.ofList (crowdedVips.map (·, 1)))) = 2 := by
    decide +kernel
  have hOptimal := assignVipsMinimalMovement_optimal [1, 2, 3] (by decide) crowdedVips (by decide)
    (.ofList (crowdedVips.map (·, 1)))
  rw [hKept] at hOptimal
  exact ⟨hKept, hOptimal.2⟩

end KeepAfloat
