import KeepAfloat.Library.Balance
import KeepAfloat.Store.Eligibility

/-! Minimal-movement VIP placement in three passes: keep, place orphans,
rebalance. The mutable maps of the source are one record; the last loop runs on
fuel, and the fuel given to it is shown to be enough for the loop to leave by
its own test. -/

namespace KeepAfloat

open Std (ExtTreeMap)

/-- One entry of the search: the current choice stays if the comparison says so. -/
def keepExtreme (keepCurrent : Nat → Nat → Bool) (best : Option (Nat × Nat)) (id l : Nat) :
    Option (Nat × Nat) :=
  match best with
  | some (bestId, bl) => if keepCurrent l bl then some (bestId, bl) else some (id, l)
  | none => some (id, l)

/-- The node with the extreme load; of equal loads the lowest id wins. -/
def extremeLoadedNode (load : ExtTreeMap Nat Nat) (keepCurrent : Nat → Nat → Bool) :
    Option (Nat × Nat) :=
  load.foldl (keepExtreme keepCurrent) none

def leastLoadedNode (load : ExtTreeMap Nat Nat) : Option (Nat × Nat) :=
  extremeLoadedNode load fun l bl => bl ≤ l

def mostLoadedNode (load : ExtTreeMap Nat Nat) : Option (Nat × Nat) :=
  extremeLoadedNode load fun l bl => l ≤ bl

/-- The working maps of one assignment: the result, the load of each eligible
node, and the VIPs on each node. -/
structure AssignState where
  out : ExtTreeMap IpAddr Nat
  load : ExtTreeMap Nat Nat
  held : ExtTreeMap Nat (Finset IpAddr)

namespace AssignState

/-- Loads start at zero, so that empty nodes are visible to the searches. -/
def seed (eligible : List Nat) : AssignState where
  out := ∅
  load := eligible.foldl (fun load id => load.insert id 0) ∅
  held := ∅

def place (state : AssignState) (vip : IpAddr) (node : Nat) : AssignState where
  out := state.out.insert vip node
  load := state.load.insert node (state.load[node]?.getD 0 + 1)
  held := state.held.insert node (insert vip (state.held[node]?.getD ∅))

/-- Hand one VIP of the donor to the receiver. -/
def move (state : AssignState) (vip : IpAddr) (donor recv : Nat) : AssignState :=
  let held := state.held.modify donor (·.erase vip)
  let load := state.load.modify donor (· - 1)
  { out := state.out.insert vip recv
    held := held.insert recv (insert vip (held[recv]?.getD ∅))
    load := load.insert recv (load[recv]?.getD 0 + 1) }

end AssignState

/-- Pass 1: keep VIPs whose current holder is still eligible; the others are
orphans. -/
def keepPass (eligible : Finset Nat) (currentHolders : ExtTreeMap IpAddr Nat)
    (state : AssignState × List IpAddr) (vip : IpAddr) : AssignState × List IpAddr :=
  match currentHolders[vip]? with
  | some holder =>
      if holder ∈ eligible then (state.1.place vip holder, state.2)
      else (state.1, state.2 ++ [vip])
  | none => (state.1, state.2 ++ [vip])

/-- Pass 2: each orphan goes to the least loaded eligible node. -/
def orphanPass : List IpAddr → AssignState → AssignState
  | [], state => state
  | vip :: rest, state =>
      match leastLoadedNode state.load with
      | none => state
      | some (target, _) => orphanPass rest (state.place vip target)

/-- One iteration of pass 3, or nothing when the loop is left. -/
def rebalanceStep (receivers : Finset Nat) (state : AssignState) : Option AssignState := do
  let (donor, donorLoad) ← mostLoadedNode state.load
  let (recv, recvLoad) ← leastLoadedNode (state.load.filter fun id _ => id ∈ receivers)
  if donorLoad - recvLoad ≤ 1 then none
  else
    let vip ← (state.held[donor]?).bind Ascending.last
    some (state.move vip donor recv)

/-- Pass 3 for at most `fuel` iterations. -/
def rebalance (receivers : Finset Nat) : Nat → AssignState → AssignState
  | 0, state => state
  | fuel + 1, state =>
      match rebalanceStep receivers state with
      | none => state
      | some next => rebalance receivers fuel next

/-- Iterations that pass 3 is given: more than the measure of any placement. -/
def rebalanceFuel (vips : List IpAddr) : Nat := vips.length * vips.length + 1

/-- Minimal-movement assignment with a restricted set of rebalance recipients.
Orphans may use every eligible node. -/
def assignVipsMinimalMovementWithReceivers (eligible rebalanceReceivers : List Nat)
    (vipAddrsInOrder : List IpAddr) (currentHolders : ExtTreeMap IpAddr Nat) :
    ExtTreeMap IpAddr Nat :=
  if eligible = [] then ∅
  else
    let vipsSorted := vipAddrsInOrder.insertionSort (· ≤ ·)
    let kept := vipsSorted.foldl (keepPass eligible.toFinset currentHolders)
      (AssignState.seed eligible, [])
    let placed := orphanPass kept.2 kept.1
    (rebalance rebalanceReceivers.toFinset (rebalanceFuel vipsSorted) placed).out

def assignVipsMinimalMovement (eligible : List Nat) (vipAddrsInOrder : List IpAddr)
    (currentHolders : ExtTreeMap IpAddr Nat) : ExtTreeMap IpAddr Nat :=
  assignVipsMinimalMovementWithReceivers eligible eligible vipAddrsInOrder currentHolders

section Search

theorem keepExtreme_isSome (keepCurrent : Nat → Nat → Bool) (best : Option (Nat × Nat))
    (id l : Nat) : (keepExtreme keepCurrent best id l).isSome := by
  cases best with
  | none => rfl
  | some best =>
      simp only [keepExtreme]
      split <;> rfl

private theorem foldl_keepExtreme_isSome (keepCurrent : Nat → Nat → Bool)
    {entries : List (Nat × Nat)} (h : entries ≠ []) :
    (entries.foldl (fun best entry => keepExtreme keepCurrent best entry.1 entry.2) none).isSome := by
  induction entries using List.reverseRecOn with
  | nil => exact absurd rfl h
  | append_singleton entries entry =>
      rw [List.foldl_append]
      exact keepExtreme_isSome ..

theorem extremeLoadedNode_isSome {load : ExtTreeMap Nat Nat} {keepCurrent : Nat → Nat → Bool}
    {id l : Nat} (h : load[id]? = some l) : (extremeLoadedNode load keepCurrent).isSome := by
  rw [extremeLoadedNode, ExtTreeMap.foldl_eq_foldl_toList]
  rw [← ExtTreeMap.mem_toList_iff_getElem?_eq_some] at h
  exact foldl_keepExtreme_isSome keepCurrent (List.ne_nil_of_mem h)

variable {keepCurrent : Nat → Nat → Bool} (hRefl : ∀ l, keepCurrent l l = true)
  (hTrans : ∀ a b c, keepCurrent a b = true → keepCurrent b c = true → keepCurrent a c = true)
  (hTotal : ∀ a b, keepCurrent a b = false → keepCurrent b a = true)

include hRefl hTrans hTotal in
private theorem foldl_keepExtreme_some {entries : List (Nat × Nat)} {node extreme : Nat}
    (h : entries.foldl (fun best entry => keepExtreme keepCurrent best entry.1 entry.2) none =
      some (node, extreme)) :
    (node, extreme) ∈ entries ∧ ∀ entry ∈ entries, keepCurrent entry.2 extreme = true := by
  induction entries using List.reverseRecOn generalizing node extreme with
  | nil => simp at h
  | append_singleton entries entry ih =>
      rw [List.foldl_append, List.foldl_cons, List.foldl_nil] at h
      simp only [List.mem_append, List.mem_singleton]
      cases hBest : entries.foldl (fun best entry => keepExtreme keepCurrent best entry.1 entry.2)
          none with
      | none =>
          rw [hBest] at h
          obtain ⟨rfl, rfl⟩ := Prod.mk.inj (Option.some.inj h)
          have hEmpty : entries = [] := by
            by_contra hNe
            simpa [hBest] using foldl_keepExtreme_isSome keepCurrent hNe
          subst hEmpty
          refine ⟨Or.inr rfl, fun other hOther => ?_⟩
          rcases hOther with hOld | rfl
          · simp at hOld
          · exact hRefl other.2
      | some best =>
          obtain ⟨bestId, bl⟩ := best
          obtain ⟨hMem, hAll⟩ := ih hBest
          rw [hBest] at h
          simp only [keepExtreme] at h
          split at h
          · next hKeep =>
            obtain ⟨rfl, rfl⟩ := Prod.mk.inj (Option.some.inj h)
            refine ⟨Or.inl hMem, fun other hOther => ?_⟩
            rcases hOther with hOld | rfl
            · exact hAll other hOld
            · exact hKeep
          · next hDrop =>
            obtain ⟨rfl, rfl⟩ := Prod.mk.inj (Option.some.inj h)
            have hBetter := hTotal _ _ (by simpa using hDrop)
            refine ⟨Or.inr rfl, fun other hOther => ?_⟩
            rcases hOther with hOld | rfl
            · exact hTrans _ _ _ (hAll other hOld) hBetter
            · exact hRefl other.2

include hRefl hTrans hTotal in
/-- In ascending order of ids, the entries before the one found are strictly worse. -/
private theorem foldl_keepExtreme_first {entries : List (Nat × Nat)}
    (hSorted : entries.Pairwise fun first second => first.1 < second.1) {node extreme : Nat}
    (h : entries.foldl (fun best entry => keepExtreme keepCurrent best entry.1 entry.2) none =
      some (node, extreme)) :
    ∀ entry ∈ entries, entry.1 < node → keepCurrent extreme entry.2 = false := by
  induction entries using List.reverseRecOn generalizing node extreme with
  | nil => simp at h
  | append_singleton entries entry ih =>
      rw [List.pairwise_append] at hSorted
      rw [List.foldl_append, List.foldl_cons, List.foldl_nil] at h
      intro other hOther hLt
      simp only [List.mem_append, List.mem_singleton] at hOther
      cases hBest : entries.foldl (fun best entry => keepExtreme keepCurrent best entry.1 entry.2)
          none with
      | none =>
          rw [hBest] at h
          obtain ⟨rfl, rfl⟩ := Prod.mk.inj (Option.some.inj h)
          rcases hOther with hOld | rfl
          · simpa [hBest] using foldl_keepExtreme_isSome keepCurrent (List.ne_nil_of_mem hOld)
          · exact absurd hLt (Nat.lt_irrefl _)
      | some best =>
          obtain ⟨bestId, bl⟩ := best
          obtain ⟨hMem, hAll⟩ := foldl_keepExtreme_some hRefl hTrans hTotal hBest
          rw [hBest] at h
          simp only [keepExtreme] at h
          split at h
          · next hKeep =>
            obtain ⟨rfl, rfl⟩ := Prod.mk.inj (Option.some.inj h)
            rcases hOther with hOld | rfl
            · exact ih hSorted.1 hBest other hOld hLt
            · exact absurd hLt (Nat.lt_asymm (hSorted.2.2 _ hMem other (by simp)))
          · next hDrop =>
            obtain ⟨rfl, rfl⟩ := Prod.mk.inj (Option.some.inj h)
            rcases hOther with hOld | rfl
            · by_contra hTie
              exact hDrop (hTrans _ _ _ (by simpa using hTie) (hAll other hOld))
            · exact absurd hLt (Nat.lt_irrefl _)

include hRefl hTrans hTotal in
/-- The search returns an entry of the map that every entry yields to. -/
theorem extremeLoadedNode_some {load : ExtTreeMap Nat Nat} {node extreme : Nat}
    (h : extremeLoadedNode load keepCurrent = some (node, extreme)) :
    load[node]? = some extreme ∧
      ∀ (other l : Nat), load[other]? = some l → keepCurrent l extreme = true := by
  rw [extremeLoadedNode, ExtTreeMap.foldl_eq_foldl_toList] at h
  simp only [← ExtTreeMap.mem_toList_iff_getElem?_eq_some]
  obtain ⟨hMem, hAll⟩ := foldl_keepExtreme_some hRefl hTrans hTotal h
  exact ⟨hMem, fun other l hOther => hAll (other, l) hOther⟩

include hRefl hTrans hTotal in
/-- Of the extreme entries the search returns the one with the lowest id. -/
theorem extremeLoadedNode_first {load : ExtTreeMap Nat Nat} {node extreme other l : Nat}
    (h : extremeLoadedNode load keepCurrent = some (node, extreme)) (hOther : load[other]? = some l)
    (hLt : other < node) : keepCurrent extreme l = false := by
  have hSorted : load.toList.Pairwise fun first second => first.1 < second.1 :=
    (ExtTreeMap.ordered_keys_toList (t := load)).imp compare_lt_iff_lt.mp
  rw [extremeLoadedNode, ExtTreeMap.foldl_eq_foldl_toList] at h
  rw [← ExtTreeMap.mem_toList_iff_getElem?_eq_some] at hOther
  exact foldl_keepExtreme_first hRefl hTrans hTotal hSorted h (other, l) hOther hLt

end Search

theorem leastLoadedNode_some {load : ExtTreeMap Nat Nat} {node least : Nat}
    (h : leastLoadedNode load = some (node, least)) :
    load[node]? = some least ∧ ∀ (other l : Nat), load[other]? = some l → least ≤ l := by
  simpa using extremeLoadedNode_some (by simp) (by simp; omega) (by simp; omega) h

theorem leastLoadedNode_first {load : ExtTreeMap Nat Nat} {node least other l : Nat}
    (h : leastLoadedNode load = some (node, least)) (hOther : load[other]? = some l)
    (hLt : other < node) : least < l := by
  simpa using extremeLoadedNode_first (by simp) (by simp; omega) (by simp; omega) h hOther hLt

theorem mostLoadedNode_some {load : ExtTreeMap Nat Nat} {node most : Nat}
    (h : mostLoadedNode load = some (node, most)) :
    load[node]? = some most ∧ ∀ (other l : Nat), load[other]? = some l → l ≤ most := by
  simpa using extremeLoadedNode_some (by simp) (by simp; omega) (by simp; omega) h

/-- The placement that the result map stands for. -/
def AssignState.placement (state : AssignState) (vip : IpAddr) : Option Nat := state.out[vip]?

private theorem getElem?_insert_eq_update (out : ExtTreeMap IpAddr Nat) (vip : IpAddr)
    (node : Nat) :
    (fun v => (out.insert vip node)[v]?) = Function.update (fun v => out[v]?) vip (some node) := by
  funext v
  by_cases hv : v = vip
  · simp [hv]
  · simp [ExtTreeMap.getElem?_insert, hv, Ne.symm hv]

theorem AssignState.placement_place (state : AssignState) (vip : IpAddr) (node : Nat) :
    (state.place vip node).placement = Function.update state.placement vip (some node) :=
  getElem?_insert_eq_update state.out vip node

theorem AssignState.placement_move (state : AssignState) (vip : IpAddr) (donor recv : Nat) :
    (state.move vip donor recv).placement = Function.update state.placement vip (some recv) :=
  getElem?_insert_eq_update state.out vip recv

/-- The working maps agree with the placement, for the VIPs to place and the
eligible nodes. -/
structure AssignState.Consistent (vips : Finset IpAddr) (eligible : Finset Nat)
    (state : AssignState) : Prop where
  placed_mem : ∀ vip node, state.placement vip = some node → vip ∈ vips ∧ node ∈ eligible
  load_eq : ∀ node : Nat, state.load[node]? =
    if node ∈ eligible then some (Balance.load vips state.placement node) else none
  held_iff : ∀ (node : Nat) (vip : IpAddr),
    vip ∈ state.held[node]?.getD ∅ ↔ state.placement vip = some node

namespace AssignState.Consistent

variable {vips : Finset IpAddr} {eligible : Finset Nat} {state : AssignState}

theorem load_of_mem (hState : state.Consistent vips eligible) {node l : Nat}
    (h : state.load[node]? = some l) :
    node ∈ eligible ∧ l = Balance.load vips state.placement node := by
  rw [hState.load_eq] at h
  split at h
  · exact ⟨by assumption, (Option.some.inj h).symm⟩
  · simp at h

theorem seed (nodes : List Nat) : (AssignState.seed nodes).Consistent vips nodes.toFinset where
  placed_mem := by simp [AssignState.seed, placement]
  load_eq := by
    intro node
    have hLoad : (nodes.foldl (fun load id => load.insert id 0) (∅ : ExtTreeMap Nat Nat))[node]? =
        if node ∈ nodes then some 0 else none := by
      induction nodes using List.reverseRecOn with
      | nil => simp
      | append_singleton nodes id ih =>
          rw [List.foldl_append, List.foldl_cons, List.foldl_nil, ExtTreeMap.getElem?_insert, ih]
          by_cases hId : node = id
          · simp [hId]
          · simp [hId, Ne.symm hId]
    simp [AssignState.seed, placement, hLoad, Balance.load]
  held_iff := by simp [AssignState.seed, placement]

/-- A placement that gains one VIP, or moves one, stays within the VIPs to place
and the eligible nodes. -/
private theorem placed_mem_update (hState : state.Consistent vips eligible) {vip : IpAddr}
    {node : Nat} (hVip : vip ∈ vips) (hNode : node ∈ eligible) (v : IpAddr) (n : Nat)
    (h : Function.update state.placement vip (some node) v = some n) :
    v ∈ vips ∧ n ∈ eligible := by
  by_cases hv : v = vip
  · subst hv
    rw [Function.update_self] at h
    exact ⟨hVip, Option.some.inj h ▸ hNode⟩
  · rw [Function.update_of_ne hv] at h
    exact hState.placed_mem v n h

theorem place (hState : state.Consistent vips eligible) {vip : IpAddr} {node : Nat}
    (hVip : vip ∈ vips) (hNode : node ∈ eligible) (hFree : state.placement vip = none) :
    (state.place vip node).Consistent vips eligible where
  placed_mem := by
    rw [placement_place]
    exact placed_mem_update hState hVip hNode
  load_eq := by
    intro n
    have hOld := hState.load_eq
    rw [placement_place]
    simp only [AssignState.place, ExtTreeMap.getElem?_insert, compare_eq_iff_eq]
    by_cases hn : node = n
    · subst hn
      rw [if_pos rfl, if_pos hNode, Balance.load_update_self hVip (by simp [hFree]), hOld,
        if_pos hNode]
      rfl
    · rw [if_neg hn, Balance.load_update_of_ne (by simp [hFree]) (Ne.symm hn), hOld]
  held_iff := by
    intro n v
    have hOld := hState.held_iff
    rw [placement_place]
    simp only [AssignState.place, ExtTreeMap.getElem?_insert, compare_eq_iff_eq]
    by_cases hv : v = vip
    · subst hv
      have hNotHeld : ∀ m : Nat, v ∉ state.held[m]?.getD ∅ := fun m hm => by
        simp [(hOld m v).mp hm] at hFree
      by_cases hn : node = n
      · simp [hn]
      · simp [hn, hNotHeld n]
    · by_cases hn : node = n
      · subst hn
        simp [hv, hOld]
      · simp [hn, hv, hOld]

theorem move (hState : state.Consistent vips eligible) {vip : IpAddr} {donor recv : Nat}
    (hRecv : recv ∈ eligible) (hNe : donor ≠ recv) (hHeld : state.placement vip = some donor) :
    (state.move vip donor recv).Consistent vips eligible where
  placed_mem := by
    rw [placement_move]
    exact placed_mem_update hState (hState.placed_mem vip donor hHeld).1 hRecv
  load_eq := by
    intro n
    obtain ⟨hVip, hDonor⟩ := hState.placed_mem vip donor hHeld
    have hOld := hState.load_eq
    have hLeaves : Balance.load vips (Function.update state.placement vip (some recv)) donor + 1 =
        Balance.load vips state.placement donor := Balance.load_update_donor hVip hHeld hNe
    rw [placement_move]
    simp only [AssignState.move, ExtTreeMap.getElem?_insert, ExtTreeMap.getElem?_modify,
      compare_eq_iff_eq]
    by_cases hn : recv = n
    · subst hn
      rw [if_pos rfl, if_neg hNe, if_pos hRecv, hOld, if_pos hRecv,
        Balance.load_update_self hVip (by simpa [hHeld] using hNe)]
      rfl
    · rw [if_neg hn]
      by_cases hd : donor = n
      · subst hd
        rw [if_pos rfl, hOld, if_pos hDonor, if_pos hDonor, ← hLeaves]
        rfl
      · rw [if_neg hd, hOld, Balance.load_update_of_ne (by simpa [hHeld] using hd) (Ne.symm hn)]
  held_iff := by
    intro n v
    have hOld := hState.held_iff
    rw [placement_move]
    simp only [AssignState.move, ExtTreeMap.getElem?_insert, ExtTreeMap.getElem?_modify,
      compare_eq_iff_eq, if_neg hNe]
    have hErase : ∀ m : Nat, (Option.map (fun s : Finset IpAddr => s.erase vip) state.held[m]?).getD ∅ =
        (state.held[m]?.getD ∅).erase vip := by
      intro m
      cases state.held[m]? <;> simp
    by_cases hn : recv = n
    · subst hn
      by_cases hv : v = vip
      · simp [hv]
      · simp [hv, hOld]
    · rw [if_neg hn]
      by_cases hv : v = vip
      · subst hv
        by_cases hd : donor = n
        · simp [hd, hErase, hn]
        · simp [hd, hOld, hHeld, hn]
      · by_cases hd : donor = n
        · simp [hd, hErase, hv, hOld]
        · simp [hd, hOld, hv]

end AssignState.Consistent

/-- The holder that pass 1 keeps, if any. -/
def keptHolder (eligible : Finset Nat) (currentHolders : ExtTreeMap IpAddr Nat) (vip : IpAddr) :
    Option Nat :=
  currentHolders[vip]?.filter fun holder => holder ∈ eligible

theorem keptHolder_eq_some {eligible : Finset Nat} {currentHolders : ExtTreeMap IpAddr Nat}
    {vip : IpAddr} {holder : Nat} : keptHolder eligible currentHolders vip = some holder ↔
      currentHolders[vip]? = some holder ∧ holder ∈ eligible := by
  simp [keptHolder]

theorem keepPass_eq (eligible : Finset Nat) (currentHolders : ExtTreeMap IpAddr Nat)
    (state : AssignState × List IpAddr) (vip : IpAddr) :
    keepPass eligible currentHolders state vip =
      match keptHolder eligible currentHolders vip with
      | some holder => (state.1.place vip holder, state.2)
      | none => (state.1, state.2 ++ [vip]) := by
  unfold keepPass keptHolder
  cases currentHolders[vip]? with
  | none => rfl
  | some holder =>
      by_cases hMem : holder ∈ eligible
      · simp [Option.filter, hMem]
      · simp [Option.filter, hMem]

/-- Pass 1 places exactly the VIPs with an eligible holder, on that holder. -/
theorem keepPass_foldl {vips : Finset IpAddr} (nodes : List Nat)
    (currentHolders : ExtTreeMap IpAddr Nat) (done : List IpAddr) (hNodup : done.Nodup)
    (hSubset : ∀ vip ∈ done, vip ∈ vips) :
    let kept := done.foldl (keepPass nodes.toFinset currentHolders) (AssignState.seed nodes, [])
    kept.1.Consistent vips nodes.toFinset ∧
      (∀ vip, kept.1.placement vip =
        if vip ∈ done then keptHolder nodes.toFinset currentHolders vip else none) ∧
      kept.2 = done.filter fun vip => keptHolder nodes.toFinset currentHolders vip = none := by
  induction done using List.reverseRecOn with
  | nil =>
      refine ⟨.seed nodes, fun vip => ?_, rfl⟩
      simp [AssignState.seed, AssignState.placement]
  | append_singleton done vip ih =>
      have hSplit := List.nodup_append.mp hNodup
      have hFresh : vip ∉ done := fun hMem => hSplit.2.2 _ hMem _ (by simp) rfl
      obtain ⟨hState, hPlaced, hOrphans⟩ :=
        ih hSplit.1 fun v hv => hSubset v (List.mem_append_left _ hv)
      rw [List.foldl_append, List.foldl_cons, List.foldl_nil, keepPass_eq]
      set kept := done.foldl (keepPass nodes.toFinset currentHolders) (AssignState.seed nodes, [])
      cases hHolder : keptHolder nodes.toFinset currentHolders vip with
      | none =>
          refine ⟨hState, fun v => ?_, ?_⟩
          · simp only [hPlaced, List.mem_append, List.mem_singleton]
            by_cases hv : v = vip
            · simp [hv, hFresh, hHolder]
            · simp [hv]
          · simp [hOrphans, hHolder]
      | some holder =>
          have hFree : kept.1.placement vip = none := by simp [hPlaced, hFresh]
          refine ⟨hState.place (hSubset vip (by simp)) (keptHolder_eq_some.mp hHolder).2 hFree,
            fun v => ?_, ?_⟩
          · simp only [AssignState.placement_place, List.mem_append, List.mem_singleton]
            by_cases hv : v = vip
            · simp [hv, hHolder]
            · simp [hv, hPlaced]
          · simp [hOrphans, hHolder]

/-- Some eligible node is emptiest. -/
theorem AssignState.Consistent.exists_least {vips : Finset IpAddr} {eligible : Finset Nat}
    {state : AssignState} (hState : state.Consistent vips eligible) (hEligible : eligible.Nonempty) :
    ∃ found, leastLoadedNode state.load = some found := by
  obtain ⟨node, hNode⟩ := hEligible
  exact Option.isSome_iff_exists.mp
    (extremeLoadedNode_isSome (by rw [hState.load_eq node, if_pos hNode]))

/-- Pass 2 places every orphan and touches nothing else. -/
theorem orphanPass_spec {vips : Finset IpAddr} {eligible : Finset Nat} (hEligible : eligible.Nonempty)
    (orphans : List IpAddr) (state : AssignState) (hState : state.Consistent vips eligible)
    (hNodup : orphans.Nodup) (hSubset : ∀ vip ∈ orphans, vip ∈ vips)
    (hFree : ∀ vip ∈ orphans, state.placement vip = none) :
    (orphanPass orphans state).Consistent vips eligible ∧
      (∀ vip ∈ orphans, ((orphanPass orphans state).placement vip).isSome) ∧
      ∀ vip, vip ∉ orphans → (orphanPass orphans state).placement vip = state.placement vip := by
  induction orphans generalizing state with
  | nil => exact ⟨hState, by simp, fun _ _ => rfl⟩
  | cons vip rest ih =>
      obtain ⟨hFresh, hRestNodup⟩ := List.nodup_cons.mp hNodup
      obtain ⟨⟨target, least⟩, hLeast⟩ := hState.exists_least hEligible
      have hTarget : target ∈ eligible := (hState.load_of_mem (leastLoadedNode_some hLeast).1).1
      have hPlaced := hState.place (hSubset vip (by simp)) hTarget (hFree vip (by simp))
      have hStill : ∀ v ∈ rest, (state.place vip target).placement v = none := by
        intro v hv
        have hNe : v ≠ vip := fun hEq => hFresh (hEq ▸ hv)
        rw [AssignState.placement_place, Function.update_of_ne hNe]
        exact hFree v (List.mem_cons_of_mem _ hv)
      obtain ⟨hResult, hAll, hFrame⟩ := ih _ hPlaced hRestNodup
        (fun v hv => hSubset v (List.mem_cons_of_mem _ hv)) hStill
      simp only [orphanPass, hLeast]
      refine ⟨hResult, fun v hv => ?_, fun v hv => ?_⟩
      · rcases List.mem_cons.mp hv with rfl | hRest
        · rw [hFrame v hFresh, AssignState.placement_place, Function.update_self]
          rfl
        · exact hAll v hRest
      · obtain ⟨hNe, hRest⟩ := not_or.mp (mt List.mem_cons.mpr hv)
        rw [hFrame v hRest, AssignState.placement_place, Function.update_of_ne hNe]

section Rebalance

variable {vips : Finset IpAddr} {eligible receivers : Finset Nat} {state next : AssignState}

/-- What one iteration does: some VIP moves from a most loaded node to a least loaded
receiver that holds at least two less. -/
structure AssignState.Moves (vips : Finset IpAddr) (eligible receivers : Finset Nat)
    (state : AssignState) (vip : IpAddr) (donor recv : Nat) : Prop where
  placed : state.placement vip = some donor
  donor_mem : donor ∈ eligible
  recv_mem : recv ∈ eligible
  receiver : recv ∈ receivers
  gap : Balance.load vips state.placement recv + 2 ≤ Balance.load vips state.placement donor
  most : ∀ node ∈ eligible,
    Balance.load vips state.placement node ≤ Balance.load vips state.placement donor
  least : ∀ node ∈ eligible, node ∈ receivers →
    Balance.load vips state.placement recv ≤ Balance.load vips state.placement node

theorem AssignState.Moves.ne {vip : IpAddr} {donor recv : Nat}
    (h : state.Moves vips eligible receivers vip donor recv) : donor ≠ recv := by
  rintro rfl
  have hGap := h.gap
  omega

/-- The two searches and the donor's highest VIP make such a move. -/
theorem AssignState.Moves.of_search (hState : state.Consistent vips eligible) {vip : IpAddr}
    {donor donorLoad recv recvLoad : Nat} (hMost : mostLoadedNode state.load = some (donor, donorLoad))
    (hLeast : leastLoadedNode (state.load.filter fun id _ => id ∈ receivers) = some (recv, recvLoad))
    (hGap : ¬donorLoad - recvLoad ≤ 1) (hVip : (state.held[donor]?).bind Ascending.last = some vip) :
    state.Moves vips eligible receivers vip donor recv := by
  obtain ⟨heldVips, hHeld, hLast⟩ := Option.bind_eq_some_iff.mp hVip
  obtain ⟨hDonor, rfl⟩ := hState.load_of_mem (mostLoadedNode_some hMost).1
  have hRecvEntry := (leastLoadedNode_some hLeast).1
  simp only [ExtTreeMap.getElem?_filter, Option.pfilter_eq_some_iff] at hRecvEntry
  obtain ⟨hRecvLoad, hRecvMem⟩ := hRecvEntry
  obtain ⟨hRecv, rfl⟩ := hState.load_of_mem hRecvLoad
  have hPlaced : state.placement vip = some donor := by
    rw [← hState.held_iff donor vip, hHeld]
    exact Ascending.mem_of_last hLast
  refine ⟨hPlaced, hDonor, hRecv, by simpa using hRecvMem, by omega, fun node hNode => ?_,
    fun node hNode hReceiver => ?_⟩
  · exact (mostLoadedNode_some hMost).2 node _ (by rw [hState.load_eq, if_pos hNode])
  · refine (leastLoadedNode_some hLeast).2 node _ ?_
    simp [ExtTreeMap.getElem?_filter, hState.load_eq, hNode, hReceiver]

/-- A node with a positive load holds some VIP. -/
theorem AssignState.Consistent.exists_last (hState : state.Consistent vips eligible) {node : Nat}
    (hPos : 0 < Balance.load vips state.placement node) :
    ∃ vip, (state.held[node]?).bind Ascending.last = some vip := by
  obtain ⟨vip, hVip⟩ := Finset.card_pos.mp hPos
  have hHeld := (hState.held_iff node vip).mpr (Finset.mem_filter.mp hVip).2
  cases hSet : state.held[node]? with
  | none => simp [hSet] at hHeld
  | some heldVips =>
      rw [hSet] at hHeld
      exact Ascending.exists_last ⟨vip, hHeld⟩

theorem rebalanceStep_some (hState : state.Consistent vips eligible)
    (h : rebalanceStep receivers state = some next) :
    ∃ vip donor recv, next = state.move vip donor recv ∧
      state.Moves vips eligible receivers vip donor recv := by
  simp only [rebalanceStep, Option.bind_eq_bind, Option.bind_eq_some_iff, Prod.exists] at h
  obtain ⟨donor, donorLoad, hMost, recv, recvLoad, hLeast, hRest⟩ := h
  split at hRest
  · simp at hRest
  · next hGap =>
    rw [Option.bind_eq_some_iff] at hRest
    obtain ⟨vip, hVip, hNext⟩ := hRest
    exact ⟨vip, donor, recv, (Option.some.inj hNext).symm,
      .of_search hState hMost hLeast hGap hVip⟩

/-- Where the loop is left, no receiver trails any eligible node by two. -/
theorem rebalanceStep_none (hState : state.Consistent vips eligible)
    (h : rebalanceStep receivers state = none) {donor recv : Nat} (hDonor : donor ∈ eligible)
    (hRecv : recv ∈ eligible) (hReceiver : recv ∈ receivers) :
    Balance.load vips state.placement donor ≤ Balance.load vips state.placement recv + 1 := by
  have hDonorLoad := hState.load_eq donor
  have hRecvLoad := hState.load_eq recv
  rw [if_pos hDonor] at hDonorLoad
  rw [if_pos hRecv] at hRecvLoad
  have hRecvFilter : (state.load.filter fun id _ => id ∈ receivers)[recv]? =
      some (Balance.load vips state.placement recv) := by
    simp [ExtTreeMap.getElem?_filter, hRecvLoad, hReceiver]
  have hMostSome : (mostLoadedNode state.load).isSome := extremeLoadedNode_isSome hDonorLoad
  have hLeastSome : (leastLoadedNode (state.load.filter fun id _ => id ∈ receivers)).isSome :=
    extremeLoadedNode_isSome hRecvFilter
  obtain ⟨⟨most, mostLoad⟩, hMost⟩ := Option.isSome_iff_exists.mp hMostSome
  obtain ⟨⟨least, leastLoad⟩, hLeast⟩ := Option.isSome_iff_exists.mp hLeastSome
  have hMostMax := (mostLoadedNode_some hMost).2 donor _ hDonorLoad
  have hLeastMin := (leastLoadedNode_some hLeast).2 recv _ hRecvFilter
  simp only [rebalanceStep, hMost, hLeast, Option.bind_eq_bind, Option.bind_some] at h
  split at h
  · omega
  · next hGap =>
    exfalso
    obtain ⟨-, hLoad⟩ := hState.load_of_mem (mostLoadedNode_some hMost).1
    obtain ⟨vip, hVip⟩ := hState.exists_last (show 0 < Balance.load vips state.placement most by omega)
    simp [hVip] at h

theorem rebalance_consistent (receivers : Finset Nat) (hState : state.Consistent vips eligible) (fuel : Nat) :
    (rebalance receivers fuel state).Consistent vips eligible ∧
      ∀ vip, ((rebalance receivers fuel state).placement vip).isSome =
        (state.placement vip).isSome := by
  induction fuel generalizing state with
  | zero => exact ⟨hState, fun _ => rfl⟩
  | succ fuel ih =>
      rw [rebalance]
      cases hStep : rebalanceStep receivers state with
      | none => exact ⟨hState, fun _ => rfl⟩
      | some next =>
          obtain ⟨moved, donor, recv, rfl, hMove⟩ := rebalanceStep_some hState hStep
          obtain ⟨hResult, hSame⟩ := ih (hState.move hMove.recv_mem hMove.ne hMove.placed)
          refine ⟨hResult, fun vip => (hSame vip).trans ?_⟩
          rw [AssignState.placement_move]
          by_cases hv : vip = moved
          · simp [hv, hMove.placed]
          · simp [hv]

theorem rebalance_of_rebalanceStep {fuel : Nat}
    (h : rebalanceStep receivers state = none) : rebalance receivers fuel state = state := by
  cases fuel with
  | zero => rfl
  | succ fuel => rw [rebalance, h]

/-- Fuel above the measure is enough for the loop to leave by its own test. -/
theorem rebalanceStep_rebalance (receivers : Finset Nat) (hState : state.Consistent vips eligible) (fuel : Nat)
    (hFuel : Balance.sumSq vips eligible state.placement < fuel) :
    rebalanceStep receivers (rebalance receivers fuel state) = none := by
  induction fuel generalizing state with
  | zero => omega
  | succ fuel ih =>
      rw [rebalance]
      cases hStep : rebalanceStep receivers state with
      | none => exact hStep
      | some next =>
          obtain ⟨moved, donor, recv, rfl, hMove⟩ := rebalanceStep_some hState hStep
          have hDrop := Balance.sumSq_move hMove.donor_mem hMove.recv_mem
            (hState.placed_mem _ _ hMove.placed).1 hMove.placed hMove.gap
          rw [← AssignState.placement_move state moved donor recv] at hDrop
          exact ih (hState.move hMove.recv_mem hMove.ne hMove.placed) (by omega)

/-- A VIP that the loop has moved is on a receiver. -/
theorem rebalance_moved (receivers : Finset Nat) (hState : state.Consistent vips eligible) (fuel : Nat)
    {vip : IpAddr} {node : Nat} (h : (rebalance receivers fuel state).placement vip = some node) :
    state.placement vip = some node ∨ node ∈ receivers := by
  induction fuel generalizing state with
  | zero => exact Or.inl h
  | succ fuel ih =>
      rw [rebalance] at h
      cases hStep : rebalanceStep receivers state with
      | none =>
          rw [hStep] at h
          exact Or.inl h
      | some next =>
          rw [hStep] at h
          obtain ⟨moved, donor, recv, rfl, hMove⟩ := rebalanceStep_some hState hStep
          rcases ih (hState.move hMove.recv_mem hMove.ne hMove.placed) h with hKept | hMoved
          · rw [AssignState.placement_move] at hKept
            by_cases hv : vip = moved
            · subst hv
              rw [Function.update_self] at hKept
              exact Or.inr (Option.some.inj hKept ▸ hMove.receiver)
            · rw [Function.update_of_ne hv] at hKept
              exact Or.inl hKept
          · exact Or.inr hMoved

end Rebalance

/-- What an assignment promises: VIPs go to eligible nodes only, all of them if
there is one, and no receiver trails an eligible node by two. -/
structure Placed (vips : List IpAddr) (eligible receivers : List Nat)
    (out : ExtTreeMap IpAddr Nat) : Prop where
  placed_mem : ∀ (vip : IpAddr) (node : Nat), out[vip]? = some node → vip ∈ vips ∧ node ∈ eligible
  total : eligible ≠ [] → ∀ vip ∈ vips, (out[vip]?).isSome
  balanced : ∀ donor ∈ eligible, ∀ recv ∈ eligible, recv ∈ receivers →
    Balance.load vips.toFinset (fun vip => out[vip]?) donor ≤
      Balance.load vips.toFinset (fun vip => out[vip]?) recv + 1

/-- The first two passes place every VIP, and leave it on a holder that is still
eligible. -/
theorem orphanPass_keepPass {eligible : List Nat} (hEligible : eligible ≠ []) {vips : List IpAddr}
    (hNodup : vips.Nodup) (currentHolders : ExtTreeMap IpAddr Nat) :
    let kept := vips.foldl (keepPass eligible.toFinset currentHolders) (AssignState.seed eligible, [])
    (orphanPass kept.2 kept.1).Consistent vips.toFinset eligible.toFinset ∧
      (∀ vip ∈ vips, ((orphanPass kept.2 kept.1).placement vip).isSome) ∧
      ∀ vip ∈ vips, ∀ holder, keptHolder eligible.toFinset currentHolders vip = some holder →
        (orphanPass kept.2 kept.1).placement vip = some holder := by
  have hNonempty : eligible.toFinset.Nonempty := by
    simpa [List.toFinset_nonempty_iff] using hEligible
  have hSubset : ∀ vip ∈ vips, vip ∈ vips.toFinset := fun vip hVip => List.mem_toFinset.mpr hVip
  obtain ⟨hKept, hKeptPlaced, hOrphans⟩ :=
    keepPass_foldl eligible currentHolders _ hNodup hSubset
  dsimp only
  set kept := vips.foldl (keepPass eligible.toFinset currentHolders) (AssignState.seed eligible, [])
  obtain ⟨hPlaced, hOrphansPlaced, hFrame⟩ := orphanPass_spec hNonempty kept.2 kept.1 hKept
    (hOrphans ▸ hNodup.filter _)
    (fun vip hVip => hSubset vip (List.mem_of_mem_filter (hOrphans ▸ hVip)))
    (fun vip hVip => by
      rw [hOrphans, List.mem_filter] at hVip
      rw [hKeptPlaced, if_pos hVip.1]
      simpa using hVip.2)
  have hStays : ∀ vip ∈ vips, ∀ holder, keptHolder eligible.toFinset currentHolders vip = some holder →
      (orphanPass kept.2 kept.1).placement vip = some holder := by
    intro vip hVip holder hHolder
    have hNotOrphan : vip ∉ kept.2 := by
      rw [hOrphans, List.mem_filter]
      simp [hHolder]
    rw [hFrame vip hNotOrphan, hKeptPlaced, if_pos hVip, hHolder]
  refine ⟨hPlaced, fun vip hVip => ?_, hStays⟩
  cases hHolder : keptHolder eligible.toFinset currentHolders vip with
  | some holder => rw [hStays vip hVip holder hHolder]; rfl
  | none =>
      refine hOrphansPlaced vip ?_
      rw [hOrphans, List.mem_filter]
      exact ⟨hVip, by simp [hHolder]⟩

/-- The three passes together. -/
theorem assignVipsMinimalMovementWithReceivers_placed (eligible receivers : List Nat)
    {vips : List IpAddr} (hNodup : vips.Nodup) (currentHolders : ExtTreeMap IpAddr Nat) :
    Placed vips eligible receivers
      (assignVipsMinimalMovementWithReceivers eligible receivers vips currentHolders) := by
  rw [assignVipsMinimalMovementWithReceivers]
  by_cases hEmpty : eligible = []
  · rw [if_pos hEmpty]
    exact ⟨by simp, fun h => absurd hEmpty h, by simp [hEmpty]⟩
  · rw [if_neg hEmpty]
    have hPerm : (vips.insertionSort (· ≤ ·)).Perm vips := List.perm_insertionSort _ _
    obtain ⟨hPlaced, hTotal, -⟩ := orphanPass_keepPass hEmpty (hPerm.nodup_iff.mpr hNodup)
      currentHolders
    dsimp only
    set placed := orphanPass _ _
    rw [List.toFinset_eq_of_perm _ _ hPerm] at hPlaced
    obtain ⟨hFinal, hDomain⟩ := rebalance_consistent receivers.toFinset hPlaced
      (rebalanceFuel (vips.insertionSort (· ≤ ·)))
    have hExit := rebalanceStep_rebalance receivers.toFinset hPlaced
      (rebalanceFuel (vips.insertionSort (· ≤ ·)))
      (by
        have hBound := Balance.sumSq_le vips.toFinset eligible.toFinset placed.placement
        rw [List.toFinset_card_of_nodup hNodup, ← hPerm.length_eq] at hBound
        exact Nat.lt_succ_of_le hBound)
    refine ⟨fun vip node h => ?_, fun _ vip hVip => ?_, fun donor hDonor recv hRecv hReceiver => ?_⟩
    · simpa using hFinal.placed_mem vip node h
    · rw [← AssignState.placement, hDomain]
      exact hTotal vip (hPerm.mem_iff.mpr hVip)
    · exact rebalanceStep_none hFinal hExit (by simpa using hDonor) (by simpa using hRecv)
        (by simpa using hReceiver)

/-- A VIP that leaves a holder which is still eligible goes to a receiver. -/
theorem assignVipsMinimalMovementWithReceivers_moved {eligible receivers : List Nat}
    {vips : List IpAddr} (hNodup : vips.Nodup) {currentHolders : ExtTreeMap IpAddr Nat} {vip : IpAddr}
    {holder next : Nat} (hVip : vip ∈ vips) (hHolder : currentHolders[vip]? = some holder)
    (hEligible : holder ∈ eligible) (hNext : (assignVipsMinimalMovementWithReceivers eligible receivers
      vips currentHolders)[vip]? = some next) (hMoved : holder ≠ next) : next ∈ receivers := by
  rw [assignVipsMinimalMovementWithReceivers, if_neg (List.ne_nil_of_mem hEligible)] at hNext
  have hPerm : (vips.insertionSort (· ≤ ·)).Perm vips := List.perm_insertionSort _ _
  obtain ⟨hPlaced, -, hStays⟩ := orphanPass_keepPass (List.ne_nil_of_mem hEligible)
    (hPerm.nodup_iff.mpr hNodup) currentHolders
  have hKept := hStays vip (hPerm.mem_iff.mpr hVip) holder
    (keptHolder_eq_some.mpr ⟨hHolder, List.mem_toFinset.mpr hEligible⟩)
  rcases rebalance_moved receivers.toFinset hPlaced _ hNext with hSame | hReceiver
  · exact absurd (Option.some.inj (hKept.symm.trans hSame)) hMoved
  · exact List.mem_toFinset.mp hReceiver

end KeepAfloat
