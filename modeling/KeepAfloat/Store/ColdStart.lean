import KeepAfloat.Store.Assign

/-! Cold start: without current holders the minimal-movement assignment is round robin over
the eligible nodes. Orphans go to the emptiest node, and of equally empty ones to the lowest
id, so that the nodes take turns. -/

namespace KeepAfloat

open Std (ExtTreeMap)

/-- Round robin over the eligible nodes, in list order. -/
def assignVipsRoundRobinEligible (eligible : List Nat) (vipAddrsInOrder : List IpAddr) :
    ExtTreeMap IpAddr Nat :=
  if h : eligible = [] then ∅
  else
    vipAddrsInOrder.zipIdx.foldl
      (fun out entry => out.insert entry.1 (eligible.get
        ⟨entry.2 % eligible.length, Nat.mod_lt _ (List.length_pos_iff.mpr h)⟩)) ∅

/-- The number of turns that position `i` of `n` has had after `k` items were dealt. -/
def turns (n k i : Nat) : Nat := k / n + if i < k % n then 1 else 0

section Turns

variable {n k i j : Nat}

theorem turns_zero : turns n 0 i = 0 := by
  simp [turns]

/-- The next item goes to the position whose turn it is. -/
theorem turns_succ (hi : i < n) : turns n (k + 1) i = turns n k i + if i = k % n then 1 else 0 := by
  have hn : 0 < n := Nat.zero_lt_of_lt hi
  have hLt := Nat.mod_lt k hn
  have hSplit := Nat.mod_add_div k n
  rcases Nat.lt_or_ge (k % n + 1) n with hInside | hWrap
  · obtain ⟨hDiv, hMod⟩ := (Nat.div_mod_unique hn).mpr ⟨show k % n + 1 + n * (k / n) = k + 1 by omega, hInside⟩
    rw [turns, turns, hDiv, hMod]
    split_ifs <;> omega
  · obtain ⟨hDiv, hMod⟩ := (Nat.div_mod_unique hn).mpr
      ⟨show 0 + n * (k / n + 1) = k + 1 by rw [Nat.mul_add]; omega, hn⟩
    rw [turns, turns, hDiv, hMod]
    split_ifs <;> omega

theorem turns_next_le : turns n k (k % n) ≤ turns n k i := by
  simp [turns]

theorem turns_next_lt (h : i < k % n) : turns n k (k % n) < turns n k i := by
  simp [turns, h]

theorem turns_le_succ : turns n k i ≤ turns n k j + 1 := by
  unfold turns
  split <;> omega

end Turns

section Dealt

variable {eligible : List Nat} {state : AssignState} {dealt : Nat}

/-- The eligible nodes have taken turns for the first `dealt` VIPs. -/
structure AssignState.Dealt (eligible : List Nat) (state : AssignState) (dealt : Nat) : Prop where
  load_at : ∀ (i node : Nat), eligible[i]? = some node →
    state.load[node]? = some (turns eligible.length dealt i)
  load_mem : ∀ node l : Nat, state.load[node]? = some l → node ∈ eligible

theorem AssignState.Dealt.seed (eligible : List Nat) : (AssignState.seed eligible).Dealt eligible 0 := by
  have hSeed : (AssignState.seed eligible).Consistent ∅ eligible.toFinset := .seed eligible
  have hLoad := hSeed.load_eq
  constructor
  · intro i node hNode
    rw [hLoad, if_pos (List.mem_toFinset.mpr (List.mem_of_getElem? hNode)), turns_zero]
    rfl
  · intro node l hNode
    rw [hLoad] at hNode
    split at hNode
    · next hMem => exact List.mem_toFinset.mp hMem
    · cases hNode

/-- The emptiest node with the lowest id is the one whose turn it is. -/
theorem AssignState.Dealt.leastLoadedNode (hSorted : eligible.Pairwise (· < ·))
    (h : state.Dealt eligible dealt) {target : Nat}
    (hTarget : eligible[dealt % eligible.length]? = some target) :
    ∃ least, KeepAfloat.leastLoadedNode state.load = some (target, least) := by
  have hSome : (KeepAfloat.leastLoadedNode state.load).isSome :=
    extremeLoadedNode_isSome (h.load_at _ _ hTarget)
  obtain ⟨⟨node, least⟩, hLeast⟩ := Option.isSome_iff_exists.mp hSome
  obtain ⟨hNode, hMin⟩ := leastLoadedNode_some hLeast
  obtain ⟨i, hi⟩ := List.mem_iff_getElem?.mp (h.load_mem node least hNode)
  have hLoad : least = turns eligible.length dealt i := Option.some.inj (hNode.symm.trans (h.load_at i node hi))
  have hBelow : least ≤ turns eligible.length dealt (dealt % eligible.length) :=
    hMin target _ (h.load_at _ _ hTarget)
  suffices hTurn : i = dealt % eligible.length by
    subst hTurn
    exact ⟨least, by rw [hLeast, Option.some.inj (hi.symm.trans hTarget)]⟩
  rcases Nat.lt_trichotomy i (dealt % eligible.length) with hBefore | hEq | hAfter
  · have hMore := turns_next_lt hBefore
    omega
  · exact hEq
  · have hOrder : target < node := by
      obtain ⟨hFirst, rfl⟩ := List.getElem?_eq_some_iff.mp hTarget
      obtain ⟨hSecond, rfl⟩ := List.getElem?_eq_some_iff.mp hi
      exact List.pairwise_iff_getElem.mp hSorted _ _ hFirst hSecond hAfter
    have hStrict := leastLoadedNode_first hLeast (h.load_at _ _ hTarget) hOrder
    have hTurn : turns eligible.length dealt (dealt % eligible.length) ≤
      turns eligible.length dealt i := turns_next_le
    omega

theorem AssignState.Dealt.place (hNodup : eligible.Nodup) (h : state.Dealt eligible dealt) {target : Nat}
    (hTarget : eligible[dealt % eligible.length]? = some target) (vip : IpAddr) :
    (state.place vip target).Dealt eligible (dealt + 1) := by
  constructor
  · intro i node hi
    have hIndex : i < eligible.length := (List.getElem?_eq_some_iff.mp hi).1
    simp only [AssignState.place, ExtTreeMap.getElem?_insert, compare_eq_iff_eq]
    rw [turns_succ hIndex]
    by_cases hNode : target = node
    · subst hNode
      have hTurn : i = dealt % eligible.length :=
        (List.getElem?_inj hIndex hNodup).mp (hi.trans hTarget.symm)
      rw [if_pos rfl, if_pos hTurn, h.load_at i target hi]
      rfl
    · have hTurn : i ≠ dealt % eligible.length := by
        rintro rfl
        exact hNode (Option.some.inj (hTarget.symm.trans hi))
      rw [if_neg hNode, if_neg hTurn, h.load_at i node hi]
      rfl
  · intro node l hNode
    simp only [AssignState.place, ExtTreeMap.getElem?_insert, compare_eq_iff_eq] at hNode
    by_cases hEq : target = node
    · exact hEq ▸ List.mem_of_getElem? hTarget
    · rw [if_neg hEq] at hNode
      exact h.load_mem node l hNode

/-- Pass 2 deals the orphans out in turn. -/
theorem orphanPass_dealt (hEligible : eligible ≠ []) (hSorted : eligible.Pairwise (· < ·))
    (orphans : List IpAddr) (hNodup : orphans.Nodup) (h : state.Dealt eligible dealt) :
    (orphanPass orphans state).Dealt eligible (dealt + orphans.length) ∧
      (∀ vip, vip ∉ orphans → (orphanPass orphans state).placement vip = state.placement vip) ∧
      ∀ k vip, orphans[k]? = some vip →
        (orphanPass orphans state).placement vip = eligible[(dealt + k) % eligible.length]? := by
  induction orphans generalizing state dealt with
  | nil => exact ⟨h, fun _ _ => rfl, by simp⟩
  | cons vip rest ih =>
      obtain ⟨hFresh, hRest⟩ := List.nodup_cons.mp hNodup
      have hTurn : dealt % eligible.length < eligible.length :=
        Nat.mod_lt _ (List.length_pos_iff.mpr hEligible)
      have hTarget := List.getElem?_eq_getElem hTurn
      obtain ⟨least, hLeast⟩ := h.leastLoadedNode hSorted hTarget
      obtain ⟨hDealt, hFrame, hPlaced⟩ := ih hRest (h.place (hSorted.imp ne_of_lt) hTarget vip)
      simp only [orphanPass, hLeast]
      refine ⟨?_, fun other hOther => ?_, fun k other hOther => ?_⟩
      · rw [List.length_cons, Nat.add_comm rest.length, ← Nat.add_assoc]
        exact hDealt
      · obtain ⟨hNe, hNotRest⟩ := not_or.mp (mt List.mem_cons.mpr hOther)
        rw [hFrame other hNotRest, AssignState.placement_place, Function.update_of_ne hNe]
      · cases k with
        | zero =>
            obtain rfl : vip = other := by simpa using hOther
            rw [hFrame vip hFresh, AssignState.placement_place, Function.update_self]
            exact hTarget.symm
        | succ k =>
            rw [hPlaced k other (by simpa using hOther), Nat.add_assoc, Nat.add_comm 1 k]

/-- Nodes that took turns are level, so that pass 3 moves nothing. -/
theorem AssignState.Dealt.rebalanceStep (h : state.Dealt eligible dealt) (receivers : Finset Nat) :
    KeepAfloat.rebalanceStep receivers state = none := by
  rw [Option.eq_none_iff_forall_ne_some]
  intro next hNext
  simp only [KeepAfloat.rebalanceStep, Option.bind_eq_bind, Option.bind_eq_some_iff, Prod.exists] at hNext
  obtain ⟨donor, donorLoad, hMost, recv, recvLoad, hLeast, hRest⟩ := hNext
  have hDonor := (mostLoadedNode_some hMost).1
  have hRecv : state.load[recv]? = some recvLoad := by
    have hEntry := (leastLoadedNode_some hLeast).1
    rw [ExtTreeMap.getElem?_filter, Option.pfilter_eq_some_iff] at hEntry
    exact hEntry.1
  obtain ⟨i, hi⟩ := List.mem_iff_getElem?.mp (h.load_mem donor donorLoad hDonor)
  obtain ⟨j, hj⟩ := List.mem_iff_getElem?.mp (h.load_mem recv recvLoad hRecv)
  have hDonorTurns := hDonor.symm.trans (h.load_at i donor hi)
  have hRecvTurns := hRecv.symm.trans (h.load_at j recv hj)
  have hLevel : turns eligible.length dealt i ≤ turns eligible.length dealt j + 1 := turns_le_succ
  rw [← Option.some.inj hDonorTurns, ← Option.some.inj hRecvTurns] at hLevel
  rw [if_pos (by omega)] at hRest
  cases hRest

end Dealt

/-- Without current holders every VIP is an orphan. -/
theorem keepPass_foldl_empty (eligible : Finset Nat) (vips : List IpAddr)
    (state : AssignState × List IpAddr) :
    vips.foldl (keepPass eligible ∅) state = (state.1, state.2 ++ vips) := by
  induction vips generalizing state with
  | nil => simp
  | cons vip rest ih =>
      rw [List.foldl_cons, ih]
      simp [keepPass]

section RoundRobin

variable {eligible : List Nat} {vips : List IpAddr}

/-- Round robin assigns exactly the listed VIPs, the `k`-th of them to position `k` modulo
the number of nodes. -/
theorem assignVipsRoundRobinEligible_spec (hEligible : eligible ≠ []) (hNodup : vips.Nodup) :
    (∀ vip, vip ∉ vips → (assignVipsRoundRobinEligible eligible vips)[vip]? = none) ∧
      ∀ k vip, vips[k]? = some vip →
        (assignVipsRoundRobinEligible eligible vips)[vip]? = eligible[k % eligible.length]? := by
  simp only [assignVipsRoundRobinEligible, dif_neg hEligible]
  induction vips using List.reverseRecOn with
  | nil => simp
  | append_singleton vips last ih =>
      have hSplit := List.nodup_append.mp hNodup
      have hFresh : last ∉ vips := fun hMem => hSplit.2.2 _ hMem _ (by simp) rfl
      obtain ⟨hOutside, hListed⟩ := ih hSplit.1
      rw [List.zipIdx_append, List.foldl_append, List.zipIdx_singleton, List.foldl_cons, List.foldl_nil]
      refine ⟨fun vip hVip => ?_, fun k vip hVip => ?_⟩
      · simp only [List.mem_append, List.mem_singleton, not_or] at hVip
        simp only [ExtTreeMap.getElem?_insert, compare_eq_iff_eq, if_neg (Ne.symm hVip.2)]
        exact hOutside vip hVip.1
      · rcases Nat.lt_trichotomy k vips.length with hBefore | rfl | hAfter
        · rw [List.getElem?_append_left hBefore] at hVip
          have hNe : last ≠ vip := fun hEq => hFresh (hEq ▸ List.mem_of_getElem? hVip)
          simp only [ExtTreeMap.getElem?_insert, compare_eq_iff_eq, if_neg hNe]
          exact hListed k vip hVip
        · obtain rfl : last = vip := by simpa using hVip
          simp
        · rw [List.getElem?_eq_none (by simpa using hAfter)] at hVip
          cases hVip

/-- Cold start equals round robin: the `k`-th smallest VIP goes to the eligible node at
position `k` modulo the number of eligible nodes. -/
theorem assignVipsMinimalMovement_coldStart (eligible : List Nat) (hEligible : eligible ≠ [])
    (hSorted : eligible.Pairwise (· < ·)) (vips : List IpAddr) (hNodup : vips.Nodup) :
    assignVipsMinimalMovement eligible vips ∅ =
        assignVipsRoundRobinEligible eligible (vips.insertionSort (· ≤ ·)) ∧
      ∀ k vip, (vips.insertionSort (· ≤ ·))[k]? = some vip →
        (assignVipsMinimalMovement eligible vips ∅)[vip]? = eligible[k % eligible.length]? := by
  have hSortedNodup : (vips.insertionSort (· ≤ ·)).Nodup :=
    (List.perm_insertionSort (· ≤ ·) vips).nodup_iff.mpr hNodup
  obtain ⟨hDealt, hFrame, hPlaced⟩ := orphanPass_dealt hEligible hSorted
    (vips.insertionSort (· ≤ ·)) hSortedNodup (AssignState.Dealt.seed eligible)
  have hEq : assignVipsMinimalMovement eligible vips ∅ =
      (orphanPass (vips.insertionSort (· ≤ ·)) (AssignState.seed eligible)).out := by
    rw [assignVipsMinimalMovement, assignVipsMinimalMovementWithReceivers, if_neg hEligible]
    simp only [keepPass_foldl_empty, List.nil_append]
    rw [rebalance_of_rebalanceStep (hDealt.rebalanceStep _)]
  have hListed : ∀ k vip, (vips.insertionSort (· ≤ ·))[k]? = some vip →
      (assignVipsMinimalMovement eligible vips ∅)[vip]? = eligible[k % eligible.length]? := by
    intro k vip hVip
    have hAt := hPlaced k vip hVip
    rw [Nat.zero_add] at hAt
    rw [hEq]
    exact hAt
  refine ⟨?_, hListed⟩
  obtain ⟨hOutside, hRobin⟩ := assignVipsRoundRobinEligible_spec hEligible hSortedNodup
  refine ExtTreeMap.ext_getElem? fun vip => ?_
  by_cases hMem : vip ∈ vips.insertionSort (· ≤ ·)
  · obtain ⟨k, hk⟩ := List.mem_iff_getElem?.mp hMem
    rw [hListed k vip hk, hRobin k vip hk]
  · rw [hOutside vip hMem, hEq]
    exact (hFrame vip hMem).trans (by simp [AssignState.placement, AssignState.seed])

theorem assignVipsMinimalMovement_coldStart_five :
    (assignVipsMinimalMovement [2, 5] ([4, 1, 3, 0, 2].map fun n => .v4 n) ∅)[IpAddr.v4 3]? = some 5 := by
  have hRobin := (assignVipsMinimalMovement_coldStart [2, 5] (by decide) (by decide)
    ([4, 1, 3, 0, 2].map fun n => .v4 n) (by decide)).2
  exact hRobin 3 (.v4 3) (by decide)

end RoundRobin

end KeepAfloat
