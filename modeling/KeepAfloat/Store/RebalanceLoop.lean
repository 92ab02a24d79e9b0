import KeepAfloat.Store.Assign

/-! The loop of pass 3 with its exits told apart and with the subtraction on the donor's load,
which underflows at zero. The sum of the squared loads bounds the number of iterations; a node
that received a VIP is never more than one ahead of any receiver afterwards, and so never
gives one away. -/

namespace KeepAfloat

open Std (ExtTreeMap)

/-- The ways out of the loop. -/
inductive RebalanceExit where
  | noDonor
  | noReceiver
  | spread
  | donorEmpty
  deriving DecidableEq, Repr

/-- What one iteration comes to. -/
inductive Iteration where
  | left (exit : RebalanceExit)
  | underflow
  | moved (vip : IpAddr) (donor recv : Nat) (next : AssignState)

/-- The state at the start of the next iteration. -/
def Iteration.next? : Iteration → Option AssignState
  | moved _ _ _ next => some next
  | _ => none

def rebalanceIteration (receivers : Finset Nat) (state : AssignState) : Iteration :=
  match mostLoadedNode state.load with
  | none => .left .noDonor
  | some (donor, donorLoad) =>
      match leastLoadedNode (state.load.filter fun id _ => id ∈ receivers) with
      | none => .left .noReceiver
      | some (recv, recvLoad) =>
          if donorLoad - recvLoad ≤ 1 then .left .spread
          else
            match (state.held[donor]?).bind Ascending.last with
            | none => .left .donorEmpty
            | some vip =>
                if state.load[donor]? = some 0 then .underflow
                else .moved vip donor recv (state.move vip donor recv)

/-- The state at the start of an iteration, if the loop gets there. -/
def iterationStart (receivers : Finset Nat) (start : AssignState) : Nat → Option AssignState
  | 0 => some start
  | count + 1 => (iterationStart receivers start count).bind fun state =>
      (rebalanceIteration receivers state).next?

/-- The working maps after the first two passes. -/
def passThreeStart (eligible : List Nat) (vipAddrsInOrder : List IpAddr)
    (currentHolders : ExtTreeMap IpAddr Nat) : AssignState :=
  let vipsSorted := vipAddrsInOrder.insertionSort (· ≤ ·)
  let kept := vipsSorted.foldl (keepPass eligible.toFinset currentHolders)
    (AssignState.seed eligible, [])
  orphanPass kept.2 kept.1

section Loop

variable {vips : Finset IpAddr} {eligible receivers : Finset Nat} {state next : AssignState}

/-! ### One iteration -/

/-- A node that is ahead of no receiver by more than one. -/
def AssignState.Settled (vips : Finset IpAddr) (eligible receivers : Finset Nat)
    (state : AssignState) (node : Nat) : Prop :=
  ∀ recv ∈ eligible, recv ∈ receivers →
    Balance.load vips state.placement node ≤ Balance.load vips state.placement recv + 1

/-- The VIPs held for a node are those mapped to it, and as many as its load says. -/
theorem AssignState.Consistent.card_held (hState : state.Consistent vips eligible) (node : Nat) :
    (state.held[node]?.getD ∅).card = Balance.load vips state.placement node := by
  rw [Balance.load]
  congr 1
  ext vip
  rw [hState.held_iff, Finset.mem_filter]
  exact ⟨fun h => ⟨(hState.placed_mem vip node h).1, h⟩, fun h => h.2⟩

/-- An iteration moves a VIP, or leaves the loop because no receiver is left or none trails
by two. The other exits are dead. -/
theorem rebalanceIteration_cases (hState : state.Consistent vips eligible)
    (hEligible : eligible.Nonempty) :
    (∃ vip donor recv, rebalanceIteration receivers state =
        .moved vip donor recv (state.move vip donor recv) ∧
      rebalanceStep receivers state = some (state.move vip donor recv) ∧
      state.Moves vips eligible receivers vip donor recv) ∨
    ((rebalanceIteration receivers state = .left .noReceiver ∨
        rebalanceIteration receivers state = .left .spread) ∧
      rebalanceStep receivers state = none) := by
  obtain ⟨node, hNode⟩ := hEligible
  have hSome : (mostLoadedNode state.load).isSome :=
    extremeLoadedNode_isSome (by rw [hState.load_eq node, if_pos hNode])
  obtain ⟨⟨donor, donorLoad⟩, hMost⟩ := Option.isSome_iff_exists.mp hSome
  simp only [rebalanceIteration, rebalanceStep, hMost, Option.bind_eq_bind, Option.bind_some]
  cases hLeast : leastLoadedNode (state.load.filter fun id _ => id ∈ receivers) with
  | none => exact .inr ⟨.inl rfl, rfl⟩
  | some least =>
      obtain ⟨recv, recvLoad⟩ := least
      by_cases hGap : donorLoad - recvLoad ≤ 1
      · refine .inr ⟨.inr ?_, ?_⟩
        · simp only [if_pos hGap]
        · simp only [Option.bind_some, if_pos hGap]
      · have hDonorLoad := (mostLoadedNode_some hMost).1
        obtain ⟨-, hLoad⟩ := hState.load_of_mem hDonorLoad
        obtain ⟨vip, hVip⟩ :=
          hState.exists_last (show 0 < Balance.load vips state.placement donor by omega)
        have hPositive : ¬state.load[donor]? = some 0 := by
          rw [hDonorLoad, Option.some.injEq]
          omega
        refine .inl ⟨vip, donor, recv, ?_, ?_, .of_search hState hMost hLeast hGap hVip⟩
        · simp only [if_neg hGap, hVip, if_neg hPositive]
        · simp only [Option.bind_some, if_neg hGap, hVip]

theorem rebalanceIteration_ne (hState : state.Consistent vips eligible)
    (hEligible : eligible.Nonempty) (receivers : Finset Nat) :
    rebalanceIteration receivers state ≠ .underflow ∧
      rebalanceIteration receivers state ≠ .left .donorEmpty ∧
      rebalanceIteration receivers state ≠ .left .noDonor := by
  rcases rebalanceIteration_cases hState hEligible with ⟨vip, donor, recv, hMoved, -, -⟩ |
    ⟨hLeft | hLeft, -⟩
  · rw [hMoved]
    exact ⟨nofun, nofun, nofun⟩
  · rw [hLeft]
    exact ⟨nofun, nofun, nofun⟩
  · rw [hLeft]
    exact ⟨nofun, nofun, nofun⟩

namespace AssignState.Moves

variable {vip : IpAddr} {donor recv : Nat}

/-- The loads after a move. -/
theorem load_move (hState : state.Consistent vips eligible)
    (h : state.Moves vips eligible receivers vip donor recv) (node : Nat) :
    (node = recv → Balance.load vips (state.move vip donor recv).placement node =
      Balance.load vips state.placement node + 1) ∧
    (node = donor → Balance.load vips (state.move vip donor recv).placement node + 1 =
      Balance.load vips state.placement node) ∧
    (node ≠ recv → node ≠ donor → Balance.load vips (state.move vip donor recv).placement node =
      Balance.load vips state.placement node) := by
  have hVip := (hState.placed_mem vip donor h.placed).1
  have hNe := h.ne
  rw [placement_move]
  refine ⟨?_, ?_, fun hRecv hDonor => ?_⟩
  · rintro rfl
    exact Balance.load_update_self hVip (by simpa [h.placed] using hNe)
  · rintro rfl
    exact Balance.load_update_donor hVip h.placed hNe
  · exact Balance.load_update_of_ne (by simpa [h.placed] using Ne.symm hDonor) hRecv

/-- The receiver of a move is settled. -/
theorem settled_recv (hState : state.Consistent vips eligible)
    (h : state.Moves vips eligible receivers vip donor recv) :
    (state.move vip donor recv).Settled vips eligible receivers recv := by
  intro other hOther hReceiver
  have hGap := h.gap
  have hLeast := h.least other hOther hReceiver
  have hOwn := (load_move hState h recv).1 rfl
  obtain ⟨hSelf, hDonor, hElse⟩ := load_move hState h other
  by_cases hRecv : other = recv
  · subst hRecv
    omega
  · by_cases hGiver : other = donor
    · have hLoad := hDonor hGiver
      subst hGiver
      omega
    · have hLoad := hElse hRecv hGiver
      omega

/-- A settled node is not the donor, and stays settled. -/
theorem settled_move (hState : state.Consistent vips eligible)
    (h : state.Moves vips eligible receivers vip donor recv) {node : Nat}
    (hSettled : state.Settled vips eligible receivers node) :
    donor ≠ node ∧ (state.move vip donor recv).Settled vips eligible receivers node := by
  have hGap := h.gap
  have hAhead := hSettled recv h.recv_mem h.receiver
  have hNotDonor : donor ≠ node := by
    rintro rfl
    omega
  refine ⟨hNotDonor, ?_⟩
  by_cases hRecv : node = recv
  · rw [hRecv]
    exact settled_recv hState h
  · intro other hOther hReceiver
    have hOwn := (load_move hState h node).2.2 hRecv (Ne.symm hNotDonor)
    have hBefore := hSettled other hOther hReceiver
    obtain ⟨hSelf, hDonor, hElse⟩ := load_move hState h other
    by_cases hOtherRecv : other = recv
    · have hLoad := hSelf hOtherRecv
      omega
    · by_cases hGiver : other = donor
      · have hLoad := hDonor hGiver
        subst hGiver
        omega
      · have hLoad := hElse hOtherRecv hGiver
        omega

end AssignState.Moves

/-! ### Runs -/

variable {start : AssignState}

/-- What an iteration that goes on does. -/
theorem moves_of_next (hState : state.Consistent vips eligible) (hEligible : eligible.Nonempty)
    (h : (rebalanceIteration receivers state).next? = some next) :
    ∃ vip donor recv, rebalanceIteration receivers state = .moved vip donor recv next ∧
      next = state.move vip donor recv ∧ state.Moves vips eligible receivers vip donor recv := by
  rcases rebalanceIteration_cases hState hEligible with ⟨vip, donor, recv, hMoved, -, hMoves⟩ |
    ⟨hLeft | hLeft, -⟩
  · rw [hMoved] at h
    cases h
    exact ⟨vip, donor, recv, hMoved, rfl, hMoves⟩
  · rw [hLeft] at h
    cases h
  · rw [hLeft] at h
    cases h

theorem iterationStart_consistent (hStart : start.Consistent vips eligible)
    (hEligible : eligible.Nonempty) {count : Nat}
    (h : iterationStart receivers start count = some state) : state.Consistent vips eligible := by
  induction count generalizing state with
  | zero =>
      cases h
      exact hStart
  | succ count ih =>
      obtain ⟨before, hBefore, hNext⟩ := Option.bind_eq_some_iff.mp h
      have hConsistent := ih hBefore
      obtain ⟨vip, donor, recv, -, rfl, hMoves⟩ := moves_of_next hConsistent hEligible hNext
      exact hConsistent.move hMoves.recv_mem hMoves.ne hMoves.placed

/-- After an iteration has given a VIP to a node, the node is settled. -/
theorem iterationStart_settled (hStart : start.Consistent vips eligible)
    (hEligible : eligible.Nonempty) {count later : Nat} {before : AssignState} {vip : IpAddr}
    {donor recv : Nat} (hBefore : iterationStart receivers start count = some before)
    (hMoved : rebalanceIteration receivers before = .moved vip donor recv next)
    (hLater : count < later) (h : iterationStart receivers start later = some state) :
    state.Settled vips eligible receivers recv := by
  induction later, hLater using Nat.le_induction generalizing state with
  | base =>
      obtain ⟨same, hSame, hNext⟩ := Option.bind_eq_some_iff.mp h
      cases hBefore.symm.trans hSame
      have hConsistent := iterationStart_consistent hStart hEligible hBefore
      obtain ⟨vip', donor', recv', hMoved', rfl, hMoves⟩ :=
        moves_of_next hConsistent hEligible hNext
      cases hMoved.symm.trans hMoved'
      exact AssignState.Moves.settled_recv hConsistent hMoves
  | succ later hLater ih =>
      obtain ⟨middle, hMiddle, hNext⟩ := Option.bind_eq_some_iff.mp h
      have hConsistent := iterationStart_consistent hStart hEligible hMiddle
      obtain ⟨vip', donor', recv', -, rfl, hMoves⟩ := moves_of_next hConsistent hEligible hNext
      exact (AssignState.Moves.settled_move hConsistent hMoves (ih hMiddle)).2

/-- The iterations behind the first. -/
theorem iterationStart_succ (h : (rebalanceIteration receivers start).next? = some next)
    (count : Nat) :
    iterationStart receivers start (count + 1) = iterationStart receivers next count := by
  induction count with
  | zero => exact h
  | succ count ih => rw [iterationStart, ih, iterationStart]

/-- What the loop has reached when its fuel is used up is the start of some iteration. -/
theorem exists_iterationStart (hStart : start.Consistent vips eligible)
    (hEligible : eligible.Nonempty) (fuel : Nat) :
    ∃ count, iterationStart receivers start count = some (rebalance receivers fuel start) := by
  induction fuel generalizing start with
  | zero => exact ⟨0, rfl⟩
  | succ fuel ih =>
      rcases rebalanceIteration_cases hStart hEligible with
        ⟨vip, donor, recv, hMoved, hStep, hMoves⟩ | ⟨-, hStep⟩
      · obtain ⟨count, hCount⟩ := ih (hStart.move hMoves.recv_mem hMoves.ne hMoves.placed)
        refine ⟨count + 1, ?_⟩
        rw [iterationStart_succ (congrArg Iteration.next? hMoved), hCount, rebalance, hStep]
      · exact ⟨0, by rw [rebalance, hStep]; rfl⟩

/-- Fuel above the measure lets the loop leave by one of its exits. -/
theorem exists_exit (hStart : start.Consistent vips eligible) (hEligible : eligible.Nonempty)
    {fuel : Nat} (hFuel : Balance.sumSq vips eligible start.placement < fuel) :
    ∃ count exit, iterationStart receivers start count = some (rebalance receivers fuel start) ∧
      rebalanceIteration receivers (rebalance receivers fuel start) = .left exit := by
  obtain ⟨count, hCount⟩ := exists_iterationStart hStart hEligible fuel
  have hConsistent := iterationStart_consistent hStart hEligible hCount
  have hExit := rebalanceStep_rebalance receivers hStart fuel hFuel
  rcases rebalanceIteration_cases hConsistent hEligible with ⟨vip, donor, recv, -, hStep, -⟩ |
    ⟨hLeft | hLeft, -⟩
  · cases hExit.symm.trans hStep
  · exact ⟨count, _, hCount, hLeft⟩
  · exact ⟨count, _, hCount, hLeft⟩

end Loop

/-- Pass 3 ends; at the start of each of its iterations the working maps agree, no iteration
underflows or finds the donor empty, and what has received a VIP never gives one away. -/
theorem rebalance_loop {eligible : List Nat} (hEligible : eligible ≠ []) (receivers : List Nat)
    {vips : List IpAddr} (hNodup : vips.Nodup) (currentHolders : ExtTreeMap IpAddr Nat) :
    (∃ count last exit,
      iterationStart receivers.toFinset (passThreeStart eligible vips currentHolders) count =
        some last ∧
      rebalanceIteration receivers.toFinset last = .left exit ∧
      assignVipsMinimalMovementWithReceivers eligible receivers vips currentHolders = last.out) ∧
    ∀ count state,
      iterationStart receivers.toFinset (passThreeStart eligible vips currentHolders) count =
        some state →
      (∀ node : Nat, state.load[node]? =
        if node ∈ eligible then some (state.held[node]?.getD ∅).card else none) ∧
      (∀ (node : Nat) (vip : IpAddr),
        vip ∈ state.held[node]?.getD ∅ ↔ state.out[vip]? = some node) ∧
      rebalanceIteration receivers.toFinset state ≠ .underflow ∧
      rebalanceIteration receivers.toFinset state ≠ .left .donorEmpty ∧
      rebalanceIteration receivers.toFinset state ≠ .left .noDonor ∧
      ∀ vip donor recv next,
        rebalanceIteration receivers.toFinset state = .moved vip donor recv next →
        ∀ later laterState vip' donor' recv' next', count < later →
          iterationStart receivers.toFinset (passThreeStart eligible vips currentHolders) later =
            some laterState →
          rebalanceIteration receivers.toFinset laterState = .moved vip' donor' recv' next' →
          donor' ≠ recv := by
  have hPerm : (vips.insertionSort (· ≤ ·)).Perm vips := List.perm_insertionSort _ _
  obtain ⟨hStart, -, -⟩ := orphanPass_keepPass hEligible (hPerm.nodup_iff.mpr hNodup) currentHolders
  rw [List.toFinset_eq_of_perm _ _ hPerm] at hStart
  change (passThreeStart eligible vips currentHolders).Consistent _ _ at hStart
  have hNonempty : eligible.toFinset.Nonempty := (List.toFinset_nonempty_iff eligible).mpr hEligible
  constructor
  · have hFuel : Balance.sumSq vips.toFinset eligible.toFinset
        (passThreeStart eligible vips currentHolders).placement <
          rebalanceFuel (vips.insertionSort (· ≤ ·)) := by
      have hBound := Balance.sumSq_le vips.toFinset eligible.toFinset
        (passThreeStart eligible vips currentHolders).placement
      rw [List.toFinset_card_of_nodup hNodup, ← hPerm.length_eq] at hBound
      exact Nat.lt_succ_of_le hBound
    obtain ⟨count, exit, hCount, hExit⟩ := exists_exit hStart hNonempty hFuel
    refine ⟨count, _, exit, hCount, hExit, ?_⟩
    rw [assignVipsMinimalMovementWithReceivers, if_neg hEligible]
    rfl
  · intro count state hState
    have hConsistent := iterationStart_consistent hStart hNonempty hState
    obtain ⟨hUnderflow, hEmpty, hNoDonor⟩ :=
      rebalanceIteration_ne hConsistent hNonempty receivers.toFinset
    refine ⟨fun node => ?_, hConsistent.held_iff, hUnderflow, hEmpty, hNoDonor, ?_⟩
    · rw [hConsistent.load_eq, hConsistent.card_held]
      simp only [List.mem_toFinset]
    · intro vip donor recv next hMoved later laterState vip' donor' recv' next' hLater hReached hMoved'
      have hSettled := iterationStart_settled hStart hNonempty hState hMoved hLater hReached
      have hLaterConsistent := iterationStart_consistent hStart hNonempty hReached
      obtain ⟨_, _, _, hSame, -, hMoves⟩ := moves_of_next hLaterConsistent hNonempty
        (congrArg Iteration.next? hMoved')
      cases hMoved'.symm.trans hSame
      exact (AssignState.Moves.settled_move hLaterConsistent hMoves hSettled).1

/-- Three VIPs on one node. -/
def piledVips : List IpAddr := [.v4 1, .v4 2, .v4 3]

def piledHolders : ExtTreeMap IpAddr Nat :=
  piledVips.foldl (fun holders vip => holders.insert vip 1) ∅

theorem rebalance_loop_piled :
    (∃ count last exit,
      iterationStart [2].toFinset (passThreeStart [1, 2] piledVips piledHolders) count = some last ∧
      rebalanceIteration [2].toFinset last = .left exit ∧
      assignVipsMinimalMovementWithReceivers [1, 2] [2] piledVips piledHolders = last.out) ∧
    (assignVipsMinimalMovementWithReceivers [1, 2] [2] piledVips piledHolders)[IpAddr.v4 3]? =
      some 2 :=
  ⟨(rebalance_loop (by decide) [2] (by decide) piledHolders).1, by decide +kernel⟩

end KeepAfloat
