import KeepAfloat.Store.StateMachine

/-! The handoff fence of one VIP as a machine of its own, and the chain of
ownerships that it walks through. A fence sees three kinds of event: nothing, a
release acknowledgement, and a merge of recomputed holders. Every run of the
state machine drives the fence of every VIP through such a run. -/

namespace KeepAfloat

inductive FenceEvent where
  | stay
  | release (nodeId generation : Nat)
  | reconcile (latestProbeTick : Nat) (nextHolder : Option Nat)
  deriving DecidableEq, Repr

namespace VipFence

def empty : VipFence := ⟨none, none, none⟩

def advance (fence : VipFence) : FenceEvent → VipFence
  | .stay => fence
  | .release nodeId generation => fence.release nodeId generation
  | .reconcile latestProbeTick nextHolder => fence.reconcile latestProbeTick nextHolder

/-- The last generation used, zero before the first. -/
def lastGeneration (fence : VipFence) : Nat := fence.generation.getD 0

/-- A holder is present after the event that was not the holder before. -/
def GainsHolder (before after : VipFence) : Prop :=
  ∃ assignment, after.assignment = some assignment ∧
    before.assignment.map VipAssignment.holder ≠ some assignment.holder

/-- The event gives the VIP to a node that did not hold it. -/
def HandsOver (fence : VipFence) (event : FenceEvent) : Prop :=
  ∃ latestProbeTick holder, event = .reconcile latestProbeTick (some holder) ∧
    fence.assignment.map VipAssignment.holder ≠ some holder

/-- The merge gives the VIP to the recomputed holder, whatever the fence was. -/
theorem holder_reconcile (fence : VipFence) (latestProbeTick : Nat) (nextHolder : Option Nat) :
    (fence.reconcile latestProbeTick nextHolder).assignment.map VipAssignment.holder =
      nextHolder := by
  cases nextHolder with
  | none => rfl
  | some holder =>
      by_cases hSame : fence.assignment.map VipAssignment.holder = some holder
      · rw [reconcile, if_pos hSame]
        exact hSame
      · rw [reconcile, if_neg hSame]
        rfl

/-- Inversion of one event: the fence stands still up to the release flag, loses
its holder, or hands over. -/
theorem advance_cases (fence : VipFence) (event : FenceEvent) :
    (∃ nodeId generation, event = .release nodeId generation ∧
      fence.advance event = fence.release nodeId generation) ∨
    (fence.advance event = fence) ∨
    (fence.advance event = fence.vacate) ∨
    (∃ existing, fence.assignment = some existing ∧
      fence.advance event = { fence with lastHolder := some existing.holder }) ∨
    (∃ latestProbeTick holder, event = .reconcile latestProbeTick (some holder) ∧
      fence.assignment.map VipAssignment.holder ≠ some holder ∧
      fence.advance event = fence.handoff latestProbeTick holder) := by
  cases event with
  | stay => exact Or.inr (Or.inl rfl)
  | release nodeId generation => exact Or.inl ⟨nodeId, generation, rfl, rfl⟩
  | reconcile latestProbeTick nextHolder =>
      cases nextHolder with
      | none => exact Or.inr (Or.inr (Or.inl rfl))
      | some holder =>
          by_cases hSame : fence.assignment.map VipAssignment.holder = some holder
          · refine Or.inr (Or.inr (Or.inr (Or.inl ?_)))
            obtain ⟨existing, hExisting, rfl⟩ := Option.map_eq_some_iff.mp hSame
            exact ⟨existing, hExisting, by simp [advance, reconcile, hSame]⟩
          · refine Or.inr (Or.inr (Or.inr (Or.inr ⟨latestProbeTick, holder, rfl, hSame, ?_⟩)))
            simp [advance, reconcile, hSame]

/-- A fresh handoff starts unreleased whenever there is a previous holder. -/
theorem handoff_unreleased {fence : VipFence} {latestProbeTick holder previous : Nat}
    {assignment : VipAssignment}
    (hAssignment : (fence.handoff latestProbeTick holder).assignment = some assignment)
    (hPrevious : assignment.previousHolder = some previous) :
    assignment.previousHolderReleased = false := by
  obtain rfl := Option.some.inj hAssignment
  change (fence.assignment.map VipAssignment.holder).or fence.lastHolder = some previous at hPrevious
  simp [hPrevious]

/-- The holder that a new handoff would name as previous. -/
def formerHolder (fence : VipFence) : Option Nat :=
  (fence.assignment.map VipAssignment.holder).or fence.lastHolder

/-- Except at a handoff an event keeps the generation and the assignment's
handoff data, and forgets no holder. -/
theorem advance_kept {fence : VipFence} {event : FenceEvent}
    (hNot : ¬fence.HandsOver event) :
    (fence.advance event).lastGeneration = fence.lastGeneration ∧
      ((fence.advance event).lastHolder = fence.lastHolder ∨
        (fence.advance event).lastHolder = fence.formerHolder) ∧
      ∀ assignment, (fence.advance event).assignment = some assignment →
        ∃ old, fence.assignment = some old ∧ old.holder = assignment.holder ∧
          old.generation = assignment.generation ∧
          old.previousHolder = assignment.previousHolder ∧
          old.activationTick = assignment.activationTick := by
  rcases fence.advance_cases event with ⟨nodeId, generation, -, hEq⟩ | hEq | hEq |
    ⟨existing, hExisting, hEq⟩ | ⟨latestProbeTick, holder, hEvent, hNe, -⟩
  · rw [hEq]
    refine ⟨rfl, Or.inl rfl, fun assignment hAssignment => ?_⟩
    obtain ⟨old, hOld, hMap⟩ := Option.map_eq_some_iff.mp hAssignment
    refine ⟨old, hOld, ?_⟩
    split at hMap <;> subst hMap <;> exact ⟨rfl, rfl, rfl, rfl⟩
  · rw [hEq]
    exact ⟨rfl, Or.inl rfl, fun assignment hAssignment => ⟨assignment, hAssignment, rfl, rfl, rfl, rfl⟩⟩
  · rw [hEq]
    exact ⟨rfl, Or.inr rfl, fun assignment hAssignment => by simp [vacate] at hAssignment⟩
  · rw [hEq]
    refine ⟨rfl, Or.inr ?_, fun assignment hAssignment => ⟨assignment, hAssignment, rfl, rfl, rfl, rfl⟩⟩
    simp [formerHolder, hExisting]
  · exact absurd ⟨latestProbeTick, holder, hEvent, hNe⟩ hNot

theorem handsOver_iff {fence : VipFence} {event : FenceEvent} :
    fence.HandsOver event ↔ GainsHolder fence (fence.advance event) := by
  constructor
  · rintro ⟨latestProbeTick, holder, rfl, hNe⟩
    refine ⟨_, by rw [advance, reconcile, if_neg hNe]; rfl, hNe⟩
  · rintro ⟨assignment, hAssignment, hNe⟩
    by_contra hNot
    obtain ⟨old, hOld, hHolder, -⟩ := (advance_kept hNot).2.2 assignment hAssignment
    exact hNe (by rw [hOld, Option.map_some, hHolder])

end VipFence

/-- One ownership of a VIP, without the release flag. -/
structure Handoff where
  holder : Nat
  previousHolder : Option Nat
  activationTick : Nat
  deriving DecidableEq, Repr

def VipAssignment.handoff (assignment : VipAssignment) : Handoff :=
  ⟨assignment.holder, assignment.previousHolder, assignment.activationTick⟩

/-- Every ownership of the chain names the holder before it, the first none. -/
def Linked (chain : List Handoff) : Prop :=
  ∀ (k : Nat) (link : Handoff), chain[k]? = some link →
    link.previousHolder = (chain.take k).getLast?.map Handoff.holder

/-- The fence stands on the chain: generation `g` is the chain's `g`-th ownership. -/
structure OnChain (chain : List Handoff) (fence : VipFence) : Prop where
  bound : fence.lastGeneration ≤ chain.length
  lastHolder : fence.lastHolder =
    (chain.take fence.lastGeneration).getLast?.map Handoff.holder
  assigned : ∀ assignment, fence.assignment = some assignment →
    assignment.generation = fence.lastGeneration ∧
      (chain.take fence.lastGeneration).getLast? = some assignment.handoff

namespace OnChain

variable {chain : List Handoff} {fence : VipFence}

theorem append (hOn : OnChain chain fence) (more : List Handoff) :
    OnChain (chain ++ more) fence where
  bound := hOn.bound.trans (by simp)
  lastHolder := by rw [List.take_append_of_le_length hOn.bound, hOn.lastHolder]
  assigned := by rw [List.take_append_of_le_length hOn.bound]; exact hOn.assigned

/-- The generations of an assignment start at one, and its previous holder is the
holder of the generation before. -/
theorem previousHolder_eq (hOn : OnChain chain fence) (hLinked : Linked chain)
    {assignment : VipAssignment} (hAssignment : fence.assignment = some assignment) :
    ∃ before, assignment.generation = before + 1 ∧ before < chain.length ∧
      assignment.previousHolder = (chain.take before).getLast?.map Handoff.holder := by
  obtain ⟨hNumber, hLink⟩ := hOn.assigned assignment hAssignment
  rw [← hNumber] at hLink
  cases hGeneration : assignment.generation with
  | zero => simp [hGeneration] at hLink
  | succ before =>
      have hBound : before < chain.length := by
        have hLe := hOn.bound
        omega
      refine ⟨before, rfl, hBound, hLinked before assignment.handoff ?_⟩
      rw [← hLink, hGeneration, List.getLast?_eq_getElem?, List.length_take_of_le hBound]
      simp

/-- An assigned VIP has used a generation: the counter is present, not only zero
by default. -/
theorem generation_eq (hOn : OnChain chain fence) {assignment : VipAssignment}
    (hAssignment : fence.assignment = some assignment) :
    fence.generation = some assignment.generation := by
  obtain ⟨hNumber, hLink⟩ := hOn.assigned assignment hAssignment
  rw [hNumber]
  unfold VipFence.lastGeneration at hLink ⊢
  cases hGeneration : fence.generation with
  | none => simp [hGeneration] at hLink
  | some generation => rfl

theorem formerHolder_eq (hOn : OnChain chain fence) : fence.formerHolder = fence.lastHolder := by
  cases hAssignment : fence.assignment with
  | none => simp [VipFence.formerHolder, hAssignment]
  | some assignment =>
      rw [hOn.lastHolder, (hOn.assigned assignment hAssignment).2]
      simp [VipFence.formerHolder, hAssignment, VipAssignment.handoff]

/-- Events other than a handoff keep the fence where it stands. -/
theorem advance_kept (hOn : OnChain chain fence) {event : FenceEvent}
    (hNot : ¬fence.HandsOver event) : OnChain chain (fence.advance event) := by
  obtain ⟨hGeneration, hLast, hAssigned⟩ := VipFence.advance_kept hNot
  rw [hOn.formerHolder_eq, or_self] at hLast
  refine ⟨hGeneration ▸ hOn.bound, by rw [hLast, hGeneration, hOn.lastHolder], ?_⟩
  intro assignment hAssignment
  obtain ⟨old, hOld, hHolder, hOldGeneration, hPrevious, hTick⟩ := hAssigned assignment hAssignment
  obtain ⟨hCurrent, hLink⟩ := hOn.assigned old hOld
  rw [hGeneration]
  refine ⟨hOldGeneration ▸ hCurrent, ?_⟩
  rw [hLink, VipAssignment.handoff, VipAssignment.handoff, hHolder, hPrevious, hTick]

/-- A handoff appends its ownership to a chain that ends at the fence. -/
theorem handoff (hOn : OnChain chain fence) (hEnd : chain.length = fence.lastGeneration)
    (hRoom : fence.lastGeneration + 1 ≤ Word64.maxWord) (latestProbeTick holder : Nat) :
    ∃ link, link.previousHolder = chain.getLast?.map Handoff.holder ∧
      (fence.handoff latestProbeTick holder).lastGeneration = fence.lastGeneration + 1 ∧
      OnChain (chain ++ [link]) (fence.handoff latestProbeTick holder) := by
  have hGeneration : (fence.handoff latestProbeTick holder).lastGeneration =
      fence.lastGeneration + 1 := Word64.satAdd_of_le hRoom
  have hFormer : fence.formerHolder = chain.getLast?.map Handoff.holder := by
    rw [hOn.formerHolder_eq, hOn.lastHolder, ← hEnd, List.take_length]
  obtain ⟨assignment, hAssignment, hHolder, hPrevious, hNumber⟩ :
      ∃ assignment, (fence.handoff latestProbeTick holder).assignment = some assignment ∧
        assignment.holder = holder ∧ assignment.previousHolder = fence.formerHolder ∧
        assignment.generation = (fence.handoff latestProbeTick holder).lastGeneration :=
    ⟨_, rfl, rfl, rfl, rfl⟩
  refine ⟨assignment.handoff, hPrevious.trans hFormer, hGeneration, ?_, ?_, ?_⟩
  · rw [hGeneration, List.length_append, hEnd, List.length_singleton]
  · rw [hGeneration, ← hEnd, List.take_of_length_le (by simp)]
    simp [VipFence.handoff, VipAssignment.handoff, hHolder]
  · intro other hOther
    obtain rfl := Option.some.inj (hAssignment.symm.trans hOther)
    refine ⟨hNumber, ?_⟩
    rw [hGeneration, ← hEnd, List.take_of_length_le (by simp)]
    simp

end OnChain

theorem Linked.append {chain : List Handoff} (hLinked : Linked chain) {link : Handoff}
    (hLink : link.previousHolder = chain.getLast?.map Handoff.holder) :
    Linked (chain ++ [link]) := by
  intro k other hOther
  rcases Runs.getElem?_concat hOther with hOld | ⟨rfl, rfl⟩
  · rw [List.take_append_of_le_length (List.getElem?_eq_some_iff.mp hOld).1.le]
    exact hLinked k other hOld
  · rw [List.take_append_of_le_length le_rfl, List.take_length, hLink]

/-- The fence after `i` events, from a VIP that was never owned. -/
def fenceAt (events : List FenceEvent) (i : Nat) : VipFence :=
  Runs.stateAt VipFence.advance VipFence.empty events i

theorem fenceAt_succ {events : List FenceEvent} {i : Nat} (h : i < events.length) :
    fenceAt events (i + 1) = (fenceAt events i).advance events[i] :=
  Runs.stateAt_succ _ _ h

/-- One chain carries the whole run, and it is no longer than the run: this is
why the generation counter of a run shorter than the word never saturates. -/
theorem exists_chain {events : List FenceEvent} (hShort : events.length ≤ Word64.maxWord) (n : Nat)
    (hn : n ≤ events.length) :
    ∃ chain, Linked chain ∧ chain.length = (fenceAt events n).lastGeneration ∧
      chain.length ≤ n ∧ ∀ i, i ≤ n → OnChain chain (fenceAt events i) := by
  induction n with
  | zero =>
      refine ⟨[], ?_, rfl, le_rfl, fun i hi => ?_⟩
      · intro k link hLink
        simp at hLink
      · obtain rfl := Nat.le_zero.mp hi
        exact ⟨le_rfl, rfl, fun assignment hAssignment => by cases hAssignment⟩
  | succ n ih =>
      obtain ⟨chain, hLinked, hEnd, hLength, hOn⟩ := ih (by omega)
      have hNow := hOn n le_rfl
      have hNext := fenceAt_succ hn
      by_cases hOver : (fenceAt events n).HandsOver events[n]
      · obtain ⟨latestProbeTick, holder, hEvent, hNe⟩ := hOver
        obtain ⟨link, hLink, hGeneration, hStands⟩ :=
          hNow.handoff hEnd (by omega) latestProbeTick holder
        have hAdvance : fenceAt events (n + 1) =
            (fenceAt events n).handoff latestProbeTick holder := by
          rw [hNext, hEvent, VipFence.advance, VipFence.reconcile, if_neg hNe]
        refine ⟨chain ++ [link], hLinked.append hLink, ?_, by simpa using hLength, fun i hi => ?_⟩
        · rw [hAdvance, hGeneration, ← hEnd, List.length_append, List.length_singleton]
        · rcases Nat.lt_or_eq_of_le hi with hLt | rfl
          · exact (hOn i (by omega)).append [link]
          · rw [hAdvance]
            exact hStands
      · have hKept := hNow.advance_kept hOver
        rw [← hNext] at hKept
        refine ⟨chain, hLinked, ?_, by omega, fun i hi => ?_⟩
        · rw [hEnd, hNext, (VipFence.advance_kept hOver).1]
        · rcases Nat.lt_or_eq_of_le hi with hLt | rfl
          · exact hOn i (by omega)
          · exact hKept

/-- The generation counts handoffs. -/
theorem lastGeneration_succ {events : List FenceEvent} (hShort : events.length ≤ Word64.maxWord)
    {i : Nat} (h : i < events.length) :
    ((fenceAt events i).HandsOver events[i] →
        (fenceAt events (i + 1)).lastGeneration = (fenceAt events i).lastGeneration + 1) ∧
      (¬(fenceAt events i).HandsOver events[i] →
        (fenceAt events (i + 1)).lastGeneration = (fenceAt events i).lastGeneration) := by
  rw [fenceAt_succ h]
  refine ⟨?_, fun hNot => (VipFence.advance_kept hNot).1⟩
  rintro ⟨latestProbeTick, holder, hEvent, hNe⟩
  obtain ⟨chain, -, hEnd, hLength, -⟩ := exists_chain hShort i h.le
  rw [hEvent, VipFence.advance, VipFence.reconcile, if_neg hNe]
  exact Word64.satAdd_of_le (show (fenceAt events i).lastGeneration + 1 ≤ _ by omega)

/-- The counter stays within the word, and an assignment carries its last number. -/
structure VipFence.Numbered (fence : VipFence) : Prop where
  bound : fence.lastGeneration ≤ Word64.maxWord
  assigned : ∀ assignment, fence.assignment = some assignment →
    assignment.generation = fence.lastGeneration

/-- One event keeps the numbering and never counts down, saturated or not. -/
theorem VipFence.Numbered.advance {fence : VipFence} (h : fence.Numbered) (event : FenceEvent) :
    (fence.advance event).Numbered ∧
      fence.lastGeneration ≤ (fence.advance event).lastGeneration := by
  by_cases hOver : fence.HandsOver event
  · obtain ⟨latestProbeTick, holder, rfl, hNe⟩ := hOver
    rw [VipFence.advance, VipFence.reconcile, if_neg hNe]
    refine ⟨⟨Word64.satAdd_le_max _ _, ?_⟩, Word64.le_satAdd 1 h.bound⟩
    intro assignment hAssignment
    obtain rfl := Option.some.inj hAssignment
    rfl
  · obtain ⟨hGeneration, -, hAssigned⟩ := VipFence.advance_kept hOver
    rw [hGeneration]
    refine ⟨⟨hGeneration.trans_le h.bound, ?_⟩, le_rfl⟩
    intro assignment hAssignment
    obtain ⟨old, hOld, -, hSame, -⟩ := hAssigned assignment hAssignment
    rw [hGeneration, ← hSame]
    exact h.assigned old hOld

theorem fenceAt_numbered (events : List FenceEvent) (i : Nat) : (fenceAt events i).Numbered := by
  apply Runs.stateAt_invariant VipFence.advance VipFence.empty VipFence.Numbered
  · exact ⟨Nat.zero_le _, fun assignment h => by cases h⟩
  · intro fence event h
    exact (h.advance event).1

theorem lastGeneration_mono {events : List FenceEvent} {i j : Nat} (hij : i ≤ j)
    (hj : j ≤ events.length) :
    (fenceAt events i).lastGeneration ≤ (fenceAt events j).lastGeneration := by
  induction j, hij using Nat.le_induction with
  | base => exact le_rfl
  | succ j hij ih =>
      rw [fenceAt_succ hj]
      exact (ih (Nat.le_of_succ_le hj)).trans ((fenceAt_numbered events j).advance _).2

/-- Every generation up to the current one was owned at some moment. -/
theorem exists_ownership {events : List FenceEvent} (hShort : events.length ≤ Word64.maxWord)
    {n : Nat} (hn : n ≤ events.length) {generation : Nat} (hPos : 0 < generation)
    (hLe : generation ≤ (fenceAt events n).lastGeneration) :
    ∃ i, i ≤ n ∧ ∃ assignment, (fenceAt events i).assignment = some assignment ∧
      assignment.generation = generation := by
  induction n with
  | zero =>
      change generation ≤ 0 at hLe
      omega
  | succ n ih =>
      obtain ⟨hOver, hKept⟩ := lastGeneration_succ hShort (show n < events.length from hn)
      by_cases hBefore : generation ≤ (fenceAt events n).lastGeneration
      · obtain ⟨i, hi, hOwned⟩ := ih (by omega) hBefore
        exact ⟨i, by omega, hOwned⟩
      · have hHands : (fenceAt events n).HandsOver events[n] := by
          by_contra hNot
          exact hBefore (hKept hNot ▸ hLe)
        have hNumber := hOver hHands
        obtain ⟨latestProbeTick, holder, hEvent, hNe⟩ := hHands
        obtain ⟨chain, -, -, -, hOn⟩ := exists_chain hShort (n + 1) hn
        have hOwned : ∃ assignment, (fenceAt events (n + 1)).assignment = some assignment := by
          rw [fenceAt_succ (show n < events.length from hn), hEvent, VipFence.advance,
            VipFence.reconcile, if_neg hNe]
          exact ⟨_, rfl⟩
        obtain ⟨assignment, hAssignment⟩ := hOwned
        refine ⟨n + 1, le_rfl, assignment, hAssignment, ?_⟩
        rw [((hOn (n + 1) le_rfl).assigned assignment hAssignment).1]
        omega

/-- Two moments with the same generation see the same ownership. -/
theorem handoff_eq_of_generation_eq {events : List FenceEvent}
    (hShort : events.length ≤ Word64.maxWord) {i j : Nat} (hi : i ≤ events.length)
    (hj : j ≤ events.length) {first second : VipAssignment}
    (hFirst : (fenceAt events i).assignment = some first)
    (hSecond : (fenceAt events j).assignment = some second)
    (hGeneration : first.generation = second.generation) : first.handoff = second.handoff := by
  obtain ⟨chain, -, -, -, hOn⟩ := exists_chain hShort events.length le_rfl
  obtain ⟨hFirstNumber, hFirstLink⟩ := (hOn i hi).assigned first hFirst
  obtain ⟨hSecondNumber, hSecondLink⟩ := (hOn j hj).assigned second hSecond
  have hSame : (fenceAt events i).lastGeneration = (fenceAt events j).lastGeneration :=
    hFirstNumber.symm.trans (hGeneration.trans hSecondNumber)
  rw [hSame, hSecondLink] at hFirstLink
  exact (Option.some.inj hFirstLink).symm

/-- The previous holder is absent exactly for the first generation, and otherwise
held the generation before. -/
theorem previousHolder_spec {events : List FenceEvent}
    (hShort : events.length ≤ Word64.maxWord) {i : Nat} (hi : i ≤ events.length)
    {assignment : VipAssignment} (hAssignment : (fenceAt events i).assignment = some assignment) :
    (assignment.previousHolder = none ↔ assignment.generation = 1) ∧
      ∀ previous, assignment.previousHolder = some previous →
        ∃ k, k < i ∧ ∃ earlier, (fenceAt events k).assignment = some earlier ∧
          earlier.generation + 1 = assignment.generation ∧ earlier.holder = previous := by
  obtain ⟨chain, hLinked, -, -, hOn⟩ := exists_chain hShort i hi
  obtain ⟨before, hBefore, hBound, hPrevious⟩ := (hOn i le_rfl).previousHolder_eq hLinked hAssignment
  have hNumber := ((hOn i le_rfl).assigned assignment hAssignment).1
  refine ⟨?_, fun previous hSome => ?_⟩
  · rw [hPrevious, Option.map_eq_none_iff, List.getLast?_eq_none_iff, List.take_eq_nil_iff]
    constructor
    · rintro (hZero | hNil)
      · omega
      · simp [hNil] at hBound
    · intro hOne
      exact Or.inl (by omega)
  · have hPos : 0 < before := by
      rcases Nat.eq_zero_or_pos before with rfl | hPos
      · simp [hPrevious] at hSome
      · exact hPos
    obtain ⟨m, hm, earlier, hEarlier, hEarlierNumber⟩ :=
      exists_ownership hShort hi hPos (by omega)
    obtain ⟨hCount, hEarlierLink⟩ := (hOn m hm).assigned earlier hEarlier
    rw [← hCount, hEarlierNumber] at hEarlierLink
    refine ⟨m, ?_, earlier, hEarlier, by omega, ?_⟩
    · rcases Nat.lt_or_eq_of_le hm with hLt | rfl
      · exact hLt
      · rw [hAssignment] at hEarlier
        obtain rfl := Option.some.inj hEarlier
        omega
    · rw [hPrevious, hEarlierLink] at hSome
      exact Option.some.inj hSome

/-- Among the first `i` events the previous holder acknowledged this ownership,
at a moment at which it stood. -/
def ReleaseSeen (events : List FenceEvent) (i previous : Nat) (assignment : VipAssignment) : Prop :=
  ∃ k, k < i ∧ ∃ h : k < events.length, events[k] = .release previous assignment.generation ∧
    ∃ earlier, (fenceAt events k).assignment = some earlier ∧
      earlier.generation = assignment.generation ∧ earlier.handoff = assignment.handoff

/-- A set release flag goes back to an acknowledgement. -/
theorem exists_release {events : List FenceEvent} (i : Nat) (hi : i ≤ events.length)
    {assignment : VipAssignment} (hAssignment : (fenceAt events i).assignment = some assignment)
    (hReleased : assignment.previousHolderReleased = true) {previous : Nat}
    (hPrevious : assignment.previousHolder = some previous) :
    ReleaseSeen events i previous assignment := by
  induction i generalizing assignment with
  | zero => cases hAssignment
  | succ i ih =>
      rw [fenceAt_succ hi] at hAssignment
      have hSame : ∀ old, (fenceAt events i).assignment = some old →
          old.previousHolderReleased = true → old = assignment →
          ReleaseSeen events (i + 1) previous assignment := by
        rintro old hOld hOldReleased rfl
        obtain ⟨k, hk, hSeen⟩ := ih (by omega) hOld hOldReleased hPrevious
        exact ⟨k, by omega, hSeen⟩
      rcases (fenceAt events i).advance_cases events[i] with ⟨nodeId, generation, hEvent, hEq⟩ |
        hEq | hEq | ⟨existing, hExisting, hEq⟩ | ⟨latestProbeTick, holder, hEvent, hNe, hEq⟩
      · rw [hEq] at hAssignment
        obtain ⟨old, hOld, hMap⟩ := Option.map_eq_some_iff.mp hAssignment
        split at hMap
        · next hMatch =>
          subst hMap
          obtain ⟨rfl, hNode⟩ := hMatch
          obtain rfl := Option.some.inj (hNode.symm.trans hPrevious)
          exact ⟨i, by omega, hi, hEvent, old, hOld, rfl, rfl⟩
        · subst hMap
          exact hSame old hOld hReleased rfl
      · rw [hEq] at hAssignment
        exact hSame assignment hAssignment hReleased rfl
      · rw [hEq] at hAssignment
        cases hAssignment
      · rw [hEq] at hAssignment
        exact hSame assignment hAssignment hReleased rfl
      · rw [hEq] at hAssignment
        have hFresh := VipFence.handoff_unreleased hAssignment hPrevious
        simp [hReleased] at hFresh

/-! ### The state machine drives the fence of every VIP -/

/-- What an entry and the state after it say about the event at a fence. -/
def Explains (after : KafStorageState) (entry : Entry) (vip : IpAddr) : FenceEvent → Prop
  | .stay => True
  | .release nodeId generation => entry.payload = .normal (.vipReleased nodeId vip generation)
  | .reconcile latestProbeTick _ => latestProbeTick = after.latestProbeTick

namespace KafStorageState

theorem latestProbeTick_recompute (state : KafStorageState) :
    state.recompute.latestProbeTick = state.latestProbeTick := by
  obtain ⟨_, _, _, hTracked⟩ := trackFailback_frame state
  rw [recompute, hTracked]

/-- A release entry is dispatched to the release record and to nothing else. -/
theorem step_vipReleased (state : KafStorageState) {entry : Entry} {nodeId generation : Nat}
    {vip : IpAddr} (hEntry : entry.payload = .normal (.vipReleased nodeId vip generation)) :
    state.step entry =
      { state with lastAppliedLog := some entry.logId }.recordRelease nodeId vip generation := by
  rw [step, applyOne, dispatch, hEntry]
  rfl

/-- Every other entry leaves the fence alone or merges recomputed holders. -/
theorem fence_step_other (state : KafStorageState) {entry : Entry} (vip : IpAddr)
    (hEntry : ∀ nodeId released generation,
      entry.payload ≠ .normal (.vipReleased nodeId released generation)) :
    (state.step entry).fence vip = state.fence vip ∨
      (∃ nextHolder, vip ∈ state.vipList.addrs ∧ (state.step entry).fence vip =
        (state.fence vip).reconcile (state.step entry).latestProbeTick nextHolder) ∨
      (vip ∉ state.vipList.addrs ∧ (state.step entry).fence vip =
        ⟨none, (state.fence vip).generation, (state.fence vip).lastHolder⟩) := by
  obtain ⟨hConfig, hVips⟩ := dispatch_frame { state with lastAppliedLog := some entry.logId } entry
  have hSame := hVips hEntry
  rw [step, applyOne, Dispatched.finish]
  set dispatched := { state with lastAppliedLog := some entry.logId }.dispatch entry
  have hFence : dispatched.state.fence vip = state.fence vip :=
    fence_congr hSame.vipAssignments hSame.vipGeneration hSame.vipLastHolder vip
  dsimp only
  split
  · have hList : dispatched.state.vipList = state.vipList := hConfig.vipList
    rw [fence_recompute, latestProbeTick_recompute, hFence, hList]
    by_cases hMem : vip ∈ state.vipList.addrs
    · rw [if_pos hMem]
      exact Or.inr (Or.inl ⟨_, hMem, rfl⟩)
    · rw [if_neg hMem]
      exact Or.inr (Or.inr ⟨hMem, rfl⟩)
  · exact Or.inl hFence

/-- One entry, one event. A VIP outside the configured list must be unassigned,
which `fence_unconfigured` shows of every reachable state. -/
theorem exists_fence_event (state : KafStorageState) (entry : Entry) (vip : IpAddr)
    (hOwn : vip ∉ state.vipList.addrs → (state.fence vip).assignment = none) :
    ∃ event, Explains (state.step entry) entry vip event ∧
      (state.step entry).fence vip = (state.fence vip).advance event := by
  by_cases hRelease : ∃ nodeId released generation,
      entry.payload = .normal (.vipReleased nodeId released generation)
  · obtain ⟨nodeId, released, generation, hEntry⟩ := hRelease
    rw [step_vipReleased state hEntry, fence_recordRelease]
    by_cases hVip : released = vip
    · subst hVip
      rw [if_pos rfl]
      exact ⟨.release nodeId generation, hEntry, rfl⟩
    · rw [if_neg hVip]
      exact ⟨.stay, trivial, rfl⟩
  · simp only [not_exists] at hRelease
    rcases fence_step_other state vip hRelease with hEq | ⟨nextHolder, -, hEq⟩ | ⟨hMem, hEq⟩
    · exact ⟨.stay, trivial, hEq⟩
    · exact ⟨.reconcile _ nextHolder, rfl, hEq⟩
    · refine ⟨.reconcile (state.step entry).latestProbeTick none, rfl, hEq.trans ?_⟩
      simp [VipFence.advance, VipFence.reconcile, VipFence.vacate, hOwn hMem]

end KafStorageState

section Run

variable {config : StoreConfig} {entries : List Entry}

theorem stateAfter_vipList (i : Nat) : (stateAfter config entries i).vipList = config.vipList :=
  Runs.stateAt_invariant _ _ (fun state => state.vipList = config.vipList) rfl
    (fun state entry hInv => (KafStorageState.step_sameConfig state entry).vipList.trans hInv)
    entries i

/-- A VIP outside the configured list is never assigned. -/
theorem fence_unconfigured (i : Nat) {vip : IpAddr} (hVip : vip ∉ config.vipList.addrs) :
    ((stateAfter config entries i).fence vip).assignment = none := by
  have hInv := Runs.stateAt_invariant KafStorageState.step config.start
    (fun state => state.vipList = config.vipList ∧ (state.fence vip).assignment = none)
    ⟨rfl, by simp [StoreConfig.start, KafStorageState.new, KafStorageState.fence]⟩ ?_ entries i
  · exact hInv.2
  · rintro state entry ⟨hList, hNone⟩
    refine ⟨(KafStorageState.step_sameConfig state entry).vipList.trans hList, ?_⟩
    by_cases hRelease : ∃ nodeId released generation,
        entry.payload = .normal (.vipReleased nodeId released generation)
    · obtain ⟨nodeId, released, generation, hEntry⟩ := hRelease
      rw [state.step_vipReleased hEntry, KafStorageState.fence_recordRelease]
      split
      · exact Option.map_eq_none_iff.mpr hNone
      · exact hNone
    · simp only [not_exists] at hRelease
      rcases state.fence_step_other vip hRelease with hEq | ⟨_, hMem, -⟩ | ⟨-, hEq⟩
      · rw [hEq, hNone]
      · exact absurd (hList ▸ hMem) hVip
      · rw [hEq]

/-- Refinement: the fence of a VIP in a run of the state machine is a run of the
fence machine, one event for each entry. -/
theorem exists_fence_run (config : StoreConfig) (entries : List Entry) (vip : IpAddr) :
    ∃ events : List FenceEvent, events.length = entries.length ∧
      (∀ i (h : i < entries.length), ∃ event, events[i]? = some event ∧
        Explains (stateAfter config entries (i + 1)) entries[i] vip event) ∧
      ∀ i, i ≤ entries.length → (stateAfter config entries i).fence vip = fenceAt events i := by
  obtain ⟨events, hLength, hKnown, hRun⟩ :=
    Runs.exists_simulating KafStorageState.step config.start
      (fun state => state.fence vip) VipFence.advance
      (fun i event => ∀ h : i < entries.length,
        Explains (stateAfter config entries (i + 1)) entries[i] vip event)
      (fun i h => by
        obtain ⟨event, hExplains, hEq⟩ :=
          (stateAfter config entries i).exists_fence_event entries[i] vip fun hVip => by
            rw [stateAfter_vipList] at hVip
            exact fence_unconfigured i hVip
        rw [← stateAfter_succ h] at hExplains
        exact ⟨event, fun _ => hExplains, hEq⟩)
  refine ⟨events, hLength, fun i h => ?_, fun i hi => ?_⟩
  · have hi : i < events.length := hLength ▸ h
    exact ⟨events[i], List.getElem?_eq_getElem hi, hKnown i hi h⟩
  · have hEmpty : config.start.fence vip = VipFence.empty := by
      simp [StoreConfig.start, KafStorageState.new, KafStorageState.fence, VipFence.empty]
    have hFence := hRun i hi
    rw [hEmpty] at hFence
    exact hFence

end Run

end KeepAfloat
