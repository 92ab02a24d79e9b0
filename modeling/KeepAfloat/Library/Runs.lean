import Mathlib

/-! Finite runs of a deterministic step function. The state after a prefix is
addressed by the number of steps taken, so that two moments of one run can be
compared. Every rule here is the one induction behind a safety statement: a
caller supplies what holds at the start and what one step keeps. -/

namespace Runs

universe u v
variable {State : Type u} {Event : Type v} (step : State → Event → State) (start : State)

/-- The state after the first `i` events. Past the end the run stands still. -/
def stateAt (events : List Event) (i : Nat) : State := (events.take i).foldl step start

@[simp] theorem stateAt_zero (events : List Event) : stateAt step start events 0 = start := by
  simp [stateAt]

theorem stateAt_succ {events : List Event} {i : Nat} (h : i < events.length) :
    stateAt step start events (i + 1) = step (stateAt step start events i) events[i] := by
  rw [stateAt, ← List.take_append_getElem h, List.foldl_append]
  rfl

theorem stateAt_length (events : List Event) :
    stateAt step start events events.length = events.foldl step start := by
  simp [stateAt]

/-- An event of a list with one more event is an old one or the last. -/
theorem getElem?_concat {events : List Event} {event last : Event} {i : Nat}
    (h : (events ++ [last])[i]? = some event) :
    events[i]? = some event ∨ i = events.length ∧ event = last := by
  rw [List.getElem?_append] at h
  split at h
  · exact .inl h
  · rw [List.getElem?_singleton] at h
    split at h
    · exact .inr ⟨by omega, (Option.some.inj h).symm⟩
    · cases h

/-- Invariant rule. -/
theorem stateAt_invariant (Inv : State → Prop) (hStart : Inv start)
    (hStep : ∀ state event, Inv state → Inv (step state event)) (events : List Event) (i : Nat) :
    Inv (stateAt step start events i) := by
  unfold stateAt
  generalize events.take i = taken
  induction taken using List.reverseRecOn with
  | nil => exact hStart
  | append_singleton taken event ih =>
      rw [List.foldl_append]
      exact hStep _ event ih

/-- Invariant rule for invariants that mention how many steps were taken, with
the event and its position available to the step obligation. -/
theorem stateAt_indexed (Inv : Nat → State → Prop) {events : List Event} (hStart : Inv 0 start)
    (hStep : ∀ i (h : i < events.length), Inv i (stateAt step start events i) →
      Inv (i + 1) (step (stateAt step start events i) events[i])) :
    ∀ i, i ≤ events.length → Inv i (stateAt step start events i)
  | 0, _ => by simpa using hStart
  | i + 1, h => by
      rw [stateAt_succ step start h]
      exact hStep i h (stateAt_indexed Inv hStart hStep i (Nat.le_of_succ_le h))

/-- A reflexive and transitive relation kept by every single step relates any
two moments of a run. -/
theorem stateAt_related {events : List Event} (rel : State → State → Prop)
    (hRefl : ∀ state, rel state state) (hTrans : ∀ a b c, rel a b → rel b c → rel a c)
    (hStep : ∀ i (h : i < events.length),
      rel (stateAt step start events i) (step (stateAt step start events i) events[i]))
    {i j : Nat} (hij : i ≤ j) (hj : j ≤ events.length) :
    rel (stateAt step start events i) (stateAt step start events j) := by
  induction j, hij using Nat.le_induction with
  | base => exact hRefl _
  | succ j hij ih =>
      have hlt : j < events.length := hj
      rw [stateAt_succ step start hlt]
      exact hTrans _ _ _ (ih (Nat.le_of_succ_le hj)) (hStep j hlt)

/-- A property that fails at one moment and holds at a later one was made true
by some step in between. -/
theorem exists_step_of_change {events : List Event} (P : State → Prop) {i j : Nat} (hij : i ≤ j)
    (hi : ¬P (stateAt step start events i)) (hj : P (stateAt step start events j)) :
    ∃ k, i ≤ k ∧ k < j ∧ ¬P (stateAt step start events k) ∧
      P (stateAt step start events (k + 1)) := by
  induction j, hij using Nat.le_induction with
  | base => exact absurd hj hi
  | succ j hij ih =>
      by_cases h : P (stateAt step start events j)
      · obtain ⟨k, hik, hkj, hk⟩ := ih h
        exact ⟨k, hik, Nat.lt_succ_of_lt hkj, hk⟩
      · exact ⟨j, hij, Nat.lt_succ_self j, h, hj⟩

/-- Simulation rule. If every step of a run is matched by an event of a second
machine on the image of the state, then one run of the second machine follows
the whole run. What is known about each matching event is kept. -/
theorem exists_simulating {Image : Type*} {Move : Type*} (image : State → Image)
    (move : Image → Move → Image) {events : List Event} (known : Nat → Move → Prop)
    (hStep : ∀ i (h : i < events.length), ∃ m, known i m ∧
      image (step (stateAt step start events i) events[i]) =
        move (image (stateAt step start events i)) m) :
    ∃ moves : List Move, moves.length = events.length ∧
      (∀ i (h : i < moves.length), known i moves[i]) ∧
      ∀ i, i ≤ events.length →
        image (stateAt step start events i) = stateAt move (image start) moves i := by
  choose matched hKnown hMatched using hStep
  refine ⟨List.ofFn fun i : Fin events.length => matched i i.isLt, List.length_ofFn, ?_, ?_⟩
  · intro i h
    rw [List.getElem_ofFn]
    exact hKnown i (by simpa using h)
  · intro i
    induction i with
    | zero => intro _; simp
    | succ i ih =>
        intro h
        rw [stateAt_succ step start h, stateAt_succ move (image start) (by simpa using h), ← ih (by omega),
          List.getElem_ofFn]
        exact hMatched i h

end Runs
