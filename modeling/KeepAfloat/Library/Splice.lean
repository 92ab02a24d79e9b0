import Mathlib

/-! Storing a slice of one log in another. Entries are compared by an identity; an
entry with another identity at its position cuts the log there. Two logs match when
equal identities at one position make them equal up to that position. -/

namespace Splice

universe u v

variable {Entry : Type u} {Id : Type v} (ident : Entry → Id)

/-- Log matching. -/
def Matches (log leader : List Entry) : Prop :=
  ∀ (i : Nat) (known sent : Entry), log[i]? = some known → leader[i]? = some sent →
    ident known = ident sent → ∀ j : Nat, j ≤ i → log[j]? = leader[j]?

variable {ident}

theorem matches_take (leader : List Entry) (count : Nat) :
    Matches ident (leader.take count) leader := by
  intro i known sent hKnown hSent hIdent j hj
  have hi : i < count := by
    by_contra hNot
    rw [List.getElem?_take_eq_none (by omega)] at hKnown
    cases hKnown
  exact List.getElem?_take_of_lt (by omega)

theorem take_eq_take {log leader : List Entry} {count : Nat}
    (h : ∀ j : Nat, j < count → log[j]? = leader[j]?) : log.take count = leader.take count := by
  apply List.ext_getElem?
  intro j
  by_cases hj : j < count
  · rw [List.getElem?_take_of_lt hj, List.getElem?_take_of_lt hj, h j hj]
  · rw [List.getElem?_take_eq_none (by omega), List.getElem?_take_eq_none (by omega)]

variable [DecidableEq Id] (ident)

/-- Store one entry at a position: keep a known entry, cut at a conflicting one, and
extend the log at its end. -/
def place (log : List Entry) (position : Nat) (entry : Entry) : List Entry :=
  match log[position]? with
  | some known => if ident known = ident entry then log else log.take position ++ [entry]
  | none => log ++ [entry]

def placeAll (log : List Entry) : Nat → List Entry → List Entry
  | _, [] => log
  | position, entry :: rest => placeAll (place ident log position entry) (position + 1) rest

variable {ident}

theorem lt_length_place {log : List Entry} {position : Nat} {entry : Entry}
    (h : position ≤ log.length) : position < (place ident log position entry).length := by
  rw [place]
  cases hKnown : log[position]? with
  | none => simp; omega
  | some known =>
      have hWithin := (List.getElem?_eq_some_iff.mp hKnown).1
      dsimp only
      split
      · exact hWithin
      · simp; omega

/-- Placing an entry of the leader that the log lacks leaves the leader's log up to
it. -/
theorem place_new {log leader : List Entry} {position : Nat} {sent : Entry}
    (hSent : leader[position]? = some sent) (hPrefix : log.take position = leader.take position)
    (hNew : ∀ known, log[position]? = some known → ident known ≠ ident sent) :
    place ident log position sent = leader.take (position + 1) := by
  obtain ⟨hBound, hGet⟩ := List.getElem?_eq_some_iff.mp hSent
  have hTake : leader.take (position + 1) = leader.take position ++ [sent] := by
    rw [← hGet, List.take_append_getElem hBound]
  rw [place, hTake]
  cases hKnown : log[position]? with
  | none =>
      have hEnd : log.length ≤ position := List.getElem?_eq_none_iff.mp hKnown
      rw [← hPrefix, List.take_of_length_le hEnd]
  | some known =>
      dsimp only
      rw [if_neg (hNew known hKnown), hPrefix]

/-- A slice that starts on a common prefix either is known already or replaces what
follows by the leader's log. -/
theorem placeAll_slice {log leader : List Entry} (hMatches : Matches ident log leader)
    {start count : Nat} (hReach : start ≤ log.length)
    (hPrefix : log.take start = leader.take start) (hSlice : start + count ≤ leader.length) :
    (placeAll ident log start ((leader.drop start).take count) = log ∧
        start + count ≤ log.length ∧ log.take (start + count) = leader.take (start + count)) ∨
      (placeAll ident log start ((leader.drop start).take count) = leader.take (start + count) ∧
        ∃ m : Nat, m < start + count ∧ log[m]? ≠ leader[m]?) := by
  induction count generalizing log start with
  | zero => exact Or.inl ⟨rfl, hReach, hPrefix⟩
  | succ count ih =>
      have hBound : start < leader.length := by omega
      have hSent : leader[start]? = some leader[start] := List.getElem?_eq_getElem hBound
      rw [List.drop_eq_getElem_cons hBound, List.take_succ_cons, placeAll]
      have hShift : start + (count + 1) = start + 1 + count := by omega
      rw [hShift]
      by_cases hKnown : ∃ known, log[start]? = some known ∧ ident known = ident leader[start]
      · obtain ⟨known, hLog, hIdent⟩ := hKnown
        have hSame : place ident log start leader[start] = log := by
          rw [place, hLog]
          exact if_pos hIdent
        have hUp := hMatches start known leader[start] hLog hSent hIdent
        rw [hSame]
        refine ih hMatches ?_ ?_ (by omega)
        · exact (List.getElem?_eq_some_iff.mp hLog).1
        · exact take_eq_take fun j hj => hUp j (by omega)
      · have hNew : ∀ known, log[start]? = some known → ident known ≠ ident leader[start] :=
          fun known hLog hIdent => hKnown ⟨known, hLog, hIdent⟩
        rw [place_new hSent hPrefix hNew]
        right
        constructor
        · have hLength : start + 1 ≤ (leader.take (start + 1)).length := by
            rw [List.length_take]
            omega
          rcases ih (matches_take leader (start + 1)) hLength (by simp) (by omega) with
            ⟨hPlaced, hAll, -⟩ | ⟨hPlaced, -⟩
          · rw [List.length_take] at hAll
            obtain rfl : count = 0 := by omega
            exact hPlaced
          · exact hPlaced
        · refine ⟨start, by omega, fun hEq => ?_⟩
          exact hNew leader[start] (hEq.trans hSent) rfl

end Splice
