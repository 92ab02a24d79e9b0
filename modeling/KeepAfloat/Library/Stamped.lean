import KeepAfloat.Library.Runs

/-! Replicated logs whose entries carry the stamp of the leader that wrote them. A stamp is
used by one leader, which only appends, so an entry with a given stamp at a given position has
one past. -/

namespace Stamped

variable {Entry Stamp : Type*} (stamp : Entry → Stamp)

/-- Entries with one stamp at one position have the same past. -/
def Agree (first second : List Entry) : Prop :=
  ∀ position one other, first[position]? = some one → second[position]? = some other →
    stamp one = stamp other → first.take (position + 1) = second.take (position + 1)

/-- The entries with a stamp stand in the log of its leader. -/
def Owns (own : Stamp) (log other : List Entry) : Prop :=
  ∀ position entry, other[position]? = some entry → stamp entry = own →
    position < log.length ∧ other.take (position + 1) = log.take (position + 1)

variable {stamp} {own : Stamp} {log other first second : List Entry} {entry : Entry}

theorem Agree.refl (log : List Entry) : Agree stamp log log := fun _ _ _ _ _ _ => rfl

theorem Agree.symm (h : Agree stamp first second) : Agree stamp second first :=
  fun position one other hOne hOther hStamp => (h position other one hOther hOne hStamp.symm).symm

theorem getElem?_of_take {length position : Nat} (h : (log.take length)[position]? = some entry) :
    position < length ∧ log[position]? = some entry := by
  rw [List.getElem?_take] at h
  split at h
  · next hLt => exact ⟨hLt, h⟩
  · cases h

theorem take_succ_take {length position : Nat} (h : position < length) :
    (log.take length).take (position + 1) = log.take (position + 1) := by
  rw [List.take_take, Nat.min_eq_left h]

theorem Agree.take (h : Agree stamp first second) (length : Nat) :
    Agree stamp (first.take length) second := by
  intro position one other hOne hOther hStamp
  obtain ⟨hLt, hOne⟩ := getElem?_of_take hOne
  rw [take_succ_take hLt]
  exact h position one other hOne hOther hStamp

theorem Owns.refl (own : Stamp) (log : List Entry) : Owns stamp own log log :=
  fun _ _ hEntry _ => ⟨(List.getElem?_eq_some_iff.mp hEntry).1, rfl⟩

theorem Owns.take (h : Owns stamp own log other) (length : Nat) :
    Owns stamp own log (other.take length) := by
  intro position entry hEntry hStamp
  obtain ⟨hLt, hEntry⟩ := getElem?_of_take hEntry
  rw [take_succ_take hLt]
  exact h position entry hEntry hStamp

/-- The leader appends. -/
theorem Owns.append (h : Owns stamp own log other) (entry : Entry) :
    Owns stamp own (log ++ [entry]) other := by
  intro position found hFound hStamp
  obtain ⟨hLt, hTake⟩ := h position found hFound hStamp
  refine ⟨by rw [List.length_append]; omega, ?_⟩
  rw [List.take_append_of_le_length hLt, hTake]

/-- Another leader appends. -/
theorem Owns.append_other (h : Owns stamp own log other) (hEntry : stamp entry ≠ own) :
    Owns stamp own log (other ++ [entry]) := by
  intro position found hFound hStamp
  rcases Runs.getElem?_concat hFound with hOld | ⟨-, rfl⟩
  · rw [List.take_append_of_le_length (List.getElem?_eq_some_iff.mp hOld).1]
    exact h position found hOld hStamp
  · exact absurd hStamp hEntry

/-- An entry of the leader is new at its position. -/
theorem Agree.append (h : Agree stamp log other) (hOwns : Owns stamp own log other)
    (hEntry : stamp entry = own) : Agree stamp (log ++ [entry]) other := by
  intro position one found hOne hFound hStamp
  rcases Runs.getElem?_concat hOne with hOld | ⟨rfl, rfl⟩
  · rw [List.take_append_of_le_length (List.getElem?_eq_some_iff.mp hOld).1]
    exact h position one found hOld hFound hStamp
  · exact absurd (hOwns _ found hFound (hStamp.symm.trans hEntry)).1 (Nat.lt_irrefl _)

end Stamped
