import Mathlib

/-! Iteration over finite sets and ordered maps in ascending key order. A finite
set has no order of its own; a loop over one runs over the list below, which
evaluates on concrete sets. -/

namespace Ascending

variable {α : Type*} [LinearOrder α]

/-- The members of a finite set in ascending order. -/
def members (s : Finset α) : List α :=
  Quot.liftOn s.val (List.insertionSort (· ≤ ·)) fun first second hPerm =>
    List.Perm.eq_of_pairwise' (List.pairwise_insertionSort (· ≤ ·) first)
      (List.pairwise_insertionSort (· ≤ ·) second)
      ((List.perm_insertionSort _ first).trans (hPerm.trans (List.perm_insertionSort _ second).symm))

@[simp] theorem mem_members {s : Finset α} {a : α} : a ∈ members s ↔ a ∈ s := by
  obtain ⟨⟨elements⟩, hNodup⟩ := s
  exact (List.perm_insertionSort (· ≤ ·) elements).mem_iff

theorem members_nodup (s : Finset α) : (members s).Nodup := by
  obtain ⟨⟨elements⟩, hNodup⟩ := s
  exact (List.perm_insertionSort (· ≤ ·) elements).nodup_iff.mpr hNodup

theorem length_members (s : Finset α) : (members s).length = s.card := by
  obtain ⟨⟨elements⟩, hNodup⟩ := s
  exact (List.perm_insertionSort (· ≤ ·) elements).length_eq

/-- The largest member. -/
def last (s : Finset α) : Option α := (members s).getLast?

theorem mem_of_last {s : Finset α} {a : α} (h : last s = some a) : a ∈ s :=
  mem_members.mp (List.mem_of_getLast? h)

theorem exists_last {s : Finset α} (h : s.Nonempty) : ∃ a, last s = some a := by
  obtain ⟨a, ha⟩ := h
  have hNe : members s ≠ [] := List.ne_nil_of_mem (mem_members.mpr ha)
  exact ⟨_, List.getLast?_eq_some_getLast hNe⟩

end Ascending
