import Mathlib

/-! Lists as tables: sorted by a key, one entry for each key. Such a list is determined by
its members. -/

namespace Keyed

variable {α κ : Type*} [LinearOrder κ] (key : α → κ)

def sortBy (list : List α) : List α := list.insertionSort (Order.Preimage key (· ≤ ·))

theorem perm_sortBy (list : List α) : (sortBy key list).Perm list :=
  List.perm_insertionSort _ list

theorem pairwise_sortBy (list : List α) :
    (sortBy key list).Pairwise fun first second => key first ≤ key second :=
  List.pairwise_insertionSort _ list

/-- Entries with distinct keys make a table. -/
theorem pairwise_sortBy_of_nodup {list : List α} (h : (list.map key).Nodup) :
    (sortBy key list).Pairwise fun first second => key first < key second := by
  have hKeys : ((sortBy key list).map key).Nodup :=
    ((perm_sortBy key list).map key).nodup_iff.mpr h
  exact (pairwise_sortBy key list).imp₂ (fun _ _ hLe hNe => lt_of_le_of_ne hLe hNe)
    (List.pairwise_map.mp hKeys)

/-- Of entries in a row with one key, the first. -/
def dedupBy (list : List α) : List α := list.destutter fun first second => key first ≠ key second

theorem mem_of_mem_dedupBy {list : List α} {entry : α} (h : entry ∈ dedupBy key list) :
    entry ∈ list :=
  (List.destutter_sublist _ list).mem h

theorem pairwise_dedupBy {list : List α}
    (h : list.Pairwise fun first second => key first ≤ key second) :
    (dedupBy key list).Pairwise fun first second => key first < key second := by
  have hSorted := (h.sublist (List.destutter_sublist (fun a b => key a ≠ key b) list)).isChain
  have hApart := List.isChain_destutter (fun a b => key a ≠ key b) list
  rw [List.isChain_iff_forall_rel_of_append_cons_cons] at hSorted hApart
  have hStrict : (dedupBy key list).IsChain fun first second => key first < key second :=
    List.isChain_iff_forall_rel_of_append_cons_cons.mpr fun _ _ _ _ hSplit =>
      lt_of_le_of_ne (hSorted hSplit) (hApart hSplit)
  exact List.isChain_iff_pairwise.mp hStrict

/-- No key is lost. -/
theorem exists_mem_dedupBy {list : List α} {entry : α} (h : entry ∈ list) :
    ∃ kept ∈ dedupBy key list, key kept = key entry := by
  have hKept : ∀ (rest : List α) (first : α), entry ∈ first :: rest →
      ∃ kept ∈ rest.destutter' (fun a b => key a ≠ key b) first, key kept = key entry := by
    intro rest
    induction rest with
    | nil =>
        intro first hMem
        exact ⟨first, List.mem_singleton_self first, by rw [List.mem_singleton.mp hMem]⟩
    | cons second rest ih =>
        intro first hMem
        rw [List.destutter'_cons]
        split
        · rcases List.mem_cons.mp hMem with rfl | hRest
          · exact ⟨entry, List.mem_cons_self, rfl⟩
          · obtain ⟨kept, hKept, hKey⟩ := ih second hRest
            exact ⟨kept, List.mem_cons_of_mem _ hKept, hKey⟩
        · next hSame =>
            rcases List.mem_cons.mp hMem with rfl | hRest
            · exact ih entry List.mem_cons_self
            · rcases List.mem_cons.mp hRest with rfl | hLater
              · exact ⟨first, rest.mem_destutter' _ first, not_not.mp hSame⟩
              · exact ih first (List.mem_cons_of_mem _ hLater)
  cases list with
  | nil => cases h
  | cons first rest => exact hKept rest first h

/-- A table is left as it is. -/
theorem dedupBy_sortBy {list : List α} (h : list.Pairwise fun first second => key first < key second) :
    dedupBy key (sortBy key list) = list := by
  have hSorted : sortBy key list = list :=
    List.Pairwise.insertionSort_eq (h.imp fun hLt => le_of_lt hLt)
  rw [hSorted, dedupBy]
  exact List.destutter_of_isChain _ _ (h.imp ne_of_lt).isChain

/-- Tables with the same members are the same. -/
theorem eq_of_mem_iff {first second : List α}
    (hFirst : first.Pairwise fun a b => key a < key b)
    (hSecond : second.Pairwise fun a b => key a < key b)
    (h : ∀ entry, entry ∈ first ↔ entry ∈ second) : first = second := by
  have hNodup : ∀ {list : List α}, list.Pairwise (fun a b => key a < key b) → list.Nodup :=
    fun hList => hList.imp fun hLt hEq => (hEq ▸ hLt).false
  have hPerm := (List.perm_ext_iff_of_nodup (hNodup hFirst) (hNodup hSecond)).mpr h
  exact hPerm.eq_of_pairwise (fun _ _ _ _ hLt hGt => (hLt.asymm hGt).elim) hFirst hSecond

end Keyed
