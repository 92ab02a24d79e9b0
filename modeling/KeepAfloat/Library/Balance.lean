import Mathlib

/-! Items placed in bins, and the sum of squared loads as a termination measure
for moving items from fuller to emptier bins. -/

namespace Balance

variable {Item Bin : Type*} [DecidableEq Bin]

/-- The number of items of a finite set that a placement puts in a bin. -/
def load (items : Finset Item) (place : Item → Option Bin) (bin : Bin) : Nat :=
  (items.filter fun item => place item = some bin).card

/-- The measure: the sum over the bins of the squared loads. -/
def sumSq (items : Finset Item) (bins : Finset Bin) (place : Item → Option Bin) : Nat :=
  ∑ bin ∈ bins, load items place bin ^ 2

section Update

variable [DecidableEq Item] {items : Finset Item} {place : Item → Option Bin} {item : Item}
  {target : Bin}

/-- Putting an item into a bin that does not hold it adds one there. -/
theorem load_update_self (hItem : item ∈ items) (hOut : place item ≠ some target) :
    load items (Function.update place item (some target)) target = load items place target + 1 := by
  have hFilter : (items.filter fun i => Function.update place item (some target) i = some target) =
      insert item (items.filter fun i => place i = some target) := by
    ext i
    by_cases hi : i = item
    · subst hi
      simp [hItem]
    · simp [hi]
  rw [load, hFilter, Finset.card_insert_of_notMem (by simp [hOut])]
  rfl

/-- A bin that the item neither leaves nor enters keeps its load. -/
theorem load_update_of_ne {bin : Bin} (hOut : place item ≠ some bin) (hTarget : bin ≠ target) :
    load items (Function.update place item (some target)) bin = load items place bin := by
  unfold load
  congr 1
  ext i
  by_cases hi : i = item
  · subst hi
    simp [hOut, hTarget.symm]
  · simp [Function.update_of_ne hi]

/-- The bin that the item leaves loses one. -/
theorem load_update_donor {donor : Bin} (hItem : item ∈ items) (hIn : place item = some donor)
    (hTarget : donor ≠ target) :
    load items (Function.update place item (some target)) donor + 1 = load items place donor := by
  have hFilter : (items.filter fun i => Function.update place item (some target) i = some donor) =
      (items.filter fun i => place i = some donor).erase item := by
    ext i
    by_cases hi : i = item
    · subst hi
      simp [hTarget.symm]
    · simp [hi]
  have hMem : item ∈ items.filter fun i => place i = some donor := by simp [hItem, hIn]
  rw [load, hFilter]
  exact Finset.card_erase_add_one hMem

/-- Moving an item to a bin with at least two items less makes the measure drop
by two or more. -/
theorem sumSq_move {bins : Finset Bin} {donor : Bin} (hDonor : donor ∈ bins)
    (hTarget : target ∈ bins) (hItem : item ∈ items) (hIn : place item = some donor)
    (hGap : load items place target + 2 ≤ load items place donor) :
    sumSq items bins (Function.update place item (some target)) + 2 ≤ sumSq items bins place := by
  have hNe : donor ≠ target := by
    rintro rfl
    omega
  have hTargetMem : target ∈ bins.erase donor := Finset.mem_erase.mpr ⟨hNe.symm, hTarget⟩
  have hRest : ∀ f : Bin → Nat, ∑ bin ∈ bins, f bin =
      f donor + (f target + ∑ bin ∈ (bins.erase donor).erase target, f bin) := by
    intro f
    rw [Finset.add_sum_erase _ _ hTargetMem, Finset.add_sum_erase _ _ hDonor]
  have hSame : ∑ bin ∈ (bins.erase donor).erase target,
        load items (Function.update place item (some target)) bin ^ 2 =
      ∑ bin ∈ (bins.erase donor).erase target, load items place bin ^ 2 := by
    refine Finset.sum_congr rfl fun bin hBin => ?_
    simp only [Finset.mem_erase] at hBin
    rw [load_update_of_ne (by simpa [hIn] using Ne.symm hBin.2.1) hBin.1]
  have hLeaves := load_update_donor hItem hIn hNe
  have hEnters : load items (Function.update place item (some target)) target =
      load items place target + 1 :=
    load_update_self hItem (by simpa [hIn] using hNe)
  rw [sumSq, sumSq, hRest, hRest, hSame, hEnters, ← hLeaves]
  rw [← hLeaves] at hGap
  nlinarith

end Update

/-- Every item is in at most one bin. -/
theorem sum_load_le (items : Finset Item) (bins : Finset Bin) (place : Item → Option Bin) :
    ∑ bin ∈ bins, load items place bin ≤ items.card := by
  simp only [load, Finset.card_filter]
  rw [Finset.sum_comm]
  calc ∑ item ∈ items, ∑ bin ∈ bins, (if place item = some bin then 1 else 0)
      ≤ ∑ _item ∈ items, 1 := by
        refine Finset.sum_le_sum fun item _ => ?_
        rw [← Finset.card_filter]
        refine Finset.card_le_one.mpr fun first hFirst second hSecond => ?_
        exact Option.some.inj
          ((Finset.mem_filter.mp hFirst).2.symm.trans (Finset.mem_filter.mp hSecond).2)
    _ = items.card := by simp

theorem sumSq_le (items : Finset Item) (bins : Finset Bin) (place : Item → Option Bin) :
    sumSq items bins place ≤ items.card * items.card := by
  calc sumSq items bins place
      ≤ ∑ bin ∈ bins, load items place bin * items.card := by
        refine Finset.sum_le_sum fun bin _ => ?_
        rw [pow_two]
        exact Nat.mul_le_mul_left _ (Finset.card_filter_le _ _)
    _ = (∑ bin ∈ bins, load items place bin) * items.card := (Finset.sum_mul ..).symm
    _ ≤ items.card * items.card := Nat.mul_le_mul_right _ (sum_load_le items bins place)

end Balance
