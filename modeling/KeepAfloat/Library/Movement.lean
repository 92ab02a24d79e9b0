import KeepAfloat.Library.Balance

/-! Placements that leave items where they were. Every item may have a home bin. A level
placement keeps as many items at home as any other if, on the way to it, only the fullest
bins gave items away and only the emptiest took some in. -/

namespace Balance

variable {Item Bin : Type*} [DecidableEq Bin]

/-- Every item is in some bin, and no two bins differ by more than one item. -/
structure Level (items : Finset Item) (bins : Finset Bin) (place : Item → Option Bin) : Prop where
  total : ∀ item ∈ items, ∃ bin ∈ bins, place item = some bin
  spread : ∀ first ∈ bins, ∀ second ∈ bins, load items place first ≤ load items place second + 1

/-- The number of items at home. -/
def kept (items : Finset Item) (home place : Item → Option Bin) : Nat :=
  (items.filter fun item => ∃ bin ∈ place item, home item = some bin).card

/-- The number of items that are at home in one bin. -/
def keptIn (items : Finset Item) (home place : Item → Option Bin) (bin : Bin) : Nat :=
  (items.filter fun item => place item = some bin ∧ home item = some bin).card

/-- The bin holds an item that is not at home there. -/
def Foreign (items : Finset Item) (home place : Item → Option Bin) (bin : Bin) : Prop :=
  ∃ item ∈ items, place item = some bin ∧ home item ≠ some bin

/-- An item that is at home in the bin is not there. -/
def Missing (items : Finset Item) (home place : Item → Option Bin) (bin : Bin) : Prop :=
  ∃ item ∈ items, home item = some bin ∧ place item ≠ some bin

section Counting

variable {items : Finset Item} {bins : Finset Bin} {home place : Item → Option Bin} {bin : Bin}

theorem sum_load (h : ∀ item ∈ items, ∃ bin ∈ bins, place item = some bin) :
    ∑ bin ∈ bins, load items place bin = items.card := by
  simp only [load, Finset.card_filter]
  rw [Finset.sum_comm, Finset.card_eq_sum_ones]
  refine Finset.sum_congr rfl fun item hItem => ?_
  obtain ⟨bin, hBin, hPlace⟩ := h item hItem
  rw [hPlace, Finset.sum_eq_single_of_mem bin hBin]
  · simp
  · intro other _ hOther
    simp [hOther.symm]

theorem kept_eq_sum (h : ∀ item ∈ items, ∃ bin ∈ bins, place item = some bin) :
    kept items home place = ∑ bin ∈ bins, keptIn items home place bin := by
  simp only [kept, keptIn, Finset.card_filter]
  rw [Finset.sum_comm]
  refine Finset.sum_congr rfl fun item hItem => ?_
  obtain ⟨bin, hBin, hPlace⟩ := h item hItem
  rw [hPlace, Finset.sum_eq_single_of_mem bin hBin]
  · simp
  · intro other _ hOther
    simp [hOther.symm]

theorem keptIn_le : keptIn items home place bin ≤
    min (load items home bin) (load items place bin) := by
  refine le_min (Finset.card_le_card fun item hItem => ?_) (Finset.card_le_card fun item hItem => ?_)
  · rw [Finset.mem_filter] at hItem ⊢
    exact ⟨hItem.1, hItem.2.2⟩
  · rw [Finset.mem_filter] at hItem ⊢
    exact ⟨hItem.1, hItem.2.1⟩

theorem keptIn_of_not_foreign (h : ¬Foreign items home place bin) :
    keptIn items home place bin = load items place bin := by
  unfold keptIn load
  congr 1
  refine Finset.filter_congr fun item hItem => and_iff_left_of_imp fun hPlace => ?_
  by_contra hHome
  exact h ⟨item, hItem, hPlace, hHome⟩

theorem keptIn_of_not_missing (h : ¬Missing items home place bin) :
    keptIn items home place bin = load items home bin := by
  unfold keptIn load
  congr 1
  refine Finset.filter_congr fun item hItem => and_iff_right_of_imp fun hHome => ?_
  by_contra hPlace
  exact h ⟨item, hItem, hHome, hPlace⟩

end Counting

/-! ### Levels with one sum -/

section Levels

variable {Bin : Type*} {bins : Finset Bin} {first second : Bin → Nat}

/-- The values of a level function are two neighbours. -/
theorem exists_floor (hBins : bins.Nonempty)
    (h : ∀ a ∈ bins, ∀ b ∈ bins, first a ≤ first b + 1) :
    ∃ floor, (∃ a ∈ bins, first a = floor) ∧ ∀ b ∈ bins, first b = floor ∨ first b = floor + 1 := by
  obtain ⟨a, ha, hLeast⟩ := bins.exists_min_image first hBins
  refine ⟨first a, ⟨a, ha, rfl⟩, fun b hb => ?_⟩
  have hLow := hLeast b hb
  have hHigh := h b hb a ha
  omega

/-- Level functions with one sum have one floor. -/
theorem floor_le_floor {low high : Nat} (hSum : ∑ b ∈ bins, first b = ∑ b ∈ bins, second b)
    (hFirst : ∀ b ∈ bins, first b = low ∨ first b = low + 1)
    (hAttained : ∃ a ∈ bins, first a = low)
    (hSecond : ∀ b ∈ bins, second b = high ∨ second b = high + 1) : high ≤ low := by
  by_contra hLt
  obtain ⟨a, ha, hLow⟩ := hAttained
  refine absurd hSum (ne_of_lt (Finset.sum_lt_sum (fun b hb => ?_) ⟨a, ha, ?_⟩))
  · have hBelow := hFirst b hb
    have hAbove := hSecond b hb
    omega
  · have hAbove := hSecond a ha
    omega

/-- If the larger values stand where the bound is not below them, or everywhere where it
is above the floor, then no rearrangement gains anything under the bound. -/
theorem sum_min_le (bound : Bin → Nat) {floor : Nat}
    (hSum : ∑ b ∈ bins, first b = ∑ b ∈ bins, second b)
    (hFirst : ∀ b ∈ bins, first b = floor ∨ first b = floor + 1)
    (hSecond : ∀ b ∈ bins, second b = floor ∨ second b = floor + 1)
    (hBest : ∀ a ∈ bins, ∀ b ∈ bins, first b < first a → first b < bound b → first a ≤ bound a) :
    ∑ b ∈ bins, min (bound b) (second b) ≤ ∑ b ∈ bins, min (bound b) (first b) := by
  have hValue : ∀ f : Bin → Nat, (∀ b ∈ bins, f b = floor ∨ f b = floor + 1) →
      ∑ b ∈ bins, f b = bins.card * floor + (bins.filter fun b => f b = floor + 1).card := by
    intro f hf
    rw [Finset.card_filter, ← smul_eq_mul, ← Finset.sum_const, ← Finset.sum_add_distrib]
    refine Finset.sum_congr rfl fun b hb => ?_
    rcases hf b hb with h | h <;> simp [h]
  have hBounded : ∀ f : Bin → Nat, (∀ b ∈ bins, f b = floor ∨ f b = floor + 1) →
      ∑ b ∈ bins, min (bound b) (f b) = (∑ b ∈ bins, min (bound b) floor) +
        (bins.filter fun b => f b = floor + 1 ∧ floor < bound b).card := by
    intro f hf
    rw [Finset.card_filter, ← Finset.sum_add_distrib]
    refine Finset.sum_congr rfl fun b hb => ?_
    by_cases hBound : floor < bound b
    · rcases hf b hb with h | h
      · simp [h]
      · simp only [h, hBound, and_self, if_true]
        omega
    · rcases hf b hb with h | h
      · simp [h]
      · simp only [hBound, and_false, if_false]
        omega
  have hCard : (bins.filter fun b => first b = floor + 1).card =
      (bins.filter fun b => second b = floor + 1).card := by
    have hBoth := (hValue first hFirst).symm.trans (hSum.trans (hValue second hSecond))
    omega
  rw [hBounded first hFirst, hBounded second hSecond]
  refine Nat.add_le_add_left ?_ _
  by_cases hOver : ∃ b ∈ bins, first b = floor ∧ floor < bound b
  · obtain ⟨b, hb, hFloor, hAbove⟩ := hOver
    have hUsed : (bins.filter fun b => first b = floor + 1 ∧ floor < bound b) =
        bins.filter fun b => first b = floor + 1 := by
      refine Finset.filter_congr fun a ha => and_iff_left_of_imp fun hLarger => ?_
      have hAt := hBest a ha b hb (by omega) (by omega)
      omega
    rw [hUsed, hCard]
    refine Finset.card_le_card fun a ha => ?_
    rw [Finset.mem_filter] at ha ⊢
    exact ⟨ha.1, ha.2.1⟩
  · refine Finset.card_le_card fun a ha => ?_
    rw [Finset.mem_filter] at ha ⊢
    refine ⟨ha.1, (hFirst a ha.1).resolve_left fun hFloor => hOver ⟨a, ha.1, hFloor, ha.2.2⟩, ha.2.2⟩

end Levels

/-! ### Frugal placements -/

/-- Bins that took items in are among the emptiest, bins that gave some away among the
fullest, and the former are not above the latter. -/
structure Frugal (items : Finset Item) (bins : Finset Bin) (home place : Item → Option Bin) :
    Prop where
  foreign_low : ∀ bin ∈ bins, Foreign items home place bin →
    ∀ other ∈ bins, load items place bin ≤ load items place other + 1
  missing_high : ∀ bin ∈ bins, Missing items home place bin →
    ∀ other ∈ bins, load items place other ≤ load items place bin + 1
  ordered : ∀ bin ∈ bins, ∀ other ∈ bins, Foreign items home place bin →
    Missing items home place other →
      bin ≠ other ∧ load items place bin ≤ load items place other

section Frugal

variable {items : Finset Item} {bins : Finset Bin} {home place : Item → Option Bin}

theorem Frugal.keptIn_eq (h : Frugal items bins home place) {bin : Bin} (hBin : bin ∈ bins) :
    keptIn items home place bin = min (load items home bin) (load items place bin) := by
  have hLe : keptIn items home place bin ≤ _ := keptIn_le
  by_cases hForeign : Foreign items home place bin
  · have hKept := keptIn_of_not_missing fun hMissing => (h.ordered bin hBin bin hBin hForeign hMissing).1 rfl
    omega
  · have hKept := keptIn_of_not_foreign hForeign
    omega

/-- A frugal level placement keeps as many items at home as any level placement. -/
theorem Frugal.optimal (h : Frugal items bins home place) (hLevel : Level items bins place)
    {other : Item → Option Bin} (hOther : Level items bins other) :
    kept items home other ≤ kept items home place := by
  rcases bins.eq_empty_or_nonempty with rfl | hBins
  · rw [kept_eq_sum hOther.total, Finset.sum_empty]
    exact Nat.zero_le _
  have hSum : ∑ bin ∈ bins, load items place bin = ∑ bin ∈ bins, load items other bin :=
    (sum_load hLevel.total).trans (sum_load hOther.total).symm
  obtain ⟨low, hLow, hFirst⟩ := exists_floor hBins hLevel.spread
  obtain ⟨high, hHigh, hSecond⟩ := exists_floor hBins hOther.spread
  obtain rfl : high = low := le_antisymm (floor_le_floor hSum hFirst hLow hSecond)
    (floor_le_floor hSum.symm hSecond hHigh hFirst)
  calc kept items home other
      = ∑ bin ∈ bins, keptIn items home other bin := kept_eq_sum hOther.total
    _ ≤ ∑ bin ∈ bins, min (load items home bin) (load items other bin) :=
        Finset.sum_le_sum fun bin _ => keptIn_le
    _ ≤ ∑ bin ∈ bins, min (load items home bin) (load items place bin) := by
        apply sum_min_le _ hSum hFirst hSecond
        intro first hFirstBin second hSecondBin hLoads hRoom
        by_contra hShort
        have hForeign : Foreign items home place first := by
          by_contra hNone
          have hKept := keptIn_of_not_foreign hNone
          have hLe : keptIn items home place first ≤ _ := keptIn_le
          omega
        have hMissing : Missing items home place second := by
          by_contra hNone
          have hKept := keptIn_of_not_missing hNone
          have hLe : keptIn items home place second ≤ _ := keptIn_le
          omega
        have hOrder := (h.ordered first hFirstBin second hSecondBin hForeign hMissing).2
        omega
    _ = ∑ bin ∈ bins, keptIn items home place bin :=
        Finset.sum_congr rfl fun bin hBin => (h.keptIn_eq hBin).symm
    _ = kept items home place := (kept_eq_sum hLevel.total).symm

variable [DecidableEq Item] {item : Item} {target : Bin}

omit [DecidableEq Bin] in
theorem foreign_update {bin : Bin}
    (h : Foreign items home (Function.update place item (some target)) bin) :
    bin = target ∨ Foreign items home place bin := by
  obtain ⟨other, hOther, hPlace, hHome⟩ := h
  by_cases hSame : other = item
  · subst hSame
    rw [Function.update_self] at hPlace
    exact .inl (Option.some.inj hPlace).symm
  · rw [Function.update_of_ne hSame] at hPlace
    exact .inr ⟨other, hOther, hPlace, hHome⟩

omit [DecidableEq Bin] in
theorem missing_update {bin : Bin}
    (h : Missing items home (Function.update place item (some target)) bin) :
    home item = some bin ∨ Missing items home place bin := by
  obtain ⟨other, hOther, hHome, hPlace⟩ := h
  by_cases hSame : other = item
  · subst hSame
    exact .inl hHome
  · rw [Function.update_of_ne hSame] at hPlace
    exact .inr ⟨other, hOther, hHome, hPlace⟩

/-- Nothing is away from home, and bins that took items in are among the emptiest. -/
structure Homed (items : Finset Item) (bins : Finset Bin) (home place : Item → Option Bin) :
    Prop where
  not_missing : ∀ bin ∈ bins, ¬Missing items home place bin
  foreign_low : ∀ bin ∈ bins, Foreign items home place bin →
    ∀ other ∈ bins, load items place bin ≤ load items place other + 1

omit [DecidableEq Item] in
theorem Homed.frugal (h : Homed items bins home place) : Frugal items bins home place where
  foreign_low := h.foreign_low
  missing_high bin hBin hMissing := absurd hMissing (h.not_missing bin hBin)
  ordered _ _ other hOther _ hMissing := absurd hMissing (h.not_missing other hOther)

/-- An item without a home goes to an emptiest bin. -/
theorem Homed.update (h : Homed items bins home place) (hItem : item ∈ items)
    (hFree : place item = none) (hHome : home item = none)
    (hLeast : ∀ bin ∈ bins, load items place target ≤ load items place bin) :
    Homed items bins home (Function.update place item (some target)) where
  not_missing bin hBin hMissing := by
    rcases missing_update hMissing with hOwn | hOld
    · cases hHome.symm.trans hOwn
    · exact h.not_missing bin hBin hOld
  foreign_low bin hBin hForeign other hOther := by
    have hTarget : load items (Function.update place item (some target)) target =
        load items place target + 1 := load_update_self hItem (by simp [hFree])
    have hKept : ∀ bin, bin ≠ target →
        load items (Function.update place item (some target)) bin = load items place bin :=
      fun bin hNe => load_update_of_ne (by simp [hFree]) hNe
    have hAbove := hLeast other hOther
    by_cases hSame : bin = target
    · subst hSame
      by_cases hOtherSame : other = bin
      · subst hOtherSame
        omega
      · rw [hTarget, hKept other hOtherSame]
        omega
    · have hLow := h.foreign_low bin hBin ((foreign_update hForeign).resolve_left hSame) other hOther
      rw [hKept bin hSame]
      by_cases hOtherSame : other = target
      · subst hOtherSame
        omega
      · rw [hKept other hOtherSame]
        exact hLow

/-- An item moves from a fullest bin to an emptiest one that holds at least two less. -/
theorem Frugal.move (h : Frugal items bins home place) {donor : Bin} (hDonor : donor ∈ bins)
    (hTarget : target ∈ bins) (hItem : item ∈ items) (hIn : place item = some donor)
    (hGap : load items place target + 2 ≤ load items place donor)
    (hMost : ∀ bin ∈ bins, load items place bin ≤ load items place donor)
    (hLeast : ∀ bin ∈ bins, load items place target ≤ load items place bin) :
    Frugal items bins home (Function.update place item (some target)) := by
  have hNe : donor ≠ target := by
    rintro rfl
    omega
  have hLeaves := load_update_donor hItem hIn hNe
  have hEnters : load items (Function.update place item (some target)) target =
      load items place target + 1 := load_update_self hItem (by simpa [hIn] using hNe)
  have hKept : ∀ bin, bin ≠ donor → bin ≠ target →
      load items (Function.update place item (some target)) bin = load items place bin :=
    fun bin hLeft hRight => load_update_of_ne (by simpa [hIn] using Ne.symm hLeft) hRight
  have hOwn : ¬Foreign items home place donor := fun hForeign => by
    have hLow := h.foreign_low donor hDonor hForeign target hTarget
    omega
  have hHome : home item = some donor := by
    by_contra hAway
    exact hOwn ⟨item, hItem, hIn, hAway⟩
  have hFull : ¬Missing items home place target := fun hMissing => by
    have hHigh := h.missing_high target hTarget hMissing donor hDonor
    omega
  have hForeign : ∀ bin ∈ bins, Foreign items home (Function.update place item (some target)) bin →
      load items (Function.update place item (some target)) bin ≤ load items place target + 1 ∧
        (bin = target ∨ Foreign items home place bin) := by
    intro bin hBin hNew
    refine ⟨?_, foreign_update hNew⟩
    by_cases hSame : bin = target
    · rw [hSame, hEnters]
    · have hOld := (foreign_update hNew).resolve_left hSame
      have hLeft : bin ≠ donor := fun hEq => hOwn (hEq ▸ hOld)
      rw [hKept bin hLeft hSame]
      exact h.foreign_low bin hBin hOld target hTarget
  have hMissing : ∀ bin ∈ bins, Missing items home (Function.update place item (some target)) bin →
      load items place donor ≤ load items (Function.update place item (some target)) bin + 1 ∧
        (bin = donor ∨ Missing items home place bin) := by
    intro bin hBin hNew
    by_cases hSame : bin = donor
    · subst hSame
      exact ⟨by omega, .inl rfl⟩
    · have hOld : Missing items home place bin := by
        rcases missing_update hNew with hOther | hOld
        · exact absurd (Option.some.inj (hOther.symm.trans hHome)) hSame
        · exact hOld
      have hRight : bin ≠ target := fun hEq => hFull (hEq ▸ hOld)
      rw [hKept bin hSame hRight]
      exact ⟨h.missing_high bin hBin hOld donor hDonor, .inr hOld⟩
  have hAll : ∀ bin ∈ bins,
      load items place target ≤ load items (Function.update place item (some target)) bin ∧
        load items (Function.update place item (some target)) bin ≤ load items place donor := by
    intro bin hBin
    by_cases hLeft : bin = donor
    · subst hLeft
      omega
    · by_cases hRight : bin = target
      · rw [hRight]
        omega
      · rw [hKept bin hLeft hRight]
        exact ⟨hLeast bin hBin, hMost bin hBin⟩
  refine ⟨fun bin hBin hNew other hOther => ?_, fun bin hBin hNew other hOther => ?_,
    fun bin hBin other hOther hNew hGone => ?_⟩
  · have hLow := (hForeign bin hBin hNew).1
    have hFloor := (hAll other hOther).1
    omega
  · have hHigh := (hMissing bin hBin hNew).1
    have hCeiling := (hAll other hOther).2
    omega
  · obtain ⟨hLow, hTook⟩ := hForeign bin hBin hNew
    obtain ⟨hHigh, hGave⟩ := hMissing other hOther hGone
    refine ⟨?_, by omega⟩
    rintro rfl
    rcases hTook with rfl | hTook
    · rcases hGave with hSame | hGave
      · exact hNe hSame.symm
      · exact hFull hGave
    · rcases hGave with rfl | hGave
      · exact hOwn hTook
      · exact (h.ordered bin hBin bin hBin hTook hGave).1 rfl

end Frugal

end Balance
