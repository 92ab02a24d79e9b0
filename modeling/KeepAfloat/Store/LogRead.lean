import KeepAfloat.Store.LogFloor

/-! Range reads of the log. An ordered map panics on an inverted range and on equal
excluded bounds. The reader resolves the bounds to indices first and answers an inverted
range with nothing, but a bound that resolves to no index passes for a missing one. -/

namespace KeepAfloat

open Std (ExtTreeMap)

/-- One end of a range of indices. -/
inductive RangeBound where
  | included (index : UInt64)
  | excluded (index : UInt64)
  | unbounded
  deriving DecidableEq

namespace RangeBound

/-- The first index behind a start bound. -/
def firstIndex : RangeBound → Option Nat
  | included index => some index.toNat
  | excluded index => Word64.checkedAdd index.toNat 1
  | unbounded => none

/-- The last index before an end bound. -/
def lastIndex : RangeBound → Option Nat
  | included index => some index.toNat
  | excluded index => if index.toNat = 0 then none else some (index.toNat - 1)
  | unbounded => none

/-- As a start, the bound lets the index through. -/
def starts : RangeBound → Nat → Bool
  | included index, i => index.toNat ≤ i
  | excluded index, i => index.toNat < i
  | unbounded, _ => true

/-- As an end, the bound lets the index through. -/
def ends : RangeBound → Nat → Bool
  | included index, i => i ≤ index.toNat
  | excluded index, i => i < index.toNat
  | unbounded, _ => true

/-- The start is above the end, or both exclude the same index. -/
def inverted : RangeBound → RangeBound → Bool
  | unbounded, _ | _, unbounded => false
  | excluded start, excluded finish => finish.toNat ≤ start.toNat
  | included start, included finish | included start, excluded finish
  | excluded start, included finish => finish.toNat < start.toNat

end RangeBound

namespace KafStorageState

/-- The stored entries in a range in ascending order, or `none` where the map panics. -/
def rangeEntries (state : KafStorageState) (start finish : RangeBound) :
    Option (List (Nat × Entry)) :=
  if start.inverted finish then none
  else some (state.log.toList.filter fun pair => start.starts pair.1 && finish.ends pair.1)

/-- Read a range of the log; `none` is a panic. -/
def tryGetLogEntries (state : KafStorageState) (start finish : RangeBound) :
    Option (List Entry) :=
  let read := (state.rangeEntries start finish).map fun pairs => pairs.map Prod.snd
  match start.firstIndex, finish.lastIndex with
  | some first, some last => if last < first then some [] else read
  | _, _ => read

/-- These are the stored entries whose index is in the range, in ascending order. -/
def ReadsRange (state : KafStorageState) (start finish : RangeBound) (entries : List Entry) : Prop :=
  ∃ pairs : List (Nat × Entry), entries = pairs.map Prod.snd ∧
    (pairs.Pairwise fun first second => first.1 < second.1) ∧
    ∀ index entry, (index, entry) ∈ pairs ↔
      state.log[index]? = some entry ∧ start.starts index = true ∧ finish.ends index = true

end KafStorageState

/-- An end that excludes zero, and a start that excludes the largest index, are met only
by a bound on the other side that is not inverted with them. -/
def RangeBound.Resolves (start finish : RangeBound) : Prop :=
  (finish = .excluded 0 → start = .unbounded ∨ start = .included 0) ∧
    (start = .excluded (UInt64.ofNat Word64.maxWord) →
      finish = .unbounded ∨ finish = .included (UInt64.ofNat Word64.maxWord))

namespace RangeBound

variable {start finish : RangeBound}

theorem firstIndex_eq_none :
    start.firstIndex = none ↔
      start = .unbounded ∨ start = .excluded (UInt64.ofNat Word64.maxWord) := by
  cases start with
  | included index => simp [firstIndex]
  | unbounded => simp [firstIndex]
  | excluded index =>
      have hLt := index.toNat_lt
      have hMax : index = UInt64.ofNat Word64.maxWord ↔ index.toNat = Word64.maxWord := by
        rw [← UInt64.toNat_inj]
        rfl
      simp only [firstIndex, Word64.checkedAdd, excluded.injEq, reduceCtorEq, false_or, hMax]
      unfold Word64.maxWord
      split
      · simp only [reduceCtorEq, false_iff]
        omega
      · simp only [true_iff]
        omega

theorem lastIndex_eq_none : finish.lastIndex = none ↔ finish = .unbounded ∨ finish = .excluded 0 := by
  cases finish with
  | included index => simp [lastIndex]
  | unbounded => simp [lastIndex]
  | excluded index =>
      have hZero : index = 0 ↔ index.toNat = 0 := by
        rw [← UInt64.toNat_inj]
        rfl
      simp only [lastIndex, excluded.injEq, reduceCtorEq, false_or, hZero]
      split
      · simp [*]
      · simp [*]

/-- A resolved range is inverted exactly if its last index is before its first. -/
theorem lt_of_inverted {first last : Nat} (hFirst : start.firstIndex = some first)
    (hLast : finish.lastIndex = some last) (hInverted : start.inverted finish = true) :
    last < first := by
  cases start with
  | unbounded => cases hFirst
  | included s =>
      obtain rfl := Option.some.inj hFirst
      cases finish with
      | unbounded => cases hLast
      | included e =>
          obtain rfl := Option.some.inj hLast
          exact of_decide_eq_true hInverted
      | excluded e =>
          have hLt : e.toNat < s.toNat := of_decide_eq_true hInverted
          rw [lastIndex] at hLast
          split at hLast
          · cases hLast
          · obtain rfl := Option.some.inj hLast
            omega
  | excluded s =>
      obtain ⟨rfl, -⟩ := Word64.checkedAdd_eq_some.mp hFirst
      cases finish with
      | unbounded => cases hLast
      | included e =>
          obtain rfl := Option.some.inj hLast
          have hLt : e.toNat < s.toNat := of_decide_eq_true hInverted
          omega
      | excluded e =>
          have hLe : e.toNat ≤ s.toNat := of_decide_eq_true hInverted
          rw [lastIndex] at hLast
          split at hLast
          · cases hLast
          · obtain rfl := Option.some.inj hLast
            omega

theorem starts_iff {first : Nat} (h : start.firstIndex = some first) (i : Nat) :
    start.starts i = true ↔ first ≤ i := by
  cases start with
  | unbounded => cases h
  | included index =>
      obtain rfl := Option.some.inj h
      exact decide_eq_true_iff
  | excluded index =>
      obtain ⟨rfl, -⟩ := Word64.checkedAdd_eq_some.mp h
      exact decide_eq_true_iff

theorem ends_iff {last : Nat} (h : finish.lastIndex = some last) (i : Nat) :
    finish.ends i = true ↔ i ≤ last := by
  cases finish with
  | unbounded => cases h
  | included index =>
      obtain rfl := Option.some.inj h
      exact decide_eq_true_iff
  | excluded index =>
      rw [lastIndex] at h
      split at h
      · cases h
      · obtain rfl := Option.some.inj h
        rw [ends, decide_eq_true_iff]
        omega

/-- The bounds resolve if both ends of an inverted range do. -/
theorem resolves_iff :
    start.Resolves finish ↔
      (start.inverted finish = true → start.firstIndex ≠ none ∧ finish.lastIndex ≠ none) := by
  rw [ne_eq, ne_eq, firstIndex_eq_none, lastIndex_eq_none, not_or, not_or]
  constructor
  · rintro ⟨hZero, hMax⟩ hInverted
    refine ⟨⟨?_, fun hStart => ?_⟩, ⟨?_, fun hFinish => ?_⟩⟩
    · rintro rfl
      cases hInverted
    · rcases hMax hStart with rfl | rfl
      · cases start <;> cases hInverted
      · subst hStart
        exact absurd hInverted (by decide)
    · rintro rfl
      cases start <;> cases hInverted
    · rcases hZero hFinish with rfl | rfl
      · cases hInverted
      · subst hFinish
        exact absurd hInverted (by decide)
  · intro h
    constructor
    · rintro rfl
      cases start with
      | unbounded => exact .inl rfl
      | included index =>
          by_cases hIndex : index.toNat = 0
          · exact .inr (congrArg included (UInt64.toNat_inj.mp hIndex))
          · exact absurd rfl (h (decide_eq_true (Nat.pos_of_ne_zero hIndex))).2.2
      | excluded index => exact absurd rfl (h (decide_eq_true (Nat.zero_le index.toNat))).2.2
    · rintro rfl
      cases finish with
      | unbounded => exact .inl rfl
      | included index =>
          have hLt := index.toNat_lt
          by_cases hIndex : index.toNat = Word64.maxWord
          · exact .inr (congrArg included (UInt64.toNat_inj.mp hIndex))
          · refine absurd rfl (h (decide_eq_true (?_ : index.toNat < Word64.maxWord))).1.2
            unfold Word64.maxWord at hIndex ⊢
            omega
      | excluded index =>
          have hLt := index.toNat_lt
          refine absurd rfl (h (decide_eq_true (?_ : index.toNat ≤ Word64.maxWord))).1.2
          unfold Word64.maxWord
          omega

end RangeBound

namespace KafStorageState

theorem rangeEntries_reads {state : KafStorageState} {start finish : RangeBound}
    {pairs : List (Nat × Entry)} (h : state.rangeEntries start finish = some pairs) :
    state.ReadsRange start finish (pairs.map Prod.snd) := by
  rw [rangeEntries] at h
  split at h
  · cases h
  · obtain rfl := Option.some.inj h
    refine ⟨_, rfl, ?_, fun index entry => ?_⟩
    · apply List.Pairwise.filter
      exact (ExtTreeMap.ordered_keys_toList (t := state.log)).imp compare_lt_iff_lt.mp
    · rw [List.mem_filter, Bool.and_eq_true, ExtTreeMap.mem_toList_iff_getElem?_eq_some]

/-- A range read returns, and then exactly the entries of the range in ascending order,
if and only if the bounds resolve. -/
theorem tryGetLogEntries_exact (state : KafStorageState) (start finish : RangeBound) :
    (∃ entries, state.tryGetLogEntries start finish = some entries ∧
        state.ReadsRange start finish entries) ↔ start.Resolves finish := by
  have hRead : (∃ entries,
      (state.rangeEntries start finish).map (fun pairs => pairs.map Prod.snd) = some entries ∧
        state.ReadsRange start finish entries) ↔ start.inverted finish = false := by
    cases hInverted : start.inverted finish with
    | true =>
        rw [rangeEntries, hInverted]
        simp
    | false =>
        have hSome : ∃ pairs, state.rangeEntries start finish = some pairs := by
          rw [rangeEntries, hInverted]
          exact ⟨_, rfl⟩
        obtain ⟨pairs, hPairs⟩ := hSome
        exact iff_of_true ⟨_, by rw [hPairs, Option.map_some], rangeEntries_reads hPairs⟩ rfl
  rw [RangeBound.resolves_iff, tryGetLogEntries]
  cases hFirst : start.firstIndex with
  | none => simpa using hRead
  | some first =>
      cases hLast : finish.lastIndex with
      | none => simpa using hRead
      | some last =>
          simp only [ne_eq, reduceCtorEq, not_false_eq_true, and_self, implies_true, iff_true]
          split
          · next hLt =>
              refine ⟨[], rfl, [], rfl, List.Pairwise.nil, fun index entry => ?_⟩
              rw [RangeBound.starts_iff hFirst, RangeBound.ends_iff hLast]
              simp only [List.not_mem_nil, false_iff]
              omega
          · next hLe =>
              apply hRead.mpr
              rw [Bool.eq_false_iff]
              exact fun hInverted => hLe (RangeBound.lt_of_inverted hFirst hLast hInverted)

/-- The range from five to before zero. -/
theorem inverted_range_panics :
    (sampleStore.start.append (blanks 0 1)).tryGetLogEntries (.included 5) (.excluded 0) = none := by
  decide

end KafStorageState

end KeepAfloat
