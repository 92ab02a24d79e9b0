import KeepAfloat.Library.Runs
import KeepAfloat.Library.Splice
import KeepAfloat.Store.State

/-! Log-storage half of the store. The log is an in-memory map from index to entry
with a purge floor; storing replicated entries truncates a conflicting suffix and
appends. The session's mutation check is the caller's. -/

namespace KeepAfloat

open Std (ExtTreeMap)

namespace KafStorageState

/-- Every entry is stored under its own index. -/
def LogKeyed (state : KafStorageState) : Prop :=
  ∀ (index : Nat) (entry : Entry), state.log[index]? = some entry → entry.logId.index = index

/-- One entry of an append. Entries at or below the purge floor are dropped. An entry
above index one that meets an empty log without a floor seeds the floor below it. -/
def appendEntry (purged : Option Nat) (state : KafStorageState) (entry : Entry) :
    KafStorageState :=
  if purged.any fun floor => entry.logId.index ≤ floor then state
  else
    { state with
      lastPurgedLogId :=
        if state.lastPurgedLogId.isNone ∧ state.log.isEmpty ∧ 1 < entry.logId.index then
          some ⟨entry.logId.leaderId, entry.logId.index - 1⟩
        else state.lastPurgedLogId
      log := state.log.insert entry.logId.index entry }

def append (state : KafStorageState) (entries : List Entry) : KafStorageState :=
  entries.foldl (appendEntry (state.lastPurgedLogId.map LogId.index)) state

/-- The first index after a position. The index after the largest word is zero. -/
def truncationStart (lastLogId : Option LogId) : Nat :=
  lastLogId.elim 0 fun last => Word64.wrappingAdd last.index 1

/-- Remove every entry after a position, all of them without one, and lower a purge
floor that would sit above what is kept. -/
def truncateAfter (state : KafStorageState) (lastLogId : Option LogId) : KafStorageState :=
  { state with
    log := state.log.filter fun index _ => index < truncationStart lastLogId
    lastPurgedLogId :=
      if state.lastPurgedLogId.any fun purged => lastLogId.all fun last => last.index < purged.index then
        lastLogId
      else state.lastPurgedLogId }

/-- Store one replicated entry: a known entry stays, a conflicting one is cut off with
everything after it. -/
def storeEntry (state : KafStorageState) (entry : Entry) : KafStorageState :=
  let previous := if entry.logId.index = 0 then none
    else state.log[entry.logId.index - 1]?.map Entry.logId
  match state.log[entry.logId.index]? with
  | some known =>
      if known.logId = entry.logId then state else (state.truncateAfter previous).append [entry]
  | none => state.append [entry]

def storeEntries (state : KafStorageState) (entries : List Entry) : KafStorageState :=
  entries.foldl storeEntry state

theorem append_singleton_frame (state : KafStorageState) (entry : Entry) :
    ∃ log purged, state.append [entry] = { state with log := log, lastPurgedLogId := purged } := by
  rw [append, List.foldl_cons, List.foldl_nil, appendEntry]
  split
  · exact ⟨state.log, state.lastPurgedLogId, rfl⟩
  · exact ⟨_, _, rfl⟩

theorem storeEntry_frame (state : KafStorageState) (entry : Entry) :
    ∃ log purged, state.storeEntry entry = { state with log := log, lastPurgedLogId := purged } := by
  rw [storeEntry]
  split
  · split
    · exact ⟨state.log, state.lastPurgedLogId, rfl⟩
    · obtain ⟨log, purged, hAppend⟩ := append_singleton_frame (state.truncateAfter _) entry
      exact ⟨log, purged, hAppend⟩
  · exact append_singleton_frame state entry

/-- Storing entries touches the log and its purge floor. -/
theorem storeEntries_frame (state : KafStorageState) (entries : List Entry) :
    ∃ log purged,
      state.storeEntries entries = { state with log := log, lastPurgedLogId := purged } := by
  induction entries generalizing state with
  | nil => exact ⟨state.log, state.lastPurgedLogId, rfl⟩
  | cons entry rest ih =>
      obtain ⟨log, purged, hEntry⟩ := storeEntry_frame state entry
      obtain ⟨log', purged', hRest⟩ := ih (state.storeEntry entry)
      refine ⟨log', purged', ?_⟩
      rw [storeEntries, List.foldl_cons, ← storeEntries, hRest, hEntry]

end KafStorageState

/-! ### A log without a purged prefix is a list -/

/-- The log holds exactly the entries of a list, each at its own index, and nothing was
purged. -/
structure Represents (state : KafStorageState) (entries : List Entry) : Prop where
  log : ∀ i : Nat, state.log[i]? = entries[i]?
  keyed : ∀ (i : Nat) (entry : Entry), entries[i]? = some entry → entry.logId.index = i
  unpurged : state.lastPurgedLogId = none

namespace Represents

variable {state : KafStorageState} {entries : List Entry}

theorem logKeyed (h : Represents state entries) : state.LogKeyed := fun index entry hEntry =>
  h.keyed index entry (h.log index ▸ hEntry)

/-- Appending right after the last entry extends the list. -/
theorem append (h : Represents state entries) {entry : Entry}
    (hIndex : entry.logId.index = entries.length) :
    Represents (state.append [entry]) (entries ++ [entry]) := by
  have hSeed : state.log = ∅ → entry.logId.index ≤ 1 := by
    intro hEmpty
    have hFirst : entries[0]? = none := by
      rw [← h.log 0, hEmpty]
      rfl
    have hLength := List.getElem?_eq_none_iff.mp hFirst
    omega
  have hAppend : state.append [entry] =
      { state with log := state.log.insert entry.logId.index entry } := by
    simpa [KafStorageState.append, KafStorageState.appendEntry, h.unpurged] using hSeed
  rw [hAppend]
  refine ⟨fun i => ?_, fun i other hOther => ?_, h.unpurged⟩
  · rw [ExtTreeMap.getElem?_insert, h.log i, hIndex]
    by_cases hEnd : entries.length = i
    · subst hEnd
      simp
    · rw [if_neg (by simpa using hEnd)]
      rcases Nat.lt_or_gt_of_ne hEnd with hPast | hWithin
      · rw [List.getElem?_eq_none (by omega), List.getElem?_eq_none (by simp; omega)]
      · rw [List.getElem?_append_left hWithin]
  · rcases Runs.getElem?_concat hOther with hOld | ⟨rfl, rfl⟩
    · exact h.keyed i other hOld
    · exact hIndex

/-- Truncating to a position keeps the entries up to it. -/
theorem truncateAfter (h : Represents state entries) {position : Nat}
    (hPosition : position ≤ entries.length) (hWord : position ≤ Word64.maxWord) :
    Represents (state.truncateAfter (if position = 0 then none
      else state.log[position - 1]?.map Entry.logId)) (entries.take position) := by
  have hKept : KafStorageState.truncationStart (if position = 0 then none
      else state.log[position - 1]?.map Entry.logId) = position := by
    rw [KafStorageState.truncationStart]
    split
    · next hZero => simp [hZero]
    · next hSome =>
        have hBound : position - 1 < entries.length := by omega
        have hEntry := List.getElem?_eq_getElem hBound
        have hKey := h.keyed _ _ hEntry
        rw [h.log, hEntry, Option.map_some, Option.elim_some, hKey,
          Word64.wrappingAdd_of_le (by omega)]
        omega
  refine ⟨fun i => ?_, fun i entry hEntry => ?_, ?_⟩
  · simp only [KafStorageState.truncateAfter, hKept, ExtTreeMap.getElem?_filter', h.log i]
    by_cases hWithin : i < position
    · rw [List.getElem?_take_of_lt hWithin]
      cases entries[i]? <;> simp [hWithin]
    · rw [List.getElem?_take_eq_none (by omega)]
      cases entries[i]? <;> simp [hWithin]
  · by_cases hWithin : i < position
    · rw [List.getElem?_take_of_lt hWithin] at hEntry
      exact h.keyed i entry hEntry
    · rw [List.getElem?_take_eq_none (by omega)] at hEntry
      cases hEntry
  · simp [KafStorageState.truncateAfter, h.unpurged]

/-- Storing an entry at most one past the end is placing it in the list. -/
theorem storeEntry (h : Represents state entries) {entry : Entry}
    (hIndex : entry.logId.index ≤ entries.length) (hWord : entry.logId.index ≤ Word64.maxWord) :
    Represents (state.storeEntry entry)
      (Splice.place Entry.logId entries entry.logId.index entry) := by
  rw [KafStorageState.storeEntry, Splice.place, h.log entry.logId.index]
  cases hKnown : entries[entry.logId.index]? with
  | none =>
      have hEnd := List.getElem?_eq_none_iff.mp hKnown
      exact h.append (by omega)
  | some known =>
      dsimp only
      split
      · exact h
      · refine (h.truncateAfter hIndex hWord).append ?_
        rw [List.length_take]
        omega

theorem storeEntries {sent : List Entry} {start : Nat} (h : Represents state entries)
    (hStart : start ≤ entries.length)
    (hSent : ∀ (i : Nat) (entry : Entry), sent[i]? = some entry →
      entry.logId.index = start + i ∧ entry.logId.index ≤ Word64.maxWord) :
    Represents (state.storeEntries sent) (Splice.placeAll Entry.logId entries start sent) := by
  induction sent generalizing state entries start with
  | nil => exact h
  | cons entry rest ih =>
      obtain ⟨hFirst, hWord⟩ : entry.logId.index = start ∧ _ := hSent 0 entry rfl
      have hPlaced := hFirst ▸ h.storeEntry (hFirst.symm ▸ hStart) hWord
      refine ih hPlaced ?_ fun i other hOther => ?_
      · exact hFirst ▸ Splice.lt_length_place (hFirst.symm ▸ hStart)
      · obtain ⟨hIndex, hLimit⟩ := hSent (i + 1) other hOther
        exact ⟨by omega, hLimit⟩

theorem pairwise_index (h : Represents state entries) :
    entries.Pairwise fun first second => first.logId.index < second.logId.index := by
  rw [List.pairwise_iff_getElem]
  intro i j hi hj hLt
  rw [h.keyed i _ (List.getElem?_eq_getElem hi), h.keyed j _ (List.getElem?_eq_getElem hj)]
  exact hLt

/-- The map lists the entries in the order of the list. -/
theorem toList_eq (h : Represents state entries) : state.log.toList.map Prod.snd = entries := by
  have hMem : ∀ pair ∈ state.log.toList, pair.2.logId.index = pair.1 := fun pair hPair =>
    h.logKeyed pair.1 pair.2 (Std.ExtTreeMap.mem_toList_iff_getElem?_eq_some.mp hPair)
  have hSorted : (state.log.toList.map Prod.snd).Pairwise fun first second =>
      first.logId.index < second.logId.index := by
    rw [List.pairwise_map]
    refine (Std.ExtTreeMap.ordered_keys_toList (t := state.log)).imp_of_mem fun hFirst hSecond hLt => ?_
    rw [hMem _ hFirst, hMem _ hSecond]
    exact compare_lt_iff_lt.mp hLt
  have hNodup : ∀ {list : List Entry}, (list.Pairwise fun first second =>
      first.logId.index < second.logId.index) → list.Nodup := fun hPairwise =>
    hPairwise.imp fun hLt hEq => absurd (hEq ▸ hLt) (lt_irrefl _)
  have hPerm : (state.log.toList.map Prod.snd).Perm entries := by
    refine (List.perm_ext_iff_of_nodup (hNodup hSorted) (hNodup h.pairwise_index)).mpr fun entry => ?_
    rw [List.mem_map, List.mem_iff_getElem?]
    constructor
    · rintro ⟨pair, hPair, rfl⟩
      refine ⟨pair.1, ?_⟩
      rw [← h.log]
      exact Std.ExtTreeMap.mem_toList_iff_getElem?_eq_some.mp hPair
    · rintro ⟨i, hEntry⟩
      rw [← h.log] at hEntry
      exact ⟨(i, entry), Std.ExtTreeMap.mem_toList_iff_getElem?_eq_some.mpr hEntry, rfl⟩
  exact hPerm.eq_of_pairwise (fun first second _ _ hLt hGt => absurd (hLt.trans hGt) (lt_irrefl _))
    hSorted h.pairwise_index

end Represents

end KeepAfloat
