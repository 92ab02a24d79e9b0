import KeepAfloat.Store.Log
import KeepAfloat.Library.Runs

/-! The purge floor of the log over every order of appends, truncations, purges and
installed snapshots. A mutation check that fails in the middle of an append leaves an
append of fewer entries. -/

namespace KeepAfloat

open Std (ExtTreeMap)

namespace KafStorageState

/-- Remove every entry up to a position and raise the purge floor to it. The boundary
never moves backwards. -/
def purge (state : KafStorageState) (logId : LogId) : KafStorageState :=
  { state with
    log := state.log.filter fun index _ => logId.index < index
    lastPurgedLogId :=
      if state.lastPurgedLogId.all fun purged => purged.index < logId.index then some logId
      else state.lastPurgedLogId }

/-- Install a snapshot: replicated fields from the snapshot, and a log without the
entries that the snapshot covers. -/
def installSnapshot (state : KafStorageState) (snapshot : KafSnapshot) :
    Except String KafStorageState :=
  if (state.genesis.any fun genesis => snapshot.genesis ≠ some genesis) ∨
      (state.admission.any fun session => snapshot.genesis ≠ some session.context.genesis) then
    .error "snapshot admission genesis mismatch"
  else
    let restored := snapshot.restoreInto state
    .ok (snapshot.lastApplied.elim restored restored.purge)

end KafStorageState

/-- What the log store reports at startup. -/
structure LogState where
  lastPurgedLogId : Option LogId
  lastLogId : Option LogId

namespace KafStorageState

/-- A store without a floor derives one from a log that starts above index one. -/
def getLogState (state : KafStorageState) : LogState where
  lastLogId := state.log.toList.getLast?.map fun pair => pair.2.logId
  lastPurgedLogId :=
    match state.lastPurgedLogId with
    | some purged => some purged
    | none => state.log.toList.head?.bind fun pair =>
        if 1 < pair.1 then some ⟨pair.2.logId.leaderId, pair.1 - 1⟩ else none

/-- The stored indices, with the purge floor right below them. Without a floor the log
starts at `bound` at most. -/
structure Window (bound low high : Nat) (state : KafStorageState) : Prop where
  le : low ≤ high
  keys : ∀ index, index ∈ state.log ↔ low ≤ index ∧ index < high
  floor : ∀ purged, state.lastPurgedLogId = some purged → low = purged.index + 1
  unpurged : state.lastPurgedLogId = none → low < high → low ≤ bound

section

variable {bound low high : Nat} {state : KafStorageState}

theorem mem_log_filter (state : KafStorageState) (keep : Nat → Bool) (index : Nat) :
    index ∈ state.log.filter (fun key _ => keep key) ↔ index ∈ state.log ∧ keep index = true := by
  rw [ExtTreeMap.mem_iff_isSome_getElem?, ExtTreeMap.mem_iff_isSome_getElem?,
    ExtTreeMap.getElem?_filter']
  cases state.log[index]? with
  | none => simp
  | some entry => cases keep index <;> simp

theorem Window.log_isEmpty (h : state.Window bound low high) :
    state.log.isEmpty = true ↔ low = high := by
  rw [ExtTreeMap.isEmpty_iff, ExtTreeMap.eq_empty_iff_forall_not_mem]
  constructor
  · intro hEmpty
    have hLow := hEmpty low
    rw [h.keys low] at hLow
    have hLe := h.le
    omega
  · intro hSame index hIn
    have hBounds := (h.keys index).mp hIn
    omega

/-- The next entry goes on top of the window, or starts one where there is none. -/
theorem Window.appendEntry (h : state.Window bound low high) {purged : Option Nat} {entry : Entry}
    (hPurged : ∀ floor ∈ purged, floor < entry.logId.index)
    (hNext : entry.logId.index = high ∨ low = high ∧ state.lastPurgedLogId = none)
    (hFirst : low = high → state.lastPurgedLogId = none → entry.logId.index ≤ 1 →
      entry.logId.index ≤ bound) :
    ∃ first, first ≤ entry.logId.index ∧
      (appendEntry purged state entry).Window bound first (entry.logId.index + 1) := by
  have hKeep : ¬(purged.any fun floor => entry.logId.index ≤ floor) = true := by
    simp only [Option.any_eq_true, decide_eq_true_eq, not_exists, not_and, not_le]
    exact hPurged
  rw [KafStorageState.appendEntry, if_neg hKeep]
  have hMem : ∀ index, index ∈ state.log.insert entry.logId.index entry ↔
      index = entry.logId.index ∨ index ∈ state.log := by
    intro index
    rw [ExtTreeMap.mem_insert, compare_eq_iff_eq]
    exact or_congr_left eq_comm
  have hLe := h.le
  by_cases hEmpty : low = high ∧ state.lastPurgedLogId = none
  · refine ⟨entry.logId.index, le_rfl, by omega, fun index => ?_, ?_, ?_⟩
    · rw [hMem, h.keys]
      omega
    · intro floor hFloor
      have hLog := h.log_isEmpty.mpr hEmpty.1
      by_cases hSeed : 1 < entry.logId.index
      · simp only [hEmpty.2, hLog, hSeed, Option.isNone_none, and_self, if_true,
          Option.some.injEq] at hFloor
        subst hFloor
        show entry.logId.index = entry.logId.index - 1 + 1
        omega
      · simp [hEmpty.2, hSeed] at hFloor
    · intro hNone _
      have hLog := h.log_isEmpty.mpr hEmpty.1
      by_cases hSeed : 1 < entry.logId.index
      · simp [hEmpty.2, hLog, hSeed] at hNone
      · exact hFirst hEmpty.1 hEmpty.2 (by omega)
  · have hTop : entry.logId.index = high := hNext.resolve_right hEmpty
    have hSame : (if state.lastPurgedLogId.isNone ∧ state.log.isEmpty ∧ 1 < entry.logId.index then
        some (⟨entry.logId.leaderId, entry.logId.index - 1⟩ : LogId) else state.lastPurgedLogId) =
        state.lastPurgedLogId := by
      rw [if_neg]
      rintro ⟨hNone, hLog, -⟩
      exact hEmpty ⟨h.log_isEmpty.mp hLog, Option.isNone_iff_eq_none.mp hNone⟩
    refine ⟨low, by omega, by omega, fun index => ?_, ?_, ?_⟩
    · rw [hMem, h.keys]
      omega
    · rw [hSame]
      exact h.floor
    · rw [hSame]
      intro hNone _
      apply h.unpurged hNone
      by_contra hNot
      exact hEmpty ⟨by omega, hNone⟩

/-- Entries in sequence on top of the window. -/
theorem Window.appendEntries {entries : List Entry} {purged : Option Nat} {next : Nat}
    (h : state.Window bound low next) (hPurged : ∀ floor ∈ purged, floor < next)
    (hStored : low < next ∨ state.lastPurgedLogId ≠ none)
    (hEntries : ∀ (i : Nat) (entry : Entry), entries[i]? = some entry →
      entry.logId.index = next + i) :
    ∃ first last, (entries.foldl (KafStorageState.appendEntry purged) state).Window bound first
      last := by
  induction entries generalizing state low next with
  | nil => exact ⟨low, next, h⟩
  | cons entry rest ih =>
      have hIndex : entry.logId.index = next := hEntries 0 entry rfl
      have hStored' : low = next → state.lastPurgedLogId ≠ none :=
        fun hSame => hStored.resolve_left (by omega)
      obtain ⟨first, hLe, hWindow⟩ := h.appendEntry (by rwa [hIndex]) (.inl hIndex)
        (fun hSame hNone => absurd hNone (hStored' hSame))
      rw [hIndex] at hWindow
      rw [List.foldl_cons]
      apply ih hWindow (fun floor hFloor => Nat.lt_succ_of_lt (hPurged floor hFloor))
      · exact .inl (by omega)
      · intro i other hOther
        rw [hEntries (i + 1) other hOther]
        omega

/-- A batch in sequence: right after the last stored entry, right after the purge floor
if nothing is stored, and anywhere without either. -/
structure Follows (state : KafStorageState) (entries : List Entry) (next : Nat) : Prop where
  consecutive : ∀ (i : Nat) (entry : Entry), entries[i]? = some entry →
    entry.logId.index = next + i
  stored : ∀ last, last ∈ state.log → (∀ index ∈ state.log, index ≤ last) → next = last + 1
  purged : state.log.isEmpty = true → ∀ purged, state.lastPurgedLogId = some purged →
    next = purged.index + 1

theorem Window.append (h : state.Window bound low high) {entries : List Entry} {next : Nat}
    (hFollows : state.Follows entries next)
    (hFirst : low = high → state.lastPurgedLogId = none → next ≤ 1 → next ≤ bound) :
    ∃ first last, (state.append entries).Window bound first last := by
  have hLe := h.le
  have hTop : low < high → next = high := by
    intro hSome
    have hLast := hFollows.stored (high - 1) ((h.keys _).mpr (by omega)) fun index hIn => by
      have hBounds := (h.keys index).mp hIn
      omega
    omega
  have hFloor : ∀ floor ∈ state.lastPurgedLogId.map LogId.index, low = floor + 1 ∧ next = high := by
    intro floor hIn
    obtain ⟨purged, hPurged, rfl⟩ := Option.map_eq_some_iff.mp hIn
    have hLow := h.floor purged hPurged
    rcases hLe.lt_or_eq with hSome | hNone
    · exact ⟨hLow, hTop hSome⟩
    · exact ⟨hLow, by rw [hFollows.purged (h.log_isEmpty.mpr hNone) purged hPurged]; omega⟩
  cases entries with
  | nil => exact ⟨low, high, h⟩
  | cons entry rest =>
      have hIndex : entry.logId.index = next := hFollows.consecutive 0 entry rfl
      rw [KafStorageState.append, List.foldl_cons]
      have hAbove : ∀ floor ∈ state.lastPurgedLogId.map LogId.index, floor < entry.logId.index := by
        intro floor hIn
        have hBoth := hFloor floor hIn
        omega
      have hNext : entry.logId.index = high ∨ low = high ∧ state.lastPurgedLogId = none := by
        rcases hLe.lt_or_eq with hSome | hNone
        · exact .inl (hIndex.trans (hTop hSome))
        · cases hCase : state.lastPurgedLogId with
          | none => exact .inr ⟨hNone, rfl⟩
          | some purged => exact .inl (hIndex.trans (hFloor purged.index (by simp [hCase])).2)
      obtain ⟨first, hFirstLe, hWindow⟩ := h.appendEntry hAbove hNext (by rw [hIndex]; exact hFirst)
      apply hWindow.appendEntries
      · intro floor hIn
        have hBoth := hFloor floor hIn
        omega
      · exact .inl (by omega)
      · intro i other hOther
        rw [hFollows.consecutive (i + 1) other hOther, hIndex]
        omega

theorem Window.truncateAfter (h : state.Window bound low high) (lastLogId : Option LogId) :
    ∃ first last, (state.truncateAfter lastLogId).Window bound first last := by
  have hLe := h.le
  have hMem : ∀ index, index ∈ (state.truncateAfter lastLogId).log ↔
      (low ≤ index ∧ index < high) ∧ index < truncationStart lastLogId := by
    intro index
    rw [KafStorageState.truncateAfter]
    dsimp only
    rw [mem_log_filter state fun index => decide (index < truncationStart lastLogId), h.keys,
      decide_eq_true_eq]
  by_cases hLower : (state.lastPurgedLogId.any fun purged =>
      lastLogId.all fun last => last.index < purged.index) = true
  · have hFloor : (state.truncateAfter lastLogId).lastPurgedLogId = lastLogId := by
      simp only [KafStorageState.truncateAfter, hLower, if_true]
    obtain ⟨purged, hPurged, hAll⟩ := Option.any_eq_true _ _ |>.mp hLower
    have hLow := h.floor purged hPurged
    refine ⟨lastLogId.elim 0 fun last => last.index + 1, lastLogId.elim 0 fun last => last.index + 1,
      le_rfl, fun index => ?_, ?_, fun _ hLt => absurd hLt (lt_irrefl _)⟩
    · rw [hMem]
      cases lastLogId with
      | none => simp [truncationStart]
      | some last =>
          have hStart := Word64.wrappingAdd_le last.index 1
          simp only [Option.all_some, decide_eq_true_eq] at hAll
          simp only [truncationStart, Option.elim_some]
          omega
    · intro floor hSome
      rw [hFloor] at hSome
      rw [hSome, Option.elim_some]
  · have hFloor : (state.truncateAfter lastLogId).lastPurgedLogId = state.lastPurgedLogId := by
      simp only [KafStorageState.truncateAfter, hLower, Bool.false_eq_true, if_false]
    refine ⟨low, max low (min high (truncationStart lastLogId)), by omega, fun index => ?_, ?_, ?_⟩
    · rw [hMem]
      omega
    · rw [hFloor]
      exact h.floor
    · rw [hFloor]
      exact fun hNone hLt => h.unpurged hNone (by omega)

theorem Window.purge (hBound : bound ≤ 1) (h : state.Window bound low high) (logId : LogId) :
    ∃ first last, (state.purge logId).Window bound first last := by
  have hLe := h.le
  have hMem : ∀ index, index ∈ (state.purge logId).log ↔
      (low ≤ index ∧ index < high) ∧ logId.index < index := by
    intro index
    rw [KafStorageState.purge]
    dsimp only
    rw [mem_log_filter state fun index => decide (logId.index < index), h.keys, decide_eq_true_eq]
  by_cases hRaise : (state.lastPurgedLogId.all fun purged => purged.index < logId.index) = true
  · have hFloor : (state.purge logId).lastPurgedLogId = some logId := by
      simp only [KafStorageState.purge, hRaise, if_true]
    have hLow : low < high → low ≤ logId.index + 1 := by
      intro hSome
      cases hPurged : state.lastPurgedLogId with
      | none =>
          have hStart := h.unpurged hPurged hSome
          omega
      | some purged =>
          have hStart := h.floor purged hPurged
          simp only [hPurged, Option.all_some, decide_eq_true_eq] at hRaise
          omega
    refine ⟨logId.index + 1, if low < high then max high (logId.index + 1) else logId.index + 1,
      ?_, fun index => ?_, ?_, ?_⟩
    · split <;> omega
    · rw [hMem]
      split
      · have hStart := hLow ‹_›
        omega
      · omega
    · intro floor hSome
      obtain rfl := Option.some.inj (hFloor.symm.trans hSome)
      rfl
    · intro hNone
      exact absurd (hFloor.symm.trans hNone) (by simp)
  · have hFloor : (state.purge logId).lastPurgedLogId = state.lastPurgedLogId := by
      simp only [KafStorageState.purge, hRaise, Bool.false_eq_true, if_false]
    have hAbove : logId.index < low := by
      cases hPurged : state.lastPurgedLogId with
      | none => simp [hPurged] at hRaise
      | some purged =>
          have hStart := h.floor purged hPurged
          simp only [hPurged, Option.all_some, decide_eq_true_eq] at hRaise
          omega
    refine ⟨low, high, hLe, fun index => ?_, ?_, ?_⟩
    · rw [hMem]
      omega
    · rw [hFloor]
      exact h.floor
    · rw [hFloor]
      exact h.unpurged

/-- Restoring a snapshot leaves the log alone. -/
theorem restoreInto_log (snapshot : KafSnapshot) (state : KafStorageState) :
    (snapshot.restoreInto state).log = state.log ∧
      (snapshot.restoreInto state).lastPurgedLogId = state.lastPurgedLogId := by
  simp only [KafSnapshot.restoreInto]
  split <;> exact ⟨rfl, rfl⟩

theorem Window.installSnapshot (hBound : bound ≤ 1) (h : state.Window bound low high)
    {snapshot : KafSnapshot} {after : KafStorageState}
    (hInstall : state.installSnapshot snapshot = .ok after) :
    ∃ first last, after.Window bound first last := by
  obtain ⟨hLog, hPurged⟩ := restoreInto_log snapshot state
  have hRestored : (snapshot.restoreInto state).Window bound low high :=
    ⟨h.le, by rw [hLog]; exact h.keys, by rw [hPurged]; exact h.floor, by rw [hPurged]; exact h.unpurged⟩
  unfold KafStorageState.installSnapshot at hInstall
  split at hInstall
  · cases hInstall
  · obtain rfl := Except.ok.inj hInstall
    cases snapshot.lastApplied with
    | none => exact ⟨low, high, hRestored⟩
    | some last => exact hRestored.purge hBound last

end

end KafStorageState

/-- A mutation of the log. -/
inductive LogOperation where
  | append (entries : List Entry)
  | truncateAfter (lastLogId : Option LogId)
  | purge (logId : LogId)
  | installSnapshot (snapshot : KafSnapshot)

namespace KafStorageState

def mutate (state : KafStorageState) : LogOperation → KafStorageState
  | .append entries => state.append entries
  | .truncateAfter lastLogId => state.truncateAfter lastLogId
  | .purge logId => state.purge logId
  | .installSnapshot snapshot =>
      match state.installSnapshot snapshot with
      | .ok after => after
      | .error _ => state

/-- Batches come in sequence. -/
def InSequence (state : KafStorageState) : LogOperation → Prop
  | .append entries => ∃ next, state.Follows entries next
  | _ => True

/-- No batch starts an unpurged log at index one. -/
def ZeroBased (state : KafStorageState) : LogOperation → Prop
  | .append entries => state.log.isEmpty = true → state.lastPurgedLogId = none →
      ∀ entry, entries.head? = some entry → entry.logId.index ≠ 1
  | _ => True

theorem Window.mutate {bound low high : Nat} (hBound : bound ≤ 1) {state : KafStorageState}
    (h : state.Window bound low high) {operation : LogOperation}
    (hSequence : state.InSequence operation) (hZero : bound = 0 → state.ZeroBased operation) :
    ∃ first last, (state.mutate operation).Window bound first last := by
  cases operation with
  | append entries =>
      obtain ⟨next, hFollows⟩ := hSequence
      cases entries with
      | nil => exact ⟨low, high, h⟩
      | cons entry rest =>
          apply h.append hFollows
          intro hEmpty hNone hSmall
          have hIndex : entry.logId.index = next := hFollows.consecutive 0 entry rfl
          by_cases hNull : bound = 0
          · have hNot := hZero hNull (h.log_isEmpty.mpr hEmpty) hNone entry rfl
            omega
          · omega
  | truncateAfter lastLogId => exact h.truncateAfter lastLogId
  | purge logId => exact h.purge hBound logId
  | installSnapshot snapshot =>
      simp only [KafStorageState.mutate]
      split
      · exact h.installSnapshot hBound ‹_›
      · exact ⟨low, high, h⟩

/-- Nothing is stored at or below the floor, and nothing is missing in between. -/
structure Contiguous (state : KafStorageState) : Prop where
  above : ∀ index ∈ state.log, ∀ purged, state.lastPurgedLogId = some purged →
    purged.index < index
  between : ∀ first last index, first ∈ state.log → last ∈ state.log → first ≤ index →
    index ≤ last → index ∈ state.log

/-- The lowest stored index is the next one after the reported floor, and at most `first`
if none is reported. -/
def FloorReported (first : Nat) (state : KafStorageState) : Prop :=
  ∀ lowest ∈ state.log, (∀ index ∈ state.log, lowest ≤ index) →
    match state.getLogState.lastPurgedLogId with
    | some purged => lowest = purged.index + 1
    | none => lowest ≤ first

theorem Window.contiguous {bound low high : Nat} {state : KafStorageState}
    (h : state.Window bound low high) : state.Contiguous where
  above index hIn purged hPurged := by
    have hFloor := h.floor purged hPurged
    have hBounds := (h.keys index).mp hIn
    omega
  between first last index hFirst hLast hLower hUpper := by
    have hBelow := (h.keys first).mp hFirst
    have hAbove := (h.keys last).mp hLast
    exact (h.keys index).mpr (by omega)

/-- A log lists its lowest index first. -/
theorem head_le {state : KafStorageState} {index : Nat} (hIn : index ∈ state.log)
    {pair : Nat × Entry} (hPair : state.log.toList.head? = some pair) : pair.1 ≤ index := by
  have hOrdered := ExtTreeMap.ordered_keys_toList (t := state.log)
  obtain ⟨entry, hEntry⟩ := Option.isSome_iff_exists.mp (ExtTreeMap.mem_iff_isSome_getElem?.mp hIn)
  have hListed := ExtTreeMap.mem_toList_iff_getElem?_eq_some.mpr hEntry
  cases hList : state.log.toList with
  | nil => simp [hList] at hPair
  | cons head rest =>
      rw [hList, List.head?_cons, Option.some.injEq] at hPair
      subst hPair
      rw [hList] at hOrdered hListed
      rcases List.mem_cons.mp hListed with hSame | hLater
      · exact (congrArg Prod.fst hSame).ge
      · exact (compare_lt_iff_lt.mp (List.rel_of_pairwise_cons hOrdered hLater)).le

theorem Window.floorReported {bound low high : Nat} (hBound : bound ≤ 1) {state : KafStorageState}
    (h : state.Window bound low high) : state.FloorReported bound := by
  intro lowest hIn hLowest
  have hBounds := (h.keys lowest).mp hIn
  have hLow : lowest = low :=
    le_antisymm (hLowest low ((h.keys low).mpr (by omega))) hBounds.1
  unfold getLogState
  cases hPurged : state.lastPurgedLogId with
  | some purged => exact hLow.trans (h.floor purged hPurged)
  | none =>
      have hStart := h.unpurged hPurged (by omega)
      have hHead : (state.log.toList.head?.bind fun pair =>
          if 1 < pair.1 then some (⟨pair.2.logId.leaderId, pair.1 - 1⟩ : LogId) else none) = none := by
        rw [Option.bind_eq_none_iff]
        intro pair hPair
        rw [if_neg]
        have hFirst := head_le hIn hPair
        omega
      simp only [hHead]
      omega

theorem start_window (config : StoreConfig) (bound : Nat) : config.start.Window bound 0 0 := by
  refine ⟨le_rfl, fun index => ?_, fun purged hPurged => ?_, fun _ hLt => absurd hLt (lt_irrefl _)⟩
  · simp [StoreConfig.start, KafStorageState.new]
  · simp [StoreConfig.start, KafStorageState.new] at hPurged

/-- In every run from the empty store the log has no hole above its purge floor. Without a
reported floor it starts at zero or one, and at zero if no batch starts an unpurged log at
index one. -/
theorem log_floor (config : StoreConfig) (operations : List LogOperation)
    (hSequence : ∀ i (hi : i < operations.length),
      (Runs.stateAt mutate config.start operations i).InSequence operations[i]) (i : Nat)
    (hi : i ≤ operations.length) :
    (Runs.stateAt mutate config.start operations i).Contiguous ∧
      (Runs.stateAt mutate config.start operations i).FloorReported 1 ∧
      ((∀ j (hj : j < operations.length), j < i →
          (Runs.stateAt mutate config.start operations j).ZeroBased operations[j]) →
        (Runs.stateAt mutate config.start operations i).FloorReported 0) := by
  have hRun : ∀ bound ≤ 1, ∀ k ≤ operations.length,
      (bound = 0 → ∀ j (hj : j < operations.length), j < k →
        (Runs.stateAt mutate config.start operations j).ZeroBased operations[j]) →
      ∃ low high, (Runs.stateAt mutate config.start operations k).Window bound low high := by
    intro bound hBound
    apply Runs.stateAt_indexed mutate config.start (fun k state =>
      (bound = 0 → ∀ j (hj : j < operations.length), j < k →
        (Runs.stateAt mutate config.start operations j).ZeroBased operations[j]) →
      ∃ low high, state.Window bound low high)
    · exact fun _ => ⟨0, 0, start_window config bound⟩
    · intro k hk ih hZero
      obtain ⟨low, high, hWindow⟩ := ih fun hNull j hj hLt => hZero hNull j hj (by omega)
      exact hWindow.mutate hBound (hSequence k hk) fun hNull => hZero hNull k hk (by omega)
  obtain ⟨low, high, hWindow⟩ := hRun 1 le_rfl i hi (by simp)
  refine ⟨hWindow.contiguous, hWindow.floorReported le_rfl, fun hZero => ?_⟩
  obtain ⟨low, high, hWindow⟩ := hRun 0 (by omega) i hi fun _ => hZero
  exact hWindow.floorReported (by omega)

/-- Blank entries of one leader. -/
def blanks (first count : Nat) : List Entry :=
  (List.range' first count).map fun index => ⟨⟨⟨1, ⟨1, 0⟩⟩, index⟩, .blank⟩

theorem blanks_follow (config : StoreConfig) (first count : Nat) :
    config.start.Follows (blanks first count) first := by
  refine ⟨fun i entry hEntry => ?_, fun last hIn => ?_, fun _ purged hPurged => ?_⟩
  · simp only [blanks, List.getElem?_map, Option.map_eq_some_iff] at hEntry
    obtain ⟨index, hIndex, rfl⟩ := hEntry
    obtain ⟨hi, rfl⟩ := List.getElem?_eq_some_iff.mp hIndex
    show (List.range' first count)[i] = first + i
    rw [List.getElem_range', one_mul]
  · simp [StoreConfig.start, KafStorageState.new] at hIn
  · simp [StoreConfig.start, KafStorageState.new] at hPurged

def sampleStore : StoreConfig := ⟨⟨[], List.nodup_nil⟩, 3, false, 0⟩

/-- A backfill above a lost purge point, a purge and a truncation. -/
def backfill : List LogOperation :=
  [.append (blanks 5 3), .purge ⟨⟨1, ⟨1, 0⟩⟩, 5⟩, .truncateAfter (some ⟨⟨1, ⟨1, 0⟩⟩, 6⟩)]

theorem log_floor_backfill :
    (Runs.stateAt mutate sampleStore.start backfill 3).Contiguous ∧
      (Runs.stateAt mutate sampleStore.start backfill 3).FloorReported 0 := by
  have hFloor := log_floor sampleStore backfill
    (fun i hi => match i, hi with
      | 0, _ => ⟨5, blanks_follow sampleStore 5 3⟩
      | 1, _ => trivial
      | 2, _ => trivial) 3 le_rfl
  refine ⟨hFloor.1, hFloor.2.2 fun j hj _ => ?_⟩
  match j, hj with
  | 0, _ =>
      intro _ _ entry hEntry
      obtain rfl := Option.some.inj hEntry
      decide
  | 1, _ => trivial
  | 2, _ => trivial

/-- A log that starts at index one reports no floor, as if it started at zero. -/
theorem one_based_floor_unreported :
    sampleStore.start.InSequence (.append (blanks 1 1)) ∧
      ¬(sampleStore.start.mutate (.append (blanks 1 1))).FloorReported 0 := by
  refine ⟨⟨1, blanks_follow sampleStore 1 1⟩, fun hReported => ?_⟩
  have hLog : ∀ index, index ∈ (sampleStore.start.mutate (.append (blanks 1 1))).log ↔ index = 1 := by
    intro index
    have hInsert : (sampleStore.start.mutate (.append (blanks 1 1))).log =
        (∅ : ExtTreeMap Nat Entry).insert 1 ⟨⟨⟨1, ⟨1, 0⟩⟩, 1⟩, .blank⟩ := rfl
    rw [hInsert, ExtTreeMap.mem_insert, compare_eq_iff_eq]
    simp [eq_comm]
  have hNone : (sampleStore.start.mutate (.append (blanks 1 1))).getLogState.lastPurgedLogId = none :=
    by decide +kernel
  have hOne := hReported 1 ((hLog 1).mpr rfl) fun index hIn => ((hLog index).mp hIn).ge
  rw [hNone] at hOne
  exact absurd hOne (by decide)

end KafStorageState

end KeepAfloat
