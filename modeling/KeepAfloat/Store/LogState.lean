import KeepAfloat.Store.LogFloor

/-! The order of the reported log state. The last log id is read off the stored entries
alone, so it is missing as soon as a purge, a snapshot or a truncation removes the last of
them, while the purge floor stays. -/

namespace KeepAfloat

open Std (ExtTreeMap)

namespace LogId

theorem orderKey_injective : Function.Injective orderKey := by
  rintro ⟨⟨term, node⟩, index⟩ ⟨⟨term', node'⟩, index'⟩ h
  simp only [orderKey, EmbeddingLike.apply_eq_iff_eq, Prod.mk.injEq] at h
  obtain ⟨rfl, rfl, rfl⟩ := h
  rfl

instance : LinearOrder LogId := LinearOrder.lift' orderKey orderKey_injective

theorem lt_of_index_lt (leader : LeaderId) {index index' : Nat} (h : index < index') :
    (⟨leader, index⟩ : LogId) < ⟨leader, index'⟩ := by
  change orderKey _ < orderKey _
  rw [orderKey, orderKey, Prod.Lex.toLex_lt_toLex]
  refine .inr ⟨rfl, ?_⟩
  rw [Prod.Lex.toLex_lt_toLex]
  exact .inr ⟨rfl, h⟩

end LogId

/-- The purged id is at most the last one. A missing id is below every id. -/
def LogState.Ordered (reported : LogState) : Prop :=
  ∀ purged, reported.lastPurgedLogId = some purged →
    ∃ last, reported.lastLogId = some last ∧ purged ≤ last

namespace KafStorageState

variable {state : KafStorageState}

/-- Stored ids ascend with their index, from above the purge floor. -/
structure Ascends (state : KafStorageState) : Prop where
  keyed : state.LogKeyed
  ids : ∀ (i j : Nat) (first second : Entry), state.log[i]? = some first →
    state.log[j]? = some second → i < j → first.logId < second.logId
  floor : ∀ (i : Nat) (entry : Entry) (purged : LogId), state.log[i]? = some entry →
    state.lastPurgedLogId = some purged → purged.index < i ∧ purged < entry.logId

/-- An entry above everything that is stored or purged. -/
structure Tops (state : KafStorageState) (entry : Entry) : Prop where
  stored : ∀ (i : Nat) (known : Entry), state.log[i]? = some known →
    i < entry.logId.index ∧ known.logId < entry.logId
  purged : ∀ purged, state.lastPurgedLogId = some purged → purged < entry.logId

/-- A purge position below the stored entries that it leaves. -/
def Precedes (state : KafStorageState) (logId : LogId) : Prop :=
  ∀ (i : Nat) (entry : Entry), state.log[i]? = some entry → logId.index < i → logId < entry.logId

/-- The ids of an operation fit the stored ones: batches ascend, a truncation names a
stored id or the floor, and a purge or a snapshot ends below the entries after it. -/
def Orderly (state : KafStorageState) : LogOperation → Prop
  | .append entries => (∀ entry ∈ entries, state.Tops entry) ∧
      entries.Pairwise fun first second =>
        first.logId.index < second.logId.index ∧ first.logId < second.logId
  | .truncateAfter none => True
  | .truncateAfter (some last) => state.log[last.index]?.map Entry.logId = some last ∨
      state.lastPurgedLogId = some last
  | .purge logId => state.Precedes logId
  | .installSnapshot snapshot => ∀ logId, snapshot.lastApplied = some logId → state.Precedes logId

/-- The operation leaves an entry, or takes the floor away too. A truncation after the largest
index wraps and removes everything. -/
def Keeps (state : KafStorageState) : LogOperation → Prop
  | .append _ => True
  | .truncateAfter none => True
  | .truncateAfter (some last) => last.index ∈ state.log ∧ last.index < Word64.maxWord
  | .purge logId => ∃ index ∈ state.log, logId.index < index
  | .installSnapshot snapshot =>
      ∀ logId, snapshot.lastApplied = some logId → ∃ index ∈ state.log, logId.index < index

/-- With an empty log the floor is gone too. -/
def Grounded (state : KafStorageState) : Prop :=
  state.log.isEmpty = true → state.lastPurgedLogId = none

/-! ### The report -/

theorem getLogState_ordered (h : state.Ascends) :
    state.getLogState.Ordered ↔ state.Grounded := by
  have hStored : ∀ pair ∈ state.log.toList, state.log[pair.1]? = some pair.2 :=
    fun pair hPair => ExtTreeMap.mem_toList_iff_getElem?_eq_some.mp hPair
  constructor
  · intro hOrdered hEmpty
    have hNil : state.log.toList = [] := by
      rw [ExtTreeMap.isEmpty_iff.mp hEmpty]
      rfl
    cases hPurged : state.lastPurgedLogId with
    | none => rfl
    | some purged =>
        have hReported : state.getLogState.lastPurgedLogId = some purged := by
          rw [getLogState, hPurged]
        obtain ⟨last, hLast, -⟩ := hOrdered purged hReported
        rw [getLogState, hNil] at hLast
        cases hLast
  · intro hFloor purged hReported
    cases hList : state.log.toList.getLast? with
    | none =>
        have hNil := List.getLast?_eq_none_iff.mp hList
        have hEmpty : state.log.isEmpty = true := by
          rw [ExtTreeMap.isEmpty_iff, ← ExtTreeMap.toList_eq_nil_iff]
          exact hNil
        rw [getLogState, hFloor hEmpty, hNil] at hReported
        cases hReported
    | some pair =>
        have hPair := hStored pair (List.mem_of_getLast? hList)
        refine ⟨pair.2.logId, by rw [getLogState, hList, Option.map_some], ?_⟩
        cases hPurged : state.lastPurgedLogId with
        | some floor =>
            rw [getLogState, hPurged] at hReported
            obtain rfl := Option.some.inj hReported
            exact (h.floor pair.1 pair.2 floor hPair hPurged).2.le
        | none =>
            rw [getLogState, hPurged] at hReported
            obtain ⟨head, hHead, hDerived⟩ := Option.bind_eq_some_iff.mp hReported
            have hFirst := hStored head (List.mem_of_mem_head? hHead)
            split at hDerived
            · next hAbove =>
                obtain rfl := Option.some.inj hDerived
                have hKey := h.keyed head.1 head.2 hFirst
                have hBelow : (⟨head.2.logId.leaderId, head.1 - 1⟩ : LogId) < head.2.logId := by
                  have hLt := LogId.lt_of_index_lt head.2.logId.leaderId
                    (show head.1 - 1 < head.2.logId.index by omega)
                  exact hLt
                have hIn : pair.1 ∈ state.log := by
                  rw [ExtTreeMap.mem_iff_isSome_getElem?, hPair]
                  rfl
                rcases (head_le hIn hHead).lt_or_eq with hLt | hSame
                · exact (hBelow.trans (h.ids head.1 pair.1 _ _ hFirst hPair hLt)).le
                · rw [hSame, hPair] at hFirst
                  rw [Option.some.inj hFirst]
                  exact hBelow.le
            · cases hDerived

/-! ### One operation -/

/-- The guard of an append covers the floor: it is the floor's index, or the entry is
above the floor anyway. -/
def Guards (purged : Option Nat) (state : KafStorageState) (entry : Entry) : Prop :=
  ∀ floor, state.lastPurgedLogId = some floor →
    purged = some floor.index ∨ floor.index < entry.logId.index

/-- An entry of an append is dropped, or is stored over the floor that stands or is
seeded below it. -/
theorem appendEntry_cases (purged : Option Nat) (state : KafStorageState) (entry : Entry) :
    appendEntry purged state entry = state ∨
      (∀ floor, purged = some floor → floor < entry.logId.index) ∧
        ∃ floor, appendEntry purged state entry =
            { state with
              log := state.log.insert entry.logId.index entry
              lastPurgedLogId := floor } ∧
          (floor = state.lastPurgedLogId ∨ state.log = ∅ ∧ 1 < entry.logId.index ∧
            floor = some ⟨entry.logId.leaderId, entry.logId.index - 1⟩) := by
  rw [KafStorageState.appendEntry]
  split
  · exact .inl rfl
  · next hKeep =>
      refine .inr ⟨fun floor hFloor => ?_, _, rfl, ?_⟩
      · simpa [hFloor] using hKeep
      · split
        · next hSeed => exact .inr ⟨ExtTreeMap.isEmpty_iff.mp hSeed.2.1, hSeed.2.2, rfl⟩
        · exact .inl rfl

/-- The seeded floor is right below the entry. -/
theorem seeded_lt {entry : Entry} (h : 1 < entry.logId.index) :
    (⟨entry.logId.leaderId, entry.logId.index - 1⟩ : LogId) < entry.logId :=
  LogId.lt_of_index_lt entry.logId.leaderId (show entry.logId.index - 1 < entry.logId.index by omega)

theorem getElem?_log_insert {entry known : Entry} {i : Nat}
    (h : (state.log.insert entry.logId.index entry)[i]? = some known) :
    i = entry.logId.index ∧ known = entry ∨ state.log[i]? = some known := by
  simp only [ExtTreeMap.getElem?_insert, compare_eq_iff_eq] at h
  split at h
  · next hSame => exact .inl ⟨hSame.symm, (Option.some.inj h).symm⟩
  · exact .inr h

theorem Ascends.appendEntry (h : state.Ascends) {entry : Entry} (hTops : state.Tops entry)
    {purged : Option Nat} (hGuards : Guards purged state entry) :
    (appendEntry purged state entry).Ascends := by
  rcases appendEntry_cases purged state entry with hDropped | ⟨hAbove, floor, hStored, hFloor⟩
  · rwa [hDropped]
  rw [hStored]
  refine ⟨fun i known hKnown => ?_, fun i j first second hFirst hSecond hLt => ?_,
    fun i known limit hKnown hLimit => ?_⟩
  · rcases getElem?_log_insert hKnown with ⟨rfl, rfl⟩ | hOld
    · rfl
    · exact h.keyed i known hOld
  · rcases getElem?_log_insert hSecond with ⟨rfl, rfl⟩ | hOld
    · rcases getElem?_log_insert hFirst with ⟨rfl, -⟩ | hOlder
      · exact absurd hLt (lt_irrefl _)
      · exact (hTops.stored i first hOlder).2
    · rcases getElem?_log_insert hFirst with ⟨rfl, -⟩ | hOlder
      · exact absurd (hTops.stored j second hOld).1 hLt.asymm
      · exact h.ids i j first second hOlder hOld hLt
  · rcases hFloor with rfl | ⟨hEmpty, hIndex, rfl⟩
    · rcases getElem?_log_insert hKnown with ⟨rfl, rfl⟩ | hOld
      · exact ⟨(hGuards limit hLimit).elim (hAbove limit.index) id, hTops.purged limit hLimit⟩
      · exact h.floor i known limit hOld hLimit
    · obtain rfl := Option.some.inj hLimit
      rcases getElem?_log_insert hKnown with ⟨rfl, rfl⟩ | hOld
      · exact ⟨show known.logId.index - 1 < known.logId.index by omega, seeded_lt hIndex⟩
      · rw [hEmpty] at hOld
        cases hOld

theorem Tops.appendEntry {entry next : Entry} (hNext : state.Tops next)
    (hIndex : entry.logId.index < next.logId.index) (hId : entry.logId < next.logId)
    {purged : Option Nat} (hGuards : Guards purged state next) :
    (appendEntry purged state entry).Tops next ∧
      Guards purged (appendEntry purged state entry) next := by
  rcases appendEntry_cases purged state entry with hDropped | ⟨-, floor, hStored, hFloor⟩
  · rw [hDropped]
    exact ⟨hNext, hGuards⟩
  rw [hStored]
  refine ⟨⟨fun i known hKnown => ?_, fun limit hLimit => ?_⟩, fun limit hLimit => ?_⟩
  · rcases getElem?_log_insert hKnown with ⟨rfl, rfl⟩ | hOld
    · exact ⟨hIndex, hId⟩
    · exact hNext.stored i known hOld
  · rcases hFloor with rfl | ⟨-, hAbove, rfl⟩
    · exact hNext.purged limit hLimit
    · obtain rfl := Option.some.inj hLimit
      exact (seeded_lt hAbove).trans hId
  · rcases hFloor with rfl | ⟨-, hAbove, rfl⟩
    · exact hGuards limit hLimit
    · obtain rfl := Option.some.inj hLimit
      exact .inr (show entry.logId.index - 1 < next.logId.index by omega)

theorem Ascends.append (h : state.Ascends) {entries : List Entry}
    (hTops : ∀ entry ∈ entries, state.Tops entry)
    (hBatch : entries.Pairwise fun first second =>
      first.logId.index < second.logId.index ∧ first.logId < second.logId) :
    (state.append entries).Ascends := by
  have hRun : ∀ (batch : List Entry) (current : KafStorageState) (purged : Option Nat),
      current.Ascends → (∀ entry ∈ batch, current.Tops entry ∧ Guards purged current entry) →
      (batch.Pairwise fun first second =>
        first.logId.index < second.logId.index ∧ first.logId < second.logId) →
      (batch.foldl (KafStorageState.appendEntry purged) current).Ascends := by
    intro batch
    induction batch with
    | nil => exact fun current purged hCurrent _ _ => hCurrent
    | cons entry rest ih =>
        intro current purged hCurrent hAll hPairs
        rw [List.forall_mem_cons] at hAll
        rw [List.pairwise_cons] at hPairs
        apply ih _ purged (hCurrent.appendEntry hAll.1.1 hAll.1.2) _ hPairs.2
        intro next hNext
        obtain ⟨hIndex, hId⟩ := hPairs.1 next hNext
        exact (hAll.2 next hNext).1.appendEntry hIndex hId (hAll.2 next hNext).2
  refine hRun entries state _ h (fun entry hEntry => ⟨hTops entry hEntry, ?_⟩) hBatch
  exact fun floor hFloor => .inl (by rw [hFloor, Option.map_some])

/-- A part of the log over a floor that is not above it. -/
theorem Ascends.restrict (h : state.Ascends) {after : KafStorageState} {keep : Nat → Bool}
    (hLog : after.log = state.log.filter fun index _ => keep index)
    (hFloor : ∀ (i : Nat) (entry : Entry) (purged : LogId), state.log[i]? = some entry →
      keep i = true → after.lastPurgedLogId = some purged →
        purged.index < i ∧ purged < entry.logId) :
    after.Ascends := by
  have hStored : ∀ (i : Nat) (entry : Entry), after.log[i]? = some entry →
      state.log[i]? = some entry ∧ keep i = true := by
    intro i entry hEntry
    rw [hLog, ExtTreeMap.getElem?_filter', Option.filter_eq_some_iff] at hEntry
    exact hEntry
  refine ⟨fun i entry hEntry => h.keyed i entry (hStored i entry hEntry).1,
    fun i j first second hFirst hSecond hLt => ?_, fun i entry purged hEntry hPurged => ?_⟩
  · exact h.ids i j first second (hStored i first hFirst).1 (hStored j second hSecond).1 hLt
  · obtain ⟨hOld, hKept⟩ := hStored i entry hEntry
    exact hFloor i entry purged hOld hKept hPurged

theorem Ascends.truncateAfter (h : state.Ascends) {lastLogId : Option LogId}
    (hOrderly : state.Orderly (.truncateAfter lastLogId)) :
    (state.truncateAfter lastLogId).Ascends := by
  refine h.restrict rfl fun i entry purged hEntry hKept hPurged => ?_
  change (if state.lastPurgedLogId.any fun purged => lastLogId.all fun last =>
      last.index < purged.index then lastLogId else state.lastPurgedLogId) = some purged at hPurged
  split at hPurged
  · next hLower =>
      obtain ⟨floor, hFloor, hBelow⟩ := Option.any_eq_true _ _ |>.mp hLower
      subst hPurged
      rw [Option.all_some, decide_eq_true_eq] at hBelow
      rcases hOrderly with hStored | hSame
      · obtain ⟨known, hKnown, rfl⟩ := Option.map_eq_some_iff.mp hStored
        exact absurd (h.floor _ known floor hKnown hFloor).1 hBelow.asymm
      · rw [hFloor] at hSame
        obtain rfl := Option.some.inj hSame
        exact absurd hBelow (lt_irrefl _)
  · exact h.floor i entry purged hEntry hPurged

theorem Ascends.purge (h : state.Ascends) {logId : LogId} (hPrecedes : state.Precedes logId) :
    (state.purge logId).Ascends := by
  refine h.restrict rfl fun i entry purged hEntry hKept hPurged => ?_
  rw [decide_eq_true_eq] at hKept
  change (if state.lastPurgedLogId.all fun purged => purged.index < logId.index then some logId
      else state.lastPurgedLogId) = some purged at hPurged
  split at hPurged
  · obtain rfl := Option.some.inj hPurged
    exact ⟨hKept, hPrecedes i entry hEntry hKept⟩
  · exact h.floor i entry purged hEntry hPurged

/-- An installed snapshot purges what it covers. -/
theorem installSnapshot_cases (state : KafStorageState) (snapshot : KafSnapshot) :
    ∃ restored : KafStorageState,
      restored.log = state.log ∧ restored.lastPurgedLogId = state.lastPurgedLogId ∧
        (state.mutate (.installSnapshot snapshot) = restored ∨
          ∃ logId, snapshot.lastApplied = some logId ∧
            state.mutate (.installSnapshot snapshot) = restored.purge logId) := by
  obtain ⟨hLog, hPurged⟩ := restoreInto_log snapshot state
  rw [mutate, installSnapshot]
  by_cases hMismatch : (state.genesis.any fun genesis => snapshot.genesis ≠ some genesis) ∨
      (state.admission.any fun session => snapshot.genesis ≠ some session.context.genesis)
  · rw [if_pos hMismatch]
    exact ⟨state, rfl, rfl, .inl rfl⟩
  · rw [if_neg hMismatch]
    refine ⟨snapshot.restoreInto state, hLog, hPurged, ?_⟩
    cases snapshot.lastApplied with
    | none => exact .inl rfl
    | some logId => exact .inr ⟨logId, rfl, rfl⟩

theorem Ascends.congr (h : state.Ascends) {after : KafStorageState} (hLog : after.log = state.log)
    (hPurged : after.lastPurgedLogId = state.lastPurgedLogId) : after.Ascends := by
  refine ⟨?_, ?_, ?_⟩
  · rw [LogKeyed, hLog]
    exact h.keyed
  · rw [hLog]
    exact h.ids
  · rw [hLog, hPurged]
    exact h.floor

theorem Ascends.mutate (h : state.Ascends) {operation : LogOperation}
    (hOrderly : state.Orderly operation) : (state.mutate operation).Ascends := by
  cases operation with
  | append entries => exact h.append hOrderly.1 hOrderly.2
  | truncateAfter lastLogId => exact h.truncateAfter hOrderly
  | purge logId => exact h.purge hOrderly
  | installSnapshot snapshot =>
      obtain ⟨restored, hLog, hPurged, hKept | ⟨logId, hApplied, hPurge⟩⟩ :=
        installSnapshot_cases state snapshot
      · rw [hKept]
        exact h.congr hLog hPurged
      · rw [hPurge]
        refine (h.congr hLog hPurged).purge fun i entry hEntry => ?_
        rw [hLog] at hEntry
        exact hOrderly logId hApplied i entry hEntry

/-! ### A floor over an empty log -/

theorem grounded_of_mem {index : Nat} (h : index ∈ state.log) : state.Grounded := by
  intro hEmpty
  rw [ExtTreeMap.isEmpty_iff.mp hEmpty] at h
  exact absurd h (by simp)

theorem Grounded.append (h : state.Grounded) (entries : List Entry) :
    (state.append entries).Grounded := by
  have hRun : ∀ (batch : List Entry) (current : KafStorageState) (purged : Option Nat),
      current.Grounded → (batch.foldl (KafStorageState.appendEntry purged) current).Grounded := by
    intro batch
    induction batch with
    | nil => exact fun current purged hCurrent => hCurrent
    | cons entry rest ih =>
        intro current purged hCurrent
        apply ih
        rcases appendEntry_cases purged current entry with hDropped | ⟨-, floor, hStored, -⟩
        · rwa [hDropped]
        · rw [hStored]
          exact grounded_of_mem ExtTreeMap.mem_insert_self
  exact hRun entries state _ h

theorem purge_grounded {logId : LogId} (h : ∃ index ∈ state.log, logId.index < index) :
    (state.purge logId).Grounded := by
  obtain ⟨index, hIn, hAbove⟩ := h
  refine grounded_of_mem (?_ : index ∈ _)
  exact (mem_log_filter state (fun index => decide (logId.index < index)) index).mpr
    ⟨hIn, decide_eq_true hAbove⟩

theorem Grounded.mutate (h : state.Grounded) {operation : LogOperation}
    (hKeeps : state.Keeps operation) : (state.mutate operation).Grounded := by
  cases operation with
  | append entries => exact h.append entries
  | truncateAfter lastLogId =>
      cases lastLogId with
      | none =>
          intro _
          change (if state.lastPurgedLogId.any fun _ => true then none
            else state.lastPurgedLogId) = none
          cases state.lastPurgedLogId with
          | none => rfl
          | some purged => rfl
      | some last =>
          refine grounded_of_mem (?_ : last.index ∈ _)
          have hStart : truncationStart (some last) = last.index + 1 :=
            Word64.wrappingAdd_of_le hKeeps.2
          refine (mem_log_filter state (fun index => decide (index < truncationStart (some last)))
            last.index).mpr ⟨hKeeps.1, ?_⟩
          rw [hStart]
          exact decide_eq_true (Nat.lt_succ_self last.index)
  | purge logId => exact purge_grounded hKeeps
  | installSnapshot snapshot =>
      obtain ⟨restored, hLog, hPurged, hKept | ⟨logId, hApplied, hPurge⟩⟩ :=
        installSnapshot_cases state snapshot
      · rw [hKept, Grounded, hLog, hPurged]
        exact h
      · rw [hPurge]
        exact purge_grounded (hLog ▸ hKeeps logId hApplied)

/-- In every run whose ids ascend, the report is in order exactly if the log is not empty
or no floor stands. If every operation leaves an entry or takes the floor away, it is in
order in every reached state. -/
theorem reported_order (config : StoreConfig) (operations : List LogOperation)
    (hOrderly : ∀ i (hi : i < operations.length),
      (Runs.stateAt mutate config.start operations i).Orderly operations[i]) (i : Nat)
    (hi : i ≤ operations.length) :
    ((Runs.stateAt mutate config.start operations i).getLogState.Ordered ↔
        (Runs.stateAt mutate config.start operations i).Grounded) ∧
      ((∀ j (hj : j < operations.length),
          (Runs.stateAt mutate config.start operations j).Keeps operations[j]) →
        (Runs.stateAt mutate config.start operations i).getLogState.Ordered) := by
  have hStart : config.start.Ascends ∧ config.start.Grounded := by
    refine ⟨⟨fun i entry hEntry => ?_, fun i j first second hFirst => ?_,
      fun i entry purged hEntry => ?_⟩, fun _ => rfl⟩
    · simp [StoreConfig.start, KafStorageState.new] at hEntry
    · simp [StoreConfig.start, KafStorageState.new] at hFirst
    · simp [StoreConfig.start, KafStorageState.new] at hEntry
  have hAscends : (Runs.stateAt mutate config.start operations i).Ascends :=
    Runs.stateAt_indexed mutate config.start (fun _ state => state.Ascends) hStart.1
      (fun k hk ih => ih.mutate (hOrderly k hk)) i hi
  refine ⟨getLogState_ordered hAscends, fun hKeeps => (getLogState_ordered hAscends).mpr ?_⟩
  exact Runs.stateAt_indexed mutate config.start (fun _ state => state.Grounded) hStart.2
    (fun k hk ih => ih.mutate (hKeeps k hk)) i hi

/-- Two entries, of which the first is purged. -/
theorem reported_order_suffix :
    (Runs.stateAt mutate sampleStore.start
      [.append (blanks 0 2), .purge ⟨⟨1, ⟨1, 0⟩⟩, 0⟩] 2).getLogState.Ordered := by
  have hOnly : ∀ i ∈ (sampleStore.start.append (blanks 0 2)).log, i = 1 ∨ i = 0 := by
    intro i hIn
    have hInserted : (sampleStore.start.append (blanks 0 2)).log =
        ((∅ : ExtTreeMap Nat Entry).insert 0 ⟨⟨⟨1, ⟨1, 0⟩⟩, 0⟩, .blank⟩).insert 1
          ⟨⟨⟨1, ⟨1, 0⟩⟩, 1⟩, .blank⟩ := rfl
    rw [hInserted, ExtTreeMap.mem_insert, ExtTreeMap.mem_insert, compare_eq_iff_eq,
      compare_eq_iff_eq] at hIn
    simpa [eq_comm] using hIn
  refine (reported_order sampleStore _ (fun i hi => ?_) 2 le_rfl).2 fun j hj => ?_
  · match i, hi with
    | 0, _ =>
        refine ⟨fun entry _ => ⟨fun i known hKnown => ?_, fun purged hPurged => ?_⟩, ?_⟩
        · simp [sampleStore, StoreConfig.start, KafStorageState.new] at hKnown
        · cases hPurged
        · decide
    | 1, _ =>
        intro i entry hEntry hAbove
        have hIn : i ∈ (sampleStore.start.append (blanks 0 2)).log := by
          rw [ExtTreeMap.mem_iff_isSome_getElem?]
          exact Option.isSome_of_eq_some hEntry
        rcases hOnly i hIn with rfl | rfl
        · obtain rfl := Option.some.inj hEntry
          decide
        · cases hAbove
  · match j, hj with
    | 0, _ => trivial
    | 1, _ => exact ⟨1, by decide +kernel, by decide⟩

/-- Purging the last entry: a purged id is reported, and no last one. -/
theorem purge_all_unordered :
    ¬(Runs.stateAt mutate sampleStore.start
      [.append (blanks 0 1), .purge ⟨⟨1, ⟨1, 0⟩⟩, 0⟩] 2).getLogState.Ordered := by
  intro hOrdered
  obtain ⟨last, hLast, -⟩ := hOrdered ⟨⟨1, ⟨1, 0⟩⟩, 0⟩ (by decide +kernel)
  have hNone : (Runs.stateAt mutate sampleStore.start
      [.append (blanks 0 1), .purge ⟨⟨1, ⟨1, 0⟩⟩, 0⟩] 2).getLogState.lastLogId = none := by
    decide +kernel
  rw [hNone] at hLast
  cases hLast

end KafStorageState

end KeepAfloat
