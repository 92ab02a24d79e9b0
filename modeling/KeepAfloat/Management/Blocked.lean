import KeepAfloat.Library.Maps
import KeepAfloat.Management.Serial

/-! The validator on the entries of a leader. It replays what is not applied, and it refuses a
preparation that meets another pending join. -/

namespace KeepAfloat.Management

open Checks (Avoids)

/-- The reason with which the validator refuses a second preparation. -/
def blocked : AdmissionDenied := ⟨"source has another pending join"⟩

section Reasons

variable {valid : MembershipCheck}
  (hValid : ∀ membership, Avoids blocked (valid membership)) {history : ReplicationHistory}
  {auth : RaftAuthorization} {frontier : Option LogId}

theorem joinPlanData_avoids (auth : RaftAuthorization) (plan : JoinPlan) :
    Avoids blocked (auth.joinPlanData plan) :=
  avoids_guard (by decide) <| avoids_guard (by decide) <|
    avoids_guard (by decide) <| avoids_ensure (by decide) _

theorem log_avoids (auth : RaftAuthorization) (log : Option LogId) :
    Avoids blocked (auth.log log) := avoids_ensure (by decide) _

/-- Commands other than admission commands. -/
theorem command_avoids (auth : RaftAuthorization) {request : KafRequest} (logId : LogId)
    (h : ∀ command, request ≠ .admissionMembership command) :
    Avoids blocked (auth.command request logId) := by
  cases request with
  | admissionMembership command => exact absurd rfl (h command)
  | healthProgress progress =>
      exact avoids_guard (by decide) <| avoids_ensure (by decide) _
  | admissionGenesis genesis => exact avoids_ensure (by decide) _
  | clusterFormed clusterId semantics enforced => exact avoids_ensure (by decide) _
  | healthUpdate nodeId healthy => exact Avoids.ok _ _
  | vipReleased nodeId vip generation => exact Avoids.ok _ _
  | enableFailoverSemanticsV2 => exact Avoids.ok _ _
  | enableConfigIdentityV1 => exact Avoids.ok _ _

theorem applyCommand_blocked {source : SourceState} {command : AdmissionCommand} {log : LogId}
    (h : ReplicationHistory.applyCommand source command log frontier = .error blocked) :
    ∃ plan pending, command = .prepareJoin plan ∧ source.pending = some pending ∧
      pending.plan ≠ plan := by
  cases command with
  | prepareJoin plan =>
      cases hPending : source.pending with
      | none =>
          simp only [ReplicationHistory.applyCommand, hPending] at h
          exact absurd h (avoids_guard (by decide) <| Avoids.ok _ _)
      | some pending =>
          refine ⟨plan, pending, rfl, rfl, fun hSame => ?_⟩
          simp only [ReplicationHistory.applyCommand, hPending, hSame, decide_true] at h
          cases h
  | cancelJoin plan prepared =>
      exact absurd h ((avoids_okOr (by decide) _).bind fun _ _ =>
        avoids_guard (by decide) <| Avoids.ok _ _)
  | learnerApplied consumer nonce prepared =>
      refine absurd h ((avoids_okOr (by decide) _).bind fun pending _ =>
        avoids_guard (by decide) <| ?_)
      split
      · exact Avoids.ok _ _
      · exact avoids_guard (by decide) <| Avoids.ok _ _

theorem replayEntry_blocked {source : SourceState} {entry : Entry}
    (h : history.replayEntry valid auth frontier source entry = .error blocked) :
    (auth.lastApplied.any fun applied => entry.logId.index ≤ applied.index) = false ∧
      entry.logId.index = source.cursor.elim 0 (fun log => log.index + 1) ∧
      history.apply valid auth frontier source entry = .error blocked := by
  rw [ReplicationHistory.replayEntry] at h
  split at h
  · exact absurd h (avoids_guard (by decide) <| Avoids.ok _ _)
  · next hNew =>
      rw [Checks.bind_eq_error] at h
      rcases h with h | ⟨_, hIndex, h⟩
      · exact absurd h (avoids_ensure (by decide) _)
      · exact ⟨Bool.not_eq_true _ ▸ hNew, of_decide_eq_true (ensure_eq_ok.mp hIndex), h⟩

include hValid

theorem membership_avoids (configs : List (Finset ReplicaId)) (ids : Finset ReplicaId) :
    Avoids blocked (history.membership valid configs ids) :=
  (avoids_okOr (by decide) _).bind fun _ _ => (hValid _).bind fun _ _ => Avoids.ok _ _

theorem data_avoids (entry : Entry) : Avoids blocked (history.data valid auth entry) := by
  refine (log_avoids auth _).bind fun _ _ => ?_
  split
  · exact avoids_guard (by decide) <| avoids_guard (by decide) <|
      (membership_avoids hValid _ _).bind fun _ _ => avoids_ensure (by decide) _
  · exact joinPlanData_avoids auth _
  · exact (joinPlanData_avoids auth _).bind fun _ _ => (log_avoids auth _).bind fun _ _ =>
      avoids_ensure (by decide) _
  · exact avoids_guard (by decide) <| (log_avoids auth _).bind fun _ _ =>
      avoids_ensure (by decide) _
  · next request hPrepare hCancel hAck hPayload =>
      refine command_avoids auth _ ?_
      rintro command rfl
      cases command with
      | prepareJoin plan => exact hPrepare plan rfl
      | cancelJoin plan prepared => exact hCancel plan prepared rfl
      | learnerApplied consumer nonce prepared => exact hAck consumer nonce prepared rfl
  · exact Avoids.ok _ _

theorem transition_avoids (source : SourceState) (membership : Membership) (log : LogId) :
    Avoids blocked (history.transition valid source membership log frontier) := by
  rw [ReplicationHistory.transition]
  split
  · exact Avoids.ok _ _
  · refine (avoids_okOr (by decide) _).bind fun pending _ => avoids_guard (by decide) <|
      Avoids.bind ?_ fun _ _ => avoids_guard (by decide) <| Avoids.ok _ _
    rw [ReplicationHistory.permittedNext]
    split
    · refine (membership_avoids hValid _ _).bind fun _ _ => (membership_avoids hValid _ _).bind
        fun _ _ => ?_
      split
      · exact (membership_avoids hValid _ _).bind fun _ _ => Avoids.ok _ _
      · exact Avoids.ok _ _
    · exact avoids_guard (by decide) <| (membership_avoids hValid _ _).bind
        fun _ _ => Avoids.ok _ _

/-- Only a preparation that meets another pending join is refused for that reason. -/
theorem apply_blocked {source : SourceState} {entry : Entry}
    (h : history.apply valid auth frontier source entry = .error blocked) :
    ∃ plan pending, entry.preparation = some plan ∧ source.pending = some pending ∧
      pending.plan ≠ plan := by
  rw [ReplicationHistory.apply, Checks.bind_eq_error] at h
  rcases h with h | ⟨_, -, hOk⟩
  · rw [ReplicationHistory.applyPayload] at h
    split at h
    · exact absurd h (transition_avoids hValid source _ _)
    · next command hPayload =>
        rw [Checks.bind_eq_error] at h
        rcases h with h | ⟨_, -, hOk⟩
        · obtain ⟨plan, pending, rfl, hPending, hPlan⟩ := applyCommand_blocked h
          exact ⟨plan, pending, by rw [Entry.preparation, hPayload], hPending, hPlan⟩
        · cases hOk
    · next request hOther hPayload =>
        rw [Checks.bind_eq_error] at h
        rcases h with h | ⟨_, -, hOk⟩
        · exact absurd h (command_avoids auth _ fun command hCommand => hOther command hCommand)
        · cases hOk
    · cases h
  · cases hOk

theorem startState_avoids : Avoids blocked (history.startState valid auth) := by
  rw [ReplicationHistory.startState]
  split
  · exact Avoids.ok _ _
  · exact (membership_avoids hValid _ _).bind fun _ _ => Avoids.ok _ _

theorem checkEntries_avoids (next : Option Nat) (entries : List Entry) :
    Avoids blocked (history.checkEntries valid auth next entries) := by
  induction entries generalizing next with
  | nil => exact Avoids.ok _ _
  | cons entry rest ih =>
      exact avoids_guard (by decide) <| (data_avoids hValid entry).bind
        fun _ _ => ih _

theorem replayLocal_blocked {source : SourceState} {index : Nat}
    (h : history.replayLocal valid auth frontier source index = .error blocked) :
    ∃ entry, history.entries[index]? = some entry ∧
      history.apply valid auth frontier source entry = .error blocked := by
  rw [ReplicationHistory.replayLocal, Checks.bind_eq_error] at h
  rcases h with h | ⟨entry, hEntry, h⟩
  · exact absurd h (avoids_okOr (by decide) _)
  · rw [Checks.bind_eq_error] at h
    rcases h with h | ⟨_, -, h⟩
    · exact absurd h (data_avoids hValid entry)
    · exact ⟨entry, okOr_eq_ok.mp hEntry, h⟩

end Reasons

/-! ### Replays of a log -/

section Replay

variable {valid : MembershipCheck} {history : ReplicationHistory}
  {auth : RaftAuthorization} {frontier : Option LogId} {source after : SourceState}
  {config : StoreConfig} {log : List Entry}

/-- A replay of entries of a log is a stretch of it. -/
theorem replays_stretch {entries : List Entry}
    (h : Replays valid history auth frontier source entries after)
    (hLog : ∀ entry ∈ entries, log[entry.logId.index]? = some entry) :
    entries = (log.drop (indexAfter source.cursor)).take entries.length ∧
      indexAfter after.cursor = indexAfter source.cursor + entries.length := by
  induction h with
  | nil source => exact ⟨rfl, rfl⟩
  | @cons source middle after entry rest hIndex hData hApply hRest ih =>
      obtain ⟨hSlice, hNext⟩ := ih fun other hOther => hLog other (List.mem_cons_of_mem _ hOther)
      have hFound := hLog entry List.mem_cons_self
      have hMiddle : indexAfter middle.cursor = indexAfter source.cursor + 1 := by
        rw [ReplicationHistory.apply_cursor hApply, indexAfter, Option.elim_some, hIndex, indexAfter]
      rw [hIndex] at hFound
      obtain ⟨hLt, hEntry⟩ := List.getElem?_eq_some_iff.mp hFound
      refine ⟨?_, by rw [hNext, hMiddle, List.length_cons]; omega⟩
      rw [List.length_cons, indexAfter, List.drop_eq_getElem_cons hLt, List.take_succ_cons, hEntry]
      rw [hMiddle, indexAfter] at hSlice
      exact congrArg (entry :: ·) hSlice

/-- A replay stays where it is or ends with one of its entries. -/
theorem replays_cursor {entries : List Entry}
    (h : Replays valid history auth frontier source entries after) :
    after.cursor = source.cursor ∨ ∃ entry ∈ entries, after.cursor = some entry.logId := by
  induction h with
  | nil source => exact .inl rfl
  | @cons source middle after entry rest hIndex hData hApply hRest ih =>
      rcases ih with hSame | ⟨last, hLast, hCursor⟩
      · rw [ReplicationHistory.apply_cursor hApply] at hSame
        exact .inr ⟨entry, List.mem_cons_self, hSame⟩
      · exact .inr ⟨last, List.mem_cons_of_mem _ hLast, hCursor⟩

theorem admissionAt_add (first count : Nat) :
    ((log.drop first).take count).foldl AdmissionView.step (admissionAt config log first) =
      admissionAt config log (first + count) := by
  rw [admissionAt_eq_foldl, admissionAt_eq_foldl, ← List.foldl_append, ← List.take_add]

/-- A replay over a sound log does not meet a preparation that it refuses. -/
theorem Sound.not_blocked (hValid : ∀ membership, Avoids blocked (valid membership))
    (h : Sound config log) {storage : KafStorageState} {applied : Nat} {roster : Membership}
    (hView : storage.admissionView = admissionAt config log applied)
    (hTracks : source.Tracks auth.session.context.genesis roster storage.admissionView)
    (hApplied : indexAfter source.cursor = applied) {entries : List Entry}
    (hReplays : Replays valid history auth frontier source entries after)
    (hLog : ∀ entry ∈ entries, log[entry.logId.index]? = some entry) {entry : Entry}
    (hEntry : log[entry.logId.index]? = some entry)
    (hIndex : entry.logId.index = indexAfter after.cursor) :
    history.apply valid auth frontier after entry ≠ .error blocked := by
  intro hBlocked
  obtain ⟨plan, pending, hPlan, hPending, hOther⟩ := apply_blocked hValid hBlocked
  obtain ⟨hSlice, hNext⟩ := replays_stretch hReplays hLog
  rw [hApplied] at hSlice hNext
  have hAt : ∀ count, (((log.drop applied).take count).foldl KafStorageState.step
      storage).admissionView = admissionAt config log (applied + count) := by
    intro count
    rw [KafStorageState.admissionView_foldl, hView, admissionAt_add]
  have hReady : ∀ before other rest plan, entries = before ++ other :: rest →
      other.payload = .normal (.admissionMembership (.prepareJoin plan)) →
      (before.foldl KafStorageState.step storage).admissionView.Ready
        auth.session.context.genesis := by
    intro before other rest prepared hSplit hPayload
    have hMember : other ∈ entries := by simp [hSplit]
    obtain ⟨-, hGenesis⟩ :=
      ReplicationHistory.data_command hPayload (hReplays.data_eq_ok other hMember)
    have hBefore : before = (log.drop applied).take before.length := by
      have hTake : entries.take before.length = before := by rw [hSplit, List.take_left]
      have hLe : before.length ≤ entries.length := by rw [hSplit]; simp
      rw [hSlice, List.take_take, Nat.min_eq_left hLe] at hTake
      exact hTake.symm
    have hFound : log[applied + before.length]? = some other := by
      have hHere : entries[before.length]? = some other := by simp [hSplit]
      rw [hSlice] at hHere
      rw [← List.getElem?_drop]
      exact (Stamped.getElem?_of_take hHere).2
    rw [hBefore, hAt, ← hGenesis]
    exact h.ready hFound (by rw [Entry.preparation, hPayload])
  obtain ⟨hAfter, -⟩ := hReplays.tracks storage hTracks rfl hReady
  rw [hSlice, hAt] at hAfter
  rw [hIndex, hNext] at hEntry
  refine hOther (h.serial _ entry plan hEntry hPlan pending ?_)
  exact hAfter.pending.symm.trans hPending

theorem replayLocal_next {first count : Nat}
    (hStored : ∀ (index : Nat) entry, history.entries[index]? = some entry →
      entry.logId.index = index) (hFirst : indexAfter source.cursor = first)
    (h : (List.range' first count).foldlM (history.replayLocal valid auth frontier) source =
      .ok after) : indexAfter after.cursor = first + count := by
  induction count generalizing first source with
  | zero =>
      obtain rfl := Except.ok.inj h
      exact hFirst
  | succ count ih =>
      rw [List.range'_succ, List.foldlM_cons, Checks.bind_eq_ok] at h
      obtain ⟨middle, hMiddle, hRest⟩ := h
      simp only [ReplicationHistory.replayLocal, Checks.bind_eq_ok, okOr_eq_ok] at hMiddle
      obtain ⟨entry, hEntry, _, -, hApply⟩ := hMiddle
      have hNext : indexAfter middle.cursor = first + 1 := by
        rw [ReplicationHistory.apply_cursor hApply, indexAfter, Option.elim_some,
          hStored first entry hEntry]
      rw [ih hNext hRest]
      omega

theorem Sound.indexAfter_admissionAt (h : Sound config log) {position : Nat}
    (hLe : position ≤ log.length) :
    indexAfter (admissionAt config log position).lastAppliedLog = position := by
  cases position with
  | zero => rfl
  | succ position =>
      have hEntry := List.getElem?_eq_getElem (show position < log.length from hLe)
      rw [admissionAt_succ hEntry, AdmissionView.lastAppliedLog_step, indexAfter, Option.elim_some,
        h.indexed hEntry]

/-- A pending join was prepared on a formed cluster. -/
theorem Sound.pending_ready (h : Sound config log) {position : Nat} (hLe : position ≤ log.length)
    (hSome : (admissionAt config log position).preparedJoin ≠ none) :
    ∃ genesis, (admissionAt config log position).Ready genesis := by
  induction position with
  | zero => exact absurd rfl hSome
  | succ position ih =>
      obtain ⟨entry, hEntry⟩ : ∃ entry, log[position]? = some entry :=
        ⟨_, List.getElem?_eq_getElem hLe⟩
      have hReady : ∃ genesis, (admissionAt config log position).Ready genesis := by
        by_cases hBefore : (admissionAt config log position).preparedJoin = none
        · cases hPlan : entry.preparation with
          | none =>
              rw [admissionAt_succ hEntry] at hSome
              exact absurd (preparedJoin_step_none hBefore hPlan) hSome
          | some plan => exact ⟨_, h.ready hEntry hPlan⟩
        · exact ih (Nat.le_of_succ_le hLe) hBefore
      obtain ⟨genesis, hGenesis⟩ := hReady
      rw [admissionAt_succ hEntry]
      exact ⟨genesis, hGenesis.step fun membership => h.voters hEntry⟩

end Replay

/-! ### Requests of a leader -/

/-- The storage of a node: the state that it has applied, and entries of its log. -/
def Stores (config : StoreConfig) (replica : Replica) (storage : KafStorageState) : Prop :=
  (∃ node, storage = (replica.state config).withLocal node) ∧
    ∀ (index : Nat) entry, storage.log[index]? = some entry → replica.log[index]? = some entry

/-- The request carries a stretch of the log. -/
def Carries (request : AppendEntriesRequest) (log : List Entry) : Prop :=
  ∃ first count, first ≤ log.length ∧ request.entries = (log.drop first).take count ∧
    request.prevLogId = if first = 0 then none else log[first - 1]?.map Entry.logId

section Requests

variable {Node : Type} {config : StoreConfig} {cluster : Cluster Node} {node : Node}
  {valid : MembershipCheck} {cfg : Config} {storage : KafStorageState}
  {auth : RaftAuthorization} {start : SourceState}

theorem Stores.view {replica : Replica} (h : Stores config replica storage) :
    storage.admissionView = admissionAt config replica.log replica.applied := by
  obtain ⟨⟨_, rfl⟩, -⟩ := h
  rfl

/-- The validator starts from the applied state. -/
theorem Ordered.exists_tracks (h : Ordered config cluster)
    (hStores : Stores config (cluster.replica node) storage)
    (hAuth : RaftAuthorization.Captured valid cfg storage auth)
    (hStart : (ReplicationHistory.fromState cfg storage).startState valid auth = .ok start) :
    ∃ roster, start.Tracks auth.session.context.genesis roster storage.admissionView := by
  have hSound := h.sound (cluster.visible_replica node)
  have hLe := (h.steady node).applied_le_length
  have hView := hStores.view
  refine ⟨auth.committedMembership.membership, ReplicationHistory.startState_tracks _ hAuth
    (fun hEmpty => (hAuth.roster hEmpty).2) ?_ ?_ hStart⟩
  · intro hNone
    have hZero := hSound.indexAfter_admissionAt hLe
    rw [← hView] at hZero
    have hApplied : (cluster.replica node).applied = 0 := by
      rw [← hZero]
      exact congrArg indexAfter hNone
    rw [hApplied] at hView
    exact ⟨congrArg (fun view => view.lastMembership.membership.voterIds) hView,
      congrArg AdmissionView.preparedJoin hView⟩
  · intro hSome
    rw [hView]
    have hPending : (admissionAt config (cluster.replica node).log
        (cluster.replica node).applied).preparedJoin ≠ none := by
      rw [← hView]
      exact hSome
    obtain ⟨genesis, hReady⟩ := hSound.pending_ready hLe hPending
    have hGenesis : storage.genesis = some genesis := by
      have hKnown := hReady.genesis
      rw [← hView] at hKnown
      exact hKnown
    rw [← hAuth.genesis genesis hGenesis]
    exact hReady

/-- The entries that the validator takes from the storage. -/
theorem Ordered.stored (h : Ordered config cluster)
    (hStores : Stores config (cluster.replica node) storage) {index : Nat} {entry : Entry}
    (hEntry : storage.log[index]? = some entry) :
    (cluster.replica node).log[index]? = some entry ∧ entry.logId.index = index := by
  have hLog := hStores.2 index entry hEntry
  exact ⟨hLog, (h.sound (cluster.visible_replica node)).indexed hLog⟩

theorem Ordered.unappliedUpTo (h : Ordered config cluster)
    (hStores : Stores config (cluster.replica node) storage) {position : Option LogId}
    {entry : Entry} (hEntry : entry ∈ storage.unappliedUpTo position) :
    (cluster.replica node).log[entry.logId.index]? = some entry ∧
      ∃ last ∈ position, entry.logId.index ≤ last.index := by
  cases position with
  | none => cases hEntry
  | some last =>
      obtain ⟨index, hIndex, hStored⟩ := List.mem_filterMap.mp hEntry
      obtain ⟨hLog, hKey⟩ := h.stored hStores hStored
      rw [List.mem_range'_1] at hIndex
      rw [hKey]
      exact ⟨hLog, last, rfl, by omega⟩

theorem Ordered.indexAfter_start (h : Ordered config cluster)
    (hStores : Stores config (cluster.replica node) storage)
    (hCursor : start.cursor = storage.lastAppliedLog) :
    indexAfter start.cursor = (cluster.replica node).applied := by
  have hView : storage.lastAppliedLog = (admissionAt config (cluster.replica node).log
      (cluster.replica node).applied).lastAppliedLog :=
    congrArg AdmissionView.lastAppliedLog hStores.view
  rw [hCursor, hView]
  exact (h.sound (cluster.visible_replica node)).indexAfter_admissionAt
    (h.steady node).applied_le_length

/-- The replay of the local entries is not refused. -/
theorem Ordered.catchUp_avoids (h : Ordered config cluster)
    (hValid : ∀ membership, Avoids blocked (valid membership)) {frontier : Option LogId}
    (hStores : Stores config (cluster.replica node) storage) {roster : Membership}
    (hTracks : start.Tracks auth.session.context.genesis roster storage.admissionView)
    (position : Option LogId) :
    Avoids blocked ((ReplicationHistory.fromState cfg storage).catchUp valid auth frontier start
      position) := by
  have hSound := h.sound (cluster.visible_replica node)
  have hStored : ∀ (index : Nat) entry,
      (ReplicationHistory.fromState cfg storage).entries[index]? = some entry →
        storage.log[index]? = some entry ∧ entry.logId.index = index := fun index entry hEntry =>
    have hLog := ReplicationHistory.entries_fromState hEntry
    ⟨hLog, (h.stored hStores hLog).2⟩
  intro hError
  cases position with
  | none => cases hError
  | some previous =>
      rw [ReplicationHistory.catchUp] at hError
      split at hError
      · rw [Checks.bind_eq_error] at hError
        rcases hError with hError | ⟨_, -, hError⟩
        · obtain ⟨before, index, rest, middle, hRange, hBefore, hIndex⟩ :=
            Checks.foldlM_eq_error hError
          obtain ⟨count, -, rfl, hTail⟩ := List.range'_eq_append_iff.mp hRange
          obtain ⟨hFirst, -, -⟩ := List.range'_eq_cons_iff.mp hTail.symm
          obtain ⟨entry, hEntry, hApply⟩ := replayLocal_blocked hValid hIndex
          obtain ⟨hLog, hKey⟩ := hStored index entry hEntry
          have hNext := replayLocal_next (fun index entry hFound => (hStored index entry hFound).2)
            rfl hBefore
          have hReplays := ReplicationHistory.replayLocal_replays hStored _ rfl hBefore
          refine hSound.not_blocked hValid hStores.view hTracks
            (h.indexAfter_start hStores hTracks.cursor) hReplays ?_ ?_ ?_ hApply
          · intro other hOther
            obtain ⟨place, -, hFound⟩ := List.mem_filterMap.mp hOther
            obtain ⟨hOtherLog, hOtherKey⟩ := h.stored hStores hFound
            rw [hOtherKey]
            exact hOtherLog
          · rw [hKey]
            exact (h.stored hStores hLog).1
          · rw [hKey, hNext, ← hFirst, Nat.mul_one]
            rfl
        · exact absurd hError (avoids_guard (by decide) <| Avoids.ok _ _)
      · exact absurd hError (avoids_guard (by decide) <| Avoids.ok _ _)

/-- Entries of a request stand in the log that it is taken from. -/
theorem Carries.mem {log : List Entry} (hSound : Sound config log) {request : AppendEntriesRequest}
    (h : Carries request log) {entry : Entry} (hEntry : entry ∈ request.entries) :
    log[entry.logId.index]? = some entry := by
  obtain ⟨first, count, -, hEntries, -⟩ := h
  rw [hEntries] at hEntry
  obtain ⟨place, hPlace⟩ := List.getElem?_of_mem (List.mem_of_mem_take hEntry)
  rw [List.getElem?_drop] at hPlace
  rw [hSound.indexed hPlace]
  exact hPlace

/-- A node and a log with one entry in common share their past. -/
theorem Ordered.shared_past (h : Ordered config cluster) {log : List Entry}
    (hVisible : cluster.Visible log) {position : Nat} {one other : Entry}
    (hOne : (cluster.replica node).log[position]? = some one) (hOther : log[position]? = some other)
    (hSame : one.logId = other.logId) :
    (cluster.replica node).log.take (position + 1) = log.take (position + 1) :=
  h.agree (cluster.visible_replica node) hVisible position one other hOne hOther
    (congrArg LogId.leaderId hSame)

theorem Carries.indexAfter_prevLogId {log : List Entry} (hSound : Sound config log)
    {request : AppendEntriesRequest} {first : Nat} (hLe : first ≤ log.length)
    (h : request.prevLogId = if first = 0 then none else log[first - 1]?.map Entry.logId) :
    indexAfter request.prevLogId = first := by
  cases first with
  | zero => rw [h, if_pos rfl, indexAfter, Option.elim_none]
  | succ first =>
      have hEntry := List.getElem?_eq_getElem (show first < log.length from hLe)
      rw [h, if_neg (Nat.succ_ne_zero first), Nat.add_sub_cancel, hEntry, Option.map_some, indexAfter,
        Option.elim_some, hSound.indexed hEntry]

/-- The position that a request builds on stands in the log that it is taken from. -/
theorem Carries.previous {log : List Entry} (hSound : Sound config log)
    {request : AppendEntriesRequest} (h : Carries request log) {previous : LogId}
    (hPrevious : request.prevLogId = some previous) :
    ∃ entry, log[previous.index]? = some entry ∧ entry.logId = previous := by
  obtain ⟨first, count, -, -, hPrev⟩ := h
  rw [hPrevious] at hPrev
  split at hPrev
  · cases hPrev
  · obtain ⟨entry, hEntry, rfl⟩ := Option.map_eq_some_iff.mp hPrev.symm
    exact ⟨entry, by rw [hSound.indexed hEntry]; exact hEntry, rfl⟩

/-- A request has every entry between the position it builds on and any entry of it. -/
theorem Carries.exists_before {log : List Entry} (hSound : Sound config log)
    {request : AppendEntriesRequest} (h : Carries request log) {before rest : List Entry}
    {entry : Entry} (hSplit : request.entries = before ++ entry :: rest) {position : Nat}
    (hFirst : indexAfter request.prevLogId ≤ position) (hLt : position < entry.logId.index) :
    ∃ other ∈ before, log[position]? = some other := by
  obtain ⟨first, count, hLe, hEntries, hPrev⟩ := h
  rw [Carries.indexAfter_prevLogId hSound hLe hPrev] at hFirst
  have hPlace : ∀ place other, (before ++ entry :: rest)[place]? = some other →
      log[first + place]? = some other := by
    intro place other hFound
    rw [← hSplit, hEntries] at hFound
    rw [← List.getElem?_drop]
    exact (Stamped.getElem?_of_take hFound).2
  have hIndex : entry.logId.index = first + before.length :=
    hSound.indexed (hPlace before.length entry (by simp))
  have hShort : position - first < before.length := by omega
  have hFound := hPlace (position - first) _
    (List.getElem?_append_left hShort |>.trans (List.getElem?_eq_getElem hShort))
  rw [Nat.add_sub_of_le hFirst] at hFound
  exact ⟨_, List.getElem_mem hShort, hFound⟩

/-- A replayed entry at the applied position is the applied one. -/
theorem replayEntry_known {history : ReplicationHistory} {frontier : Option LogId}
    {source after : SourceState} {entry : Entry} {last : LogId} (hLast : auth.lastApplied = some last)
    (hIndex : entry.logId.index = last.index)
    (h : history.replayEntry valid auth frontier source entry = .ok after) : last = entry.logId := by
  have hKnown : (auth.lastApplied.any fun applied => entry.logId.index ≤ applied.index) = true := by
    simp [hLast, hIndex]
  rw [ReplicationHistory.replayEntry, if_pos hKnown, Checks.bind_eq_ok] at h
  obtain ⟨_, hSame, -⟩ := h
  have hAll := ensure_eq_ok.mp hSame
  rw [hLast, Option.all_some, decide_eq_true_eq] at hAll
  exact hAll hIndex

/-- The entry of the node at its applied position. -/
theorem Ordered.lastApplied (h : Ordered config cluster)
    (hStores : Stores config (cluster.replica node) storage) {last : LogId}
    (hLast : storage.lastAppliedLog = some last) :
    last.index + 1 = (cluster.replica node).applied ∧
      ∃ entry, (cluster.replica node).log[last.index]? = some entry ∧ entry.logId = last := by
  have hSound := h.sound (cluster.visible_replica node)
  have hLe := (h.steady node).applied_le_length
  have hView : (admissionAt config (cluster.replica node).log
      (cluster.replica node).applied).lastAppliedLog = some last := by
    rw [← hStores.view]
    exact hLast
  cases hApplied : (cluster.replica node).applied with
  | zero =>
      rw [hApplied] at hView
      cases hView
  | succ position =>
      rw [hApplied] at hView hLe
      have hEntry := List.getElem?_eq_getElem (show position < (cluster.replica node).log.length from hLe)
      rw [admissionAt_succ hEntry, AdmissionView.lastAppliedLog_step] at hView
      obtain rfl := Option.some.inj hView
      have hIndex := hSound.indexed hEntry
      rw [hIndex]
      exact ⟨rfl, _, hEntry, rfl⟩

section Past

variable {log : List Entry} {request : AppendEntriesRequest} {frontier : Option LogId}
  {middle source : SourceState} {before rest : List Entry} {entry : Entry}

variable (h : Ordered config cluster) (hStores : Stores config (cluster.replica node) storage)
  (hCursor : start.cursor = storage.lastAppliedLog) (hVisible : cluster.Visible log)
  (hCarries : Carries request log)
  (hMiddle : (ReplicationHistory.fromState cfg storage).catchUp valid auth frontier start
    request.prevLogId = .ok middle)

include h hStores hCursor hVisible hCarries hMiddle

/-- The node shares with the log the local entries that it replays for a request. -/
theorem Ordered.local_past {previous : LogId} (hPrevious : request.prevLogId = some previous)
    (hBelow : (start.cursor.all fun log => log.index < previous.index) = true) :
    (cluster.replica node).log.take (previous.index + 1) = log.take (previous.index + 1) := by
  have hKeyed : storage.LogKeyed := fun index found hFound => (h.stored hStores hFound).2
  have hReplays := ReplicationHistory.catchUp_replays hKeyed hCursor hMiddle
  have hEnd : middle.cursor = some previous := by
    rw [hPrevious, ReplicationHistory.catchUp, if_pos hBelow, Checks.bind_eq_ok] at hMiddle
    obtain ⟨_, -, hMiddle⟩ := hMiddle
    rw [Checks.bind_eq_ok] at hMiddle
    obtain ⟨_, hEnsure, hOk⟩ := hMiddle
    obtain rfl := Except.ok.inj hOk
    exact of_decide_eq_true (ensure_eq_ok.mp hEnsure)
  obtain ⟨carried, hCarried, hSame⟩ := hCarries.previous (h.sound hVisible) hPrevious
  rcases replays_cursor hReplays with hStill | ⟨own, hOwn, hLast⟩
  · rw [hEnd] at hStill
    rw [← hStill, Option.all_some, decide_eq_true_eq] at hBelow
    exact absurd hBelow (Nat.lt_irrefl _)
  · have hOwnId : previous = own.logId := Option.some.inj (hEnd.symm.trans hLast)
    have hFound := (h.unappliedUpTo hStores hOwn).1
    rw [← hOwnId] at hFound
    exact h.shared_past hVisible hFound hCarried (hOwnId.symm.trans hSame.symm)

variable (hAuth : RaftAuthorization.Captured valid cfg storage auth)
  (hSplit : request.entries = before ++ entry :: rest)
  (hBefore : before.foldlM
    ((ReplicationHistory.fromState cfg storage).replayEntry valid auth frontier) middle = .ok source)
  (hNew : (auth.lastApplied.any fun applied => entry.logId.index ≤ applied.index) = false)

include hAuth hSplit hBefore hNew

/-- The node shares with the log what it has applied: the request builds on the applied
position, or it carries the entry there. -/
theorem Ordered.applied_past (hAhead : ∀ previous, request.prevLogId = some previous →
    (start.cursor.all fun log => log.index < previous.index) = false) :
    (cluster.replica node).log.take (cluster.replica node).applied =
      log.take (cluster.replica node).applied := by
  have hSound := h.sound hVisible
  cases hLast : storage.lastAppliedLog with
  | none =>
      rw [← h.indexAfter_start hStores hCursor, hCursor, hLast]
      rfl
  | some last =>
      obtain ⟨hNext, own, hOwn, rfl⟩ := h.lastApplied hStores hLast
      have hKnown : auth.lastApplied = some own.logId := hAuth.lastApplied.trans hLast
      rw [← hNext]
      suffices hSame : ∃ carried, log[own.logId.index]? = some carried ∧
          own.logId = carried.logId by
        obtain ⟨carried, hCarried, hSame⟩ := hSame
        exact h.shared_past hVisible hOwn hCarried hSame
      by_cases hExact : ∃ previous, request.prevLogId = some previous ∧
          previous.index = own.logId.index
      · obtain ⟨previous, hPrevious, hIndex⟩ := hExact
        obtain ⟨carried, hCarried, hSame⟩ := hCarries.previous hSound hPrevious
        rw [hPrevious, ReplicationHistory.catchUp, hAhead previous hPrevious, if_neg Bool.false_ne_true,
          Checks.bind_eq_ok] at hMiddle
        obtain ⟨_, hEnsure, -⟩ := hMiddle
        have hAll := ensure_eq_ok.mp hEnsure
        rw [hCursor, hLast, Option.all_some, decide_eq_true_eq] at hAll
        exact ⟨carried, hIndex ▸ hCarried, (hAll hIndex).trans hSame.symm⟩
      · have hFirst : indexAfter request.prevLogId ≤ own.logId.index := by
          cases hPrevious : request.prevLogId with
          | none => exact Nat.zero_le _
          | some previous =>
              have hLe := hAhead previous hPrevious
              rw [hCursor, hLast, Option.all_some, decide_eq_false_iff_not] at hLe
              have hNe : previous.index ≠ own.logId.index :=
                fun hSame => hExact ⟨previous, hPrevious, hSame⟩
              rw [indexAfter, Option.elim_some]
              omega
        have hLt : own.logId.index < entry.logId.index := by
          rw [hKnown, Option.any_some, decide_eq_false_iff_not] at hNew
          omega
        obtain ⟨carried, hMember, hCarried⟩ := hCarries.exists_before hSound hSplit hFirst hLt
        have hVisited : ∀ item ∈ before, ∃ earlier later,
            (ReplicationHistory.fromState cfg storage).replayEntry valid auth frontier earlier item =
              .ok later ∧ True ∧ True :=
          (Checks.foldlM_visits (fun _ => trivial) (fun _ _ => trivial) (fun _ _ => trivial) hBefore).2
        obtain ⟨_, _, hReplay, -⟩ := hVisited carried hMember
        exact ⟨carried, hCarried, replayEntry_known hKnown (hSound.indexed hCarried) hReplay⟩

/-- What the replay of a request has gone over before it refuses an entry of it: the node
shares with the log what it has applied and what it has replayed from its own log. -/
theorem Ordered.replayed_past :
    ∃ length, (cluster.replica node).applied ≤ length ∧
      (cluster.replica node).log.take length = log.take length ∧
      ∀ other ∈ storage.unappliedUpTo request.prevLogId, other.logId.index < length := by
  have hApplied := h.indexAfter_start hStores hCursor
  by_cases hBehind : ∃ previous, request.prevLogId = some previous ∧
      (start.cursor.all fun log => log.index < previous.index) = true
  · obtain ⟨previous, hPrevious, hBelow⟩ := hBehind
    refine ⟨previous.index + 1, ?_,
      h.local_past hStores hCursor hVisible hCarries hMiddle hPrevious hBelow, ?_⟩
    · rw [← hApplied]
      cases hStart : start.cursor with
      | none => exact Nat.zero_le _
      | some last =>
          rw [hStart, Option.all_some, decide_eq_true_eq] at hBelow
          exact Nat.le_succ_of_le hBelow
    · intro other hOther
      obtain ⟨-, last, hPosition, hUpTo⟩ := h.unappliedUpTo hStores hOther
      rw [hPrevious] at hPosition
      obtain rfl := Option.some.inj hPosition
      exact Nat.lt_succ_of_le hUpTo
  · have hAhead : ∀ previous, request.prevLogId = some previous →
        (start.cursor.all fun log => log.index < previous.index) = false :=
      fun previous hPrevious => Bool.eq_false_iff.mpr fun hBelow =>
        hBehind ⟨previous, hPrevious, hBelow⟩
    refine ⟨_, Nat.le_refl _, h.applied_past hStores hCursor hVisible hCarries hMiddle hAuth hSplit
      hBefore hNew hAhead, ?_⟩
    intro other hOther
    obtain ⟨-, last, hPosition, hUpTo⟩ := h.unappliedUpTo hStores hOther
    have hNot := hAhead last hPosition
    rw [← hApplied]
    cases hStart : start.cursor with
    | none =>
        rw [hStart] at hNot
        cases hNot
    | some applied =>
        rw [hStart, Option.all_some, decide_eq_false_iff_not] at hNot
        rw [indexAfter, Option.elim_some]
        omega

end Past

/-- No request of a leader is refused for another pending join. -/
theorem Ordered.validate_avoids (h : Ordered config cluster)
    (hValid : ∀ membership, Avoids blocked (valid membership))
    (hStores : Stores config (cluster.replica node) storage)
    (hAuth : RaftAuthorization.Captured valid cfg storage auth)
    {log : List Entry} (hVisible : cluster.Visible log) {request : AppendEntriesRequest}
    (hCarries : Carries request log) :
    Avoids blocked ((ReplicationHistory.fromState cfg storage).validate valid auth request) := by
  have hSound := h.sound hVisible
  refine Avoids.bind ?_ fun _ _ => Avoids.ok _ _
  rw [ReplicationHistory.replay]
  refine (checkEntries_avoids hValid _ _).bind fun _ hData =>
    (startState_avoids hValid).bind fun start hStart => ?_
  obtain ⟨roster, hTracks⟩ := h.exists_tracks hStores hAuth hStart
  refine (h.catchUp_avoids hValid hStores hTracks request.prevLogId).bind fun middle hMiddle => ?_
  intro hError
  obtain ⟨before, entry, rest, source, hSplit, hBefore, hEntry⟩ := Checks.foldlM_eq_error hError
  obtain ⟨hNew, hIndex, hApply⟩ := replayEntry_blocked hEntry
  have hCursor : start.cursor = storage.lastAppliedLog := hTracks.cursor
  obtain ⟨length, hLe, hPast, hLocal⟩ := h.replayed_past hStores hCursor hVisible hCarries
    hMiddle hAuth hSplit hBefore hNew
  have hKeyed : storage.LogKeyed := fun index found hFound => (h.stored hStores hFound).2
  have hMember : ∀ other ∈ before, other ∈ request.entries := by
    intro other hOther
    rw [hSplit]
    exact List.mem_append_left _ hOther
  have hReplays := (ReplicationHistory.catchUp_replays hKeyed hCursor hMiddle).append
    (ReplicationHistory.replayEntry_replays hAuth.lastApplied
      (fun other hOther => ReplicationHistory.checkEntries_data hData other (hMember other hOther))
      hBefore)
  have hApplied : storage.admissionView = admissionAt config log (cluster.replica node).applied := by
    have hTake := congrArg (List.take (cluster.replica node).applied) hPast
    rw [List.take_take, List.take_take, Nat.min_eq_left hLe] at hTake
    rw [hStores.view, admissionAt_congr hTake]
  refine hSound.not_blocked hValid hApplied hTracks (h.indexAfter_start hStores hCursor) hReplays ?_
    (hCarries.mem hSound (by rw [hSplit]; simp)) hIndex hApply
  intro other hOther
  rcases List.mem_append.mp hOther with hOwn | hCarried
  · have hFound := (h.unappliedUpTo hStores hOwn).1
    have hLt := hLocal other hOwn
    rw [← List.getElem?_take_of_lt hLt, hPast, List.getElem?_take_of_lt hLt] at hFound
    exact hFound
  · exact hCarries.mem hSound (hMember other (List.mem_of_mem_filter hCarried))

end Requests

/-- In a careful run no log has a preparation that meets another pending join, and no node
refuses the entries of a leader for one: neither its own on their way out nor those it receives.
The membership check is that of openraft, which has other reasons to refuse. -/
theorem leader_never_blocked {Node : Type} [DecidableEq Node] (config : StoreConfig)
    (events : List (ClusterEvent Node))
    (hCareful : ∀ i (h : i < events.length), Careful config (clusterAt config events i) events[i])
    (i : Nat) (hi : i ≤ events.length) :
    let cluster := clusterAt config events i
    (∀ node, JoinsSerial config (cluster.replica node).log) ∧
    ∀ (valid : MembershipCheck) (cfg : Config) (node : Node)
      (storage : KafStorageState) (check : Except AdmissionDenied Unit) (peer : ReplicaId)
      (verified : Option VerifiedJoinBootstrap) (auth : RaftAuthorization) (log : List Entry)
      (request : AppendEntriesRequest),
      (∀ membership, valid membership ≠ .error blocked) →
      Stores config (cluster.replica node) storage →
      RaftAuthorization.fromState valid cfg storage check peer verified = .ok auth →
      (log = (cluster.replica node).log ∨ log ∈ cluster.sent) → Carries request log →
      (ReplicationHistory.fromState cfg storage).validate valid auth request ≠ .error blocked := by
  have hOrdered := ordered_clusterAt hCareful hi
  refine ⟨fun node => (hOrdered.sound (Cluster.visible_replica _ node)).serial, ?_⟩
  intro valid cfg node storage check peer verified auth log request hValid hStores hAuth hLog hCarries
  have hVisible : (clusterAt config events i).Visible log := by
    rcases hLog with rfl | hSent
    · exact Cluster.visible_replica _ node
    · exact .inl hSent
  exact hOrdered.validate_avoids hValid hStores (RaftAuthorization.fromState_captured hAuth) hVisible
    hCarries

/-! ### The cluster of three with calls from two boots of its third member -/

/-- The first member leads, and the second has the roster and the genesis. -/
def formedRun : List (ClusterEvent (Fin 3)) :=
  [.elect 0 ⟨1, ⟨1, 0⟩⟩, .propose 0 (.membership (rejoinMembership [rejoinVoters] rejoinVoters)),
    .propose 0 (.normal (.admissionGenesis rejoinGenesis)), .send 0, .receive 1 rejoinFormation 2,
    .commit 0 2, .apply 0, .apply 0]

/-- A call up to its submission. -/
def submitRun (peer : ReplicaId) (nonce : BitVec 256) : List (ClusterEvent (Fin 3)) :=
  .request 0 ⟨peer, rejoinGenesis, nonce⟩ :: List.replicate 4 (.manage 0 (some rejoinGenesis))

/-- The call of the first boot is dropped after its submission. -/
def droppedRun : List (ClusterEvent (Fin 3)) :=
  formedRun ++ submitRun ⟨3, 1⟩ 5 ++ [.cancel 0] ++ submitRun ⟨3, 2⟩ 6

/-- The call of the first boot is dropped after its preparation is applied. -/
def answeredRun : List (ClusterEvent (Fin 3)) :=
  formedRun ++ submitRun ⟨3, 1⟩ 5 ++ [.commit 0 3, .apply 0, .manage 0 none, .cancel 0] ++
    submitRun ⟨3, 2⟩ 6

/-- The leader at the end of a run. -/
def leaderAfter (run : List (ClusterEvent (Fin 3))) : Replica :=
  (clusterAt rejoinStore run run.length).replica 0

/-- Its storage, with its whole log. -/
def leaderStorage (run : List (ClusterEvent (Fin 3))) : KafStorageState :=
  ((leaderAfter run).state rejoinStore).withLocal
    { rejoinNode with log := (leaderAfter run).log.foldl (fun log entry =>
        log.insert entry.logId.index entry) ∅ }

/-- Its authorization of the second member. -/
def leaderAuth (run : List (ClusterEvent (Fin 3))) : Except AdmissionDenied RaftAuthorization :=
  RaftAuthorization.fromState documentedCheck rejoinConfig (leaderStorage run) (.ok ()) ⟨2, 0⟩ none

/-- Its validator on the way out. -/
def leaderValidate (run : List (ClusterEvent (Fin 3))) (auth : RaftAuthorization)
    (request : AppendEntriesRequest) : Except AdmissionDenied Unit :=
  (ReplicationHistory.fromState rejoinConfig (leaderStorage run)).validate documentedCheck auth request

/-- Its entries after the genesis. -/
def leaderRequest (run : List (ClusterEvent (Fin 3))) : AppendEntriesRequest :=
  { rejoinRequest with entries := (leaderAfter run).log.drop 2 }

theorem stores_leaderStorage {run : List (ClusterEvent (Fin 3))}
    (h : ∀ entry ∈ (leaderAfter run).log, (leaderAfter run).log[entry.logId.index]? = some entry) :
    Stores rejoinStore (leaderAfter run) (leaderStorage run) := by
  refine ⟨⟨_, rfl⟩, fun index entry hEntry => ?_⟩
  have hFound := (Maps.getElem?_foldl_insert (fun entry : Entry => entry.logId.index) id
    (leaderAfter run).log ∅ index).symm.trans hEntry
  rw [Std.ExtTreeMap.getElem?_empty, Option.or_none, Option.map_id, id] at hFound
  have hIndex := List.find?_some hFound
  rw [← of_decide_eq_true hIndex]
  exact h entry (List.mem_reverse.mp (List.mem_of_find?_eq_some hFound))

theorem carries_leaderRequest {run : List (ClusterEvent (Fin 3))}
    (hLength : 2 ≤ (leaderAfter run).log.length)
    (hPrevious : (leaderAfter run).log[1]?.map Entry.logId = some (rejoinLog 1)) :
    Carries (leaderRequest run) (leaderAfter run).log := by
  refine ⟨2, (leaderAfter run).log.length, hLength, ?_, hPrevious.symm⟩
  have hShort : ((leaderAfter run).log.drop 2).length ≤ (leaderAfter run).log.length := by
    rw [List.length_drop]
    omega
  rw [List.take_of_length_le hShort, leaderRequest]

/-- A leader refuses its own entries: the call of the first boot is dropped with its preparation in
the log, and the call of the second boot reads the applied state and prepares another join. -/
theorem leader_blocks_itself :
    (leaderAfter droppedRun).leader = some ⟨1, ⟨1, 0⟩⟩ ∧
      ¬ JoinsSerial rejoinStore (leaderAfter droppedRun).log ∧
      Stores rejoinStore (leaderAfter droppedRun) (leaderStorage droppedRun) ∧
      Carries (leaderRequest droppedRun) (leaderAfter droppedRun).log ∧
      ∃ auth, leaderAuth droppedRun = .ok auth ∧
        leaderValidate droppedRun auth (leaderRequest droppedRun) = .error blocked := by
  refine ⟨by decide +kernel, fun hSerial => ?_, stores_leaderStorage (by decide +kernel),
    carries_leaderRequest (by decide +kernel) (by decide +kernel), ?_⟩
  · have hFirst : (stateAfter rejoinStore (leaderAfter droppedRun).log 3).preparedJoin =
        some ⟨JoinRequest.plan ⟨⟨3, 1⟩, rejoinGenesis, 5⟩ rejoinVoters, rejoinLog 2, none⟩ := by
      decide +kernel
    have hSecond : (leaderAfter droppedRun).log[3]? = some ⟨rejoinLog 3, .normal
        (.admissionMembership (.prepareJoin
          (JoinRequest.plan ⟨⟨3, 2⟩, rejoinGenesis, 6⟩ rejoinVoters)))⟩ := by decide +kernel
    exact absurd (hSerial 3 _ _ hSecond rfl _ hFirst) (by decide +kernel)
  · obtain ⟨auth, hAuth⟩ := Checks.exists_of_toBool (show (leaderAuth droppedRun).toBool = true by
      decide +kernel)
    have hRefused : (leaderAuth droppedRun >>= fun auth =>
        leaderValidate droppedRun auth (leaderRequest droppedRun)) = .error blocked := by
      decide +kernel
    rw [hAuth] at hRefused
    exact ⟨auth, hAuth, hRefused⟩

theorem answeredRun_careful : ∀ i (h : i < answeredRun.length),
    Careful rejoinStore (clusterAt rejoinStore answeredRun i) answeredRun[i] := by
  decide +kernel

/-- The second call finds the join of the first and prepares none. -/
theorem leader_never_blocked_answered :
    JoinsSerial rejoinStore (leaderAfter answeredRun).log ∧
      (leaderAfter answeredRun).log.length = 3 ∧
      ∃ auth, leaderAuth answeredRun = .ok auth ∧
        leaderValidate answeredRun auth (leaderRequest answeredRun) ≠ .error blocked := by
  obtain ⟨hSerial, hValidate⟩ :=
    leader_never_blocked rejoinStore answeredRun answeredRun_careful _ le_rfl
  obtain ⟨auth, hAuth⟩ := Checks.exists_of_toBool (show (leaderAuth answeredRun).toBool = true by
    decide +kernel)
  refine ⟨hSerial 0, by decide +kernel, auth, hAuth, ?_⟩
  exact hValidate documentedCheck rejoinConfig 0 _ _ _ _ auth _ _ (fun _ => avoids_ensure (by decide) _)
    (stores_leaderStorage (by decide +kernel)) hAuth (.inl rfl)
    (carries_leaderRequest (by decide +kernel) (by decide +kernel))

end KeepAfloat.Management
