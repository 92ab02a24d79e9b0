import KeepAfloat.Network.Barriers
import KeepAfloat.Network.Frontier

/-! The log of a follower. It is built by accepted requests: each is stored, moves the
commit frontier, and lets committed entries be applied. What the validator accepted
against an earlier state and a larger frontier, it accepts again against the state that
is reached, so that the node can send its own log when it becomes the leader. -/

namespace KeepAfloat

/-! ### One request of a leader -/

/-- A log has an entry with this identity. -/
def Knows (log : Nat → Option Entry) (id : LogId) : Prop := (log id.index).map Entry.logId = some id

/-- The smaller of two positions; no position is below all others. Both are positions of
one log, in which identities are ordered as their indices. -/
def earlierLog : Option LogId → Option LogId → Option LogId
  | some first, some second => if second.index < first.index then some second else some first
  | _, _ => none

/-- The larger of two positions of one log. -/
def laterLog : Option LogId → Option LogId → Option LogId
  | some first, some second => if first.index < second.index then some second else some first
  | some first, none => some first
  | none, second => second

/-- What Raft promises about a request when the receiver's log has its previous
position: the request is a slice of the leader's log, whose indices are words, one identity
at one index means one prefix, and the leader has every entry that the receiver knows to be
committed. -/
structure FromLeader (leader : List Entry) (state : KafStorageState)
    (request : AppendEntriesRequest) : Prop where
  keyed : ∀ (i : Nat) (entry : Entry), leader[i]? = some entry → entry.logId.index = i
  words : leader.length ≤ 2 ^ 64
  slice : request.entries =
    (leader.drop (indexAfter request.prevLogId)).take request.entries.length
  previous : ∀ id ∈ request.prevLogId, Knows (leader[·]?) id ∧ Knows (state.log[·]?) id
  commit : ∀ id ∈ request.leaderCommit, Knows (leader[·]?) id
  matching : ∀ (i : Nat) (known sent : Entry), state.log[i]? = some known →
    leader[i]? = some sent → known.logId = sent.logId → ∀ j : Nat, j ≤ i → state.log[j]? = leader[j]?
  complete : ∀ id ∈ state.committed, ∀ i : Nat, i ≤ id.index → state.log[i]? = leader[i]?

/-- The last stored position that the follower takes for the leader's: the end of the
request, or a later one that the leader has too. -/
structure LastStored (leader : List Entry) (after : KafStorageState)
    (request : AppendEntriesRequest) (stored : Option LogId) : Prop where
  known : ∀ id ∈ stored, Knows (leader[·]?) id ∧ Knows (after.log[·]?) id
  reaches : ∀ i : Nat, i < indexAfter request.prevLogId + request.entries.length →
    ∃ id ∈ stored, i ≤ id.index

/-- Store the entries of a request and move the commit frontier. The vote is
openraft's. -/
def KafStorageState.receive (state : KafStorageState) (request : AppendEntriesRequest)
    (stored : Option LogId) (vote : Option Vote) : KafStorageState :=
  { state.storeEntries request.entries with
    vote := vote
    committed := laterLog state.committed (earlierLog request.leaderCommit stored) }

/-- What a follower does: it stores an accepted request of some leader, or it applies
the next entry when that is committed. -/
inductive FollowerStep (valid : MembershipCheck) (cfg : Config)
    (Permits : KafStorageState → Entry → Prop) : KafStorageState → KafStorageState → Prop where
  | receive {state : KafStorageState} {check : Except AdmissionDenied Unit} {peer : ReplicaId}
      {verified : Option VerifiedJoinBootstrap} {auth : RaftAuthorization}
      {request : AppendEntriesRequest} {leader : List Entry} {stored : Option LogId}
      {vote : Option Vote}
      (hAuth : RaftAuthorization.fromState valid cfg state check peer verified = .ok auth)
      (hAccepted : (ReplicationHistory.fromState cfg state).validate valid auth request = .ok ())
      (hLeader : FromLeader leader state request)
      (hStored : LastStored leader (state.storeEntries request.entries) request stored) :
      FollowerStep valid cfg Permits state (state.receive request stored vote)
  | applyNext {state : KafStorageState} {entry : Entry} {committed : LogId}
      (hEntry : state.log[state.firstUnapplied]? = some entry)
      (hCommitted : state.committed = some committed)
      (hBelow : entry.logId.index ≤ committed.index) (hPermits : Permits state entry) :
      FollowerStep valid cfg Permits state (state.step entry)

/-- An entry that is no membership and no command of a join. -/
def Entry.Apart (entry : Entry) : Prop :=
  (∀ membership, entry.payload ≠ .membership membership) ∧
    ∀ command, entry.payload ≠ .normal (.admissionMembership command)

/-- A preparation is applied in a ready state, or nothing of a join is stored behind it. -/
def PreparesSafely (genesis : Genesis) (state : KafStorageState) (entry : Entry) : Prop :=
  PreparesReady genesis state entry ∨ ∀ (index : Nat) later, entry.logId.index < index →
    state.log[index]? = some later → later.Apart

/-- The states of a follower that starts with an empty log. -/
def FollowerRun (valid : MembershipCheck) (cfg : Config)
    (session : AdmissionSession) (config : StoreConfig)
    (Permits : KafStorageState → Entry → Prop) (state : KafStorageState) : Prop :=
  Relation.ReflTransGen (FollowerStep valid cfg Permits)
    { config.start with admission := some session } state

/-- The node's own unapplied log, as a request. -/
def KafStorageState.ownRequest (state : KafStorageState) (vote : Vote) : AppendEntriesRequest where
  vote := vote
  prevLogId := state.lastAppliedLog
  entries := state.unapplied (state.log.toList.map Prod.snd)
  leaderCommit := state.committed

/-! ### Slices of a log -/

namespace KafStorageState

variable {state : KafStorageState}

theorem firstUnapplied_le_iff {i : Nat} :
    state.firstUnapplied ≤ i ↔ ∀ log ∈ state.lastAppliedLog, log.index < i := by
  rw [firstUnapplied]
  cases state.lastAppliedLog with
  | none => simp
  | some log => simp

/-- Of consecutive entries those from the first unapplied index are left. -/
theorem unapplied_consecutive {entries : List Entry} {start : Nat}
    (hIndex : ∀ (i : Nat) (entry : Entry), entries[i]? = some entry → entry.logId.index = start + i) :
    state.unapplied entries = entries.drop (state.firstUnapplied - start) := by
  induction entries generalizing start with
  | nil => simp [unapplied]
  | cons entry rest ih =>
      have hFirst : entry.logId.index = start := hIndex 0 entry rfl
      have hRest : ∀ (i : Nat) (other : Entry), rest[i]? = some other →
          other.logId.index = start + 1 + i := fun i other hOther => by
        rw [hIndex (i + 1) other hOther]
        omega
      by_cases hNew : state.firstUnapplied ≤ start
      · rw [Nat.sub_eq_zero_of_le hNew, List.drop_zero]
        refine unapplied_eq_self fun other hOther => firstUnapplied_le_iff.mp ?_
        obtain ⟨i, hGet⟩ := List.mem_iff_getElem?.mp hOther
        rw [hIndex i other hGet]
        omega
      · have hKnown : (state.lastAppliedLog.all fun log => log.index < entry.logId.index) = false := by
          rw [← Bool.not_eq_true, Option.all_eq_true, hFirst]
          exact fun hAll => hNew (firstUnapplied_le_iff.mpr fun log hLog =>
            of_decide_eq_true (hAll log hLog))
        rw [unapplied, List.filter_cons, hKnown, if_neg Bool.false_ne_true]
        rw [← unapplied, ih hRest]
        obtain ⟨count, hCount⟩ := Nat.exists_eq_succ_of_ne_zero (n := state.firstUnapplied - start) (by omega)
        rw [hCount, List.drop_succ_cons]
        congr 1
        omega

end KafStorageState

/-- The entries found at consecutive indices are a slice. -/
theorem filterMap_range' (entries : List Entry) (first count : Nat) :
    (List.range' first count).filterMap (entries[·]?) = (entries.drop first).take count := by
  induction count generalizing first with
  | zero => simp
  | succ count ih =>
      rw [List.range'_succ, List.filterMap_cons, ih]
      by_cases hWithin : first < entries.length
      · rw [List.getElem?_eq_getElem hWithin, List.drop_eq_getElem_cons hWithin, List.take_succ_cons]
      · rw [List.getElem?_eq_none (by omega), List.drop_eq_nil_of_le (by omega),
          List.drop_eq_nil_of_le (by omega)]
        simp

namespace FromLeader

variable {leader entries : List Entry} {state : KafStorageState} {request : AppendEntriesRequest}

/-- Two logs with one identity at its index agree up to it. -/
theorem agrees_of_knows (h : FromLeader leader state request) {id : LogId}
    (hLeader : Knows (leader[·]?) id) (hLocal : Knows (state.log[·]?) id) :
    ∀ i : Nat, i ≤ id.index → state.log[i]? = leader[i]? := by
  obtain ⟨sent, hSent, hSentId⟩ := Option.map_eq_some_iff.mp hLeader
  obtain ⟨known, hKnown, hKnownId⟩ := Option.map_eq_some_iff.mp hLocal
  exact h.matching id.index known sent hKnown hSent (hKnownId.trans hSentId.symm)

/-- The local log agrees with the leader's before the request. -/
theorem agrees (h : FromLeader leader state request) :
    ∀ i : Nat, i < indexAfter request.prevLogId → state.log[i]? = leader[i]? := by
  intro i hi
  cases hPrevious : request.prevLogId with
  | none =>
      rw [hPrevious] at hi
      cases hi
  | some id =>
      obtain ⟨hLeader, hLocal⟩ := h.previous id hPrevious
      rw [hPrevious] at hi
      exact h.agrees_of_knows hLeader hLocal i (Nat.lt_succ_iff.mp hi)

theorem start_le (h : FromLeader leader state request) :
    indexAfter request.prevLogId ≤ leader.length := by
  cases hPrevious : request.prevLogId with
  | none => exact Nat.zero_le _
  | some id =>
      obtain ⟨sent, hSent, -⟩ := Option.map_eq_some_iff.mp (h.previous id hPrevious).1
      exact (List.getElem?_eq_some_iff.mp hSent).1

theorem end_le (h : FromLeader leader state request) :
    indexAfter request.prevLogId + request.entries.length ≤ leader.length := by
  have hLength := congrArg List.length h.slice
  have hStart := h.start_le
  rw [List.length_take, List.length_drop] at hLength
  omega

/-- A common range has one length in both logs. -/
theorem start_le_local (h : FromLeader leader state request) (hEntries : Represents state entries) :
    indexAfter request.prevLogId ≤ entries.length := by
  by_contra hShort
  have hAgrees := h.agrees entries.length (by omega)
  rw [hEntries.log, List.getElem?_eq_none le_rfl, eq_comm, List.getElem?_eq_none_iff] at hAgrees
  have hStart := h.start_le
  omega

theorem take_eq (h : FromLeader leader state request) (hEntries : Represents state entries) :
    entries.take (indexAfter request.prevLogId) = leader.take (indexAfter request.prevLogId) :=
  Splice.take_eq_take fun i hi => hEntries.log i ▸ h.agrees i hi

theorem index_sent (h : FromLeader leader state request) (i : Nat) (entry : Entry)
    (hEntry : request.entries[i]? = some entry) :
    entry.logId.index = indexAfter request.prevLogId + i := by
  have hWithin := (List.getElem?_eq_some_iff.mp hEntry).1
  rw [h.slice, List.getElem?_take_of_lt hWithin, List.getElem?_drop] at hEntry
  exact h.keyed _ entry hEntry

theorem index_word (h : FromLeader leader state request) (i : Nat) (entry : Entry)
    (hEntry : request.entries[i]? = some entry) : entry.logId.index ≤ Word64.maxWord := by
  have hWithin := (List.getElem?_eq_some_iff.mp hEntry).1
  have hEnd := h.end_le
  have hWords := h.words
  rw [h.index_sent i entry hEntry, Word64.maxWord]
  omega

/-- The validator replays the unapplied part of the leader's log up to the end of the
request. -/
theorem replayed (h : FromLeader leader state request) (hEntries : Represents state entries) :
    state.unappliedUpTo request.prevLogId ++ state.unapplied request.entries =
      (leader.take (indexAfter request.prevLogId + request.entries.length)).drop
        state.firstUnapplied := by
  have hLocal : state.unappliedUpTo request.prevLogId =
      (leader.take (indexAfter request.prevLogId)).drop state.firstUnapplied := by
    rw [← h.take_eq hEntries, List.drop_take, ← filterMap_range']
    cases request.prevLogId with
    | none => simp [KafStorageState.unappliedUpTo, indexAfter]
    | some previous =>
        refine List.filterMap_congr fun index _ => ?_
        exact hEntries.log index
  have hStart := h.start_le
  rw [hLocal, KafStorageState.unapplied_consecutive h.index_sent, List.take_add]
  rw [List.drop_append, List.length_take, Nat.min_eq_left hStart, ← h.slice]

end FromLeader

/-! ### Positions and the commit frontier -/

/-- The first position is the second one or lies below it. -/
def Below (first second : Option LogId) : Prop :=
  ∀ log ∈ first, ∃ later ∈ second, log.index < later.index ∨ log = later

theorem Below.trans {first second third : Option LogId} (hFirst : Below first second)
    (hSecond : Below second third) : Below first third := by
  intro log hLog
  obtain ⟨middle, hMiddle, hBelow⟩ := hFirst log hLog
  obtain ⟨later, hLater, hNext⟩ := hSecond middle hMiddle
  refine ⟨later, hLater, ?_⟩
  rcases hBelow with hBelow | rfl
  · rcases hNext with hNext | rfl
    · exact Or.inl (hBelow.trans hNext)
    · exact Or.inl hBelow
  · exact hNext

theorem Below.covers {first second : Option LogId} (h : Below first second) (bound : Nat) :
    Covers bound first second := by
  intro log _ hCommitted
  obtain ⟨known, hKnown, hLog⟩ := (Option.any_eq_true _ _).mp hCommitted
  obtain ⟨later, hLater, hBelow⟩ := h known hKnown
  refine (Option.any_eq_true _ _).mpr ⟨later, hLater, ?_⟩
  simp only [Bool.or_eq_true, decide_eq_true_iff] at hLog ⊢
  rcases hLog with hLt | rfl
  · left
    rcases hBelow with hBelow | rfl
    · exact hLt.trans hBelow
    · exact hLt
  · exact hBelow

/-- A frontier at or above an entry covers everything below that entry. -/
theorem covers_of_le {bound : Nat} {first second : Option LogId}
    (h : ∃ later ∈ second, bound ≤ later.index) : Covers bound first second := by
  intro log hLog _
  obtain ⟨later, hLater, hLe⟩ := h
  refine (Option.any_eq_true _ _).mpr ⟨later, hLater, ?_⟩
  simp only [Bool.or_eq_true, decide_eq_true_iff]
  exact Or.inl (hLog.trans_le hLe)

theorem below_laterLog_left (first second : Option LogId) : Below first (laterLog first second) := by
  intro log hLog
  obtain rfl := Option.mem_def.mp hLog
  cases second with
  | none => exact ⟨log, rfl, Or.inr rfl⟩
  | some other =>
      rw [laterLog]
      split
      · next hLt => exact ⟨other, rfl, Or.inl hLt⟩
      · exact ⟨log, rfl, Or.inr rfl⟩

theorem below_laterLog_right {first second : Option LogId}
    (hSame : ∀ log ∈ first, ∀ other ∈ second, log.index = other.index → log = other) :
    Below second (laterLog first second) := by
  intro other hOther
  obtain rfl := Option.mem_def.mp hOther
  cases first with
  | none => exact ⟨other, rfl, Or.inr rfl⟩
  | some log =>
      rw [laterLog]
      split
      · exact ⟨other, rfl, Or.inr rfl⟩
      · next hLe =>
          refine ⟨log, rfl, ?_⟩
          rcases Nat.lt_or_eq_of_le (Nat.le_of_not_lt hLe) with hLt | hEq
          · exact Or.inl hLt
          · exact Or.inr (hSame log rfl other rfl hEq.symm).symm

/-- The position after a step is one of those it was chosen from. -/
theorem mem_laterLog {first second : Option LogId} {log : LogId} (h : log ∈ laterLog first second) :
    log ∈ first ∨ log ∈ second := by
  unfold laterLog at h
  split at h
  · split at h
    · exact Or.inr h
    · exact Or.inl h
  · exact Or.inl h
  · exact Or.inr h

theorem mem_earlierLog {first second : Option LogId} {log : LogId}
    (h : log ∈ earlierLog first second) :
    (log ∈ second) ∨ (log ∈ first ∧ ∃ other ∈ second, log.index ≤ other.index) := by
  unfold earlierLog at h
  split at h
  · split at h
    · exact Or.inl h
    · next hLe =>
        obtain rfl := Option.some.inj h
        exact Or.inr ⟨rfl, _, rfl, Nat.le_of_not_lt hLe⟩
  · cases h

theorem Knows.unique {log : Nat → Option Entry} {first second : LogId} (hFirst : Knows log first)
    (hSecond : Knows log second) (hIndex : first.index = second.index) : first = second := by
  rw [Knows, hIndex] at hFirst
  exact Option.some.inj (hFirst.symm.trans hSecond)

theorem Knows.congr {log other : Nat → Option Entry} {id : LogId} (h : Knows log id)
    (hSame : other id.index = log id.index) : Knows other id := by
  rw [Knows, hSame]
  exact h

/-! ### What storing a request leaves -/

/-- A request either is known already, or what follows the common part is replaced by
the leader's log up to the end of the request, which lies above the frontier. -/
inductive StoredAs (leader entries : List Entry) (state : KafStorageState)
    (request : AppendEntriesRequest) : List Entry → Prop where
  | known : StoredAs leader entries state request entries
  | replaced (hAbove : ∀ id ∈ state.committed,
      id.index < indexAfter request.prevLogId + request.entries.length) :
      StoredAs leader entries state request
        (leader.take (indexAfter request.prevLogId + request.entries.length))

namespace FromLeader

variable {leader entries after : List Entry} {state : KafStorageState}
  {request : AppendEntriesRequest}

theorem logsMatch (h : FromLeader leader state request) (hEntries : Represents state entries) :
    Splice.Matches Entry.logId entries leader := by
  intro i known sent hKnown hSent hIdent j hj
  rw [← hEntries.log] at hKnown ⊢
  exact h.matching i known sent hKnown hSent hIdent j hj

theorem stored (h : FromLeader leader state request) (hEntries : Represents state entries) :
    ∃ after, Represents (state.storeEntries request.entries) after ∧
      StoredAs leader entries state request after := by
  refine ⟨_, hEntries.storeEntries (h.start_le_local hEntries)
    fun i entry hEntry => ⟨h.index_sent i entry hEntry, h.index_word i entry hEntry⟩, ?_⟩
  have hSplice := Splice.placeAll_slice (h.logsMatch hEntries) (h.start_le_local hEntries)
    (h.take_eq hEntries) h.end_le
  rw [← h.slice] at hSplice
  rcases hSplice with ⟨hSame, -⟩ | ⟨hCut, m, hm, hDiffers⟩
  · rw [hSame]
    exact .known
  · rw [hCut]
    refine .replaced fun id hId => ?_
    by_contra hPast
    exact hDiffers (hEntries.log m ▸ h.complete id hId m (by omega))

theorem logsMatch_after (h : FromLeader leader state request) (hEntries : Represents state entries)
    (hAfter : StoredAs leader entries state request after) :
    Splice.Matches Entry.logId after leader := by
  cases hAfter with
  | known => exact h.logsMatch hEntries
  | replaced hAbove => exact Splice.matches_take leader _

/-- Committed entries stay. -/
theorem kept (h : FromLeader leader state request) (hEntries : Represents state entries)
    (hAfter : StoredAs leader entries state request after) {id : LogId} (hId : id ∈ state.committed)
    {i : Nat} (hi : i ≤ id.index) : after[i]? = entries[i]? := by
  cases hAfter with
  | known => rfl
  | replaced hAbove =>
      have hEnd := hAbove id hId
      rw [List.getElem?_take_of_lt (by omega), ← h.complete id hId i hi, hEntries.log]

end FromLeader

/-- Entries apart from joins replay wherever a replay stands. -/
theorem Replays.apart {valid : MembershipCheck}
    {history : ReplicationHistory} {auth : RaftAuthorization} {frontier : Option LogId}
    {source other after : SourceState} {entries : List Entry}
    (h : Replays valid history auth frontier source entries after)
    (hApart : ∀ entry ∈ entries, entry.Apart) (hCursor : source.cursor = other.cursor) :
    ∃ final, Replays valid history auth frontier other entries final := by
  induction h generalizing other with
  | nil source => exact ⟨other, .nil other⟩
  | @cons source middle after entry rest hIndex hData hApply hRest ih =>
      obtain ⟨hMembership, hCommand⟩ := hApart entry List.mem_cons_self
      have hCursors : middle.cursor = { other with cursor := some entry.logId }.cursor :=
        ReplicationHistory.apply_cursor hApply
      obtain ⟨final, hFinal⟩ :=
        ih (fun later hLater => hApart later (List.mem_cons_of_mem _ hLater)) hCursors
      cases ReplicationHistory.apply_eq_ok.mp hApply with
      | membership hPayload => exact absurd hPayload (hMembership _)
      | command hPayload => exact absurd hPayload (hCommand _)
      | other _ _ hAccepted =>
          exact ⟨final, .cons (hCursor ▸ hIndex) hData
            (ReplicationHistory.apply_eq_ok.mpr (.other hMembership hCommand hAccepted)) hFinal⟩

/-! ### The invariant -/

/-- What the steps of a follower keep. The replay stands where the state machine
stands, and the unapplied log replays from there below the commit frontier. -/
structure Follows (valid : MembershipCheck) (cfg : Config)
    (session : AdmissionSession) (state : KafStorageState) (entries : List Entry)
    (source : SourceState) : Prop where
  represents : Represents state entries
  admission : state.admission = some session
  bounded : ∀ entry ∈ entries, entry.logId.index ≤ Word64.maxWord
  committed : ∀ id ∈ state.committed, Knows (entries[·]?) id
  applied : ∀ id ∈ state.lastAppliedLog, Knows (entries[·]?) id
  appliedBelow : ∀ id ∈ state.lastAppliedLog, ∃ committed ∈ state.committed, id.index ≤ committed.index
  tracks : source.Tracks session.context.genesis (rosterOf valid cfg session.context.genesis)
    state.admissionView
  fresh : state.lastAppliedLog = none → state.lastMembership.membership.voterIds = ∅
  sane : source.Sane
  replays : ∃ after, Replays valid (ReplicationHistory.fromState cfg state) (authorityOf cfg session)
    state.committed source (entries.drop state.firstUnapplied) after

variable {valid : MembershipCheck} {cfg : Config} {session : AdmissionSession}

theorem start_follows (config : StoreConfig) :
    Follows valid cfg session { config.start with admission := some session } []
      ⟨⟨none, rosterOf valid cfg session.context.genesis⟩, none, none⟩ where
  represents := ⟨fun i => by simp [StoreConfig.start, KafStorageState.new], fun i entry hEntry => by simp at hEntry, rfl⟩
  admission := rfl
  bounded := fun _ hEntry => by cases hEntry
  committed := fun _ hNone => by cases hNone
  applied := fun _ hNone => by cases hNone
  appliedBelow := fun _ hNone => by cases hNone
  tracks := SourceState.tracks_start _ _ config
  fresh := fun _ => rfl
  sane := ⟨fun _ hNone => (by cases hNone), fun _ hNone => (by cases hNone),
    fun _ hNone => (by cases hNone), fun _ hNone => by cases hNone⟩
  replays := ⟨_, .nil _⟩

namespace Follows

variable {state : KafStorageState} {entries : List Entry} {source : SourceState}

/-- Nothing is prepared before anything is applied. -/
theorem unprepared (h : Follows valid cfg session state entries source)
    (hNone : state.lastAppliedLog = none) : state.preparedJoin = none := by
  cases hPending : state.preparedJoin with
  | none => rfl
  | some pending =>
      obtain ⟨cursor, hCursor, -⟩ := h.sane.prepared pending (h.tracks.pending.trans hPending)
      have hApplied : state.lastAppliedLog = some cursor := h.tracks.cursor.symm.trans hCursor
      rw [hNone] at hApplied
      cases hApplied

/-- The validator starts where the invariant stands. -/
theorem startState (h : Follows valid cfg session state entries source) {auth : RaftAuthorization}
    (hAuth : RaftAuthorization.Captured valid cfg state auth) (hSession : auth.session = session) :
    (ReplicationHistory.fromState cfg state).startState valid auth = .ok source := by
  have hRoster : state.lastMembership.membership.voterIds = ∅ →
      RaftAuthorization.makeMembership valid cfg [auth.session.context.genesis.voters]
        auth.session.context.genesis.voters =
        .ok (rosterOf valid cfg auth.session.context.genesis) :=
    fun hEmpty => rosterOf_eq (hAuth.roster hEmpty).2
  have hStarts : ∃ start, (ReplicationHistory.fromState cfg state).startState valid auth =
      .ok start := by
    rw [ReplicationHistory.startState]
    split
    · exact ⟨_, rfl⟩
    · next hNone =>
        have hUnapplied : state.lastAppliedLog = none := by
          rw [← hAuth.lastApplied]
          exact Option.not_isSome_iff_eq_none.mp hNone
        dsimp only
        rw [ReplicationHistory.membership_fromState.mpr (hRoster (h.fresh hUnapplied))]
        exact ⟨_, rfl⟩
  obtain ⟨start, hStart⟩ := hStarts
  have hTracks := ReplicationHistory.startState_tracks _ hAuth hRoster
    (fun hNone => ⟨h.fresh hNone, h.unprepared hNone⟩) (by rw [hSession]; exact h.tracks.ready) hStart
  rw [hSession] at hTracks
  rw [hStart, hTracks.unique h.tracks]

theorem frontier_eq (h : Follows valid cfg session state entries source) {auth : RaftAuthorization}
    (hAuth : RaftAuthorization.Captured valid cfg state auth) :
    (ReplicationHistory.fromState cfg state).frontier auth state.committed = state.committed := by
  rw [ReplicationHistory.frontier, hAuth.lastApplied, ReplicationHistory.fromState]
  cases hApplied : state.lastAppliedLog with
  | none =>
      cases state.committed with
      | none => rfl
      | some committed => simp [ReplicationHistory.laterOf]
  | some applied =>
      obtain ⟨committed, hCommitted, hLe⟩ := h.appliedBelow applied hApplied
      rw [Option.mem_def.mp hCommitted]
      rcases Nat.lt_or_eq_of_le hLe with hLt | hEq
      · simp [ReplicationHistory.laterOf, hLt]
      · obtain rfl := (h.applied applied hApplied).unique (h.committed committed hCommitted) hEq
        simp [ReplicationHistory.laterOf]

/-- The frontier that a request is judged by is one of three positions. -/
theorem mem_frontier {history : ReplicationHistory} {auth : RaftAuthorization}
    {leaderCommit : Option LogId} {log : LogId} (h : log ∈ history.frontier auth leaderCommit) :
    log ∈ history.committed ∨ log ∈ auth.lastApplied ∨ log ∈ leaderCommit := by
  have hFold : ∀ (positions : List LogId) (best : Option LogId),
      log ∈ positions.foldl ReplicationHistory.laterOf best → log ∈ best ∨ log ∈ positions := by
    intro positions
    induction positions with
    | nil => exact fun best hMem => Or.inl hMem
    | cons position rest ih =>
        intro best hMem
        rcases ih _ hMem with hBest | hRest
        · rw [ReplicationHistory.laterOf] at hBest
          split at hBest
          · exact Or.inl hBest
          · exact Or.inr (List.mem_cons.mpr (Or.inl (Option.some.inj hBest).symm))
        · exact Or.inr (List.mem_cons_of_mem _ hRest)
  rcases hFold _ _ h with hNone | hMem
  · cases hNone
  · simpa [eq_comm] using hMem

variable {leader after : List Entry} {request : AppendEntriesRequest} {stored : Option LogId}

theorem applied_below (h : Follows valid cfg session state entries source) :
    Below state.lastAppliedLog state.committed := by
  intro log hLog
  obtain ⟨committed, hCommitted, hLe⟩ := h.appliedBelow log hLog
  refine ⟨committed, hCommitted, ?_⟩
  rcases Nat.lt_or_eq_of_le hLe with hLt | hEq
  · exact Or.inl hLt
  · exact Or.inr ((h.applied log hLog).unique (h.committed committed hCommitted) hEq)

/-- The leader knows the committed position of the follower. -/
theorem leader_knows (h : Follows valid cfg session state entries source)
    (hLeader : FromLeader leader state request) {id : LogId} (hId : id ∈ state.committed) :
    Knows (leader[·]?) id := by
  refine (h.committed id hId).congr ?_
  rw [← hLeader.complete id hId id.index le_rfl, h.represents.log]

/-- The position that the request lets the follower commit lies at or below its new
frontier. -/
theorem target_below (h : Follows valid cfg session state entries source)
    (hLeader : FromLeader leader state request)
    (hStored : LastStored leader (state.storeEntries request.entries) request stored) :
    Below (earlierLog request.leaderCommit stored)
      (laterLog state.committed (earlierLog request.leaderCommit stored)) := by
  refine below_laterLog_right fun log hLog other hOther hIndex => ?_
  refine (h.leader_knows hLeader hLog).unique ?_ hIndex
  rcases mem_earlierLog hOther with hLast | ⟨hCommit, -⟩
  · exact (hStored.known other hLast).1
  · exact hLeader.commit other hCommit

/-- The new frontier covers what the request was judged by, below the end of the
request. -/
theorem covers_receive (h : Follows valid cfg session state entries source)
    (hLeader : FromLeader leader state request)
    (hStored : LastStored leader (state.storeEntries request.entries) request stored)
    {auth : RaftAuthorization} (hAuth : RaftAuthorization.Captured valid cfg state auth) {bound : Nat}
    (hBound : bound < indexAfter request.prevLogId + request.entries.length) :
    Covers bound ((ReplicationHistory.fromState cfg state).frontier auth request.leaderCommit)
      (laterLog state.committed (earlierLog request.leaderCommit stored)) := by
  have hOld := below_laterLog_left state.committed (earlierLog request.leaderCommit stored)
  have hTarget := h.target_below hLeader hStored
  obtain ⟨last, hLast, hReach⟩ := hStored.reaches bound hBound
  obtain rfl := Option.mem_def.mp hLast
  cases hFrontier : (ReplicationHistory.fromState cfg state).frontier auth request.leaderCommit with
  | none =>
      intro log _ hCommitted
      cases hCommitted
  | some judged =>
      rcases mem_frontier hFrontier with hCommitted | hApplied | hCommit
      · exact Below.covers (hCommitted ▸ hOld) bound
      · rw [hAuth.lastApplied] at hApplied
        exact Below.covers (hApplied ▸ h.applied_below.trans hOld) bound
      · rw [Option.mem_def.mp hCommit] at hTarget ⊢
        rw [earlierLog] at hTarget ⊢
        split_ifs at hTarget ⊢
        · obtain ⟨later, hLater, hBelow⟩ := hTarget last rfl
          refine covers_of_le ⟨later, hLater, hReach.trans ?_⟩
          rcases hBelow with hLt | rfl
          · exact hLt.le
          · exact le_rfl
        · exact hTarget.covers bound

/-- The new frontier is a stored position. -/
theorem knows_committed (h : Follows valid cfg session state entries source)
    (hLeader : FromLeader leader state request)
    (hStored : LastStored leader (state.storeEntries request.entries) request stored)
    (hAfter : StoredAs leader entries state request after)
    (hRepresents : Represents (state.storeEntries request.entries) after) {id : LogId}
    (hId : id ∈ laterLog state.committed (earlierLog request.leaderCommit stored)) :
    Knows (after[·]?) id := by
  rcases mem_laterLog hId with hOld | hTarget
  · exact (h.committed id hOld).congr (hLeader.kept h.represents hAfter hOld le_rfl)
  · have hLast : ∀ last ∈ stored, Knows (after[·]?) last := fun last hMem =>
      (hStored.known last hMem).2.congr (hRepresents.log _).symm
    rcases mem_earlierLog hTarget with hMem | ⟨hCommit, last, hMem, hLe⟩
    · exact hLast id hMem
    · obtain ⟨sent, hSent, hSentId⟩ := Option.map_eq_some_iff.mp (hStored.known last hMem).1
      obtain ⟨known, hKnown, hKnownId⟩ := Option.map_eq_some_iff.mp (hLast last hMem)
      exact (hLeader.commit id hCommit).congr (hLeader.logsMatch_after h.represents hAfter last.index
        known sent hKnown hSent (hKnownId.trans hSentId.symm) id.index hLe)

theorem bounded_after (h : Follows valid cfg session state entries source)
    (hLeader : FromLeader leader state request)
    (hAfter : StoredAs leader entries state request after)
    (hSent : ∀ entry ∈ request.entries, entry.logId.index ≤ Word64.maxWord) :
    ∀ entry ∈ after, entry.logId.index ≤ Word64.maxWord := by
  cases hAfter with
  | known => exact h.bounded
  | replaced hAbove =>
      intro entry hEntry
      rw [List.take_add, List.mem_append, ← hLeader.slice, ← hLeader.take_eq h.represents] at hEntry
      rcases hEntry with hOld | hNew
      · exact h.bounded entry (List.mem_of_mem_take hOld)
      · exact hSent entry hNew

end Follows

/-- Accepted entries have indices that fit a word. -/
theorem ReplicationHistory.checkEntries_bounded {history : ReplicationHistory}
    {auth : RaftAuthorization} {next : Option Nat} {entries : List Entry}
    (hNext : ∀ index ∈ next, index ≤ Word64.maxWord)
    (h : history.checkEntries valid auth next entries = .ok ()) :
    ∀ entry ∈ entries, entry.logId.index ≤ Word64.maxWord := by
  have hAdded : ∀ index start, index ∈ Word64.checkedAdd start 1 → index ≤ Word64.maxWord := by
    intro index start hIndex
    obtain ⟨rfl, hLe⟩ := Word64.checkedAdd_eq_some.mp hIndex
    exact hLe
  induction entries generalizing next with
  | nil => simp
  | cons entry rest ih =>
      simp only [checkEntries, Checks.bind_eq_ok] at h
      obtain ⟨_, hIndex, _, -, hRest⟩ := h
      have hIndex := of_decide_eq_true (ensure_eq_ok.mp hIndex)
      intro other hOther
      rcases List.mem_cons.mp hOther with rfl | hMem
      · exact hNext _ hIndex.symm
      · exact ih (fun index => hAdded index _) hRest other hMem

namespace Follows

variable {state : KafStorageState} {entries : List Entry} {source : SourceState}

/-- Storing an accepted request keeps the invariant: the new log replays below the new
frontier, because the validator replayed it from the same state. -/
theorem receive (h : Follows valid cfg session state entries source) (hValid : DocumentedCheck valid)
    {check : Except AdmissionDenied Unit} {peer : ReplicaId}
    {verified : Option VerifiedJoinBootstrap} {auth : RaftAuthorization}
    {request : AppendEntriesRequest} {leader : List Entry} {stored : Option LogId}
    (hAuth : RaftAuthorization.fromState valid cfg state check peer verified = .ok auth)
    (hAccepted : (ReplicationHistory.fromState cfg state).validate valid auth request = .ok ())
    (hLeader : FromLeader leader state request)
    (hStored : LastStored leader (state.storeEntries request.entries) request stored)
    (vote : Option Vote) :
    ∃ after, Follows valid cfg session (state.receive request stored vote) after source := by
  have hCaptured := RaftAuthorization.fromState_captured hAuth
  have hSession : auth.session = session :=
    Option.some.inj (hCaptured.session.symm.trans h.admission)
  simp only [ReplicationHistory.validate, Checks.bind_eq_ok, Checks.pure_eq_ok] at hAccepted
  obtain ⟨final, hReplay, -⟩ := hAccepted
  have hChecked : ∀ entry ∈ request.entries, entry.logId.index ≤ Word64.maxWord := by
    simp only [ReplicationHistory.replay, Checks.bind_eq_ok] at hReplay
    obtain ⟨_, hEntries, -⟩ := hReplay
    refine ReplicationHistory.checkEntries_bounded (fun index hIndex => ?_) hEntries
    cases hPrevious : request.prevLogId with
    | none =>
        rw [hPrevious] at hIndex
        obtain rfl := Option.some.inj hIndex
        exact Nat.zero_le _
    | some previous =>
        rw [hPrevious] at hIndex
        obtain ⟨rfl, hLe⟩ := Word64.checkedAdd_eq_some.mp hIndex
        exact hLe
  obtain ⟨start, hStart, -, hReplays⟩ := ReplicationHistory.replay_replays h.represents.logKeyed
    hCaptured.lastApplied hReplay
  obtain rfl := Except.ok.inj ((h.startState hCaptured hSession).symm.trans hStart)
  rw [hLeader.replayed h.represents] at hReplays
  obtain ⟨after, hRepresents, hAfter⟩ := hLeader.stored h.represents
  obtain ⟨log, purged, hFrame⟩ := state.storeEntries_frame request.entries
  have hReceived : state.receive request stored vote = { state with
      log := log, lastPurgedLogId := purged, vote := vote
      committed := laterLog state.committed (earlierLog request.leaderCommit stored) } := by
    rw [KafStorageState.receive, hFrame]
  have hKept : ∀ id ∈ state.lastAppliedLog, Knows (after[·]?) id := by
    intro id hId
    obtain ⟨committed, hCommitted, hLe⟩ := h.appliedBelow id hId
    exact (h.applied id hId).congr (hLeader.kept h.represents hAfter hCommitted hLe)
  have hRepresents' : Represents (state.receive request stored vote) after :=
    ⟨hRepresents.log, hRepresents.keyed, hRepresents.unpurged⟩
  rw [hReceived] at hRepresents' ⊢
  refine ⟨after, hRepresents', h.admission, h.bounded_after hLeader hAfter hChecked,
    fun id hId => h.knows_committed hLeader hStored hAfter hRepresents hId, hKept, fun id hId => ?_,
    h.tracks, h.fresh, h.sane, ?_⟩
  · obtain ⟨later, hLater, hBelow⟩ := h.applied_below.trans (below_laterLog_left _ _) id hId
    refine ⟨later, hLater, ?_⟩
    rcases hBelow with hLt | rfl
    · exact hLt.le
    · exact le_rfl
  · cases hAfter with
    | known =>
        obtain ⟨reached, hReached⟩ := h.replays
        refine ⟨reached, (hReached.mono hValid h.sane fun entry _ => ?_).congr rfl rfl rfl⟩
        exact (below_laterLog_left _ _).covers _
    | replaced hAbove =>
        refine ⟨final, (hReplays.mono hValid h.sane fun entry hEntry => ?_).congr rfl hSession.symm
          hCaptured.configuredPhysicalIds.symm⟩
        refine h.covers_receive hLeader hStored hCaptured ?_
        obtain ⟨i, hGet⟩ := List.mem_iff_getElem?.mp (List.mem_of_mem_drop hEntry)
        rw [hRepresents.keyed i entry hGet]
        have hWithin := (List.getElem?_eq_some_iff.mp hGet).1
        rw [List.length_take] at hWithin
        omega

/-- An applied entry moves the replay on to where the rest of the log replays from. -/
theorem advance (h : Follows valid cfg session state entries source) {entry : Entry}
    {committed : LogId} {next : SourceState} (hEntry : entries[state.firstUnapplied]? = some entry)
    (hCommitted : state.committed = some committed) (hBelow : entry.logId.index ≤ committed.index)
    (hTracks : next.Tracks session.context.genesis (rosterOf valid cfg session.context.genesis)
      (state.admissionView.step entry)) (hSane : next.Sane)
    (hReplays : ∃ after, Replays valid (ReplicationHistory.fromState cfg state)
      (authorityOf cfg session) state.committed next (entries.drop (state.firstUnapplied + 1)) after) :
    Follows valid cfg session (state.step entry) entries next := by
  have hIndex := h.represents.keyed _ entry hEntry
  have hLocal : state.step entry = (state.step entry).withLocal state :=
    congrArg Prod.fst (state.applyOne_withLocal state entry)
  have hLog : (state.step entry).log = state.log := (congrArg KafStorageState.log hLocal).trans rfl
  have hPurged : (state.step entry).lastPurgedLogId = state.lastPurgedLogId :=
    (congrArg KafStorageState.lastPurgedLogId hLocal).trans rfl
  have hAdmission : (state.step entry).admission = state.admission :=
    (congrArg KafStorageState.admission hLocal).trans rfl
  have hFrontier : (state.step entry).committed = state.committed :=
    (congrArg KafStorageState.committed hLocal).trans rfl
  have hLast : (state.step entry).lastAppliedLog = some entry.logId := by
    have hView := state.admissionView.lastAppliedLog_step entry
    rw [← KafStorageState.admissionView_step] at hView
    exact hView
  have hFirst : (state.step entry).firstUnapplied = state.firstUnapplied + 1 := by
    rw [KafStorageState.firstUnapplied, hLast, Option.elim_some, hIndex]
  rw [← KafStorageState.admissionView_step] at hTracks
  obtain ⟨after, hReplays⟩ := hReplays
  refine ⟨⟨fun i => hLog ▸ h.represents.log i, h.represents.keyed,
    hPurged.trans h.represents.unpurged⟩, hAdmission.trans h.admission, h.bounded, ?_, ?_, ?_,
    hTracks, fun hNone => ?_, hSane, after, ?_⟩
  · rw [hFrontier]
    exact h.committed
  · intro id hId
    obtain rfl := Option.some.inj (hLast.symm.trans hId)
    rw [Knows, hIndex, hEntry]
    rfl
  · intro id hId
    obtain rfl := Option.some.inj (hLast.symm.trans hId)
    exact ⟨committed, hFrontier.trans hCommitted, hBelow⟩
  · rw [hLast] at hNone
    cases hNone
  · rw [hFirst, hFrontier]
    exact hReplays.congr rfl rfl rfl

/-- Applying the next committed entry takes the first step of the replay. The replay stays behind
where the state machine rejects a preparation. -/
theorem applyNext (h : Follows valid cfg session state entries source) {entry : Entry}
    {committed : LogId} (hEntry : state.log[state.firstUnapplied]? = some entry)
    (hCommitted : state.committed = some committed)
    (hBelow : entry.logId.index ≤ committed.index)
    (hPrepares : PreparesSafely session.context.genesis state entry) :
    ∃ next, Follows valid cfg session (state.step entry) entries next := by
  rw [h.represents.log] at hEntry
  have hIndex := h.represents.keyed _ entry hEntry
  obtain ⟨hWithin, hGet⟩ := List.getElem?_eq_some_iff.mp hEntry
  obtain ⟨after, hReplays⟩ := h.replays
  rw [List.drop_eq_getElem_cons hWithin, hGet] at hReplays
  cases hReplays with
  | @cons _ middle _ _ _ hNext hData hApply hRest =>
      have hAbove := Replays.above_of_index hNext
      by_cases hReady : PreparesReady session.context.genesis state entry
      · obtain ⟨hTracks, -⟩ := ReplicationHistory.apply_tracks h.tracks rfl hAbove hReady hData hApply
        exact ⟨middle, h.advance hEntry hCommitted hBelow hTracks
          (h.sane.apply hAbove hData hApply) ⟨after, hRest⟩⟩
      · have hApart := hPrepares.resolve_left hReady
        simp only [PreparesReady, not_forall] at hReady
        obtain ⟨plan, hPayload, hUnready⟩ := hReady
        refine ⟨_, h.advance hEntry hCommitted hBelow (h.tracks.reject hPayload hUnready)
          (h.sane.advance hAbove) (hRest.apart (fun later hLater => ?_) (ReplicationHistory.apply_cursor hApply))⟩
        obtain ⟨i, hAt⟩ := List.mem_iff_getElem?.mp hLater
        rw [List.getElem?_drop, ← h.represents.log] at hAt
        exact hApart _ later (by omega) hAt

end Follows

/-- Consecutive entries with acceptable data pass the check of a request. -/
theorem ReplicationHistory.checkEntries_of_data {history : ReplicationHistory}
    {auth : RaftAuthorization} {entries : List Entry} {start : Nat}
    (hIndex : ∀ (i : Nat) (entry : Entry), entries[i]? = some entry → entry.logId.index = start + i)
    (hBounded : ∀ entry ∈ entries, entry.logId.index ≤ Word64.maxWord)
    (hData : ∀ entry ∈ entries, history.data valid auth entry = .ok ()) {next : Option Nat}
    (hNext : entries ≠ [] → next = some start) :
    history.checkEntries valid auth next entries = .ok () := by
  induction entries generalizing start next with
  | nil => rfl
  | cons entry rest ih =>
      have hFirst : entry.logId.index = start := hIndex 0 entry rfl
      simp only [checkEntries, Checks.bind_eq_ok]
      refine ⟨(), ensure_eq_ok.mpr ?_, (), hData entry List.mem_cons_self, ?_⟩
      · rw [hNext (by simp), hFirst]
        exact decide_eq_true rfl
      · have hRestIndex : ∀ (i : Nat) (other : Entry), rest[i]? = some other →
            other.logId.index = start + 1 + i := fun i other hOther => by
          rw [hIndex (i + 1) other hOther]
          omega
        refine ih hRestIndex (fun other hOther => hBounded other (List.mem_cons_of_mem _ hOther))
          (fun other hOther => hData other (List.mem_cons_of_mem _ hOther)) fun hRest => ?_
        obtain ⟨other, rest', rfl⟩ := List.exists_cons_of_ne_nil hRest
        have hOther := hBounded other (by simp)
        rw [hIndex 1 other rfl] at hOther
        rw [hFirst]
        exact Word64.checkedAdd_eq_some.mpr ⟨rfl, hOther⟩

/-- A replay is what the validator computes entry by entry above the applied position. -/
theorem Replays.foldlM_replayEntry {history : ReplicationHistory} {auth : RaftAuthorization}
    {frontier : Option LogId} {source after : SourceState} {entries : List Entry}
    (h : Replays valid history auth frontier source entries after)
    (hAbove : ∀ entry ∈ entries, ∀ log ∈ auth.lastApplied, log.index < entry.logId.index) :
    entries.foldlM (history.replayEntry valid auth frontier) source = .ok after := by
  induction h with
  | nil source => rfl
  | @cons source middle after entry rest hIndex hData hApply hRest ih =>
      have hKnown : (auth.lastApplied.any fun log => entry.logId.index ≤ log.index) = false := by
        rw [← Bool.not_eq_true, Option.any_eq_true]
        rintro ⟨log, hLog, hLe⟩
        have hLt := hAbove entry List.mem_cons_self log hLog
        have hLe := of_decide_eq_true hLe
        omega
      rw [List.foldlM_cons, Checks.bind_eq_ok]
      refine ⟨middle, ?_, ih fun other hOther => hAbove other (List.mem_cons_of_mem _ hOther)⟩
      rw [ReplicationHistory.replayEntry, hKnown, if_neg Bool.false_ne_true, Checks.bind_eq_ok]
      exact ⟨(), ensure_eq_ok.mpr (decide_eq_true hIndex), hApply⟩

/-- Where the invariant holds, the validator accepts the node's own log. -/
theorem Follows.accepts {state : KafStorageState} {entries : List Entry} {source : SourceState}
    (h : Follows valid cfg session state entries source) {check : Except AdmissionDenied Unit}
    {peer : ReplicaId} {verified : Option VerifiedJoinBootstrap} {auth : RaftAuthorization}
    (hAuth : RaftAuthorization.fromState valid cfg state check peer verified = .ok auth) (vote : Vote) :
    (ReplicationHistory.fromState cfg state).validate valid auth (state.ownRequest vote) = .ok () := by
  have hCaptured := RaftAuthorization.fromState_captured hAuth
  have hSession : auth.session = session :=
    Option.some.inj (hCaptured.session.symm.trans h.admission)
  have hKeyed : ∀ (i : Nat) (entry : Entry), entries[i]? = some entry →
      entry.logId.index = 0 + i := fun i entry hEntry => by
    rw [h.represents.keyed i entry hEntry, Nat.zero_add]
  have hOwn : (state.ownRequest vote).entries = entries.drop state.firstUnapplied := by
    rw [KafStorageState.ownRequest, h.represents.toList_eq]
    exact KafStorageState.unapplied_consecutive hKeyed
  have hFrontier : (ReplicationHistory.fromState cfg state).frontier auth
      (state.ownRequest vote).leaderCommit = state.committed := h.frontier_eq hCaptured
  have hIndex : ∀ (i : Nat) (entry : Entry), (entries.drop state.firstUnapplied)[i]? = some entry →
      entry.logId.index = state.firstUnapplied + i := fun i entry hEntry =>
    h.represents.keyed _ entry (List.getElem?_drop ▸ hEntry)
  obtain ⟨after, hReplays⟩ := h.replays
  have hReplays : Replays valid (ReplicationHistory.fromState cfg state) auth state.committed source
      (entries.drop state.firstUnapplied) after :=
    hReplays.congr rfl hSession hCaptured.configuredPhysicalIds
  have hChecked : (ReplicationHistory.fromState cfg state).checkEntries valid auth
      (state.lastAppliedLog.elim (some 0) fun log => Word64.checkedAdd log.index 1)
      (entries.drop state.firstUnapplied) = .ok () := by
    refine ReplicationHistory.checkEntries_of_data hIndex
      (fun entry hEntry => h.bounded entry (List.mem_of_mem_drop hEntry)) hReplays.data_eq_ok
      fun hSome => ?_
    obtain ⟨entry, rest, hDrop⟩ := List.exists_cons_of_ne_nil hSome
    have hFirst : entry.logId.index = state.firstUnapplied := hIndex 0 entry (by simp [hDrop])
    have hFits := h.bounded entry (List.mem_of_mem_drop (hDrop ▸ List.mem_cons_self))
    rw [hFirst, KafStorageState.firstUnapplied] at hFits
    rw [KafStorageState.firstUnapplied]
    cases hApplied : state.lastAppliedLog with
    | none => rfl
    | some applied =>
        rw [hApplied] at hFits
        exact Word64.checkedAdd_eq_some.mpr ⟨rfl, hFits⟩
  have hCaughtUp : (ReplicationHistory.fromState cfg state).catchUp valid auth state.committed source
      state.lastAppliedLog = .ok source := by
    have hCursor : source.cursor = state.lastAppliedLog := h.tracks.cursor
    cases hApplied : state.lastAppliedLog with
    | none => rfl
    | some applied => simp [ReplicationHistory.catchUp, hCursor, hApplied]
  have hReplayed := hReplays.foldlM_replayEntry fun entry hEntry => by
    obtain ⟨i, hGet⟩ := List.mem_iff_getElem?.mp hEntry
    rw [hCaptured.lastApplied, hIndex i entry hGet]
    exact KafStorageState.firstUnapplied_le_iff.mp (Nat.le_add_right _ _)
  simp only [ReplicationHistory.validate, ReplicationHistory.replay, Checks.bind_eq_ok,
    Checks.pure_eq_ok, hOwn, hFrontier]
  exact ⟨after, ⟨(), hChecked, source, h.startState hCaptured hSession, source, hCaughtUp, hReplayed⟩,
    trivial⟩

theorem FollowerRun.follows {config : StoreConfig} {state : KafStorageState}
    (hValid : DocumentedCheck valid)
    (hRun : FollowerRun valid cfg session config (PreparesSafely session.context.genesis) state) :
    ∃ entries source, Follows valid cfg session state entries source := by
  induction hRun with
  | refl => exact ⟨_, _, start_follows config⟩
  | tail _ hStep ih =>
      obtain ⟨entries, source, h⟩ := ih
      cases hStep with
      | receive hAuth hAccepted hLeader hStored =>
          obtain ⟨after, hAfter⟩ := h.receive hValid hAuth hAccepted hLeader hStored _
          exact ⟨after, source, hAfter⟩
      | applyNext hEntry hCommitted hBelow hPermits =>
          obtain ⟨next, hNext⟩ := h.applyNext hEntry hCommitted hBelow hPermits
          exact ⟨entries, next, hNext⟩

/-- In every run whose preparations meet a ready state or have nothing of a join behind them,
the validator accepts the node's own unapplied log, with its own commit frontier, in every state
reached. -/
theorem follower_log_accepted (valid : MembershipCheck)
    (hValid : DocumentedCheck valid) (cfg : Config) (session : AdmissionSession)
    (config : StoreConfig) (state : KafStorageState)
    (hRun : FollowerRun valid cfg session config (PreparesSafely session.context.genesis) state)
    (check : Except AdmissionDenied Unit) (peer : ReplicaId)
    (verified : Option VerifiedJoinBootstrap) (auth : RaftAuthorization)
    (hAuth : RaftAuthorization.fromState valid cfg state check peer verified = .ok auth)
    (vote : Vote) :
    (ReplicationHistory.fromState cfg state).validate valid auth (state.ownRequest vote) = .ok () := by
  obtain ⟨entries, source, h⟩ := hRun.follows hValid
  exact h.accepts hAuth vote

/-! ### The sample cluster -/

theorem documentedCheck_spec : DocumentedCheck documentedCheck := fun membership => by
  rw [documentedCheck, ensure_eq_ok, decide_eq_true_iff]

theorem rejoinEntries_index (payloads : List EntryPayload) (first : Nat) :
    ∀ (i : Nat) (entry : Entry), (rejoinEntries payloads first)[i]? = some entry →
      entry.logId = rejoinLog (first + i) := by
  induction payloads generalizing first with
  | nil => simp [rejoinEntries]
  | cons payload rest ih =>
      intro i entry hEntry
      cases i with
      | zero =>
          obtain rfl := Option.some.inj hEntry
          rfl
      | succ i =>
          rw [ih (first + 1) i entry hEntry]
          congr 1
          omega

/-- The sample node after it took the whole log of a leader. -/
def rejoinReceived (leader : List Entry) (commit last : Nat) : KafStorageState :=
  rejoinNode.receive (wholeLog leader commit) (some (rejoinLog last)) none

theorem follower_takes_log {Permits : KafStorageState → Entry → Prop} (payloads : List EntryPayload)
    {leader : List Entry} (hLeader : leader = rejoinEntries payloads 0) {commit last : Nat}
    (hCommit : leader[commit]?.map Entry.logId = some (rejoinLog commit))
    (hLast : leader[last]?.map Entry.logId = some (rejoinLog last)) (hEnd : leader.length = last + 1)
    (hWord : last < 2 ^ 64)
    (hStored : (rejoinNode.storeEntries leader).log[last]?.map Entry.logId = some (rejoinLog last))
    (h : (do
      let auth ← RaftAuthorization.fromState documentedCheck rejoinConfig rejoinNode (.ok ()) ⟨2, 0⟩ none
      (ReplicationHistory.fromState rejoinConfig rejoinNode).validate documentedCheck auth
        (wholeLog leader commit)) = .ok ()) :
    FollowerRun documentedCheck rejoinConfig rejoinSession rejoinStore Permits
      (rejoinReceived leader commit last) := by
  rw [Checks.bind_eq_ok] at h
  obtain ⟨auth, hAuth, hValid⟩ := h
  have hFrom : FromLeader leader rejoinNode (wholeLog leader commit) := by
    refine ⟨fun i entry hEntry => ?_, hEnd.trans_le hWord, ?_, fun id hId => (by cases hId),
      fun id hId => ?_, fun i known sent hKnown => (by cases hKnown), fun id hId => by cases hId⟩
    · rw [hLeader] at hEntry
      rw [rejoinEntries_index payloads 0 i entry hEntry]
      exact Nat.zero_add i
    · exact (List.take_of_length_le le_rfl).symm
    · obtain rfl := Option.some.inj hId
      exact hCommit
  have hEndStored : LastStored leader (rejoinNode.storeEntries leader) (wholeLog leader commit)
      (some (rejoinLog last)) := by
    refine ⟨fun id hId => ?_, fun i hi => ⟨_, rfl, ?_⟩⟩
    · obtain rfl := Option.some.inj hId
      exact ⟨hLast, hStored⟩
    · have hi : i < 0 + leader.length := hi
      rw [hEnd, Nat.zero_add] at hi
      exact Nat.lt_succ_iff.mp hi
  exact Relation.ReflTransGen.single (.receive hAuth hValid hFrom hEndStored)

/-- Formation and join are stored, the formation is applied. -/
def rejoinFollower : KafStorageState :=
  rejoinFormation.foldl KafStorageState.step (rejoinReceived rejoinEntriesAll 4 4)

/-- The join of the sample cluster, stored and committed, is accepted as the node's own
log. -/
theorem follower_log_accepted_rejoin :
    ∃ auth, RaftAuthorization.fromState documentedCheck rejoinConfig rejoinFollower (.ok ()) ⟨2, 0⟩
        none = .ok auth ∧
      (rejoinFollower.ownRequest ⟨⟨1, ⟨1, 0⟩⟩, true⟩).entries = rejoinRequest.entries ∧
      (ReplicationHistory.fromState rejoinConfig rejoinFollower).validate documentedCheck auth
        (rejoinFollower.ownRequest ⟨⟨1, ⟨1, 0⟩⟩, true⟩) = .ok () := by
  have hReceived : FollowerRun documentedCheck rejoinConfig rejoinSession rejoinStore
      (PreparesSafely rejoinSession.context.genesis) (rejoinReceived rejoinEntriesAll 4 4) :=
    follower_takes_log (rejoinEntriesAll.map Entry.payload) rfl rfl rfl rfl (by decide)
      (by decide +kernel) (by decide +kernel)
  have hFirst : FollowerStep documentedCheck rejoinConfig
      (PreparesSafely rejoinSession.context.genesis) (rejoinReceived rejoinEntriesAll 4 4)
      ((rejoinReceived rejoinEntriesAll 4 4).step ⟨rejoinLog 0, .membership (rejoinMembership
        [rejoinVoters] rejoinVoters)⟩) :=
    .applyNext (by decide +kernel)
      (by decide +kernel : (rejoinReceived rejoinEntriesAll 4 4).committed = some (rejoinLog 4))
      (by decide) (.inl fun plan hPayload => by cases hPayload)
  have hSecond : FollowerStep documentedCheck rejoinConfig
      (PreparesSafely rejoinSession.context.genesis)
      ((rejoinFormation.take 1).foldl KafStorageState.step (rejoinReceived rejoinEntriesAll 4 4))
      rejoinFollower :=
    .applyNext (by decide +kernel)
      (by decide +kernel : KafStorageState.committed _ = some (rejoinLog 4))
      (by decide) (.inl fun plan hPayload => by cases hPayload)
  have hAuth : (RaftAuthorization.fromState documentedCheck rejoinConfig rejoinFollower (.ok ()) ⟨2, 0⟩
      none).map (fun _ => ()) = .ok () := by
    decide +kernel
  obtain ⟨auth, hAuth, -⟩ := Checks.map_eq_ok.mp hAuth
  exact ⟨auth, hAuth, by decide +kernel, follower_log_accepted documentedCheck documentedCheck_spec
    rejoinConfig rejoinSession rejoinStore rejoinFollower ((hReceived.tail hFirst).tail hSecond)
    (.ok ()) ⟨2, 0⟩ none auth hAuth _⟩

/-- A log that prepares a join before a genesis. -/
def prematureLog : List Entry :=
  rejoinEntries [.normal (.admissionMembership (.prepareJoin rejoinPlan)),
    .membership (rejoinMembership [rejoinVoters] (insert ⟨3, 1⟩ rejoinVoters))] 0

/-- Its preparation is accepted, but the state machine rejects it when it is applied. -/
def prematureFollower : KafStorageState :=
  (rejoinReceived prematureLog 0 1).step
    ⟨rejoinLog 0, .normal (.admissionMembership (.prepareJoin rejoinPlan))⟩

/-- The node then refuses its own log. -/
theorem follower_log_refused :
    ∃ auth, FollowerRun documentedCheck rejoinConfig rejoinSession rejoinStore (fun _ _ => True)
        prematureFollower ∧
      RaftAuthorization.fromState documentedCheck rejoinConfig prematureFollower (.ok ()) ⟨2, 0⟩
        none = .ok auth ∧
      (ReplicationHistory.fromState rejoinConfig prematureFollower).validate documentedCheck auth
        (prematureFollower.ownRequest ⟨⟨1, ⟨1, 0⟩⟩, true⟩) =
          .error ⟨"source membership has no prepared transition"⟩ := by
  have hReceived : FollowerRun documentedCheck rejoinConfig rejoinSession rejoinStore
      (fun _ _ => True) (rejoinReceived prematureLog 0 1) :=
    follower_takes_log (prematureLog.map Entry.payload) rfl rfl rfl rfl (by decide)
      (by decide +kernel) (by decide +kernel)
  have hApplied : FollowerStep documentedCheck rejoinConfig (fun _ _ => True)
      (rejoinReceived prematureLog 0 1) prematureFollower :=
    .applyNext (by decide +kernel)
      (by decide +kernel : (rejoinReceived prematureLog 0 1).committed = some (rejoinLog 0))
      (by decide) trivial
  have hRefused : (do
      let auth ← RaftAuthorization.fromState documentedCheck rejoinConfig prematureFollower (.ok ())
        ⟨2, 0⟩ none
      return (ReplicationHistory.fromState rejoinConfig prematureFollower).validate documentedCheck
        auth (prematureFollower.ownRequest ⟨⟨1, ⟨1, 0⟩⟩, true⟩)) =
      .ok (.error ⟨"source membership has no prepared transition"⟩) := by
    decide +kernel
  simp only [Checks.bind_eq_ok, Checks.pure_eq_ok] at hRefused
  obtain ⟨auth, hAuth, hRefused⟩ := hRefused
  exact ⟨auth, hReceived.tail hApplied, hAuth, hRefused⟩

end KeepAfloat
