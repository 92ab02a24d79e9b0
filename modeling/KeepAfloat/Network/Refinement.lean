import KeepAfloat.Network.Simulation
import KeepAfloat.Store.Local
import KeepAfloat.Store.Log

/-! From the acceptance of a whole request to the run of the state machine. An
accepted request is a replay of consecutive entries from the captured state, and a
replay of consecutive entries is a run of the state machine. -/

namespace KeepAfloat

/-- The index after a position. -/
def indexAfter (position : Option LogId) : Nat := position.elim 0 fun log => log.index + 1

/-- A replay of entries that follow each other by index. -/
inductive Replays (valid : MembershipCheck) (history : ReplicationHistory)
    (auth : RaftAuthorization) (frontier : Option LogId) :
    SourceState → List Entry → SourceState → Prop where
  | nil (source : SourceState) : Replays valid history auth frontier source [] source
  | cons {source middle after : SourceState} {entry : Entry} {rest : List Entry}
      (hIndex : entry.logId.index = source.cursor.elim 0 fun log => log.index + 1)
      (hData : history.data valid auth entry = .ok ())
      (hApply : history.apply valid auth frontier source entry = .ok middle)
      (hRest : Replays valid history auth frontier middle rest after) :
      Replays valid history auth frontier source (entry :: rest) after

namespace Replays

variable {valid : MembershipCheck} {history : ReplicationHistory}
  {auth : RaftAuthorization} {frontier : Option LogId} {source middle after : SourceState}

theorem append {first second : List Entry}
    (hFirst : Replays valid history auth frontier source first middle)
    (hSecond : Replays valid history auth frontier middle second after) :
    Replays valid history auth frontier source (first ++ second) after := by
  induction hFirst with
  | nil source => exact hSecond
  | cons hIndex hData hApply hRest ih => exact .cons hIndex hData hApply (ih hSecond)

/-- Entries that follow a position lie above it. -/
theorem above_of_index {index : Nat} {cursor : Option LogId}
    (h : index = cursor.elim 0 fun log => log.index + 1) :
    ∀ log ∈ cursor, log.index < index := by
  intro log hLog
  obtain rfl := Option.mem_def.mp hLog
  exact h ▸ Nat.lt_succ_self _

theorem data_eq_ok {entries : List Entry}
    (h : Replays valid history auth frontier source entries after) :
    ∀ entry ∈ entries, history.data valid auth entry = .ok () := by
  induction h with
  | nil source => simp
  | cons hIndex hData hApply hRest ih =>
      intro other hOther
      rcases List.mem_cons.mp hOther with rfl | hMem
      · exact hData
      · exact ih other hMem

/-- A replay is a run of the state machine: it ends where the run ends, and every
admission command is answered with success. Preparations must meet a ready state. -/
theorem tracks {genesis : Genesis} {roster : Membership} {entries : List Entry}
    (hReplay : Replays valid history auth frontier source entries after) (state : KafStorageState)
    (hTracks : source.Tracks genesis roster state.admissionView)
    (hGenesis : auth.session.context.genesis = genesis)
    (hReady : ∀ before entry rest plan, entries = before ++ entry :: rest →
      entry.payload = .normal (.admissionMembership (.prepareJoin plan)) →
      (before.foldl KafStorageState.step state).admissionView.Ready genesis) :
    after.Tracks genesis roster (entries.foldl KafStorageState.step state).admissionView ∧
      ∀ before entry rest command, entries = before ++ entry :: rest →
        entry.payload = .normal (.admissionMembership command) →
        ((before.foldl KafStorageState.step state).applyOne entry).2 = .ok := by
  induction hReplay generalizing state with
  | nil source => exact ⟨hTracks, by simp⟩
  | @cons source middle after entry rest hIndex hData hApply hRest ih =>
      obtain ⟨hMiddle, hAnswer⟩ := ReplicationHistory.apply_tracks hTracks hGenesis
        (above_of_index hIndex) (fun plan => hReady [] entry rest plan rfl) hData hApply
      rw [← KafStorageState.admissionView_step] at hMiddle
      obtain ⟨hAfter, hAnswers⟩ := ih (state.step entry) hMiddle fun before other rest' plan hSplit =>
        hReady (entry :: before) other rest' plan (by rw [hSplit]; rfl)
      refine ⟨hAfter, fun before other rest' command hSplit hPayload => ?_⟩
      cases before with
      | nil =>
          obtain ⟨rfl, rfl⟩ := List.cons.inj hSplit
          rw [List.foldl_nil, KafStorageState.applyOne_admissionMembership _ _ command hPayload]
          exact hAnswer command hPayload
      | cons first before =>
          obtain ⟨rfl, rfl⟩ := List.cons.inj hSplit
          exact hAnswers before other rest' command rfl hPayload

end Replays

namespace KafStorageState

/-- The first index that is not applied. -/
def firstUnapplied (state : KafStorageState) : Nat :=
  state.lastAppliedLog.elim 0 fun log => log.index + 1

/-- The local unapplied entries up to a position. -/
def unappliedUpTo (state : KafStorageState) (position : Option LogId) : List Entry :=
  match position with
  | none => []
  | some last =>
      (List.range' state.firstUnapplied (last.index + 1 - state.firstUnapplied)).filterMap
        (state.log[·]?)

/-- The entries above the applied position. -/
def unapplied (state : KafStorageState) (entries : List Entry) : List Entry :=
  entries.filter fun entry => state.lastAppliedLog.all fun log => log.index < entry.logId.index

theorem unapplied_eq_self {state : KafStorageState} {entries : List Entry}
    (h : ∀ entry ∈ entries, ∀ log ∈ state.lastAppliedLog, log.index < entry.logId.index) :
    state.unapplied entries = entries := by
  refine List.filter_eq_self.mpr fun entry hEntry => Option.all_eq_true _ _ |>.mpr ?_
  exact fun log hLog => decide_eq_true (h entry hEntry log hLog)

end KafStorageState

namespace ReplicationHistory

variable {valid : MembershipCheck} {history : ReplicationHistory}
  {auth : RaftAuthorization} {frontier : Option LogId}

theorem apply_cursor {source after : SourceState} {entry : Entry}
    (h : history.apply valid auth frontier source entry = .ok after) :
    after.cursor = some entry.logId := by
  simp only [apply, Checks.bind_eq_ok, Checks.pure_eq_ok] at h
  obtain ⟨_, -, rfl⟩ := h
  rfl

/-- Catching up over consecutive indices replays the entries stored there. -/
theorem replayLocal_replays {log : Std.ExtTreeMap Nat Entry}
    (hStored : ∀ (index : Nat) entry, history.entries[index]? = some entry →
      log[index]? = some entry ∧ entry.logId.index = index)
    (count : Nat) {first : Nat} {source after : SourceState}
    (hFirst : first = source.cursor.elim 0 fun log => log.index + 1)
    (h : (List.range' first count).foldlM (history.replayLocal valid auth frontier) source =
      .ok after) :
    Replays valid history auth frontier source
      ((List.range' first count).filterMap (log[·]?)) after := by
  induction count generalizing first source with
  | zero =>
      obtain rfl := Except.ok.inj h
      exact .nil source
  | succ count ih =>
      rw [List.range'_succ, List.foldlM_cons, Checks.bind_eq_ok] at h
      obtain ⟨middle, hMiddle, hRest⟩ := h
      simp only [replayLocal, Checks.bind_eq_ok, okOr_eq_ok] at hMiddle
      obtain ⟨entry, hEntry, _, hData, hApply⟩ := hMiddle
      obtain ⟨hLog, hKey⟩ := hStored first entry hEntry
      rw [List.range'_succ, List.filterMap_cons_some hLog]
      refine .cons (hKey.trans hFirst) hData hApply (ih ?_ hRest)
      rw [apply_cursor hApply, Option.elim_some, hKey]

theorem checkEntries_data {next : Option Nat} {entries : List Entry}
    (h : history.checkEntries valid auth next entries = .ok ()) :
    ∀ entry ∈ entries, history.data valid auth entry = .ok () := by
  induction entries generalizing next with
  | nil => simp
  | cons entry rest ih =>
      simp only [checkEntries, Checks.bind_eq_ok] at h
      obtain ⟨_, -, _, hData, hRest⟩ := h
      intro other hOther
      rcases List.mem_cons.mp hOther with rfl | hMem
      · exact hData
      · exact ih hRest other hMem

/-- Entries at or below the applied position are passed over, the others replayed. -/
theorem replayEntry_replays {state : KafStorageState} {entries : List Entry}
    {source after : SourceState} (hApplied : auth.lastApplied = state.lastAppliedLog)
    (hData : ∀ entry ∈ entries, history.data valid auth entry = .ok ())
    (h : entries.foldlM (history.replayEntry valid auth frontier) source = .ok after) :
    Replays valid history auth frontier source (state.unapplied entries) after := by
  induction entries generalizing source with
  | nil =>
      obtain rfl := Except.ok.inj h
      exact .nil source
  | cons entry rest ih =>
      have hRestData : ∀ other ∈ rest, history.data valid auth other = .ok () :=
        fun other hOther => hData other (List.mem_cons_of_mem _ hOther)
      rw [List.foldlM_cons, Checks.bind_eq_ok] at h
      obtain ⟨middle, hMiddle, hRest⟩ := h
      have hKnown : (state.lastAppliedLog.any fun log => entry.logId.index ≤ log.index) =
          !(state.lastAppliedLog.all fun log => log.index < entry.logId.index) := by
        cases state.lastAppliedLog with
        | none => rfl
        | some log => simp [← decide_not]
      rw [replayEntry, hApplied, hKnown] at hMiddle
      rw [KafStorageState.unapplied, List.filter_cons]
      by_cases hNew : (state.lastAppliedLog.all fun log => log.index < entry.logId.index) = true
      · rw [if_pos hNew]
        rw [if_neg (by simp [hNew]), Checks.bind_eq_ok] at hMiddle
        obtain ⟨_, hIndex, hApply⟩ := hMiddle
        exact .cons (of_decide_eq_true (ensure_eq_ok.mp hIndex)) (hData entry List.mem_cons_self)
          hApply (ih hRestData hRest)
      · rw [if_neg hNew]
        rw [if_pos (by simp [hNew])] at hMiddle
        simp only [Checks.bind_eq_ok, Checks.pure_eq_ok] at hMiddle
        obtain ⟨_, -, rfl⟩ := hMiddle
        exact ih hRestData hRest

theorem entries_fromState {cfg : Config} {state : KafStorageState} {index : Nat} {entry : Entry}
    (h : (fromState cfg state).entries[index]? = some entry) : state.log[index]? = some entry := by
  simp only [fromState, Std.ExtTreeMap.getElem?_filter', Option.filter_eq_some_iff] at h
  exact h.1

/-- Bringing the replay to the previous position replays the local entries up to it. -/
theorem catchUp_replays {cfg : Config} {state : KafStorageState} (hKeyed : state.LogKeyed)
    {position : Option LogId} {start after : SourceState}
    (hCursor : start.cursor = state.lastAppliedLog)
    (h : (fromState cfg state).catchUp valid auth frontier start position = .ok after) :
    Replays valid (fromState cfg state) auth frontier start (state.unappliedUpTo position) after := by
  have hStored : ∀ (index : Nat) entry, (fromState cfg state).entries[index]? = some entry →
      state.log[index]? = some entry ∧ entry.logId.index = index := fun index entry hEntry =>
    ⟨entries_fromState hEntry, hKeyed index entry (entries_fromState hEntry)⟩
  cases position with
  | none =>
      obtain rfl := Except.ok.inj h
      exact .nil start
  | some previous =>
      rw [KafStorageState.unappliedUpTo, KafStorageState.firstUnapplied, ← hCursor]
      rw [catchUp] at h
      split at h
      · simp only [Checks.bind_eq_ok, Checks.pure_eq_ok] at h
        obtain ⟨_, hLocal, _, -, rfl⟩ := h
        exact replayLocal_replays hStored _ rfl hLocal
      · next hBehind =>
          simp only [Checks.bind_eq_ok, Checks.pure_eq_ok] at h
          obtain ⟨_, -, rfl⟩ := h
          cases hStart : start.cursor with
          | none => simp [hStart] at hBehind
          | some log =>
              have hLe : previous.index ≤ log.index := by simpa [hStart] using hBehind
              have hCount : previous.index + 1 - (log.index + 1) = 0 := by omega
              simp only [Option.elim_some, hCount, List.range'_zero, List.filterMap_nil]
              exact .nil start

/-- An accepted request is a replay of the local entries up to the previous position
and then of its own that are not applied. -/
theorem replay_replays {cfg : Config} {state : KafStorageState} (hKeyed : state.LogKeyed)
    (hApplied : auth.lastApplied = state.lastAppliedLog) {request : AppendEntriesRequest}
    {after : SourceState}
    (h : (fromState cfg state).replay valid auth request = .ok after) :
    ∃ start, (fromState cfg state).startState valid auth = .ok start ∧
      start.cursor = state.lastAppliedLog ∧
      Replays valid (fromState cfg state) auth
        ((fromState cfg state).frontier auth request.leaderCommit) start
        (state.unappliedUpTo request.prevLogId ++ state.unapplied request.entries) after := by
  simp only [replay, Checks.bind_eq_ok] at h
  obtain ⟨_, hEntries, start, hStart, middle, hMiddle, hRest⟩ := h
  have hCursor : start.cursor = state.lastAppliedLog := by
    rw [startState] at hStart
    split at hStart
    · rw [← Except.ok.inj hStart, hApplied]
    · next hNone =>
        simp only [Checks.bind_eq_ok, Checks.pure_eq_ok] at hStart
        obtain ⟨_, -, rfl⟩ := hStart
        rw [← hApplied]
        exact (Option.not_isSome_iff_eq_none.mp hNone).symm
  exact ⟨start, hStart, hCursor, (catchUp_replays hKeyed hCursor hMiddle).append
    (replayEntry_replays hApplied (checkEntries_data hEntries) hRest)⟩

/-- Both ways to build a membership from configured addresses agree. -/
theorem membership_fromState {cfg : Config} {state : KafStorageState}
    {configs : List (Finset ReplicaId)} {ids : Finset ReplicaId} {membership : Membership} :
    (fromState cfg state).membership valid configs ids = .ok membership ↔
      RaftAuthorization.makeMembership valid cfg configs ids = .ok membership := by
  have hNode : (fun id => (fromState cfg state).nodes[id]?) = cfg.node :=
    funext (nodes_fromState cfg state)
  simp only [ReplicationHistory.membership, hNode, RaftAuthorization.makeMembership,
    Checks.bind_eq_ok, okOr_eq_ok, Checks.mapError_eq_ok]

/-- The captured state tracks the state machine. -/
theorem startState_tracks {cfg : Config} {state : KafStorageState} {start : SourceState}
    (roster : Membership) (hAuth : RaftAuthorization.Captured valid cfg state auth)
    (hRoster : state.lastMembership.membership.voterIds = ∅ →
      RaftAuthorization.makeMembership valid cfg [auth.session.context.genesis.voters]
        auth.session.context.genesis.voters = .ok roster)
    (hFresh : state.lastAppliedLog = none →
      state.lastMembership.membership.voterIds = ∅ ∧ state.preparedJoin = none)
    (hReady : state.preparedJoin ≠ none →
      state.admissionView.Ready auth.session.context.genesis)
    (hStart : (fromState cfg state).startState valid auth = .ok start) :
    start.Tracks auth.session.context.genesis roster state.admissionView := by
  rw [startState] at hStart
  split at hStart
  · obtain rfl := Except.ok.inj hStart
    refine ⟨⟨hAuth.lastApplied, hAuth.genesis, fun hEmpty => ?_, hAuth.committedMembership, hReady,
      fun pending hMem => ?_⟩, hAuth.preparedJoin⟩
    · obtain ⟨hLog, hMembership⟩ := hAuth.roster hEmpty
      have hSame := Except.ok.inj (hMembership.symm.trans (hRoster hEmpty))
      exact congrArg₂ StoredMembership.mk hLog hSame
    · obtain ⟨applied, hApplied, hBarriers⟩ := RaftAuthorization.snapshotPreparedJoin_eq_ok.mp
        (hAuth.barriers pending (hAuth.preparedJoin ▸ hMem))
      obtain ⟨hPlan, -, hGenesis, -⟩ := RaftAuthorization.joinPlanData_eq_ok.mp hBarriers.plan
      exact ⟨hPlan, hGenesis, hBarriers.stage,
        fun ack hAck => ⟨applied, hApplied, (hBarriers.ack ack hAck).2.1⟩⟩
  · next hNone =>
      simp only [Checks.bind_eq_ok, Checks.pure_eq_ok] at hStart
      obtain ⟨membership, hMembership, rfl⟩ := hStart
      have hUnapplied : state.lastAppliedLog = none := by
        rw [← hAuth.lastApplied]
        exact Option.not_isSome_iff_eq_none.mp hNone
      obtain ⟨hEmpty, hJoin⟩ := hFresh hUnapplied
      have hSame := Except.ok.inj ((membership_fromState.mp hMembership).symm.trans (hRoster hEmpty))
      refine ⟨⟨hUnapplied.symm, hAuth.genesis, fun _ => ?_, fun hFormed => absurd hEmpty hFormed,
        fun hSome => absurd hJoin hSome, fun _ hMem => by cases hMem⟩, hJoin.symm⟩
      rw [hSame]

end ReplicationHistory

namespace AdmissionView

theorem Ready.foldl {genesis : Genesis} {view : AdmissionView} (h : view.Ready genesis)
    {entries : List Entry} (hVoters : ∀ entry ∈ entries, ∀ membership,
      entry.payload = .membership membership → membership.voterIds ≠ ∅) :
    (entries.foldl AdmissionView.step view).Ready genesis := by
  induction entries generalizing view with
  | nil => exact h
  | cons entry rest ih =>
      exact ih (h.step (hVoters entry List.mem_cons_self))
        fun other hOther => hVoters other (List.mem_cons_of_mem _ hOther)

/-- After a membership entry there are voters, and a last applied position. -/
theorem formed_foldl (view : AdmissionView) {entries : List Entry}
    (hVoters : ∀ entry ∈ entries, ∀ membership,
      entry.payload = .membership membership → membership.voterIds ≠ ∅)
    (hFormed : (view.lastMembership.membership.voterIds ≠ ∅ ∧ view.lastAppliedLog ≠ none) ∨
      ∃ entry ∈ entries, ∃ membership, entry.payload = .membership membership) :
    (entries.foldl AdmissionView.step view).lastMembership.membership.voterIds ≠ ∅ ∧
      (entries.foldl AdmissionView.step view).lastAppliedLog ≠ none := by
  induction entries generalizing view with
  | nil =>
      rcases hFormed with hFormed | ⟨_, hMem, -⟩
      · exact hFormed
      · cases hMem
  | cons entry rest ih =>
      refine ih _ (fun other hOther => hVoters other (List.mem_cons_of_mem _ hOther)) ?_
      by_cases hEntry : ∃ membership, entry.payload = .membership membership
      · obtain ⟨membership, hPayload⟩ := hEntry
        left
        rw [AdmissionView.step, hPayload]
        exact ⟨hVoters entry List.mem_cons_self membership hPayload, by simp⟩
      · rcases hFormed with hFormed | ⟨other, hOther, hMembership⟩
        · have hKept := view.lastMembership_step fun membership hPayload =>
            hEntry ⟨membership, hPayload⟩
          exact Or.inl ⟨hKept ▸ hFormed.1, by simp⟩
        · rcases List.mem_cons.mp hOther with rfl | hRest
          · exact absurd hMembership hEntry
          · exact Or.inr ⟨other, hRest, hMembership⟩

end AdmissionView

/-- The validator simulates the state machine. The state is one that the state
machine has reached by `applied`, on a process with the local fields of `node`;
openraft logs no membership without a voter. -/
theorem validator_simulates (valid : MembershipCheck) (cfg : Config)
    (config : StoreConfig) (applied : List Entry) (node state : KafStorageState)
    (hState : state = (stateAfter config applied applied.length).withLocal node)
    (hVoters : ∀ entry ∈ applied, ∀ membership, entry.payload = .membership membership →
      membership.voterIds ≠ ∅)
    (hFormed : ∃ entry ∈ applied, ∃ membership, entry.payload = .membership membership)
    (hKeyed : state.LogKeyed) (check : Except AdmissionDenied Unit) (peer : ReplicaId)
    (verified : Option VerifiedJoinBootstrap) (auth : RaftAuthorization)
    (hAuth : RaftAuthorization.fromState valid cfg state check peer verified = .ok auth)
    (hGenesis : state.genesis = some auth.session.context.genesis)
    (request : AppendEntriesRequest)
    (hAbove : ∀ entry ∈ request.entries, ∀ last ∈ state.lastAppliedLog,
      last.index < entry.logId.index)
    (hAccepted : (ReplicationHistory.fromState cfg state).validate valid auth request = .ok ()) :
    ∃ final, (ReplicationHistory.fromState cfg state).replay valid auth request = .ok final ∧
      let entries := state.unappliedUpTo request.prevLogId ++ request.entries
      (entries.foldl KafStorageState.step state).preparedJoin = final.pending ∧
        (entries.foldl KafStorageState.step state).lastMembership = final.membership ∧
        ∀ before entry rest command, entries = before ++ entry :: rest →
          entry.payload = .normal (.admissionMembership command) →
          ((before.foldl KafStorageState.step state).applyOne entry).2 = .ok := by
  have hCaptured := RaftAuthorization.fromState_captured hAuth
  have hView : state.admissionView =
      applied.foldl AdmissionView.step config.start.admissionView := by
    rw [hState, ← KafStorageState.admissionView_foldl, ← Runs.stateAt_length]
    rfl
  obtain ⟨hSome, hLast⟩ := AdmissionView.formed_foldl config.start.admissionView hVoters
    (Or.inr hFormed)
  rw [← hView] at hSome hLast
  have hReady : state.admissionView.Ready auth.session.context.genesis := ⟨hGenesis, hSome⟩
  simp only [ReplicationHistory.validate, Checks.bind_eq_ok, Checks.pure_eq_ok] at hAccepted
  obtain ⟨final, hReplay, -⟩ := hAccepted
  obtain ⟨start, hStart, -, hReplays⟩ := ReplicationHistory.replay_replays hKeyed
    hCaptured.lastApplied hReplay
  rw [KafStorageState.unapplied_eq_self hAbove] at hReplays
  have hTracks := ReplicationHistory.startState_tracks .default hCaptured
    (fun hEmpty => absurd hEmpty hSome) (fun hNone => absurd hNone hLast) (fun _ => hReady) hStart
  have hEntryVoters : ∀ entry ∈ state.unappliedUpTo request.prevLogId ++ request.entries,
      ∀ membership, entry.payload = .membership membership → membership.voterIds ≠ ∅ :=
    fun entry hEntry membership hPayload =>
      ReplicationHistory.data_membership hPayload (hReplays.data_eq_ok entry hEntry)
  obtain ⟨hFinal, hAnswers⟩ := hReplays.tracks state hTracks rfl
    fun before entry rest plan hSplit _ => by
      rw [KafStorageState.admissionView_foldl]
      exact hReady.foldl fun other hOther => hEntryVoters other
        (hSplit ▸ List.mem_append_left _ hOther)
  refine ⟨final, hReplay, hFinal.pending.symm, ?_, hAnswers⟩
  refine (hFinal.formed ?_).symm
  rw [KafStorageState.admissionView_foldl]
  exact (hReady.foldl hEntryVoters).voters

/-! ### A cluster of three in which the third member joins again with a new boot -/

/-- The checks that openraft documents for a membership: voter sets are not empty and
every voter has an address. -/
def documentedCheck (membership : Membership) : Except AdmissionDenied Unit :=
  ensure (∀ config ∈ membership.configs, config.Nonempty ∧ ∀ voter ∈ config,
      voter ∈ membership.nodes)
    "empty voter set or voter without address"

def rejoinConfig : Config where
  nodeId := 1
  peers := [⟨1, "10.0.0.1:17101"⟩, ⟨2, "10.0.0.2:17101"⟩, ⟨3, "10.0.0.3:17101"⟩]
  ids_nodup := by decide
  clusterConfigFingerprint := some ⟨1, 0⟩

def rejoinVoters : Finset ReplicaId := {⟨1, 0⟩, ⟨2, 0⟩, ⟨3, 0⟩}

def rejoinGenesis : Genesis := ⟨⟨1, 0⟩, 7, rejoinVoters⟩

def rejoinMembership (configs : List (Finset ReplicaId)) (ids : Finset ReplicaId) : Membership :=
  ⟨configs, (addressed rejoinConfig.node ids).getD ∅⟩

def rejoinLog (index : Nat) : LogId := ⟨⟨1, ⟨1, 0⟩⟩, index⟩

def rejoinPlan : JoinPlan where
  genesis := rejoinGenesis
  consumer := ⟨3, 1⟩
  requestNonce := 5
  previousVoters := rejoinVoters
  nextVoters := {⟨1, 0⟩, ⟨2, 0⟩, ⟨3, 1⟩}

def rejoinEntries : List EntryPayload → Nat → List Entry
  | [], _ => []
  | payload :: rest, index => ⟨rejoinLog index, payload⟩ :: rejoinEntries rest (index + 1)

/-- The roster and the genesis. -/
def rejoinFormation : List Entry :=
  rejoinEntries [.membership (rejoinMembership [rejoinVoters] rejoinVoters),
    .normal (.admissionGenesis rejoinGenesis)] 0

/-- Preparation, learner membership and acknowledgement. -/
def rejoinRequest : AppendEntriesRequest where
  vote := ⟨⟨1, ⟨1, 0⟩⟩, true⟩
  prevLogId := some (rejoinLog 1)
  entries := rejoinEntries [.normal (.admissionMembership (.prepareJoin rejoinPlan)),
    .membership (rejoinMembership [rejoinVoters] (insert ⟨3, 1⟩ rejoinVoters)),
    .normal (.admissionMembership (.learnerApplied ⟨3, 1⟩ 5 (rejoinLog 2)))] 2
  leaderCommit := some (rejoinLog 4)

def rejoinStore : StoreConfig := ⟨⟨[], List.nodup_nil⟩, 3, true, 0⟩

/-- The first member's own session and an empty log. -/
def rejoinNode : KafStorageState :=
  { rejoinStore.start with admission := some ⟨⟨⟨1, 0⟩, rejoinGenesis⟩⟩ }

def rejoinState : KafStorageState :=
  (stateAfter rejoinStore rejoinFormation rejoinFormation.length).withLocal rejoinNode

/-- The three entries are accepted, and the state machine ends with the acknowledged
join. -/
theorem validator_simulates_rejoin :
    ∃ auth, RaftAuthorization.fromState documentedCheck rejoinConfig rejoinState (.ok ()) ⟨2, 0⟩ none =
        .ok auth ∧
      ∃ final, (ReplicationHistory.fromState rejoinConfig rejoinState).replay documentedCheck auth
          rejoinRequest = .ok final ∧
        (rejoinRequest.entries.foldl KafStorageState.step rejoinState).preparedJoin =
          final.pending := by
  have hAccepted : (do
      let auth ← RaftAuthorization.fromState documentedCheck rejoinConfig rejoinState (.ok ()) ⟨2, 0⟩ none
      (ReplicationHistory.fromState rejoinConfig rejoinState).validate documentedCheck auth
        rejoinRequest) = .ok () := by
    decide +kernel
  rw [Checks.bind_eq_ok] at hAccepted
  obtain ⟨auth, hAuth, hAccepted⟩ := hAccepted
  have hSession : some auth.session = rejoinNode.admission :=
    (RaftAuthorization.fromState_captured hAuth).session.symm
  obtain ⟨final, hReplay, hPending, -⟩ := validator_simulates documentedCheck rejoinConfig rejoinStore
    rejoinFormation rejoinNode rejoinState rfl
    (by
      intro entry hEntry membership hPayload
      simp only [rejoinFormation, rejoinEntries, List.mem_cons, List.not_mem_nil, or_false] at hEntry
      rcases hEntry with rfl | rfl
      · cases hPayload
        decide +kernel
      · cases hPayload)
    ⟨_, List.mem_cons_self, _, rfl⟩ (fun index entry hEntry => by cases hEntry) (.ok ()) ⟨2, 0⟩ none auth
    hAuth
    (by
      rw [Option.some.inj hSession]
      decide +kernel)
    rejoinRequest (by decide +kernel) hAccepted
  exact ⟨auth, hAuth, final, hReplay, hPending⟩

end KeepAfloat
