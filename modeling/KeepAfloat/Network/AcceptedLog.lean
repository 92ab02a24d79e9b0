import KeepAfloat.Network.Refinement

/-! Logs that a process accepts piece by piece. Every request is validated against the
state that the entries applied so far have built, with whatever local log and commit
frontier the process has at that time. Any part of what was accepted may be applied
before the next request comes. -/

namespace KeepAfloat

/-- The membership from which a replay starts before any is applied. -/
def rosterOf (valid : MembershipCheck) (cfg : Config) (genesis : Genesis) :
    Membership :=
  match RaftAuthorization.makeMembership valid cfg [genesis.voters] genesis.voters with
  | .ok membership => membership
  | .error _ => .default

theorem rosterOf_eq {valid : MembershipCheck} {cfg : Config}
    {genesis : Genesis} {membership : Membership}
    (h : RaftAuthorization.makeMembership valid cfg [genesis.voters] genesis.voters = .ok membership) :
    RaftAuthorization.makeMembership valid cfg [genesis.voters] genesis.voters =
      .ok (rosterOf valid cfg genesis) := by
  rw [rosterOf, h]

/-- The state machine determines where the replay stands. -/
theorem SourceState.Tracks.unique {genesis : Genesis} {roster : Membership}
    {source other : SourceState} {view : AdmissionView} (h : source.Tracks genesis roster view)
    (hOther : other.Tracks genesis roster view) : source = other := by
  obtain ⟨membership, pending, cursor⟩ := source
  obtain ⟨membership', pending', cursor'⟩ := other
  have hPending : pending = pending' := h.pending.trans hOther.pending.symm
  have hCursor : cursor = cursor' := h.cursor.trans hOther.cursor.symm
  have hMembership : membership = membership' := by
    by_cases hEmpty : view.lastMembership.membership.voterIds = ∅
    · exact (h.unformed hEmpty).trans (hOther.unformed hEmpty).symm
    · exact (h.formed hEmpty).trans (hOther.formed hEmpty).symm
  rw [hPending, hCursor, hMembership]

/-- A request that the validator accepts on a process with this applied state and
session. -/
structure Acceptance (valid : MembershipCheck) (cfg : Config)
    (session : AdmissionSession) (state : KafStorageState) where
  node : KafStorageState
  check : Except AdmissionDenied Unit
  peer : ReplicaId
  verified : Option VerifiedJoinBootstrap
  auth : RaftAuthorization
  request : AppendEntriesRequest
  admission : node.admission = some session
  keyed : (state.withLocal node).LogKeyed
  captures : RaftAuthorization.fromState valid cfg (state.withLocal node) check peer verified = .ok auth
  accepts : (ReplicationHistory.fromState cfg (state.withLocal node)).validate valid auth request =
    .ok ()

namespace Acceptance

variable {valid : MembershipCheck} {cfg : Config}
  {session : AdmissionSession} {state : KafStorageState}

def history (accepted : Acceptance valid cfg session state) : ReplicationHistory :=
  .fromState cfg (state.withLocal accepted.node)

/-- The commit frontier that the request was judged by. -/
def frontier (accepted : Acceptance valid cfg session state) : Option LogId :=
  accepted.history.frontier accepted.auth accepted.request.leaderCommit

/-- The entries that were judged: the local ones up to the previous position, then those
of the request that are not applied. -/
def entries (accepted : Acceptance valid cfg session state) : List Entry :=
  (state.withLocal accepted.node).unappliedUpTo accepted.request.prevLogId ++
    (state.withLocal accepted.node).unapplied accepted.request.entries

theorem captured (accepted : Acceptance valid cfg session state) :
    RaftAuthorization.Captured valid cfg (state.withLocal accepted.node) accepted.auth :=
  RaftAuthorization.fromState_captured accepted.captures

theorem session_eq (accepted : Acceptance valid cfg session state) :
    accepted.auth.session = session :=
  Option.some.inj (accepted.captured.session.symm.trans accepted.admission)

/-- The session's genesis is a majority of distinct configured members. -/
theorem validateRoster (accepted : Acceptance valid cfg session state) :
    session.context.genesis.validateRoster cfg.physicalIds = .ok () := by
  have hCaptures := accepted.captures
  simp only [RaftAuthorization.fromState, Checks.bind_eq_ok] at hCaptures
  obtain ⟨current, hCurrent, _, -, _, hRoster, -⟩ := hCaptures
  rw [okOr_eq_ok] at hCurrent
  obtain rfl := Option.some.inj (hCurrent.symm.trans accepted.admission)
  exact hRoster

/-- What was accepted is a replay from where the validator starts. -/
theorem exists_replays (accepted : Acceptance valid cfg session state) :
    ∃ start final, accepted.history.startState valid accepted.auth = .ok start ∧
      Replays valid accepted.history accepted.auth accepted.frontier start accepted.entries final := by
  have hAccepts := accepted.accepts
  simp only [ReplicationHistory.validate, Checks.bind_eq_ok, Checks.pure_eq_ok] at hAccepts
  obtain ⟨final, hReplay, -⟩ := hAccepts
  obtain ⟨start, hStart, -, hReplays⟩ := ReplicationHistory.replay_replays accepted.keyed
    accepted.captured.lastApplied hReplay
  exact ⟨start, final, hStart, hReplays⟩

/-- The validator starts from the applied state. -/
theorem replays (accepted : Acceptance valid cfg session state)
    (hFresh : state.lastAppliedLog = none →
      state.lastMembership.membership.voterIds = ∅ ∧ state.preparedJoin = none)
    (hReady : state.preparedJoin ≠ none → state.admissionView.Ready session.context.genesis) :
    ∃ start final,
      start.Tracks session.context.genesis (rosterOf valid cfg session.context.genesis)
        state.admissionView ∧
      Replays valid accepted.history accepted.auth accepted.frontier start accepted.entries final := by
  have hCaptured := accepted.captured
  have hSession := accepted.session_eq
  obtain ⟨start, final, hStart, hReplays⟩ := accepted.exists_replays
  refine ⟨start, final, ?_, hReplays⟩
  have hTracks := ReplicationHistory.startState_tracks
    (rosterOf valid cfg accepted.auth.session.context.genesis) hCaptured
    (fun hEmpty => rosterOf_eq (hCaptured.roster hEmpty).2) hFresh
    (by rw [hSession]; exact hReady) hStart
  rw [hSession] at hTracks
  exact hTracks

end Acceptance

/-- Logs applied from the empty state: any part, from the front, of what an accepted
request was judged with. -/
inductive AcceptedLog (valid : MembershipCheck) (cfg : Config)
    (session : AdmissionSession) (config : StoreConfig) : List Entry → Prop where
  | start : AcceptedLog valid cfg session config []
  | apply {log applied : List Entry} (hLog : AcceptedLog valid cfg session config log)
      (accepted : Acceptance valid cfg session (log.foldl KafStorageState.step config.start))
      (hApplied : applied <+: accepted.entries) :
      AcceptedLog valid cfg session config (log ++ applied)

/-- The front of an accepted log is accepted. -/
theorem AcceptedLog.front {valid : MembershipCheck} {cfg : Config}
    {session : AdmissionSession} {config : StoreConfig} {log before : List Entry}
    (hLog : AcceptedLog valid cfg session config log) (hFront : before <+: log) :
    AcceptedLog valid cfg session config before := by
  induction hLog with
  | start =>
      rw [List.prefix_nil.mp hFront]
      exact .start
  | @apply log applied hLog accepted hApplied ih =>
      rcases List.prefix_or_prefix_of_prefix hFront (List.prefix_append log applied) with
        hEarlier | ⟨rest, rfl⟩
      · exact ih hEarlier
      · exact .apply hLog accepted (((List.prefix_append_right_inj log).mp hFront).trans hApplied)

/-- Only the empty log applies nothing. -/
theorem eq_nil_of_unapplied {config : StoreConfig} {log : List Entry}
    (h : (log.foldl KafStorageState.step config.start).lastAppliedLog = none) : log = [] := by
  have hView : (log.foldl AdmissionView.step config.start.admissionView).lastAppliedLog = none := by
    rw [← KafStorageState.admissionView_foldl]
    exact h
  exact AdmissionView.eq_nil_of_unapplied hView

theorem fresh_of_unapplied {config : StoreConfig} {log : List Entry}
    (h : (log.foldl KafStorageState.step config.start).lastAppliedLog = none) :
    (log.foldl KafStorageState.step config.start).lastMembership.membership.voterIds = ∅ ∧
      (log.foldl KafStorageState.step config.start).preparedJoin = none := by
  obtain rfl := eq_nil_of_unapplied h
  exact ⟨rfl, rfl⟩

theorem Replays.split {valid : MembershipCheck}
    {history : ReplicationHistory} {auth : RaftAuthorization} {frontier : Option LogId}
    {source after : SourceState} {first second : List Entry}
    (h : Replays valid history auth frontier source (first ++ second) after) :
    ∃ middle, Replays valid history auth frontier source first middle ∧
      Replays valid history auth frontier middle second after := by
  induction first generalizing source with
  | nil => exact ⟨source, .nil source, h⟩
  | cons entry rest ih =>
      cases h with
      | cons hIndex hData hApply hRest =>
          obtain ⟨middle, hFirst, hSecond⟩ := ih hRest
          exact ⟨middle, .cons hIndex hData hApply hFirst, hSecond⟩

/-! ### Runs -/

/-- Every entry of the log meets a condition where it is applied. -/
def Throughout (config : StoreConfig) (condition : KafStorageState → Entry → Prop)
    (log : List Entry) : Prop :=
  ∀ before entry, before ++ [entry] <+: log →
    condition (before.foldl KafStorageState.step config.start) entry

section Throughout

variable {config : StoreConfig} {condition : KafStorageState → Entry → Prop} {log : List Entry}

theorem Throughout.nil : Throughout config condition [] :=
  fun _ _ hFront => by simp at hFront

theorem Throughout.front {before : List Entry} (h : Throughout config condition log)
    (hFront : before <+: log) : Throughout config condition before :=
  fun earlier entry hEntry => h earlier entry (hEntry.trans hFront)

theorem Throughout.concat {entry : Entry} (h : Throughout config condition log)
    (hEntry : condition (log.foldl KafStorageState.step config.start) entry) :
    Throughout config condition (log ++ [entry]) := by
  intro before other hFront
  rcases List.prefix_concat_iff.mp hFront with hSame | hEarlier
  · obtain ⟨rfl, hOther⟩ := List.append_inj' hSame rfl
    rwa [List.singleton_inj.mp hOther]
  · exact h before other hEarlier

theorem throughout_iff : Throughout config condition log ↔ ∀ i (h : i < log.length),
    condition ((log.take i).foldl KafStorageState.step config.start) log[i] := by
  constructor
  · intro hAll i h
    refine hAll _ _ ?_
    rw [List.take_concat_get' log i h]
    exact List.take_prefix _ _
  · rintro hAll before entry ⟨rest, rfl⟩
    have hEntry := hAll before.length (by simp)
    simpa using hEntry

end Throughout

/-- A preparation is applied only where the session's genesis and a membership are. -/
def PreparesReady (genesis : Genesis) (state : KafStorageState) (entry : Entry) : Prop :=
  ∀ plan, entry.payload = .normal (.admissionMembership (.prepareJoin plan)) →
    state.admissionView.Ready genesis

/-- Every preparation in the log was applied where genesis and a membership were. -/
def ReadyPreparations (genesis : Genesis) (config : StoreConfig) (log : List Entry) : Prop :=
  Throughout config (PreparesReady genesis) log

/-- Wherever a join is pending, the preparations before it were applied in a ready state. One that
the state machine rejects does no harm where no join is pending. -/
def ReadyWherePending (genesis : Genesis) (config : StoreConfig) (log : List Entry) : Prop :=
  ∀ before, before <+: log → (before.foldl KafStorageState.step config.start).preparedJoin ≠ none →
    ReadyPreparations genesis config before

section Runs

variable {valid : MembershipCheck} {cfg : Config}
  {session : AdmissionSession} {config : StoreConfig} {log : List Entry}

/-- Accepting once more replays from where the applied log stands. -/
theorem Acceptance.replays_from {source : SourceState}
    (accepted : Acceptance valid cfg session (log.foldl KafStorageState.step config.start))
    (hTracks : source.Tracks session.context.genesis (rosterOf valid cfg session.context.genesis)
      (log.foldl KafStorageState.step config.start).admissionView) :
    ∃ final, Replays valid accepted.history accepted.auth accepted.frontier source accepted.entries
      final := by
  obtain ⟨start, final, hStart, hReplays⟩ := accepted.replays fresh_of_unapplied hTracks.ready
  rw [hStart.unique hTracks] at hReplays
  exact ⟨final, hReplays⟩

/-- What an entry is judged by where it follows a log: an authority of this session and roster, and
a source that tracks the state of the log. -/
structure Judged (valid : MembershipCheck) (cfg : Config)
    (session : AdmissionSession) (config : StoreConfig) (log : List Entry) (source : SourceState)
    (entry : Entry) (after : SourceState) (auth : RaftAuthorization) : Prop where
  session_eq : auth.session = session
  ids : auth.configuredPhysicalIds = cfg.physicalIds
  tracks : source.Tracks session.context.genesis (rosterOf valid cfg session.context.genesis)
    (log.foldl KafStorageState.step config.start).admissionView
  above : source.Before entry.logId
  data : ∃ history : ReplicationHistory, history.data valid auth entry = .ok () ∧
    ∃ frontier, history.apply valid auth frontier source entry = .ok after

/-- What every judged entry keeps is kept by a replay. -/
theorem Replays.keeps {motive : List Entry → SourceState → Prop} {history : ReplicationHistory}
    {auth : RaftAuthorization} {frontier : Option LogId} {source after : SourceState}
    {entries : List Entry} (hReplays : Replays valid history auth frontier source entries after)
    (hSession : auth.session = session) (hIds : auth.configuredPhysicalIds = cfg.physicalIds)
    (hReady : ReadyPreparations session.context.genesis config (log ++ entries))
    (hStep : ∀ {before entry source after auth}, before ++ [entry] <+: log ++ entries →
      Judged valid cfg session config before source entry after auth →
      motive before source → motive (before ++ [entry]) after)
    (hTracks : source.Tracks session.context.genesis (rosterOf valid cfg session.context.genesis)
      (log.foldl KafStorageState.step config.start).admissionView)
    (hMotive : motive log source) :
    after.Tracks session.context.genesis (rosterOf valid cfg session.context.genesis)
      ((log ++ entries).foldl KafStorageState.step config.start).admissionView ∧
        motive (log ++ entries) after := by
  induction hReplays generalizing log with
  | nil source =>
      rw [List.append_nil]
      exact ⟨hTracks, hMotive⟩
  | @cons source middle after entry rest hIndex hData hApply hRest ih =>
      have hAbove := above_of_index hIndex
      have hFront : log ++ [entry] <+: log ++ entry :: rest := ⟨rest, by simp⟩
      obtain ⟨hMiddle, -⟩ := ReplicationHistory.apply_tracks hTracks (by rw [hSession]) hAbove
        (hReady log entry hFront) hData hApply
      rw [← KafStorageState.admissionView_step] at hMiddle
      rw [List.append_cons] at hReady hStep ⊢
      refine ih hReady hStep ?_ (hStep ⟨rest, rfl⟩
        ⟨hSession, hIds, hTracks, hAbove, history, hData, frontier, hApply⟩ hMotive)
      rw [List.foldl_concat]
      exact hMiddle

/-- What every judged entry keeps holds of an accepted log and the source that tracks its state. -/
theorem AcceptedLog.keeps {motive : List Entry → SourceState → Prop}
    (hLog : AcceptedLog valid cfg session config log)
    (hReady : ReadyPreparations session.context.genesis config log)
    (hStart : motive [] ⟨⟨none, rosterOf valid cfg session.context.genesis⟩, none, none⟩)
    (hStep : ∀ {before entry source after auth}, before ++ [entry] <+: log →
      Judged valid cfg session config before source entry after auth →
      motive before source → motive (before ++ [entry]) after) :
    ∃ source : SourceState,
      source.Tracks session.context.genesis (rosterOf valid cfg session.context.genesis)
        (log.foldl KafStorageState.step config.start).admissionView ∧ motive log source := by
  induction hLog with
  | start =>
      exact ⟨_, SourceState.tracks_start _ _ config, hStart⟩
  | @apply log applied hLog accepted hApplied ih =>
      obtain ⟨source, hTracks, hMotive⟩ := ih (hReady.front (List.prefix_append _ _))
        fun hFront => hStep (hFront.trans (List.prefix_append _ _))
      obtain ⟨final, hReplays⟩ := accepted.replays_from hTracks
      obtain ⟨rest, hRest⟩ := hApplied
      rw [← hRest] at hReplays
      obtain ⟨middle, hFirst, -⟩ := hReplays.split
      exact ⟨middle, hFirst.keeps accepted.session_eq accepted.captured.configuredPhysicalIds hReady
        hStep hTracks hMotive⟩

end Runs

/-! ### The sample cluster -/

def rejoinSession : AdmissionSession := ⟨⟨⟨1, 0⟩, rejoinGenesis⟩⟩

/-- Formation and join of the sample cluster, up to the acknowledgement. -/
def rejoinEntriesAll : List Entry := rejoinFormation ++ rejoinRequest.entries

/-- A request that carries a whole log. -/
def wholeLog (entries : List Entry) (last : Nat) : AppendEntriesRequest where
  vote := ⟨⟨1, ⟨1, 0⟩⟩, true⟩
  prevLogId := none
  entries := entries
  leaderCommit := some (rejoinLog last)

/-- A request that the sample cluster's validator accepts on a state. -/
theorem exists_acceptance (state node : KafStorageState) (request : AppendEntriesRequest)
    (hAdmission : node.admission = some rejoinSession) (hLog : node.log = ∅)
    (h : (do
      let auth ← RaftAuthorization.fromState documentedCheck rejoinConfig (state.withLocal node)
        (.ok ()) ⟨2, 0⟩ none
      (ReplicationHistory.fromState rejoinConfig (state.withLocal node)).validate documentedCheck auth
        request) = .ok ()) :
    ∃ accepted : Acceptance documentedCheck rejoinConfig rejoinSession state,
      accepted.node = node ∧ accepted.request = request := by
  rw [Checks.bind_eq_ok] at h
  obtain ⟨auth, hAuth, hValid⟩ := h
  have hKeyed : (state.withLocal node).LogKeyed := by
    intro index entry hEntry
    have hEntry : node.log[index]? = some entry := hEntry
    rw [hLog] at hEntry
    cases hEntry
  exact ⟨⟨node, .ok (), ⟨2, 0⟩, none, auth, request, hAdmission, hKeyed, hAuth, hValid⟩, rfl, rfl⟩

/-- The joint configuration and then the new voters. -/
def rejoinPromotion : List Entry :=
  rejoinEntries [.membership (rejoinMembership [rejoinVoters, rejoinPlan.nextVoters]
      (insert ⟨3, 1⟩ rejoinVoters)),
    .membership (rejoinMembership [rejoinPlan.nextVoters] rejoinPlan.nextVoters)] 5

end KeepAfloat
