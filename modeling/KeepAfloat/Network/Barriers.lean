import KeepAfloat.Network.AcceptedLog

/-! Whether a log that the validator accepts can block authorization. The barrier
test of a captured state compares log positions of the learner stage and of the
acknowledgement; here the accepted entries are followed with that order as
invariant. It survives every accepted entry but one: a learner membership that is
logged again after the acknowledgement. -/

namespace KeepAfloat

/-- The membership is a learner stage of a join that is already acknowledged. -/
def PreparedJoin.Relearns (pending : PreparedJoin) (membership : Membership) : Prop :=
  pending.learnerApplied ≠ none ∧ membership.configs = [pending.plan.previousVoters] ∧
    pending.plan.consumer ∈ membership.learnerIds

namespace RaftAuthorization

variable {auth : RaftAuthorization} {pending : PreparedJoin} {membership : StoredMembership}
  {applied later : LogId}

theorem Barriers.advance (h : auth.Barriers pending membership applied)
    (hLater : applied.index ≤ later.index) : auth.Barriers pending membership later where
  plan := h.plan
  preparedLog := h.preparedLog
  ackLog := h.ackLog
  prepared := h.prepared.trans hLater
  stage := h.stage
  learner := h.learner
  ack := fun ack hAck => ⟨(h.ack ack hAck).1, (h.ack ack hAck).2.1.trans hLater, (h.ack ack hAck).2.2⟩
  unacknowledged := h.unacknowledged

/-- A new membership above all barriers keeps them in order, unless it is a learner
stage after the acknowledgement. -/
theorem Barriers.restage (h : auth.Barriers pending membership applied)
    (hLater : applied.index < later.index) {next : Membership}
    (hStage : next.configs = [pending.plan.previousVoters] ∨
      next.configs = [pending.plan.previousVoters, pending.plan.nextVoters])
    (hJoint : next.configs = [pending.plan.previousVoters, pending.plan.nextVoters] →
      pending.learnerApplied ≠ none)
    (hLearner : ¬pending.Relearns next) : auth.Barriers pending ⟨some later, next⟩ later where
  plan := h.plan
  preparedLog := h.preparedLog
  ackLog := h.ackLog
  prepared := h.prepared.trans hLater.le
  stage := hStage
  learner := fun _ => ⟨later, rfl, h.prepared.trans_lt hLater⟩
  ack := by
    intro ack hAck
    obtain ⟨hAfter, hLe, -⟩ := h.ack ack hAck
    have hBefore : ack.index < later.index := hLe.trans_lt hLater
    refine ⟨hAfter, hBefore.le, ?_⟩
    rcases hStage with hStable | hSplit
    · have hAbsent : pending.plan.consumer ∉ next.learnerIds := fun hPresent =>
        hLearner ⟨by simp [Option.mem_def.mp hAck], hStable, hPresent⟩
      have hPrevious := stablePrevious_eq_true.mpr hStable
      simp [ackInOrder, hPrevious, hAbsent, hBefore, -Membership.mem_learnerIds]
    · have hOf : jointOf next pending.plan = true := decide_eq_true hSplit
      simp [ackInOrder, hOf, hBefore]
  unacknowledged := fun hNone hSplit => hJoint hSplit hNone

end RaftAuthorization

/-- The only learner is the consumer of the pending join. -/
def LearnersPlanned (membership : Membership) (pending : Option PreparedJoin) : Prop :=
  ∀ replica ∈ membership.learnerIds, ∃ current ∈ pending, replica = current.plan.consumer

/-- Learners after a stage of the join are the consumer, and none is left when the
join ends. -/
theorem learners_of_stage {pending : PreparedJoin} {current next : Membership} {final : Bool}
    (hPlan : pending.plan.validate = .ok ()) (hStage : JoinStage pending current next final)
    (hLearners : ∀ replica ∈ current.learnerIds, replica = pending.plan.consumer)
    (replica : ReplicaId) (hReplica : replica ∈ next.learnerIds) :
    final = false ∧ replica = pending.plan.consumer := by
  have hConsumer := JoinPlan.consumer_mem_next hPlan
  rw [Membership.mem_learnerIds, Membership.mem_voterIds] at hReplica
  obtain ⟨hNode, hVoter⟩ := hReplica
  have hCurrent : replica ∈ current.nodes →
      (∀ config ∈ current.configs, replica ∉ config) → replica = pending.plan.consumer := by
    intro hMem hConfigs
    refine hLearners replica (Membership.mem_learnerIds.mpr ⟨hMem, ?_⟩)
    rw [Membership.mem_voterIds]
    rintro ⟨config, hConfig, hIn⟩
    exact hConfigs config hConfig hIn
  cases hStage with
  | addLearner hStable hNext hNodes =>
      refine ⟨rfl, ?_⟩
      rcases (hNodes replica).mp hNode with hSame | hMem
      · exact hSame
      · exact hCurrent hMem fun config hConfig hIn =>
          hVoter ⟨config, by rwa [hNext, ← hStable], hIn⟩
  | removeLearner hStable hNext hNodes =>
      refine ⟨rfl, ?_⟩
      exact hCurrent ((hNodes replica).mp hNode).2 fun config hConfig hIn =>
        hVoter ⟨config, by rwa [hNext, ← hStable], hIn⟩
  | enterJoint ack hAck hStable hLearner hNext hNodes =>
      refine ⟨rfl, ?_⟩
      rcases (hNodes replica).mp hNode with hSame | hMem
      · exact hSame
      · refine hCurrent hMem fun config hConfig hIn => hVoter ⟨config, ?_, hIn⟩
        rw [hNext]
        rw [hStable, List.mem_singleton] at hConfig
        simp [hConfig]
  | promote ack hAck hSplit hNext hNodes =>
      obtain ⟨hMem, hKept⟩ := (hNodes replica).mp hNode
      have hOutside : replica ∉ pending.plan.nextVoters := fun hIn =>
        hVoter ⟨_, by rw [hNext]; exact List.mem_singleton_self _, hIn⟩
      have hSame := hCurrent hMem fun config hConfig hIn => by
        rw [hSplit] at hConfig
        simp only [List.mem_cons, List.not_mem_nil, or_false] at hConfig
        rcases hConfig with rfl | rfl
        · exact hKept (Finset.mem_sdiff.mpr ⟨hIn, hOutside⟩)
        · exact hOutside hIn
      exact absurd (hSame ▸ hConsumer) hOutside

namespace LearnersPlanned

variable {source : SourceState} (h : LearnersPlanned source.membership.membership source.pending)

include h

theorem nobody (hNone : source.pending = none) (replica : ReplicaId) :
    replica ∉ source.membership.membership.learnerIds := by
  intro hReplica
  obtain ⟨_, hPending, -⟩ := h replica hReplica
  rw [hNone] at hPending
  cases hPending

theorem stage {pending : PreparedJoin} {next : Membership} {final : Bool}
    (hPlan : pending.plan.validate = .ok ()) (hPending : source.pending = some pending)
    (hStage : JoinStage pending source.membership.membership next final) :
    LearnersPlanned next (if final then none else source.pending) := by
  intro replica hReplica
  obtain ⟨rfl, hSame⟩ := learners_of_stage hPlan hStage (fun other hOther => by
    obtain ⟨current, hCurrent, hSame⟩ := h other hOther
    rw [hSame, Option.some.inj (hCurrent.symm.trans hPending)]) replica hReplica
  exact ⟨pending, hPending, hSame⟩

theorem command {log : LogId} {frontier : Option LogId} {command : AdmissionCommand}
    {next : Option PreparedJoin} (hNext : CommandStage source log frontier command next) :
    LearnersPlanned source.membership.membership next := by
  intro replica hReplica
  cases hNext with
  | prepare hNone => exact absurd hReplica (h.nobody hNone replica)
  | prepareAgain hPending => exact hPending ▸ h replica hReplica
  | cancel hPending hCommitted hStable hRemoved =>
      obtain ⟨other, hOther, rfl⟩ := h replica hReplica
      obtain rfl := Option.some.inj (hPending.symm.trans hOther)
      exact absurd (Membership.mem_learnerIds.mp hReplica).1 hRemoved
  | acknowledge hPending =>
      obtain ⟨other, hOther, hSame⟩ := h replica hReplica
      exact ⟨_, rfl, by rw [hSame, Option.some.inj (hOther.symm.trans hPending)]⟩
  | acknowledgeAgain hPending => exact hPending ▸ h replica hReplica

end LearnersPlanned

namespace SourceState

/-- The order that authorization tests, with what keeps it. -/
structure Ordered (auth : RaftAuthorization) (source : SourceState) : Prop where
  learners : LearnersPlanned source.membership.membership source.pending
  barriers : ∀ pending ∈ source.pending, ∃ cursor ∈ source.cursor,
    auth.Barriers pending source.membership cursor
  logged : ∀ log ∈ source.membership.logId, ∃ cursor ∈ source.cursor, log.index ≤ cursor.index

variable {valid : MembershipCheck} {history : ReplicationHistory}
  {auth : RaftAuthorization} {frontier : Option LogId} {source after : SourceState}

theorem Ordered.advance (h : source.Ordered auth) {log : LogId} (hAbove : source.Before log) :
    Ordered auth { source with cursor := some log } where
  learners := h.learners
  barriers := by
    intro pending hMem
    obtain ⟨cursor, hCursor, hBarriers⟩ := h.barriers pending hMem
    exact ⟨log, rfl, hBarriers.advance (hAbove cursor hCursor).le⟩
  logged := by
    intro other hOther
    obtain ⟨cursor, hCursor, hLe⟩ := h.logged other hOther
    exact ⟨log, rfl, hLe.trans (hAbove cursor hCursor).le⟩

/-- An accepted membership entry keeps the order, unless it repeats the learner stage
of an acknowledged join. -/
theorem Ordered.membership (h : source.Ordered auth) {next : Membership} {log : LogId}
    (hAbove : source.Before log) (hLearner : ∀ pending ∈ source.pending, ¬pending.Relearns next)
    (hNext : history.transition valid source next log frontier = .ok after) :
    Ordered auth { after with cursor := some log } := by
  have hRestage : ∀ pending ∈ source.pending,
      (next.configs = [pending.plan.previousVoters] ∨
        next.configs = [pending.plan.previousVoters, pending.plan.nextVoters]) →
      (next.configs = [pending.plan.previousVoters, pending.plan.nextVoters] →
        pending.learnerApplied ≠ none) →
      auth.Barriers pending ⟨some log, next⟩ log := by
    intro pending hMem hStage hJoint
    obtain ⟨cursor, hCursor, hBarriers⟩ := h.barriers pending hMem
    exact hBarriers.restage (hAbove cursor hCursor) hStage hJoint (hLearner pending hMem)
  have hLogged : ∀ other ∈ some log, ∃ cursor ∈ some log, other.index ≤ cursor.index :=
    fun other hOther => ⟨other, hOther, le_rfl⟩
  rcases ReplicationHistory.transition_stage hNext with ⟨rfl, rfl⟩ |
    ⟨pending, final, hPending, hStage, rfl⟩
  · refine ⟨h.learners, fun pending hMem => ⟨log, rfl, ?_⟩, hLogged⟩
    obtain ⟨cursor, -, hBarriers⟩ := h.barriers pending hMem
    exact hRestage pending hMem hBarriers.stage fun hSplit hNone =>
      hBarriers.unacknowledged hNone hSplit
  · obtain ⟨_, -, hBarriers⟩ := h.barriers pending hPending
    have hPlan := (RaftAuthorization.joinPlanData_eq_ok.mp hBarriers.plan).1
    refine ⟨h.learners.stage hPlan hPending hStage, fun other hMem => ⟨log, rfl, ?_⟩, hLogged⟩
    cases hStage with
    | addLearner hStable hConfigs hNodes =>
        obtain rfl := Option.some.inj (hPending.symm.trans hMem)
        exact hRestage pending hPending (Or.inl hConfigs) (by simp [hConfigs])
    | removeLearner hStable hConfigs hNodes =>
        obtain rfl := Option.some.inj (hPending.symm.trans hMem)
        exact hRestage pending hPending (Or.inl hConfigs) (by simp [hConfigs])
    | enterJoint ack hAck hStable hPresent hConfigs hNodes =>
        obtain rfl := Option.some.inj (hPending.symm.trans hMem)
        exact hRestage pending hPending (Or.inr hConfigs) (by simp [hAck])
    | promote ack hAck hSplit hConfigs hNodes => cases hMem

/-- An accepted command entry keeps the order. -/
theorem Ordered.command (h : source.Ordered auth) {entry : Entry} {command : AdmissionCommand}
    (hPayload : entry.payload = .normal (.admissionMembership command))
    (hData : history.data valid auth entry = .ok ()) (hAbove : source.Before entry.logId)
    {next : Option PreparedJoin} (hNext : CommandStage source entry.logId frontier command next) :
    Ordered auth { source with pending := next, cursor := some entry.logId } := by
  have hAdvanced := h.advance hAbove
  have hLog : auth.log (some entry.logId) = .ok () := by
    simp only [ReplicationHistory.data, Checks.bind_eq_ok] at hData
    exact hData.choose_spec.1
  have hBefore := ReplicationHistory.data_command hPayload hData
  refine ⟨h.learners.command hNext, ?_, hAdvanced.logged⟩
  cases hNext with
  | @prepare plan hNone hStable =>
      refine fun pending hMem => ⟨entry.logId, rfl, ?_⟩
      obtain rfl := Option.some.inj hMem
      have hPlan : auth.joinPlanData plan = .ok () := by
        simp only [ReplicationHistory.data, hPayload, Checks.bind_eq_ok] at hData
        exact hData.choose_spec.2
      refine ⟨hPlan, hLog, by simp [RaftAuthorization.log], le_rfl, Or.inl hStable, ?_,
        fun _ hAck => (by cases hAck), fun _ => by simp [hStable]⟩
      rintro (hPresent | hSplit)
      · exact absurd hPresent (h.learners.nobody hNone _)
      · rw [hStable] at hSplit
        simp at hSplit
  | prepareAgain hPending =>
      rw [← hPending]
      exact hAdvanced.barriers
  | cancel => exact fun _ hMem => by cases hMem
  | @acknowledge pending membershipLog hPending hCommitted hNone hStable hLearner hMembershipLog
      hLogged =>
      obtain ⟨cursor, hCursor, hLe⟩ := h.logged membershipLog hMembershipLog
      have hOrder : membershipLog.index < entry.logId.index := hLe.trans_lt (hAbove cursor hCursor)
      obtain ⟨_, hMem, hBarriers⟩ := hAdvanced.barriers pending hPending
      obtain rfl := Option.some.inj hMem
      refine fun current hCurrent => ⟨entry.logId, rfl, ?_⟩
      obtain rfl := Option.some.inj hCurrent
      refine ⟨hBarriers.plan, hBarriers.preparedLog, hLog, hBarriers.prepared, hBarriers.stage,
        hBarriers.learner, fun ack hNew => ?_, fun hAbsent => by cases hAbsent⟩
      obtain rfl := Option.some.inj hNew
      refine ⟨hBefore, le_rfl, ?_⟩
      simp [RaftAuthorization.ackInOrder, hMembershipLog, hStable, hLearner, hOrder,
        -Membership.mem_learnerIds]
  | acknowledgeAgain hPending =>
      rw [← hPending]
      exact hAdvanced.barriers

theorem Ordered.apply (h : source.Ordered auth) {entry : Entry} (hAbove : source.Before entry.logId)
    (hLearner : ∀ membership, entry.payload = .membership membership →
      ∀ pending ∈ source.pending, ¬pending.Relearns membership)
    (hData : history.data valid auth entry = .ok ())
    (hApply : history.apply valid auth frontier source entry = .ok after) :
    after.Ordered auth := by
  cases ReplicationHistory.apply_eq_ok.mp hApply with
  | other => exact h.advance hAbove
  | membership hPayload hNext => exact h.membership hAbove (hLearner _ hPayload) hNext
  | command hPayload hNext => exact h.command hPayload hData hAbove hNext

/-- The order depends on the session and the configured roster only. -/
theorem Ordered.congr {other : RaftAuthorization} (h : source.Ordered auth)
    (hSession : other.session = auth.session)
    (hIds : other.configuredPhysicalIds = auth.configuredPhysicalIds) : source.Ordered other where
  learners := h.learners
  barriers := by
    intro pending hMem
    obtain ⟨cursor, hCursor, hBarriers⟩ := h.barriers pending hMem
    have hLog : other.log = auth.log := by
      funext log
      simp [RaftAuthorization.log, hIds]
    have hPlan : other.joinPlanData pending.plan = .ok () := by
      rw [RaftAuthorization.joinPlanData_eq_ok, hIds, hSession]
      exact RaftAuthorization.joinPlanData_eq_ok.mp hBarriers.plan
    exact ⟨cursor, hCursor, hPlan, hLog ▸ hBarriers.preparedLog,
      hLog ▸ hBarriers.ackLog, hBarriers.prepared, hBarriers.stage, hBarriers.learner, hBarriers.ack,
      hBarriers.unacknowledged⟩
  logged := h.logged

end SourceState

/-! ### Accepted logs -/

/-- The entry is no learner stage of a pending join that is already acknowledged. -/
def KeepsAcknowledged (state : KafStorageState) (entry : Entry) : Prop :=
  ∀ membership, entry.payload = .membership membership →
    ∀ pending ∈ state.preparedJoin, ¬pending.Relearns membership

/-- The pending join of the state passes the barrier test. -/
def KafStorageState.PassesBarriers (cfg : Config) (session : AdmissionSession)
    (state : KafStorageState) : Prop :=
  ∀ pending ∈ state.preparedJoin, ∀ auth : RaftAuthorization, auth.session = session →
    auth.configuredPhysicalIds = cfg.physicalIds →
    auth.snapshotPreparedJoin pending state.lastMembership state.lastAppliedLog = .ok ()

/-- An authority with this session on this roster. Replays read nothing else of it. -/
def authorityOf (cfg : Config) (session : AdmissionSession) : RaftAuthorization where
  session := session
  peer := session.context.localReplica
  configuredPhysicalIds := cfg.physicalIds
  voters := ∅
  logReplicas := ∅
  memberships := []
  committedMembership := ⟨none, .default⟩
  lastApplied := none
  preparedJoin := none
  verifiedBootstrap := none
  replication := none

theorem rosterOf_learnerIds (valid : MembershipCheck) (cfg : Config)
    (genesis : Genesis) (replica : ReplicaId) :
    replica ∉ (rosterOf valid cfg genesis).learnerIds := by
  rw [rosterOf]
  split
  · next membership hMembership =>
      simp only [RaftAuthorization.makeMembership, Checks.bind_eq_ok, okOr_eq_ok,
        Checks.mapError_eq_ok] at hMembership
      obtain ⟨nodes, hNodes, hNew⟩ := hMembership
      rw [Membership.new_eq_ok hNew, Membership.mem_learnerIds, mem_addressed hNodes]
      simp [Membership.voterIds]
  · simp [Membership.default]

section Accepted

variable {valid : MembershipCheck} {cfg : Config}
  {session : AdmissionSession} {config : StoreConfig} {log : List Entry}

theorem start_ordered (auth : RaftAuthorization) :
    SourceState.Ordered auth ⟨⟨none, rosterOf valid cfg session.context.genesis⟩, none, none⟩ where
  learners := fun replica hReplica => absurd hReplica (rosterOf_learnerIds _ _ _ replica)
  barriers := fun _ hNone => by cases hNone
  logged := fun _ hNone => by cases hNone

/-- As long as no learner is added again, the barriers of an accepted log are in order. -/
theorem AcceptedLog.ordered (hLog : AcceptedLog valid cfg session config log)
    (hReady : ReadyPreparations session.context.genesis config log)
    (hKept : Throughout config KeepsAcknowledged log) :
    ∃ source : SourceState,
      source.Tracks session.context.genesis (rosterOf valid cfg session.context.genesis)
        (log.foldl KafStorageState.step config.start).admissionView ∧
      ∀ auth : RaftAuthorization, auth.session = session →
        auth.configuredPhysicalIds = cfg.physicalIds → source.Ordered auth := by
  refine hLog.keeps hReady (motive := fun _ source => ∀ auth : RaftAuthorization,
    auth.session = session → auth.configuredPhysicalIds = cfg.physicalIds → source.Ordered auth)
    (fun auth _ _ => start_ordered auth) ?_
  intro before entry source after auth hFront hJudged hOrdered other hSession hIds
  obtain ⟨history, hData, frontier, hApply⟩ := hJudged.data
  refine ((hOrdered auth hJudged.session_eq hJudged.ids).apply hJudged.above ?_ hData hApply).congr
    (hSession.trans hJudged.session_eq.symm) (hIds.trans hJudged.ids.symm)
  intro membership hPayload pending hMem
  exact hKept before entry hFront membership hPayload pending (hJudged.tracks.pending.symm.trans hMem)

/-- Barriers in order pass the test. -/
theorem SourceState.Tracks.passesBarriers {source : SourceState} {state : KafStorageState}
    (hTracks : source.Tracks session.context.genesis (rosterOf valid cfg session.context.genesis)
      state.admissionView)
    (hOrdered : ∀ auth : RaftAuthorization, auth.session = session →
      auth.configuredPhysicalIds = cfg.physicalIds → source.Ordered auth) :
    state.PassesBarriers cfg session := by
  intro pending hPending auth hSession hIds
  have hMem : pending ∈ source.pending := hTracks.pending.trans hPending
  obtain ⟨cursor, hCursor, hOrder⟩ := (hOrdered auth hSession hIds).barriers pending hMem
  have hSome : state.preparedJoin ≠ none := by simp [Option.mem_def.mp hPending]
  have hMembership : source.membership = state.lastMembership :=
    hTracks.formed (hTracks.ready hSome).voters
  have hApplied : source.cursor = state.lastAppliedLog := hTracks.cursor
  exact RaftAuthorization.snapshotPreparedJoin_eq_ok.mpr
    ⟨cursor, hApplied ▸ hCursor, hMembership ▸ hOrder⟩

/-- A learner that is added again after the acknowledgement fails the test. -/
theorem SourceState.Tracks.keepsAcknowledged {source : SourceState} {state : KafStorageState}
    {roster : Membership} {entry : Entry}
    (hTracks : source.Tracks session.context.genesis roster state.admissionView)
    (hAbove : source.Before entry.logId) (hBefore : state.PassesBarriers cfg session)
    (hAfter : (state.step entry).PassesBarriers cfg session) : KeepsAcknowledged state entry := by
  intro membership hPayload pending hPending hAgain
  obtain ⟨hAcked, hStable, hLearner⟩ := hAgain
  obtain ⟨ack, hAck⟩ := Option.ne_none_iff_exists'.mp hAcked
  have hView := state.admissionView_step entry
  rw [AdmissionView.step, hPayload] at hView
  have hKept : (state.step entry).preparedJoin = some pending := by
    refine (congrArg AdmissionView.preparedJoin hView).trans
      ((AdmissionView.pendingAfter_kept fun other hOther => ?_).trans hPending)
    exact (hTracks.inOrder other (hTracks.pending.trans hOther)).not_completedBy
      (.inl (Option.some.inj (hPending.symm.trans hOther) ▸ hStable))
  have hMembership : (state.step entry).lastMembership = ⟨some entry.logId, membership⟩ :=
    congrArg AdmissionView.lastMembership hView
  obtain ⟨applied, hApplied, hOld⟩ := RaftAuthorization.snapshotPreparedJoin_eq_ok.mp
    (hBefore pending hPending (authorityOf cfg session) rfl rfl)
  obtain ⟨_, -, hNew⟩ := RaftAuthorization.snapshotPreparedJoin_eq_ok.mp
    (hAfter pending hKept (authorityOf cfg session) rfl rfl)
  have hLe := (hOld.ack ack hAck).2.1
  have hLt := hAbove applied (hTracks.cursor.trans hApplied)
  have hOrder := (hNew.ack ack hAck).2.2
  rw [hMembership] at hOrder
  have hPrevious : RaftAuthorization.stablePrevious membership pending.plan = true :=
    RaftAuthorization.stablePrevious_eq_true.mpr hStable
  have hSplit : RaftAuthorization.jointOf membership pending.plan = false := by
    simp [RaftAuthorization.jointOf, hStable, Membership.getJointConfig]
  simp [RaftAuthorization.ackInOrder, hPrevious, hSplit, hLearner, -Membership.mem_learnerIds] at hOrder
  omega

end Accepted

/-! ### Where authorization gives its answer about barriers -/

/-- The reason with which authorization refuses a pending join out of order. -/
def wedged : AdmissionDenied := ⟨"pending join has no consistent committed barriers"⟩

namespace RaftAuthorization

open Checks (Avoids)

theorem avoids_mapError {α : Type} {check : Except AdmissionDenied α} {reason : String}
    (h : reason ≠ wedged.reason) :
    Avoids wedged (check.mapError fun _ => AdmissionDenied.mk reason) := by
  intro hError
  cases check with
  | ok _ => cases hError
  | error _ => exact h (congrArg AdmissionDenied.reason (Except.error.inj hError))

variable (valid : MembershipCheck) (cfg : Config)

theorem makeMembership_avoids (configs : List (Finset ReplicaId)) (ids : Finset ReplicaId) :
    Avoids wedged (makeMembership valid cfg configs ids) :=
  (avoids_okOr (by decide) _).bind fun _ _ => avoids_mapError (by decide)

theorem baseMembership_avoids (state : KafStorageState) (context : AdmissionContext)
    (bootstrapping : Option PreparedJoin) :
    Avoids wedged (baseMembership valid cfg state context bootstrapping) := by
  rw [baseMembership]
  split
  · exact avoids_guard (by decide) <|
      (makeMembership_avoids valid cfg _ _).bind fun _ _ => .ok _ _
  · exact .ok _ _

theorem bootstrapMemberships_avoids (auth : RaftAuthorization) (bootstrapping : Option PreparedJoin) :
    Avoids wedged (bootstrapMemberships valid cfg auth bootstrapping) := by
  cases bootstrapping with
  | none => exact .ok _ _
  | some proof =>
      exact (avoids_mapError (by decide)).bind fun _ _ =>
        (makeMembership_avoids valid cfg _ _).bind fun _ _ =>
        (makeMembership_avoids valid cfg _ _).bind fun _ _ => .ok _ _

theorem pendingMemberships_avoids (current : Membership) (pending : PreparedJoin) :
    Avoids wedged (pendingMemberships valid cfg current pending) := by
  simp only [pendingMemberships]
  split
  · refine (makeMembership_avoids valid cfg _ _).bind fun _ _ =>
      (makeMembership_avoids valid cfg _ _).bind fun _ _ => ?_
    split
    · exact (makeMembership_avoids valid cfg _ _).bind fun _ _ => .ok _ _
    · exact .ok _ _
  · split
    · exact (makeMembership_avoids valid cfg _ _).bind fun _ _ => .ok _ _
    · exact .ok _ _

/-- With the barriers in order the pending join is not refused. -/
theorem pendingAuthority_avoids {auth : RaftAuthorization}
    (h : ∀ pending ∈ auth.preparedJoin,
      auth.snapshotPreparedJoin pending auth.committedMembership auth.lastApplied = .ok ()) :
    Avoids wedged (pendingAuthority valid cfg auth) := by
  rw [pendingAuthority]
  cases hPending : auth.preparedJoin with
  | none => exact avoids_guard (by decide) <| .ok _ _
  | some pending =>
      simp only [h pending hPending]
      exact (Avoids.ok _ ()).bind fun _ _ => (pendingMemberships_avoids valid cfg _ _).bind
        fun _ _ => .ok _ _

theorem fromState_avoids {state : KafStorageState} {session : AdmissionSession}
    (hSession : state.admission = some session)
    (hFormed : state.preparedJoin ≠ none → state.lastMembership.membership.voterIds ≠ ∅)
    (h : state.PassesBarriers cfg session) (peer : ReplicaId)
    (verified : Option VerifiedJoinBootstrap) :
    Avoids wedged (fromState valid cfg state (.ok ()) peer verified) := by
  rw [fromState]
  refine (avoids_okOr (by decide) _).bind fun current hCurrent => (Avoids.ok _ ()).bind fun _ _ =>
    avoids_guard (by decide) <| avoids_guard (by decide) <|
    (avoids_okOr (by decide) _).bind fun _ _ => avoids_guard (by decide) <| ?_
  obtain rfl := Option.some.inj (hSession.symm.trans (okOr_eq_ok.mp hCurrent))
  refine Avoids.bind ?_ fun _ _ => avoids_guard (by decide) <|
    (baseMembership_avoids valid cfg _ _ _).bind fun committed hBase =>
    avoids_guard (by decide) <| (makeMembership_avoids valid cfg _ _).bind fun _ _ =>
    avoids_guard (by decide) <| (bootstrapMemberships_avoids valid cfg _ _).bind
    fun _ _ => (pendingAuthority_avoids valid cfg fun pending hPending => ?_).bind fun _ _ =>
    avoids_guard (by decide) <| .ok _ _
  · cases verified with
    | none => exact .ok _ ()
    | some proof => exact avoids_ensure (by decide) _
  · have hPending : state.preparedJoin = some pending := hPending
    have hVoters := hFormed (by simp [hPending])
    rw [baseMembership, if_neg hVoters] at hBase
    obtain rfl := Except.ok.inj hBase
    exact h pending hPending _ rfl rfl

end RaftAuthorization

namespace AcceptedLog

variable {valid : MembershipCheck} {cfg : Config}
  {session : AdmissionSession} {config : StoreConfig} {log : List Entry}

theorem passes_iff (hLog : AcceptedLog valid cfg session config log)
    (hReady : ReadyPreparations session.context.genesis config log) :
    (∀ before, before <+: log →
        (before.foldl KafStorageState.step config.start).PassesBarriers cfg session) ↔
      Throughout config KeepsAcknowledged log := by
  refine ⟨fun hPass => ?_, fun hKept before hFront => ?_⟩
  · obtain ⟨-, -, hKept⟩ := hLog.keeps hReady
      (motive := fun log _ => Throughout config KeepsAcknowledged log) .nil
      fun {before entry source after auth} hFront hJudged hKept => by
        have hAfter := hPass _ hFront
        rw [List.foldl_concat] at hAfter
        exact hKept.concat (hJudged.tracks.keepsAcknowledged hJudged.above
          (hPass before ((List.prefix_append _ _).trans hFront)) hAfter)
    exact hKept
  · obtain ⟨source, hTracks, hOrdered⟩ :=
      (hLog.front hFront).ordered (hReady.front hFront) (hKept.front hFront)
    exact hTracks.passesBarriers hOrdered

/-- Where a join is pending, genesis and a membership are applied. -/
theorem ready_of_pending (hLog : AcceptedLog valid cfg session config log)
    (hReady : ReadyPreparations session.context.genesis config log)
    (hPending : (log.foldl KafStorageState.step config.start).preparedJoin ≠ none) :
    (log.foldl KafStorageState.step config.start).admissionView.Ready session.context.genesis := by
  obtain ⟨source, hTracks, -⟩ := hLog.keeps hReady (motive := fun _ _ => True) trivial
    fun _ _ _ => trivial
  exact hTracks.ready hPending

end AcceptedLog

/-- On an accepted log whose preparations met a ready state wherever a join is pending, the pending
join passes the barrier test all along exactly as long as no learner is added again after the
acknowledgement, and then authorization is never refused for it. -/
theorem accepted_log_authorizes (valid : MembershipCheck) (cfg : Config)
    (session : AdmissionSession) (config : StoreConfig) (log : List Entry)
    (hLog : AcceptedLog valid cfg session config log)
    (hReady : ReadyWherePending session.context.genesis config log) :
    ((∀ before, before <+: log →
        (before.foldl KafStorageState.step config.start).PassesBarriers cfg session) ↔
      Throughout config KeepsAcknowledged log) ∧
    (Throughout config KeepsAcknowledged log →
      ∀ (node : KafStorageState) (peer : ReplicaId) (verified : Option VerifiedJoinBootstrap),
        node.admission = some session →
        RaftAuthorization.fromState valid cfg
            ((log.foldl KafStorageState.step config.start).withLocal node) (.ok ()) peer verified ≠
          .error ⟨"pending join has no consistent committed barriers"⟩) := by
  have hPasses : Throughout config KeepsAcknowledged log → ∀ before, before <+: log →
      (before.foldl KafStorageState.step config.start).PassesBarriers cfg session := by
    intro hKept before hFront pending hPending
    have hBefore := hReady before hFront (Option.isSome_iff_ne_none.mp (Option.isSome_of_mem hPending))
    exact ((hLog.front hFront).passes_iff hBefore).mpr (hKept.front hFront) before List.prefix_rfl
      pending hPending
  refine ⟨⟨fun hPass before entry hFront membership hPayload pending hPending => ?_, hPasses⟩,
    fun hKept node peer verified hSession => ?_⟩
  · have hBefore : before <+: log := (List.prefix_append _ _).trans hFront
    have hSome : (before.foldl KafStorageState.step config.start).preparedJoin ≠ none :=
      Option.isSome_iff_ne_none.mp (Option.isSome_of_mem hPending)
    have hEarlier := hReady before hBefore hSome
    have hConcat : ReadyPreparations session.context.genesis config (before ++ [entry]) :=
      hEarlier.concat fun _ _ => (hLog.front hBefore).ready_of_pending hEarlier hSome
    exact ((hLog.front hFront).passes_iff hConcat).mp (fun other hOther =>
      hPass other (hOther.trans hFront)) before entry List.prefix_rfl membership hPayload pending
        hPending
  · have hLocal : ((log.foldl KafStorageState.step config.start).withLocal node).admission =
        some session := hSession
    exact RaftAuthorization.fromState_avoids valid cfg hLocal
      (fun hSome => (hLog.ready_of_pending (hReady log List.prefix_rfl hSome) hSome).voters)
      (hPasses hKept log List.prefix_rfl) peer verified

/-! ### The sample cluster -/

/-- The log is accepted by an empty process in one request. -/
theorem accepted_wholeLog (entries : List Entry) (last : Nat)
    (h : (do
      let auth ← RaftAuthorization.fromState documentedCheck rejoinConfig
        (rejoinStore.start.withLocal rejoinNode) (.ok ()) ⟨2, 0⟩ none
      (ReplicationHistory.fromState rejoinConfig (rejoinStore.start.withLocal rejoinNode)).validate
        documentedCheck auth (wholeLog entries last)) = .ok ()) :
    AcceptedLog documentedCheck rejoinConfig rejoinSession rejoinStore entries := by
  obtain ⟨accepted, hNode, hRequest⟩ := exists_acceptance rejoinStore.start rejoinNode
    (wholeLog entries last) rfl rfl h
  have hEntries : entries <+: accepted.entries := by
    have hAll : (rejoinStore.start.withLocal rejoinNode).unapplied entries = entries :=
      KafStorageState.unapplied_eq_self fun _ _ _ hLast => by cases hLast
    rw [Acceptance.entries, hNode, hRequest]
    exact hAll.symm ▸ List.prefix_rfl
  rw [← List.nil_append entries]
  exact .apply .start accepted hEntries

/-- The learner is removed after its acknowledgement and added again. -/
def relearnEntries : List Entry :=
  rejoinEntriesAll ++ rejoinEntries [.membership (rejoinMembership [rejoinVoters] rejoinVoters),
    .membership (rejoinMembership [rejoinVoters] (insert ⟨3, 1⟩ rejoinVoters))] 5

theorem relearnEntries_ready : ReadyPreparations rejoinGenesis rejoinStore relearnEntries := by
  refine throughout_iff.mpr fun i h plan hPayload => ?_
  have hLength : i < 7 := h
  by_cases hSecond : i = 2
  · subst hSecond
    exact ⟨by decide +kernel, by decide +kernel⟩
  · interval_cases i <;> cases hPayload
    exact absurd rfl hSecond

/-- The acknowledged join of the sample cluster passes the barrier test. -/
theorem accepted_log_authorizes_rejoin :
    AcceptedLog documentedCheck rejoinConfig rejoinSession rejoinStore rejoinEntriesAll ∧
      ReadyPreparations rejoinGenesis rejoinStore rejoinEntriesAll ∧
      (rejoinEntriesAll.foldl KafStorageState.step rejoinStore.start).preparedJoin =
        some ⟨rejoinPlan, rejoinLog 2, some (rejoinLog 4)⟩ ∧
      (rejoinEntriesAll.foldl KafStorageState.step rejoinStore.start).PassesBarriers rejoinConfig
        rejoinSession := by
  have hLog := accepted_wholeLog rejoinEntriesAll 4 (by decide +kernel)
  have hReady := relearnEntries_ready.front (List.prefix_append rejoinEntriesAll _)
  have hKept : Throughout rejoinStore KeepsAcknowledged rejoinEntriesAll := by
    refine throughout_iff.mpr fun i h membership hPayload pending hPending hAgain => ?_
    have hLength : i < 5 := h
    have hNone : ((rejoinEntriesAll.take 3).foldl KafStorageState.step rejoinStore.start).preparedJoin =
        some ⟨rejoinPlan, rejoinLog 2, none⟩ := by decide +kernel
    interval_cases i <;> cases hPayload
    · cases hPending
    · obtain rfl := Option.some.inj (hNone.symm.trans hPending)
      exact hAgain.1 rfl
  exact ⟨hLog, hReady, by decide +kernel, (accepted_log_authorizes documentedCheck rejoinConfig
    rejoinSession rejoinStore rejoinEntriesAll hLog fun _ hFront _ => hReady.front hFront).1.mpr hKept _
    List.prefix_rfl⟩

/-- Accepted entries can block authorization: with the learner added again after its
acknowledgement the barrier test fails, and authorization is refused for it. -/
theorem accepted_log_wedges :
    AcceptedLog documentedCheck rejoinConfig rejoinSession rejoinStore relearnEntries ∧
      ReadyPreparations rejoinGenesis rejoinStore relearnEntries ∧
      ¬(relearnEntries.foldl KafStorageState.step rejoinStore.start).PassesBarriers rejoinConfig
        rejoinSession ∧
      RaftAuthorization.fromState documentedCheck rejoinConfig
          ((relearnEntries.foldl KafStorageState.step rejoinStore.start).withLocal rejoinNode) (.ok ())
          ⟨2, 0⟩ none = .error ⟨"pending join has no consistent committed barriers"⟩ := by
  refine ⟨accepted_wholeLog relearnEntries 6 (by decide +kernel), relearnEntries_ready, fun hPass => ?_, ?_⟩
  · have hBarriers := hPass ⟨rejoinPlan, rejoinLog 2, some (rejoinLog 4)⟩ (by decide +kernel)
      (authorityOf rejoinConfig rejoinSession) rfl rfl
    obtain ⟨applied, -, hOrder⟩ := RaftAuthorization.snapshotPreparedJoin_eq_ok.mp hBarriers
    obtain ⟨-, -, hStage⟩ := hOrder.ack (rejoinLog 4) rfl
    exact absurd hStage (by decide +kernel)
  · have hRefused : (RaftAuthorization.fromState documentedCheck rejoinConfig
        ((relearnEntries.foldl KafStorageState.step rejoinStore.start).withLocal rejoinNode) (.ok ())
        ⟨2, 0⟩ none).map (fun _ => ()) =
          .error ⟨"pending join has no consistent committed barriers"⟩ := by
      decide +kernel
    exact Checks.map_eq_error.mp hRefused

end KeepAfloat
