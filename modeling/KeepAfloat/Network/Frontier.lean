import KeepAfloat.Network.Refinement

/-! Acceptance and the commit frontier. Everything that the validator asks to be
committed lies below the entry that asks, so an accepted entry stays acceptable when
the frontier moves up, or when it only covers what lies below that entry. -/

namespace KeepAfloat

/-- openraft's check of a membership, as documented: no voter set is empty and every
voter has an address. -/
def DocumentedCheck (valid : MembershipCheck) : Prop :=
  ∀ membership : Membership, valid membership = .ok () ↔
    ∀ config ∈ membership.configs, config.Nonempty ∧ ∀ voter ∈ config, voter ∈ membership.nodes

/-- The second frontier covers the first, for positions below `bound`. -/
def Covers (bound : Nat) (first second : Option LogId) : Prop :=
  ∀ log : LogId, log.index < bound → ReplicationHistory.isCommitted log first = true →
    ReplicationHistory.isCommitted log second = true

namespace SourceState

/-- Positions that the replay remembers are not above its cursor, and its pending plan
is a replacement. -/
structure Sane (source : SourceState) : Prop where
  plan : ∀ pending ∈ source.pending, pending.plan.validate = .ok ()
  prepared : ∀ pending ∈ source.pending, ∃ cursor ∈ source.cursor,
    pending.prepared.index ≤ cursor.index
  ack : ∀ pending ∈ source.pending, ∀ ack ∈ pending.learnerApplied, ∃ cursor ∈ source.cursor,
    ack.index ≤ cursor.index
  logged : ∀ log ∈ source.membership.logId, ∃ cursor ∈ source.cursor, log.index ≤ cursor.index

variable {valid : MembershipCheck} {history : ReplicationHistory}
  {auth : RaftAuthorization} {frontier : Option LogId} {source after : SourceState}

theorem Sane.advance (h : source.Sane) {log : LogId} (hAbove : source.Before log) :
    Sane { source with cursor := some log } := by
  have hLater : ∀ index, (∃ cursor ∈ source.cursor, index ≤ cursor.index) →
      ∃ cursor ∈ some log, index ≤ cursor.index := by
    rintro index ⟨cursor, hCursor, hLe⟩
    exact ⟨log, rfl, hLe.trans (hAbove cursor hCursor).le⟩
  exact ⟨h.plan, fun pending hMem => hLater _ (h.prepared pending hMem),
    fun pending hMem ack hAck => hLater _ (h.ack pending hMem ack hAck),
    fun other hOther => hLater _ (h.logged other hOther)⟩

theorem Sane.membership (h : source.Sane) {next : Membership} {log : LogId}
    (hAbove : source.Before log)
    (hNext : history.transition valid source next log frontier = .ok after) :
    Sane { after with cursor := some log } := by
  have hAdvanced := h.advance hAbove
  have hLogged : ∀ other ∈ some log, ∃ cursor ∈ some log, other.index ≤ cursor.index :=
    fun other hOther => ⟨other, hOther, le_rfl⟩
  rcases ReplicationHistory.transition_stage hNext with ⟨-, rfl⟩ | ⟨pending, final, -, -, rfl⟩
  · exact ⟨hAdvanced.plan, hAdvanced.prepared, hAdvanced.ack, hLogged⟩
  · cases final with
    | false => exact ⟨hAdvanced.plan, hAdvanced.prepared, hAdvanced.ack, hLogged⟩
    | true =>
        exact ⟨fun _ hMem => (by cases hMem), fun _ hMem => (by cases hMem),
          fun _ hMem => (by cases hMem), hLogged⟩

theorem Sane.command (h : source.Sane) {command : AdmissionCommand} {log : LogId}
    {genesis : Genesis} (hData : CommandData genesis log command)
    (hAbove : source.Before log) {next : Option PreparedJoin}
    (hNext : CommandStage source log frontier command next) :
    Sane { source with pending := next, cursor := some log } := by
  have hAdvanced := h.advance hAbove
  cases hNext with
  | prepare hNone hStable =>
      refine ⟨fun pending hMem => ?_, fun pending hMem => ⟨log, rfl, ?_⟩,
        fun pending hMem ack hAck => ?_, hAdvanced.logged⟩
      · rw [← Option.some.inj hMem]
        exact hData.1
      · rw [← Option.some.inj hMem]
      · rw [← Option.some.inj hMem] at hAck
        cases hAck
  | prepareAgain hPending =>
      rw [← hPending]
      exact hAdvanced
  | cancel =>
      exact ⟨fun _ hMem => (by cases hMem), fun _ hMem => (by cases hMem),
        fun _ hMem => (by cases hMem), hAdvanced.logged⟩
  | @acknowledge current _ hPending =>
      refine ⟨fun pending hMem => ?_, fun pending hMem => ?_, fun pending hMem ack hNew => ?_,
        hAdvanced.logged⟩
      · rw [← Option.some.inj hMem]
        exact hAdvanced.plan current hPending
      · rw [← Option.some.inj hMem]
        exact hAdvanced.prepared current hPending
      · rw [← Option.some.inj hMem] at hNew
        exact ⟨ack, hNew, le_rfl⟩
  | acknowledgeAgain hPending =>
      rw [← hPending]
      exact hAdvanced

theorem Sane.apply (h : source.Sane) {entry : Entry} (hAbove : source.Before entry.logId)
    (hData : history.data valid auth entry = .ok ())
    (hApply : history.apply valid auth frontier source entry = .ok after) : after.Sane := by
  cases ReplicationHistory.apply_eq_ok.mp hApply with
  | other => exact h.advance hAbove
  | membership hPayload hNext => exact h.membership hAbove hNext
  | command hPayload hNext =>
      exact h.command (ReplicationHistory.data_command hPayload hData) hAbove hNext

end SourceState

namespace ReplicationHistory

variable {valid : MembershipCheck} {history : ReplicationHistory}
  {auth : RaftAuthorization} {first second : Option LogId} {source after : SourceState}

/-- The membership of a validated plan can enter its joint configuration wherever the
learner could be added. -/
theorem membership_joint (hValid : DocumentedCheck valid) {plan : JoinPlan}
    (hPlan : plan.validate = .ok ()) {ids : Finset ReplicaId} (hConsumer : plan.consumer ∈ ids)
    {added : Membership} (hAdded : history.membership valid [plan.previousVoters] ids = .ok added) :
    ∃ joint, history.membership valid [plan.previousVoters, plan.nextVoters] ids = .ok joint := by
  simp only [ReplicationHistory.membership, Membership.new, Checks.bind_eq_ok, okOr_eq_ok,
    Checks.pure_eq_ok] at hAdded ⊢
  obtain ⟨nodes, hNodes, _, hAccepted, -⟩ := hAdded
  have hVoters := (hValid ⟨[plan.previousVoters], nodes⟩).mp hAccepted
  simp only [List.mem_singleton, forall_eq] at hVoters
  refine ⟨⟨[plan.previousVoters, plan.nextVoters], nodes⟩, nodes, hNodes, (), ?_, rfl⟩
  rw [hValid]
  simp only [List.mem_cons, List.not_mem_nil, or_false]
  rintro config (rfl | rfl)
  · exact hVoters
  · refine ⟨⟨plan.consumer, JoinPlan.consumer_mem_next hPlan⟩, fun voter hVoter => ?_⟩
    rw [(JoinPlan.validate_eq_ok.mp hPlan).2.2.2, JoinPlan.expectedVoters, Finset.mem_insert,
      Finset.mem_filter] at hVoter
    rcases hVoter with rfl | ⟨hPrevious, -⟩
    · exact (mem_addressed hNodes _).mpr hConsumer
    · exact hVoters.2 voter hPrevious

theorem stablePermitted_mono (hValid : DocumentedCheck valid) {pending : PreparedJoin}
    (hPlan : pending.plan.validate = .ok ()) {current : Membership} {permitted : List Membership}
    (hAck : pending.learnerApplied.any (isCommitted · first) = true →
      pending.learnerApplied.any (isCommitted · second) = true)
    (h : history.stablePermitted valid current pending first = .ok permitted) :
    ∃ wider, history.stablePermitted valid current pending second = .ok wider ∧
      ∀ membership ∈ permitted, membership ∈ wider := by
  simp only [stablePermitted, Checks.bind_eq_ok] at h ⊢
  obtain ⟨added, hAdded, removed, hRemoved, hRest⟩ := h
  obtain ⟨joint, hJoint⟩ := membership_joint hValid hPlan (Finset.mem_insert_self _ _) hAdded
  by_cases hSecond : (pending.learnerApplied.any (isCommitted · second) &&
      pending.plan.consumer ∈ current.learnerIds) = true
  · refine ⟨[added, removed, joint], ⟨added, hAdded, removed, hRemoved, ?_⟩, ?_⟩
    · rw [if_pos hSecond, hJoint]
      rfl
    · intro membership hMem
      split at hRest
      · rw [hJoint] at hRest
        rwa [← Except.ok.inj hRest] at hMem
      · rw [← Except.ok.inj hRest] at hMem
        simp only [List.mem_cons, List.not_mem_nil, or_false] at hMem ⊢
        exact hMem.imp_right Or.inl
  · have hFirst : ¬ (pending.learnerApplied.any (isCommitted · first) &&
        pending.plan.consumer ∈ current.learnerIds) = true := by
      simp only [Bool.and_eq_true, not_and] at hSecond ⊢
      exact fun hCommitted => hSecond (hAck hCommitted)
    rw [if_neg hFirst] at hRest
    exact ⟨permitted, ⟨added, hAdded, removed, hRemoved, by rw [if_neg hSecond, hRest]⟩,
      fun _ hMem => hMem⟩

theorem finalPermitted_mono {pending : PreparedJoin} {current : StoredMembership}
    {permitted : List Membership}
    (hAck : pending.learnerApplied.any (isCommitted · first) = true →
      pending.learnerApplied.any (isCommitted · second) = true)
    (hLogged : current.logId.any (isCommitted · first) = true →
      current.logId.any (isCommitted · second) = true)
    (h : history.finalPermitted valid current pending first = .ok permitted) :
    history.finalPermitted valid current pending second = .ok permitted := by
  simp only [finalPermitted, Checks.bind_eq_ok] at h ⊢
  obtain ⟨_, hBarriers, hRest⟩ := h
  have hMet := of_decide_eq_true (ensure_eq_ok.mp hBarriers)
  exact ⟨(), ensure_eq_ok.mpr (decide_eq_true ⟨hMet.1, hAck hMet.2.1, hLogged hMet.2.2⟩), hRest⟩

end ReplicationHistory

variable {valid : MembershipCheck} {history : ReplicationHistory}
  {auth : RaftAuthorization} {first second : Option LogId} {source after : SourceState}
  {entry : Entry}

/-- What lies at or below the cursor of the replay stays committed. -/
theorem Covers.any {log : Option LogId} (hCovers : Covers entry.logId.index first second)
    (hAbove : source.Before entry.logId)
    (hBelow : ∀ position ∈ log, ∃ cursor ∈ source.cursor, position.index ≤ cursor.index)
    (h : log.any (ReplicationHistory.isCommitted · first) = true) :
    log.any (ReplicationHistory.isCommitted · second) = true := by
  obtain ⟨position, hPosition, hCommitted⟩ := (Option.any_eq_true _ _).mp h
  obtain ⟨cursor, hCursor, hLe⟩ := hBelow position hPosition
  exact (Option.any_eq_true _ _).mpr ⟨position, hPosition,
    hCovers position (hLe.trans_lt (hAbove cursor hCursor)) hCommitted⟩

theorem CommandStage.mono (hSane : source.Sane) (hAbove : source.Before entry.logId)
    (hCovers : Covers entry.logId.index first second) {command : AdmissionCommand}
    {next : Option PreparedJoin} (h : CommandStage source entry.logId first command next) :
    CommandStage source entry.logId second command next := by
  have hPrepared : ∀ pending, source.pending = some pending →
      ReplicationHistory.isCommitted pending.prepared first = true →
      ReplicationHistory.isCommitted pending.prepared second = true := by
    intro pending hPending hCommitted
    obtain ⟨cursor, hCursor, hLe⟩ := hSane.prepared pending hPending
    exact hCovers _ (hLe.trans_lt (hAbove cursor hCursor)) hCommitted
  cases h with
  | prepare hNone hStable => exact .prepare hNone hStable
  | prepareAgain hPending => exact .prepareAgain hPending
  | cancel hPending hCommitted hStable hRemoved =>
      exact .cancel hPending (hPrepared _ hPending hCommitted) hStable hRemoved
  | acknowledge hPending hCommitted hNone hStable hLearner hMembershipLog hLogged =>
      obtain ⟨cursor, hCursor, hLe⟩ := hSane.logged _ hMembershipLog
      exact .acknowledge hPending (hPrepared _ hPending hCommitted) hNone hStable hLearner
        hMembershipLog (hCovers _ (hLe.trans_lt (hAbove cursor hCursor)) hLogged)
  | acknowledgeAgain hPending hCommitted hSome =>
      exact .acknowledgeAgain hPending (hPrepared _ hPending hCommitted) hSome

namespace ReplicationHistory

theorem transition_mono (hValid : DocumentedCheck valid) (hSane : source.Sane)
    (hAbove : source.Before entry.logId)
    (hCovers : Covers entry.logId.index first second) {membership : Membership}
    (h : history.transition valid source membership entry.logId first = .ok after) :
    history.transition valid source membership entry.logId second = .ok after := by
  unfold transition at h ⊢
  split_ifs at h ⊢ with hSame
  · exact h
  · simp only [Checks.bind_eq_ok, okOr_eq_ok] at h ⊢
    obtain ⟨pending, hPending, _, hPrepared, permitted, hPermitted, _, hMem, hAfter⟩ := h
    obtain ⟨cursor, hCursor, hLe⟩ := hSane.prepared pending hPending
    have hAck := hCovers.any hAbove (hSane.ack pending hPending)
    have hLogged := hCovers.any hAbove hSane.logged
    have hWider : ∃ wider, history.permittedNext valid source.membership pending second =
        .ok wider ∧ ∀ membership ∈ permitted, membership ∈ wider := by
      unfold permittedNext at hPermitted ⊢
      split_ifs at hPermitted ⊢ with hStable
      · exact stablePermitted_mono hValid (hSane.plan pending hPending) hAck hPermitted
      · exact ⟨permitted, finalPermitted_mono hAck hLogged hPermitted, fun _ hMem => hMem⟩
    obtain ⟨wider, hNext, hSubset⟩ := hWider
    refine ⟨pending, hPending, (), ensure_eq_ok.mpr ?_, wider, hNext, (), ensure_eq_ok.mpr ?_,
      hAfter⟩
    · exact hCovers _ (hLe.trans_lt (hAbove cursor hCursor)) (ensure_eq_ok.mp hPrepared)
    · exact decide_eq_true (hSubset _ (of_decide_eq_true (ensure_eq_ok.mp hMem)))

/-- An accepted entry stays accepted, with the same effect. -/
theorem apply_mono (hValid : DocumentedCheck valid) (hSane : source.Sane)
    (hAbove : source.Before entry.logId) (hCovers : Covers entry.logId.index first second)
    (h : history.apply valid auth first source entry = .ok after) :
    history.apply valid auth second source entry = .ok after := by
  rw [apply_eq_ok] at h ⊢
  cases h with
  | other hMembership hCommand hAccepted => exact .other hMembership hCommand hAccepted
  | membership hPayload hNext =>
      exact .membership hPayload (transition_mono hValid hSane hAbove hCovers hNext)
  | command hPayload hNext => exact .command hPayload (hNext.mono hSane hAbove hCovers)

/-! Replayed data and steps read the configured addresses, the session and the roster
of the authority, and nothing else. -/

variable {other : ReplicationHistory} {view : RaftAuthorization}

theorem data_congr (hNodes : other.nodes = history.nodes) (hSession : view.session = auth.session)
    (hIds : view.configuredPhysicalIds = auth.configuredPhysicalIds) (entry : Entry) :
    other.data valid view entry = history.data valid auth entry := by
  cases history
  cases other
  cases auth
  cases view
  cases hNodes
  cases hSession
  cases hIds
  obtain ⟨log, payload⟩ := entry
  cases payload with
  | blank => rfl
  | membership membership => rfl
  | normal request =>
      cases request with
      | admissionMembership command => cases command <;> rfl
      | _ => rfl

theorem apply_congr (hNodes : other.nodes = history.nodes) (hSession : view.session = auth.session)
    (hIds : view.configuredPhysicalIds = auth.configuredPhysicalIds) (frontier : Option LogId)
    (source : SourceState) (entry : Entry) :
    other.apply valid view frontier source entry = history.apply valid auth frontier source entry := by
  cases history
  cases other
  cases auth
  cases view
  cases hNodes
  cases hSession
  cases hIds
  obtain ⟨log, payload⟩ := entry
  cases payload with
  | blank => rfl
  | membership membership => rfl
  | normal request => cases request <;> rfl

end ReplicationHistory

namespace Replays

variable {entries : List Entry}

theorem mono (hValid : DocumentedCheck valid) (hSane : source.Sane)
    (hReplay : Replays valid history auth first source entries after)
    (hCovers : ∀ entry ∈ entries, Covers entry.logId.index first second) :
    Replays valid history auth second source entries after := by
  induction hReplay with
  | nil source => exact .nil source
  | @cons source middle after entry rest hIndex hData hApply hRest ih =>
      have hAbove := above_of_index hIndex
      refine .cons hIndex hData ?_ (ih (hSane.apply hAbove hData hApply) fun other hOther =>
        hCovers other (List.mem_cons_of_mem _ hOther))
      exact ReplicationHistory.apply_mono hValid hSane hAbove (hCovers entry List.mem_cons_self) hApply

theorem congr {other : ReplicationHistory} {view : RaftAuthorization}
    (hReplay : Replays valid history auth first source entries after)
    (hNodes : other.nodes = history.nodes) (hSession : view.session = auth.session)
    (hIds : view.configuredPhysicalIds = auth.configuredPhysicalIds) :
    Replays valid other view first source entries after := by
  induction hReplay with
  | nil source => exact .nil source
  | cons hIndex hData hApply hRest ih =>
      refine .cons hIndex ?_ ?_ ih
      · rw [ReplicationHistory.data_congr hNodes hSession hIds, hData]
      · rw [ReplicationHistory.apply_congr hNodes hSession hIds, hApply]

end Replays

end KeepAfloat
