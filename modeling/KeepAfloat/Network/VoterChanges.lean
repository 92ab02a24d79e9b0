import KeepAfloat.Network.FollowerLog

/-! How the voters change along an accepted log. A voter set is left only through the
joint configuration of a plan that the log has prepared, learned and acknowledged in
this order, and a joint configuration is left only for its second voter set. -/

namespace KeepAfloat

/-- The membership after a log that starts from the roster. -/
def currentMembership (roster : Membership) (log : List Entry) : Membership :=
  log.foldl (fun current entry =>
    match entry.payload with
    | .membership next => next
    | _ => current) roster

theorem currentMembership_concat (roster : Membership) (log : List Entry) (entry : Entry) :
    currentMembership roster (log ++ [entry]) =
      match entry.payload with
      | .membership next => next
      | _ => currentMembership roster log := by
  rw [currentMembership, List.foldl_append]
  rfl

def DistinctMembers (voters : Finset ReplicaId) : Prop :=
  Set.InjOn ReplicaId.physicalId (voters : Set ReplicaId)

/-! ### The barriers in a log -/

/-- The entry that prepares a join. -/
def preparation (plan : JoinPlan) (prepared : LogId) : Entry :=
  ⟨prepared, .normal (.admissionMembership (.prepareJoin plan))⟩

/-- The entry that acknowledges the preparation at `prepared`. -/
def acknowledgement (plan : JoinPlan) (prepared ack : LogId) : Entry :=
  ⟨ack, .normal (.admissionMembership (.learnerApplied plan.consumer plan.requestNonce prepared))⟩

/-- The log prepares the plan and later has its consumer as learner. -/
def Learned (log : List Entry) (plan : JoinPlan) (prepared : LogId) (after : List Entry) : Prop :=
  ∃ (position : LogId) (learner : Membership), plan.consumer ∈ learner.learnerIds ∧
    (preparation plan prepared :: ⟨position, .membership learner⟩ :: after).Sublist log

/-- Preparation, learner membership and acknowledgement of that preparation precede in
this order, the first and the last within the commit frontier. -/
def BarriersLogged (log : List Entry) (frontier : Option LogId) (plan : JoinPlan) : Prop :=
  ∃ prepared ack : LogId, Learned log plan prepared [acknowledgement plan prepared ack] ∧
    ReplicationHistory.isCommitted prepared frontier = true ∧
    ReplicationHistory.isCommitted ack frontier = true

/-- What a membership entry may do to the voter sets, after `log`. -/
inductive VoterChange (log : List Entry) (frontier : Option LogId)
    (current next : List (Finset ReplicaId)) : Prop where
  | keep (hNext : next = current)
  | enter (plan : JoinPlan) (hCurrent : current = [plan.previousVoters])
      (hNext : next = [plan.previousVoters, plan.nextVoters])
      (hBarriers : BarriersLogged log frontier plan) (hConsumer : plan.consumer ∈ plan.nextVoters)
      (hOthers : ∀ replica, replica.physicalId ≠ plan.consumer.physicalId →
        (replica ∈ plan.nextVoters ↔ replica ∈ plan.previousVoters))
  | leave (previous voters : Finset ReplicaId) (hCurrent : current = [previous, voters])
      (hNext : next = [voters])

theorem Learned.mono {log later : List Entry} {plan : JoinPlan} {prepared : LogId}
    {after : List Entry} (h : Learned log plan prepared after) (hLater : log.Sublist later) :
    Learned later plan prepared after := by
  obtain ⟨position, learner, hLearner, hOrder⟩ := h
  exact ⟨position, learner, hLearner, hOrder.trans hLater⟩

/-! ### What the replay has on record -/

/-- What the log shows about the pending join of a replay. -/
structure PreparedJoin.Recorded (pending : PreparedJoin) (log : List Entry) (current : Membership) :
    Prop where
  plan : pending.plan.validate = .ok ()
  prepared : [preparation pending.plan pending.prepared].Sublist log
  learner : pending.plan.consumer ∈ current.learnerIds → Learned log pending.plan pending.prepared []
  ack : ∀ ack ∈ pending.learnerApplied, Learned log pending.plan pending.prepared
    [acknowledgement pending.plan pending.prepared ack]

theorem PreparedJoin.Recorded.later {pending : PreparedJoin} {log : List Entry}
    {current : Membership} (h : pending.Recorded log current) (entry : Entry) :
    pending.Recorded (log ++ [entry]) current where
  plan := h.plan
  prepared := h.prepared.trans (List.sublist_append_left log [entry])
  learner := fun hLearner => (h.learner hLearner).mono (List.sublist_append_left log [entry])
  ack := fun ack hAck => (h.ack ack hAck).mono (List.sublist_append_left log [entry])

/-- Where the replay of a log from the roster stands. -/
structure SourceState.Standing (roster : Membership) (log : List Entry) (source : SourceState) :
    Prop where
  current : source.membership.membership = currentMembership roster log
  distinct : ∀ voters ∈ source.membership.membership.configs, DistinctMembers voters
  learners : LearnersPlanned source.membership.membership source.pending
  pending : ∀ pending ∈ source.pending, pending.Recorded log source.membership.membership

namespace ReplicationHistory

variable {valid : MembershipCheck} {history : ReplicationHistory}
  {auth : RaftAuthorization} {frontier : Option LogId} {source after : SourceState}

theorem data_distinct {entry : Entry} {membership : Membership}
    (hPayload : entry.payload = .membership membership)
    (h : history.data valid auth entry = .ok ()) :
    ∀ voters ∈ membership.configs, DistinctMembers voters := by
  simp only [data, hPayload, Checks.bind_eq_ok] at h
  obtain ⟨_, -, _, -, _, hVoters, -⟩ := h
  have hVoters := of_decide_eq_true (ensure_eq_ok.mp hVoters)
  exact fun voters hMem => Finset.card_image_iff.mp (hVoters voters hMem).2

/-- A changed membership needs a committed preparation, and a changed voter set from the
stable one a committed acknowledgement too. -/
theorem transition_committed {membership : Membership} {log : LogId} {pending : PreparedJoin}
    (hPending : source.pending = some pending)
    (h : history.transition valid source membership log frontier = .ok after)
    (hChanged : membership ≠ source.membership.membership)
    (hStable : source.membership.membership.configs = [pending.plan.previousVoters])
    (hJoint : membership.configs = [pending.plan.previousVoters, pending.plan.nextVoters]) :
    isCommitted pending.prepared frontier = true ∧
      ∃ ack ∈ pending.learnerApplied, isCommitted ack frontier = true := by
  rw [transition, if_neg hChanged] at h
  simp only [Checks.bind_eq_ok, okOr_eq_ok, Checks.pure_eq_ok] at h
  obtain ⟨other, hOther, _, hCommitted, permitted, hPermitted, _, hNext, -⟩ := h
  obtain rfl := Option.some.inj (hPending.symm.trans hOther)
  refine ⟨ensure_eq_ok.mp hCommitted, ?_⟩
  have hNext := of_decide_eq_true (ensure_eq_ok.mp hNext)
  rw [permittedNext, if_pos (RaftAuthorization.stablePrevious_eq_true.mpr hStable)] at hPermitted
  simp only [stablePermitted, Checks.bind_eq_ok] at hPermitted
  obtain ⟨added, hAdded, removed, hRemoved, hRest⟩ := hPermitted
  have hOne : ∀ other : Membership, other.configs = [pending.plan.previousVoters] →
      membership ≠ other := by
    rintro other hConfigs rfl
    rw [hConfigs] at hJoint
    simp at hJoint
  split at hRest
  · next hAcknowledged =>
      rw [Bool.and_eq_true, Option.any_eq_true] at hAcknowledged
      exact hAcknowledged.1
  · rw [Checks.pure_eq_ok] at hRest
    subst hRest
    simp only [List.mem_cons, List.not_mem_nil, or_false] at hNext
    rcases hNext with hSame | hSame
    · exact absurd hSame (hOne added (membership_eq_ok hAdded).1)
    · exact absurd hSame (hOne removed (membership_eq_ok hRemoved).1)

end ReplicationHistory

namespace SourceState

variable {valid : MembershipCheck} {history : ReplicationHistory}
  {auth : RaftAuthorization} {frontier : Option LogId} {roster : Membership} {log : List Entry}
  {source after : SourceState} {entry : Entry}

/-- The voters change as the barriers allow. -/
theorem Standing.change (h : source.Standing roster log) {next : Membership}
    {position : LogId}
    (hNext : history.transition valid source next position frontier = .ok after) :
    VoterChange log frontier (currentMembership roster log).configs next.configs := by
  rw [← h.current]
  rcases ReplicationHistory.transition_stage hNext with ⟨rfl, -⟩ | ⟨pending, final, hPending, hStage, -⟩
  · exact .keep rfl
  · have hRecorded := h.pending pending hPending
    cases hStage with
    | addLearner hCurrent hConfigs hNodes => exact .keep (hConfigs.trans hCurrent.symm)
    | removeLearner hCurrent hConfigs hNodes => exact .keep (hConfigs.trans hCurrent.symm)
    | promote ack hAck hCurrent hConfigs hNodes => exact .leave _ _ hCurrent hConfigs
    | enterJoint _ _ hCurrent hLearner hConfigs hNodes =>
        have hChanged : next ≠ source.membership.membership := by
          rintro rfl
          rw [hCurrent] at hConfigs
          simp at hConfigs
        obtain ⟨hPrepared, ack, hAck, hCommitted⟩ := ReplicationHistory.transition_committed hPending
          hNext hChanged hCurrent hConfigs
        exact .enter pending.plan hCurrent hConfigs
          ⟨pending.prepared, ack, hRecorded.ack ack hAck, hPrepared, hCommitted⟩
          (JoinPlan.consumer_mem_next hRecorded.plan)
          fun replica hOther => JoinPlan.mem_next_of_other hRecorded.plan hOther

/-- An entry that leaves membership and pending join alone. -/
theorem Standing.skip (h : source.Standing roster log) {position : Option LogId}
    (hMembership : ∀ membership, entry.payload ≠ .membership membership) :
    Standing roster (log ++ [entry]) { source with cursor := position } where
  current := by
    rw [currentMembership_concat]
    split
    · next membership hPayload => exact absurd hPayload (hMembership membership)
    · exact h.current
  distinct := h.distinct
  learners := h.learners
  pending := fun pending hMem => (h.pending pending hMem).later entry

/-- A membership entry records the learner that it adds. -/
theorem Standing.membership (h : source.Standing roster log) {next : Membership}
    (hPayload : entry.payload = .membership next)
    (hData : history.data valid auth entry = .ok ())
    (hNext : history.transition valid source next entry.logId frontier = .ok after)
    {position : Option LogId} :
    Standing roster (log ++ [entry]) { after with cursor := position } := by
  have hEntry : entry = ⟨entry.logId, .membership next⟩ := by rw [← hPayload]
  have hCurrent : next = currentMembership roster (log ++ [entry]) := by
    rw [currentMembership_concat, hPayload]
  have hDistinct := ReplicationHistory.data_distinct hPayload hData
  have hRecords : ∀ pending ∈ source.pending, pending.Recorded (log ++ [entry]) next := by
    intro pending hMem
    have hLater := (h.pending pending hMem).later entry
    refine ⟨hLater.plan, hLater.prepared, fun hLearner => ?_, hLater.ack⟩
    refine ⟨entry.logId, next, hLearner, ?_⟩
    rw [← hEntry]
    exact (h.pending pending hMem).prepared.append (List.Sublist.refl [entry])
  rcases ReplicationHistory.transition_stage hNext with ⟨rfl, rfl⟩ |
    ⟨pending, final, hPending, hStage, rfl⟩
  · exact ⟨hCurrent, hDistinct, h.learners, hRecords⟩
  · refine ⟨hCurrent, hDistinct,
      h.learners.stage (h.pending pending hPending).plan hPending hStage, fun other hMem => ?_⟩
    cases final with
    | true => cases hMem
    | false => exact hRecords other hMem

/-- A command entry records the preparation or the acknowledgement that it makes. -/
theorem Standing.command (h : source.Standing roster log) {command : AdmissionCommand}
    (hPayload : entry.payload = .normal (.admissionMembership command))
    (hData : history.data valid auth entry = .ok ()) {next : Option PreparedJoin}
    (hNext : CommandStage source entry.logId frontier command next) {position : Option LogId} :
    Standing roster (log ++ [entry]) { source with pending := next, cursor := position } := by
  have hSkipped : Standing roster (log ++ [entry]) { source with cursor := position } :=
    h.skip (by simp [hPayload])
  have hCommand := ReplicationHistory.data_command hPayload hData
  refine ⟨hSkipped.current, h.distinct, h.learners.command hNext, ?_⟩
  cases hNext with
  | @prepare plan hNone hStable =>
      intro pending hMem
      obtain rfl := Option.some.inj hMem
      have hEntry : entry = preparation plan entry.logId := by rw [preparation, ← hPayload]
      refine ⟨hCommand.1, ?_, fun hLearner => absurd hLearner (h.learners.nobody hNone _),
        fun _ hAck => by cases hAck⟩
      rw [← hEntry]
      exact List.sublist_append_right log [entry]
  | prepareAgain hPending =>
      rw [← hPending]
      exact hSkipped.pending
  | cancel => exact fun _ hMem => by cases hMem
  | @acknowledge pending _ hPending hCommitted hNone hStable hLearner hMembershipLog hLogged =>
      have hRecorded := h.pending pending hPending
      have hLater := hRecorded.later entry
      intro current hMem
      obtain rfl := Option.some.inj hMem
      refine ⟨hLater.plan, hLater.prepared, hLater.learner, fun ack hAck => ?_⟩
      obtain rfl := Option.some.inj hAck
      obtain ⟨learnerPosition, learner, hMember, hOrder⟩ := hRecorded.learner hLearner
      refine ⟨learnerPosition, learner, hMember, ?_⟩
      have hEntry : entry = acknowledgement pending.plan pending.prepared entry.logId := by
        rw [acknowledgement, ← hPayload]
      rw [← hEntry]
      exact hOrder.append (List.Sublist.refl [entry])
  | acknowledgeAgain hPending =>
      rw [← hPending]
      exact hSkipped.pending

theorem Standing.apply (h : source.Standing roster log)
    (hData : history.data valid auth entry = .ok ())
    (hApply : history.apply valid auth frontier source entry = .ok after) :
    after.Standing roster (log ++ [entry]) := by
  cases ReplicationHistory.apply_eq_ok.mp hApply with
  | other hMembership => exact h.skip hMembership
  | membership hPayload hNext => exact h.membership hPayload hData hNext
  | command hPayload hNext => exact h.command hPayload hData hNext

theorem Standing.replays (h : source.Standing roster log) {entries : List Entry}
    (hReplays : Replays valid history auth frontier source entries after) :
    after.Standing roster (log ++ entries) := by
  induction hReplays generalizing log with
  | nil source => rwa [List.append_nil]
  | cons hIndex hData hApply hRest ih =>
      rw [List.append_cons]
      exact ih (h.apply hData hApply)

end SourceState

/-! ### Accepted logs -/

section Accepted

variable {valid : MembershipCheck} {cfg : Config}
  {session : AdmissionSession} {config : StoreConfig} {log : List Entry}

theorem rosterOf_configs (valid : MembershipCheck) (cfg : Config) (genesis : Genesis) :
    ∀ voters ∈ (rosterOf valid cfg genesis).configs, voters = genesis.voters := by
  rw [rosterOf]
  split
  · next membership hMembership =>
      simp only [RaftAuthorization.makeMembership, Checks.bind_eq_ok, okOr_eq_ok,
        Checks.mapError_eq_ok] at hMembership
      obtain ⟨nodes, -, hNew⟩ := hMembership
      rw [Membership.new_eq_ok hNew]
      simp
  · simp [Membership.default]

/-- The replay of an empty log stands at the roster. -/
theorem start_standing (hRoster : session.context.genesis.validateRoster cfg.physicalIds = .ok ()) :
    SourceState.Standing (rosterOf valid cfg session.context.genesis) []
      ⟨⟨none, rosterOf valid cfg session.context.genesis⟩, none, none⟩ where
  current := rfl
  distinct := by
    intro voters hVoters
    rw [rosterOf_configs valid cfg _ voters hVoters]
    exact Finset.card_image_iff.mp (of_decide_eq_true (ensure_eq_ok.mp hRoster)).1
  learners := fun replica hReplica => absurd hReplica (rosterOf_learnerIds valid cfg _ replica)
  pending := fun _ hMem => by cases hMem

theorem AcceptedLog.standing (hLog : AcceptedLog valid cfg session config log)
    (hRoster : session.context.genesis.validateRoster cfg.physicalIds = .ok ())
    (hReady : ReadyPreparations session.context.genesis config log) :
    ∃ source : SourceState,
      source.Tracks session.context.genesis (rosterOf valid cfg session.context.genesis)
        (log.foldl KafStorageState.step config.start).admissionView ∧
      source.Standing (rosterOf valid cfg session.context.genesis) log :=
  hLog.keeps hReady
    (motive := fun log source => source.Standing (rosterOf valid cfg session.context.genesis) log)
    (start_standing hRoster) fun _ hJudged hStanding => by
      obtain ⟨history, hData, frontier, hApply⟩ := hJudged.data
      exact hStanding.apply hData hApply

/-- Voter changes pass the barriers: wherever a request is accepted, every membership entry
that is judged keeps the voter sets, enters the joint configuration of a plan behind all its
barriers, or leaves a joint configuration for its second voter set. Members of a voter set are
distinct. Where the voter sets change, the applied preparations must have met a ready state. -/
theorem voter_changes_pass_barriers (valid : MembershipCheck) (cfg : Config)
    (session : AdmissionSession) (config : StoreConfig) (log : List Entry)
    (hLog : AcceptedLog valid cfg session config log)
    (accepted : Acceptance valid cfg session (log.foldl KafStorageState.step config.start))
    (before : List Entry) (entry : Entry) (rest : List Entry)
    (hSplit : accepted.entries = before ++ entry :: rest) (next : Membership)
    (hPayload : entry.payload = .membership next)
    (hReady : next.configs ≠
        (currentMembership (rosterOf valid cfg session.context.genesis) (log ++ before)).configs →
      ReadyPreparations session.context.genesis config log) :
    let current := currentMembership (rosterOf valid cfg session.context.genesis) (log ++ before)
    VoterChange (log ++ before) accepted.frontier current.configs next.configs ∧
      ∀ voters ∈ current.configs ++ next.configs, DistinctMembers voters := by
  intro current
  by_cases hKeep : next.configs = current.configs
  · obtain ⟨_, _, -, hReplays⟩ := accepted.exists_replays
    have hDistinct := ReplicationHistory.data_distinct hPayload
      (hReplays.data_eq_ok entry (by simp [hSplit]))
    refine ⟨.keep hKeep, fun voters hVoters => hDistinct voters ?_⟩
    rwa [← hKeep, List.mem_append, or_self] at hVoters
  obtain ⟨source, hTracks, hStanding⟩ := hLog.standing accepted.validateRoster (hReady hKeep)
  obtain ⟨final, hReplays⟩ := accepted.replays_from hTracks
  rw [hSplit] at hReplays
  obtain ⟨middle, hBefore, hEntry⟩ := hReplays.split
  have hMiddle := hStanding.replays hBefore
  cases hEntry with
  | cons hIndex hData hApply hRest =>
      have hDistinct := ReplicationHistory.data_distinct hPayload hData
      cases ReplicationHistory.apply_eq_ok.mp hApply with
      | other hMembership => exact absurd hPayload (hMembership next)
      | command hCommand => cases hPayload.symm.trans hCommand
      | membership hSame hNext =>
          cases hPayload.symm.trans hSame
          refine ⟨hMiddle.change hNext, fun voters hVoters => ?_⟩
          rcases List.mem_append.mp hVoters with hCurrent | hNew
          · exact hMiddle.distinct voters (hMiddle.current ▸ hCurrent)
          · exact hDistinct voters hNew

end Accepted

/-! ### The sample cluster -/

/-- The sample cluster enters its joint configuration behind the barriers. -/
theorem voter_changes_pass_barriers_rejoin :
    ∃ (accepted : Acceptance documentedCheck rejoinConfig rejoinSession rejoinStore.start)
      (plan : JoinPlan), accepted.entries = rejoinEntriesAll ++ rejoinPromotion ∧
        plan.nextVoters = rejoinPlan.nextVoters ∧
        BarriersLogged rejoinEntriesAll accepted.frontier plan := by
  obtain ⟨accepted, hNode, hRequest⟩ := exists_acceptance rejoinStore.start rejoinNode
    (wholeLog (rejoinEntriesAll ++ rejoinPromotion) 6) rfl rfl (by decide +kernel)
  have hEntries : accepted.entries = rejoinEntriesAll ++ rejoinPromotion := by
    rw [Acceptance.entries, hNode, hRequest]
    decide +kernel
  obtain ⟨hChange, -⟩ := voter_changes_pass_barriers documentedCheck rejoinConfig rejoinSession
    rejoinStore [] .start accepted rejoinEntriesAll _ _ hEntries _ rfl fun _ => .nil
  cases hChange with
  | keep hNext => exact absurd hNext (by decide +kernel)
  | leave previous voters hCurrent hNext => simp [rejoinMembership] at hNext
  | enter plan hCurrent hNext hBarriers hConsumer hOthers =>
      refine ⟨accepted, plan, hEntries, ?_, hBarriers⟩
      simp only [rejoinMembership, List.cons.injEq, and_true] at hNext
      exact hNext.2.symm

/-- After the premature preparation and its learner membership: the genesis, the same
preparation again, its acknowledgement and the joint configuration. -/
def prematurePromotion : AppendEntriesRequest where
  vote := ⟨⟨1, ⟨1, 0⟩⟩, true⟩
  prevLogId := some (rejoinLog 1)
  entries := rejoinEntries [.normal (.admissionGenesis rejoinGenesis),
    .normal (.admissionMembership (.prepareJoin rejoinPlan)),
    .normal (.admissionMembership (.learnerApplied ⟨3, 1⟩ 5 (rejoinLog 3))),
    .membership (rejoinMembership [rejoinVoters, rejoinPlan.nextVoters]
      (insert ⟨3, 1⟩ rejoinVoters))] 2
  leaderCommit := some (rejoinLog 5)

/-- The state machine rejects a preparation that the validator accepted before the
genesis, but applies its learner membership. The join that is prepared afterwards enters
its joint configuration without a learner membership of its own. -/
theorem voter_change_skips_barrier :
    ∃ (log : List Entry)
      (accepted : Acceptance documentedCheck rejoinConfig rejoinSession
        (log.foldl KafStorageState.step rejoinStore.start))
      (before : List Entry) (entry : Entry) (rest : List Entry) (next : Membership),
      AcceptedLog documentedCheck rejoinConfig rejoinSession rejoinStore log ∧
        accepted.entries = before ++ entry :: rest ∧ entry.payload = .membership next ∧
        ¬VoterChange (log ++ before) accepted.frontier
          (currentMembership (rosterOf documentedCheck rejoinConfig rejoinGenesis)
            (log ++ before)).configs next.configs := by
  obtain ⟨first, hFirstNode, hFirst⟩ := exists_acceptance rejoinStore.start rejoinNode
    (wholeLog prematureLog 1) rfl rfl (by decide +kernel)
  have hFirstEntries : first.entries = prematureLog := by
    rw [Acceptance.entries, hFirstNode, hFirst]
    decide +kernel
  obtain ⟨second, hSecondNode, hSecond⟩ := exists_acceptance
    (prematureLog.foldl KafStorageState.step rejoinStore.start) rejoinNode prematurePromotion rfl rfl
    (by decide +kernel)
  have hSecondEntries : second.entries = prematurePromotion.entries := by
    rw [Acceptance.entries, hSecondNode, hSecond]
    decide +kernel
  have hApplied : prematureLog <+: first.entries := by rw [hFirstEntries]
  refine ⟨prematureLog, second, prematurePromotion.entries.take 3, _, [], _,
    .apply .start first hApplied, hSecondEntries, rfl, fun hChange => ?_⟩
  cases hChange with
  | keep hNext => exact absurd hNext (by decide +kernel)
  | leave previous voters hCurrent hNext => simp [rejoinMembership] at hNext
  | enter plan hCurrent hNext hBarriers hConsumer hOthers =>
      obtain ⟨prepared, ack, ⟨position, learner, -, hOrder⟩, -⟩ := hBarriers
      simp [prematureLog, prematurePromotion, rejoinEntries, List.sublist_cons_iff, preparation,
        acknowledgement, rejoinLog] at hOrder
      obtain ⟨⟨hFirstPrepared, -⟩, -, -, -, -, hPrepared⟩ := hOrder
      rw [hFirstPrepared] at hPrepared
      simp at hPrepared

end KeepAfloat
