import KeepAfloat.Network.Snapshot
import KeepAfloat.Network.FollowerLog

/-! Completion receipts fit the snapshots of their state. The validator and the state
machine may disagree about a join that was prepared before the genesis, but a state that
disagrees has no receipt. Once there is one, both complete joins together, and a receipt
is invalidated only by the join that replaces it. -/

namespace KeepAfloat

open Std (ExtTreeMap)

/-! ### Which join is pending -/

namespace SourceState

variable {valid : MembershipCheck} {history : ReplicationHistory}
  {auth : RaftAuthorization} {frontier : Option LogId} {genesis : Genesis} {roster : Membership}
  {source after : SourceState} {entry : Entry}

/-- The state machine missed the preparation of the pending join. It has no receipt, and
what it holds pending itself will never be acknowledged. -/
structure Lost (source : SourceState) (state : KafStorageState) : Prop where
  receipts : state.completedJoins = ∅
  unacknowledged : ∀ own ∈ state.preparedJoin, own.learnerApplied = none
  earlier : ∀ own ∈ state.preparedJoin, ∃ cursor ∈ source.cursor, own.prepared.index ≤ cursor.index
  other : ∀ own ∈ state.preparedJoin, ∀ pending ∈ source.pending, pending.prepared ≠ own.prepared

/-- A pending join that a command does not name stays. -/
theorem admissionOutcome_unnamed {own : PreparedJoin} {known : Option Genesis}
    {membership : Membership} {command : AdmissionCommand} {log : LogId}
    (hCancel : ∀ plan prepared, command = .cancelJoin plan prepared → prepared ≠ own.prepared)
    (hAck : ∀ consumer nonce prepared, command = .learnerApplied consumer nonce prepared →
      prepared ≠ own.prepared) :
    (admissionOutcome (some own) known membership command log).1 = some own := by
  cases command with
  | cancelJoin plan prepared =>
      have hNe := (hCancel plan prepared rfl).symm
      simp [admissionOutcome, hNe]
  | prepareJoin plan =>
      simp only [admissionOutcome]
      split
      · rfl
      · split <;> rfl
  | learnerApplied consumer nonce prepared =>
      have hNe := (hAck consumer nonce prepared rfl).symm
      simp [admissionOutcome, hNe]

/-- Without a pending join, only a preparation makes one. -/
theorem admissionOutcome_none {known : Option Genesis} {membership : Membership}
    {command : AdmissionCommand} {log : LogId} :
    (admissionOutcome none known membership command log).1 = none ∨
      ∃ plan, command = .prepareJoin plan ∧
        (admissionOutcome none known membership command log).1 = some ⟨plan, log, none⟩ := by
  rcases admissionOutcome_cases none known membership command log with hNone | hNone |
    ⟨plan, hCommand, -, -, -, -, hNew⟩ | ⟨_, hSome, -⟩
  · exact .inl hNone
  · exact .inl hNone
  · exact .inr ⟨plan, hCommand, hNew⟩
  · cases hSome

/-- After an accepted command the two agree, or the state machine is still lost. -/
theorem Lost.outcome {state : KafStorageState} (h : source.Lost state)
    (hPrepared : ∀ pending ∈ source.pending, ∃ cursor ∈ source.cursor,
      pending.prepared.index ≤ cursor.index)
    {command : AdmissionCommand} {log : LogId}
    (hAbove : source.Before log) {next : Option PreparedJoin}
    (hNext : CommandStage source log frontier command next) :
    let outcome := (admissionOutcome state.preparedJoin state.genesis
      state.lastMembership.membership command log).1
    next = outcome ∨ ∀ own ∈ outcome, own.learnerApplied = none ∧ own.prepared.index ≤ log.index ∧
      ∀ pending ∈ next, pending.prepared ≠ own.prepared := by
  have hBelow : ∀ {prepared : LogId}, (∃ cursor ∈ source.cursor, prepared.index ≤ cursor.index) →
      prepared.index < log.index :=
    fun ⟨cursor, hCursor, hLe⟩ => hLe.trans_lt (hAbove cursor hCursor)
  have hFresh : ∀ {prepared : LogId}, prepared.index < log.index → log ≠ prepared := by
    rintro prepared hLt rfl
    exact lt_irrefl _ hLt
  have hOther : ∀ own ∈ state.preparedJoin, ∀ pending ∈ next, pending.prepared ≠ own.prepared := by
    intro own hOwn pending hMem
    cases hNext with
    | prepare =>
        rw [← Option.some.inj hMem]
        exact hFresh (hBelow (h.earlier own hOwn))
    | prepareAgain hPending => exact h.other own hOwn pending (hPending.trans hMem)
    | cancel => cases hMem
    | @acknowledge current _ hPending =>
        rw [← Option.some.inj hMem]
        exact h.other own hOwn current hPending
    | acknowledgeAgain hPending => exact h.other own hOwn pending (hPending.trans hMem)
  intro outcome
  cases hOwn : state.preparedJoin with
  | some own =>
      have hKept : outcome = some own := by
        simp only [outcome, hOwn]
        apply admissionOutcome_unnamed
        · rintro plan prepared rfl
          cases hNext with
          | cancel hPending => exact h.other own hOwn _ hPending
        · rintro consumer nonce prepared rfl
          cases hNext with
          | acknowledge hPending => exact h.other own hOwn _ hPending
          | acknowledgeAgain hPending => exact h.other own hOwn _ hPending
      right
      rw [hKept]
      intro other hSame
      obtain rfl := Option.some.inj hSame
      exact ⟨h.unacknowledged own hOwn, (hBelow (h.earlier own hOwn)).le, hOther own hOwn⟩
  | none =>
      have hEmpty : outcome = none ∨ ∃ plan, command = .prepareJoin plan ∧
          outcome = some ⟨plan, log, none⟩ := by
        simp only [outcome, hOwn]
        exact admissionOutcome_none
      rcases hEmpty with hNone | ⟨plan, rfl, hNew⟩
      · right
        rw [hNone]
        exact fun _ hMem => by cases hMem
      · cases hNext with
        | prepare => exact .inl hNew.symm
        | @prepareAgain pending hPending =>
            right
            rw [hNew]
            intro own hMem
            obtain rfl := Option.some.inj hMem
            refine ⟨rfl, le_rfl, fun current hCurrent => ?_⟩
            obtain rfl := Option.some.inj hCurrent
            exact (hFresh (hBelow (hPrepared pending hPending))).symm

theorem preparedJoin_step (state : KafStorageState) (entry : Entry) :
    (state.step entry).preparedJoin = (state.admissionView.step entry).preparedJoin :=
  congrArg AdmissionView.preparedJoin (state.admissionView_step entry)

/-- Agreement about the pending join is lost only while there is no receipt. -/
theorem paired_apply {state : KafStorageState}
    (hTrails : source.Trails genesis roster state.admissionView)
    (hEarned : state.completedJoins ≠ ∅ → state.admissionView.Ready genesis)
    (hPaired : source.pending = state.preparedJoin)
    (hGenesis : auth.session.context.genesis = genesis) (hAbove : source.Before entry.logId)
    (hData : history.data valid auth entry = .ok ())
    (hApply : history.apply valid auth frontier source entry = .ok after) :
    after.pending = (state.step entry).preparedJoin ∨ after.Lost (state.step entry) := by
  by_cases hReady : ∀ plan, entry.payload = .normal (.admissionMembership (.prepareJoin plan)) →
      state.admissionView.Ready genesis
  · left
    obtain ⟨hTracks, -⟩ := ReplicationHistory.apply_tracks ⟨hTrails, hPaired⟩ hGenesis hAbove hReady
      hData hApply
    rw [hTracks.pending, preparedJoin_step]
  · right
    push Not at hReady
    obtain ⟨plan, hPayload, hUnready⟩ := hReady
    have hNone : (state.step entry).preparedJoin = none :=
      (preparedJoin_step state entry).trans (hTrails.preparedJoin_unready hPayload hUnready)
    have hEmpty : state.completedJoins = ∅ := by
      by_contra hSome
      exact hUnready (hEarned hSome)
    refine ⟨?_, ?_, ?_, ?_⟩
    · rw [state.completedJoins_other (by simp [hPayload]), hEmpty]
    all_goals
      intro own hOwn
      rw [hNone] at hOwn
      cases hOwn

/-- An entry that leaves receipts and pending join alone leaves a lost state lost. -/
theorem Lost.kept {state next : KafStorageState} (h : source.Lost state) {log : LogId}
    (hAbove : source.Before log) (hReceipts : next.completedJoins = state.completedJoins)
    (hSame : next.preparedJoin = state.preparedJoin) (hCursor : after.cursor = some log)
    (hPending : ∀ pending ∈ after.pending, pending ∈ source.pending) : after.Lost next := by
  refine ⟨hReceipts.trans h.receipts, ?_, ?_, ?_⟩
  all_goals rw [hSame]
  · exact h.unacknowledged
  · intro own hOwn
    obtain ⟨cursor, hCursorBefore, hLe⟩ := h.earlier own hOwn
    exact ⟨log, hCursor, hLe.trans (hAbove cursor hCursorBefore).le⟩
  · exact fun own hOwn pending hMem => h.other own hOwn pending (hPending pending hMem)

/-- A lost state stays lost or agrees again. -/
theorem Lost.apply {state : KafStorageState} (h : source.Lost state) (hSane : source.Sane)
    (hAbove : source.Before entry.logId)
    (hApply : history.apply valid auth frontier source entry = .ok after) :
    after.pending = (state.step entry).preparedJoin ∨ after.Lost (state.step entry) := by
  cases ReplicationHistory.apply_eq_ok.mp hApply with
  | other hMembership hCommand hAccepted =>
      have hSame : (state.step entry).preparedJoin = state.preparedJoin :=
        (preparedJoin_step state entry).trans
          (state.admissionView.preparedJoin_step hMembership hCommand)
      exact .inr (h.kept hAbove (state.completedJoins_other hMembership) hSame rfl fun _ hMem => hMem)
  | @membership membership next hPayload hNext =>
      have hUncompleted : ∀ own ∈ state.preparedJoin,
          own.completedBy membership entry.logId = false := by
        intro own hOwn
        simp [PreparedJoin.completedBy, h.unacknowledged own hOwn]
      have hSame : (state.step entry).preparedJoin = state.preparedJoin := by
        rw [preparedJoin_step, AdmissionView.step, hPayload]
        exact AdmissionView.pendingAfter_kept hUncompleted
      have hNothing : state.completion membership entry.logId = none := by
        rw [KafStorageState.completion, Option.filter_eq_none_iff]
        exact fun own hOwn => by simp [hUncompleted own hOwn]
      have hReceipts : (state.step entry).completedJoins = state.completedJoins := by
        rw [state.completedJoins_membership hPayload, hNothing]
      refine .inr (h.kept hAbove hReceipts hSame rfl fun pending hMem => ?_)
      rcases ReplicationHistory.transition_stage hNext with ⟨-, rfl⟩ | ⟨_, final, -, -, rfl⟩
      · exact hMem
      · cases final with
        | true => cases hMem
        | false => exact hMem
  | @command command next hPayload hNext =>
      have hStep : (state.step entry).preparedJoin = (admissionOutcome state.preparedJoin
          state.genesis state.lastMembership.membership command entry.logId).1 := by
        rw [preparedJoin_step, AdmissionView.step, hPayload]
        rfl
      rcases h.outcome hSane.prepared hAbove hNext with hAgree | hStill
      · left
        rw [hStep]
        exact hAgree
      · right
        refine ⟨?_, ?_, ?_, ?_⟩
        · rw [state.completedJoins_other (by simp [hPayload]), h.receipts]
        all_goals
          intro own hOwn
          rw [hStep] at hOwn
          obtain ⟨hNone, hLe, hOther⟩ := hStill own hOwn
        · exact hNone
        · exact ⟨entry.logId, rfl, hLe⟩
        · exact hOther

end SourceState

/-! ### What a membership entry does to the receipts -/

/-- Where both agree, a membership entry keeps every voter, or it completes the pending
join and moves from its joint configuration to its next voters. -/
theorem SourceState.Tracks.completion {valid : MembershipCheck}
    {history : ReplicationHistory} {frontier : Option LogId} {genesis : Genesis}
    {roster : Membership} {source after : SourceState} {state : KafStorageState}
    (hTracks : source.Tracks genesis roster state.admissionView)
    (hFormed : state.lastMembership.membership.voterIds ≠ ∅) {next : Membership} {log : LogId}
    (hAbove : source.Before log)
    (hNext : history.transition valid source next log frontier = .ok after) :
    (state.completion next log = none ∧
        ∀ replica ∈ state.lastMembership.membership.voterIds, replica ∈ next.voterIds) ∨
      ∃ pending, state.completion next log = some pending ∧ pending.plan.validate = .ok () ∧
        state.lastMembership.membership.configs =
          [pending.plan.previousVoters, pending.plan.nextVoters] ∧
        next.configs = [pending.plan.nextVoters] := by
  have hMembership : source.membership = state.lastMembership := hTracks.formed hFormed
  have hPending : source.pending = state.preparedJoin := hTracks.pending
  have hKept : ∀ pending ∈ source.pending,
      (next.configs = [pending.plan.previousVoters] ∨
        next.configs = [pending.plan.previousVoters, pending.plan.nextVoters]) →
      state.completion next log = none := by
    intro pending hMem hStage
    have hOwn : state.preparedJoin = some pending := hPending.symm.trans hMem
    rw [KafStorageState.completion, hOwn, Option.filter_some, if_neg]
    simp [(hTracks.inOrder pending hMem).not_completedBy hStage]
  rw [← hMembership]
  rcases ReplicationHistory.transition_stage hNext with ⟨rfl, -⟩ | ⟨pending, final, hMem, hStage, -⟩
  · refine Or.inl ⟨?_, fun replica hReplica => hReplica⟩
    cases hOwn : source.pending with
    | none => rw [KafStorageState.completion, ← hPending, hOwn, Option.filter_none]
    | some pending => exact hKept pending hOwn (hTracks.inOrder pending hOwn).stage
  · cases hStage with
    | addLearner hCurrent hConfigs hNodes =>
        refine Or.inl ⟨hKept pending hMem (Or.inl hConfigs), fun replica hReplica => ?_⟩
        rwa [Membership.voterIds, hConfigs, ← hCurrent]
    | removeLearner hCurrent hConfigs hNodes =>
        refine Or.inl ⟨hKept pending hMem (Or.inl hConfigs), fun replica hReplica => ?_⟩
        rwa [Membership.voterIds, hConfigs, ← hCurrent]
    | enterJoint ack hAck hCurrent hLearner hConfigs hNodes =>
        refine Or.inl ⟨hKept pending hMem (Or.inr hConfigs), fun replica hReplica => ?_⟩
        rw [Membership.mem_voterIds, hCurrent] at hReplica
        rw [Membership.mem_voterIds, hConfigs]
        obtain ⟨config, hConfig, hIn⟩ := hReplica
        exact ⟨config, by simp [List.mem_singleton.mp hConfig], hIn⟩
    | promote ack hAck hCurrent hConfigs hNodes =>
        have hOrder := hTracks.inOrder pending hMem
        obtain ⟨cursor, hCursor, hLe⟩ := hOrder.ack ack hAck
        have hBefore : ack.index < log.index := hLe.trans_lt (hAbove cursor hCursor)
        refine Or.inr ⟨pending, ?_, hOrder.plan, hCurrent, hConfigs⟩
        rw [KafStorageState.completion, ← hPending, hMem, Option.filter_some, if_pos]
        simp [PreparedJoin.completedBy, hAck, hBefore, Membership.getJointConfig, hConfigs,
          Membership.voterIds_of_stable hConfigs]

/-- What the log shows about a pending or completed join. -/
structure PreparedJoin.Logged (cfg : Config) (session : AdmissionSession) (log : List Entry)
    (pending : PreparedJoin) : Prop where
  plan : (authorityOf cfg session).joinPlanData pending.plan = .ok ()
  prepared : Knows (log[·]?) pending.prepared
  ack : ∀ ack ∈ pending.learnerApplied, Knows (log[·]?) ack ∧ pending.prepared.index < ack.index

/-- What the log and the membership show about a receipt. -/
structure CompletedJoin.Earned (cfg : Config) (session : AdmissionSession) (log : List Entry)
    (membership : StoredMembership) (physicalId : Nat) (receipt : CompletedJoin) : Prop where
  key : physicalId = receipt.prepared.plan.consumer.physicalId
  logged : receipt.prepared.Logged cfg session log
  promoted : Knows (log[·]?) receipt.promoted
  ack : ∃ ack ∈ receipt.prepared.learnerApplied, ack.index < receipt.promoted.index
  voter : receipt.prepared.plan.consumer ∈ membership.membership.voterIds
  current : ∃ last ∈ membership.logId, receipt.promoted.index ≤ last.index ∧
    (last.index = receipt.promoted.index →
      membership.membership.configs = [receipt.prepared.plan.nextVoters])

/-- What the state shows of the log that it has applied. -/
structure KafStorageState.Receipted (cfg : Config) (session : AdmissionSession) (log : List Entry)
    (state : KafStorageState) : Prop where
  indexed : ∀ (i : Nat) (entry : Entry), log[i]? = some entry → entry.logId.index = i
  applied : state.lastAppliedLog = log.getLast?.map Entry.logId
  leaders : ∀ entry ∈ log, entry.logId.leaderId.nodeId.physicalId ∈ cfg.physicalIds
  membership : ∀ id ∈ state.lastMembership.logId, Knows (log[·]?) id
  pending : ∀ pending ∈ state.preparedJoin, pending.Logged cfg session log
  receipts : ∀ (physicalId : Nat) (receipt : CompletedJoin), state.completedJoins[physicalId]? = some receipt →
    receipt.Earned cfg session log state.lastMembership physicalId

section Growth

variable {cfg : Config} {session : AdmissionSession} {log : List Entry} {entry : Entry}

/-- Known positions lie below the next index. -/
theorem Knows.index_lt {id : LogId} (h : Knows (log[·]?) id) : id.index < log.length := by
  by_contra hBeyond
  rw [Knows, List.getElem?_eq_none (Nat.not_lt.mp hBeyond)] at h
  cases h

theorem Knows.concat {id : LogId} (h : Knows (log[·]?) id) : Knows ((log ++ [entry])[·]?) id :=
  h.congr (List.getElem?_append_left h.index_lt)

theorem knows_concat_self (hIndex : entry.logId.index = log.length) :
    Knows ((log ++ [entry])[·]?) entry.logId := by
  rw [Knows, hIndex, List.getElem?_concat_length]
  rfl

theorem PreparedJoin.Logged.concat {pending : PreparedJoin} (h : pending.Logged cfg session log) :
    pending.Logged cfg session (log ++ [entry]) :=
  ⟨h.plan, h.prepared.concat, fun ack hAck => ⟨(h.ack ack hAck).1.concat, (h.ack ack hAck).2⟩⟩

/-- A receipt survives an entry that leaves the membership alone. -/
theorem CompletedJoin.Earned.concat {receipt : CompletedJoin} {membership : StoredMembership}
    {physicalId : Nat} (h : receipt.Earned cfg session log membership physicalId) :
    receipt.Earned cfg session (log ++ [entry]) membership physicalId :=
  ⟨h.key, h.logged.concat, h.promoted.concat, h.ack, h.voter, h.current⟩

/-- A receipt survives a membership entry that keeps its consumer as voter. -/
theorem CompletedJoin.Earned.restage {receipt : CompletedJoin} {membership : StoredMembership}
    {physicalId : Nat} (h : receipt.Earned cfg session log membership physicalId)
    (hIndex : entry.logId.index = log.length) {next : Membership}
    (hVoter : receipt.prepared.plan.consumer ∈ next.voterIds) :
    receipt.Earned cfg session (log ++ [entry]) ⟨some entry.logId, next⟩ physicalId where
  key := h.key
  logged := h.logged.concat
  promoted := h.promoted.concat
  ack := h.ack
  voter := hVoter
  current := by
    have hLt : receipt.promoted.index < entry.logId.index := hIndex ▸ h.promoted.index_lt
    exact ⟨entry.logId, rfl, hLt.le, fun hSame => absurd hSame hLt.ne'⟩

/-- The receipt of the join that a membership entry completes. -/
theorem CompletedJoin.earned_new {pending : PreparedJoin} (h : pending.Logged cfg session log)
    (hIndex : entry.logId.index = log.length) {next : Membership}
    (hPlan : pending.plan.validate = .ok ()) (hConfigs : next.configs = [pending.plan.nextVoters])
    (hCompleted : pending.completedBy next entry.logId = true) :
    CompletedJoin.Earned cfg session (log ++ [entry]) ⟨some entry.logId, next⟩
      pending.plan.consumer.physicalId ⟨pending, entry.logId⟩ where
  key := rfl
  logged := h.concat
  promoted := knows_concat_self hIndex
  ack := by
    rw [PreparedJoin.completedBy, Bool.and_eq_true, Bool.and_eq_true, Option.any_eq_true] at hCompleted
    obtain ⟨⟨⟨ack, hAck, hBefore⟩, -⟩, -⟩ := hCompleted
    exact ⟨ack, hAck, of_decide_eq_true hBefore⟩
  voter := by
    rw [Membership.voterIds_of_stable hConfigs]
    exact JoinPlan.consumer_mem_next hPlan
  current := ⟨entry.logId, rfl, le_rfl, fun _ => hConfigs⟩

end Growth

/-! ### Runs -/

/-- Every known position is at or before the last applied one. -/
theorem KafStorageState.Receipted.exists_applied {cfg : Config} {session : AdmissionSession}
    {log : List Entry} {state : KafStorageState} (h : state.Receipted cfg session log) {id : LogId}
    (hId : Knows (log[·]?) id) :
    ∃ last ∈ state.lastAppliedLog, Knows (log[·]?) last ∧ id.index ≤ last.index := by
  have hLt := hId.index_lt
  rw [h.applied]
  rcases List.eq_nil_or_concat log with rfl | ⟨before, last, rfl⟩
  · cases hLt
  · have hEntry : (before.concat last)[before.length]? = some last := by
      simp [List.concat_eq_append]
    have hIndex := h.indexed before.length last hEntry
    rw [List.length_concat] at hLt
    refine ⟨last.logId, by simp [List.concat_eq_append], ?_, by omega⟩
    rw [Knows, hIndex, hEntry]
    rfl

section Runs

variable {valid : MembershipCheck} {history : ReplicationHistory}
  {auth : RaftAuthorization} {frontier : Option LogId} {cfg : Config}
  {session : AdmissionSession} {roster : Membership} {log : List Entry} {entry : Entry}
  {source after : SourceState} {state : KafStorageState}

/-- The replay and the state machine after the same log, with what they agree about. -/
structure Paired (cfg : Config) (session : AdmissionSession) (roster : Membership)
    (log : List Entry) (source : SourceState) (state : KafStorageState) : Prop where
  trails : source.Trails session.context.genesis roster state.admissionView
  sane : source.Sane
  pending : source.pending = state.preparedJoin ∨ source.Lost state
  earned : state.completedJoins ≠ ∅ → state.admissionView.Ready session.context.genesis
  receipted : state.Receipted cfg session log

namespace Paired

/-- With a receipt, or about to get one, the two agree about the pending join. -/
theorem agree (h : Paired cfg session roster log source state) {next : Membership} {position : LogId}
    (hReceipt : state.completedJoins ≠ ∅ ∨ state.completion next position ≠ none) :
    source.Tracks session.context.genesis roster state.admissionView ∧
      state.lastMembership.membership.voterIds ≠ ∅ := by
  have hReady : state.admissionView.Ready session.context.genesis := by
    rcases hReceipt with hSome | hSome
    · exact h.earned hSome
    · refine h.trails.ready fun hNone => hSome ?_
      have hNone : state.preparedJoin = none := hNone
      rw [KafStorageState.completion, hNone, Option.filter_none]
  refine ⟨⟨h.trails, ?_⟩, hReady.voters⟩
  rcases h.pending with hPending | hLost
  · exact hPending
  · rcases hReceipt with hSome | hSome
    · exact absurd hLost.receipts hSome
    · refine absurd ?_ hSome
      rw [KafStorageState.completion, Option.filter_eq_none_iff]
      intro own hOwn
      simp [PreparedJoin.completedBy, hLost.unacknowledged own hOwn]

/-- Receipts after a membership entry. -/
theorem receipts_membership (h : Paired cfg session roster log source state) {next : Membership}
    (hPayload : entry.payload = .membership next) (hIndex : entry.logId.index = log.length)
    (hAbove : source.Before entry.logId)
    (hNext : history.transition valid source next entry.logId frontier = .ok after)
    (physicalId : Nat) (receipt : CompletedJoin)
    (hReceipt : (state.step entry).completedJoins[physicalId]? = some receipt) :
    receipt.Earned cfg session (log ++ [entry]) ⟨some entry.logId, next⟩ physicalId := by
  rw [state.completedJoins_membership hPayload] at hReceipt
  have hOld : ∀ voters : ∀ replica ∈ state.lastMembership.membership.voterIds,
        replica.physicalId = physicalId → replica ∈ next.voterIds,
      state.completedJoins[physicalId]? = some receipt →
      receipt.Earned cfg session (log ++ [entry]) ⟨some entry.logId, next⟩ physicalId := by
    intro hVoters hSome
    have hEarned := h.receipted.receipts physicalId receipt hSome
    exact hEarned.restage hIndex (hVoters _ hEarned.voter hEarned.key.symm)
  cases hCompletion : state.completion next entry.logId with
  | none =>
      rw [hCompletion] at hReceipt
      have hSome : state.completedJoins ≠ ∅ ∨ state.completion next entry.logId ≠ none := by
        refine Or.inl fun hEmpty => ?_
        simp [hEmpty] at hReceipt
      obtain ⟨hTracks, hFormed⟩ := h.agree hSome
      rcases hTracks.completion hFormed hAbove hNext with ⟨-, hVoters⟩ | ⟨_, hOther, -⟩
      · exact hOld (fun replica hReplica _ => hVoters replica hReplica) hReceipt
      · rw [hCompletion] at hOther
        cases hOther
  | some pending =>
      have hSome : state.completedJoins ≠ ∅ ∨ state.completion next entry.logId ≠ none :=
        Or.inr (by simp [hCompletion])
      obtain ⟨hTracks, hFormed⟩ := h.agree hSome
      rcases hTracks.completion hFormed hAbove hNext with ⟨hNone, -⟩ |
        ⟨other, hOther, hPlan, hCurrent, hConfigs⟩
      · rw [hCompletion] at hNone
        cases hNone
      obtain rfl := Option.some.inj (hCompletion.symm.trans hOther)
      rw [KafStorageState.completion, Option.filter_eq_some_iff] at hOther
      simp only [hCompletion, ExtTreeMap.getElem?_insert, compare_eq_iff_eq] at hReceipt
      split at hReceipt
      · next hKey =>
          obtain rfl := Option.some.inj hReceipt
          rw [← hKey]
          exact CompletedJoin.earned_new (h.receipted.pending pending hOther.1) hIndex hPlan hConfigs
            hOther.2
      · next hKey =>
          refine hOld (fun replica hReplica hId => ?_) hReceipt
          have hNe : replica.physicalId ≠ pending.plan.consumer.physicalId :=
            fun hSame => hKey (hSame.symm.trans hId)
          rw [Membership.mem_voterIds, hCurrent] at hReplica
          rw [Membership.voterIds_of_stable hConfigs]
          simp only [List.mem_cons, List.not_mem_nil, or_false] at hReplica
          obtain ⟨config, rfl | rfl, hIn⟩ := hReplica
          · exact (JoinPlan.mem_next_of_other hPlan hNe).mpr hIn
          · exact hIn

/-- The next index is the length of the log. -/
theorem length_eq (h : Paired cfg session roster log source state) :
    (source.cursor.elim 0 fun last => last.index + 1) = log.length := by
  have hCursor : source.cursor = log.getLast?.map Entry.logId :=
    h.trails.cursor.trans h.receipted.applied
  rw [hCursor]
  rcases List.eq_nil_or_concat log with rfl | ⟨before, last, rfl⟩
  · rfl
  · have hLast : last.logId.index = before.length :=
      h.receipted.indexed before.length last (by simp [List.concat_eq_append])
    simp [List.concat_eq_append, hLast]

/-- What is pending after an accepted entry is on the log. -/
theorem pending_logged (h : Paired cfg session roster log source state)
    (hSession : auth.session = session) (hIds : auth.configuredPhysicalIds = cfg.physicalIds)
    (hLength : entry.logId.index = log.length) (hData : history.data valid auth entry = .ok ()) :
    ∀ pending ∈ (state.step entry).preparedJoin, pending.Logged cfg session (log ++ [entry]) := by
  rw [SourceState.preparedJoin_step]
  have hLogged : ∀ pending ∈ state.preparedJoin, pending.Logged cfg session (log ++ [entry]) :=
    fun pending hMem => (h.receipted.pending pending hMem).concat
  intro pending hMem
  cases hPayload : entry.payload with
  | blank =>
      rw [AdmissionView.step, hPayload] at hMem
      exact hLogged pending hMem
  | membership next =>
      rw [AdmissionView.step, hPayload] at hMem
      exact hLogged pending (Option.filter_eq_some_iff.mp hMem).1
  | normal request =>
      cases request with
      | admissionMembership command =>
          rw [AdmissionView.step, hPayload] at hMem
          rcases admissionOutcome_cases state.preparedJoin state.genesis
            state.lastMembership.membership command entry.logId with hSame | hEnded |
            ⟨plan, rfl, -, -, -, -, hNew⟩ | ⟨own, hOwn, hBefore, hNew⟩
          · exact hLogged pending (hSame.symm.trans hMem)
          · cases hEnded.symm.trans hMem
          · obtain rfl := Option.some.inj (hNew.symm.trans hMem)
            simp only [ReplicationHistory.data, hPayload, Checks.bind_eq_ok] at hData
            obtain ⟨_, -, hPlan⟩ := hData
            rw [RaftAuthorization.joinPlanData_eq_ok, hSession, hIds] at hPlan
            exact ⟨RaftAuthorization.joinPlanData_eq_ok.mpr hPlan, knows_concat_self hLength,
              fun _ hAck => by cases hAck⟩
          · obtain rfl := Option.some.inj (hNew.symm.trans hMem)
            have hOld := hLogged own hOwn
            refine ⟨hOld.plan, hOld.prepared, fun ack hAck => ?_⟩
            obtain rfl := Option.some.inj hAck
            exact ⟨knows_concat_self hLength, hBefore⟩
      | _ =>
          rw [AdmissionView.step, hPayload] at hMem
          exact hLogged pending hMem

/-- The state after an accepted entry shows the log with that entry. -/
theorem receipted_apply (h : Paired cfg session roster log source state)
    (hSession : auth.session = session) (hIds : auth.configuredPhysicalIds = cfg.physicalIds)
    (hIndex : entry.logId.index = source.cursor.elim 0 fun last => last.index + 1)
    (hData : history.data valid auth entry = .ok ())
    (hApply : history.apply valid auth frontier source entry = .ok after) :
    (state.step entry).Receipted cfg session (log ++ [entry]) := by
  have hAbove := Replays.above_of_index hIndex
  have hLength : entry.logId.index = log.length := hIndex.trans h.length_eq
  have hView := state.admissionView_step entry
  have hIndexed : ∀ (i : Nat) (other : Entry), (log ++ [entry])[i]? = some other →
      other.logId.index = i := by
    intro i other hOther
    rcases Runs.getElem?_concat hOther with hOld | ⟨rfl, rfl⟩
    · exact h.receipted.indexed i other hOld
    · exact hLength
  have hApplied : (state.step entry).lastAppliedLog = (log ++ [entry]).getLast?.map Entry.logId := by
    rw [List.getLast?_concat]
    exact (congrArg AdmissionView.lastAppliedLog hView).trans
      (state.admissionView.lastAppliedLog_step entry)
  have hLeaders : ∀ other ∈ log ++ [entry],
      other.logId.leaderId.nodeId.physicalId ∈ cfg.physicalIds := by
    intro other hOther
    rcases List.mem_append.mp hOther with hOld | hNew
    · exact h.receipted.leaders other hOld
    · obtain rfl := List.mem_singleton.mp hNew
      simp only [ReplicationHistory.data, Checks.bind_eq_ok] at hData
      obtain ⟨_, hLog, -⟩ := hData
      rw [← hIds]
      exact of_decide_eq_true (ensure_eq_ok.mp hLog) _ rfl
  have hPending := h.pending_logged hSession hIds hLength hData
  by_cases hMembership : ∃ next, entry.payload = .membership next
  · obtain ⟨next, hPayload⟩ := hMembership
    have hLast : (state.step entry).lastMembership = ⟨some entry.logId, next⟩ := by
      refine (congrArg AdmissionView.lastMembership hView).trans ?_
      rw [AdmissionView.step, hPayload]
    refine ⟨hIndexed, hApplied, hLeaders, ?_, hPending, ?_⟩
    · rw [hLast]
      intro id hId
      obtain rfl := Option.some.inj hId
      exact knows_concat_self hLength
    · rw [hLast]
      cases ReplicationHistory.apply_eq_ok.mp hApply with
      | other hOther => exact absurd hPayload (hOther next)
      | command hCommand => cases hPayload.symm.trans hCommand
      | membership hSame hNext =>
          cases hPayload.symm.trans hSame
          exact h.receipts_membership hPayload hLength hAbove hNext
  · have hOther : ∀ next, entry.payload ≠ .membership next :=
      fun next hPayload => hMembership ⟨next, hPayload⟩
    have hLast : (state.step entry).lastMembership = state.lastMembership :=
      (congrArg AdmissionView.lastMembership hView).trans
        (state.admissionView.lastMembership_step hOther)
    refine ⟨hIndexed, hApplied, hLeaders, ?_, hPending, ?_⟩
    · rw [hLast]
      exact fun id hId => (h.receipted.membership id hId).concat
    · rw [hLast, state.completedJoins_other hOther]
      exact fun physicalId receipt hReceipt => (h.receipted.receipts physicalId receipt hReceipt).concat

/-- One accepted entry. -/
theorem apply (h : Paired cfg session roster log source state)
    (hSession : auth.session = session) (hIds : auth.configuredPhysicalIds = cfg.physicalIds)
    (hIndex : entry.logId.index = source.cursor.elim 0 fun last => last.index + 1)
    (hData : history.data valid auth entry = .ok ())
    (hApply : history.apply valid auth frontier source entry = .ok after) :
    Paired cfg session roster (log ++ [entry]) after (state.step entry) := by
  have hAbove := Replays.above_of_index hIndex
  have hGenesis : auth.session.context.genesis = session.context.genesis := by rw [hSession]
  have hVoters : ∀ membership, entry.payload = .membership membership → membership.voterIds ≠ ∅ :=
    fun membership hPayload => ReplicationHistory.data_membership hPayload hData
  refine ⟨?_, h.sane.apply hAbove hData hApply, ?_, fun hSome => ?_,
    h.receipted_apply hSession hIds hIndex hData hApply⟩
  · rw [state.admissionView_step]
    exact ReplicationHistory.apply_trails h.trails hGenesis hAbove hData hApply
  · rcases h.pending with hPending | hLost
    · exact SourceState.paired_apply h.trails h.earned hPending hGenesis hAbove hData hApply
    · exact hLost.apply h.sane hAbove hApply
  · rw [state.admissionView_step]
    refine AdmissionView.Ready.step ?_ hVoters
    by_cases hOld : state.completedJoins = ∅
    · refine h.trails.ready fun hNone => hSome ?_
      have hNone : state.preparedJoin = none := hNone
      by_cases hMembership : ∃ next, entry.payload = .membership next
      · obtain ⟨next, hPayload⟩ := hMembership
        have hNothing : state.completion next entry.logId = none := by
          rw [KafStorageState.completion, hNone, Option.filter_none]
        rw [state.completedJoins_membership hPayload, hNothing, hOld]
      · rw [state.completedJoins_other fun next hPayload => hMembership ⟨next, hPayload⟩, hOld]
    · exact h.earned hOld

/-- What is accepted, entry by entry. -/
theorem replays (h : Paired cfg session roster log source state) {entries : List Entry}
    (hSession : auth.session = session) (hIds : auth.configuredPhysicalIds = cfg.physicalIds)
    (hReplays : Replays valid history auth frontier source entries after) :
    Paired cfg session roster (log ++ entries) after (entries.foldl KafStorageState.step state) := by
  induction hReplays generalizing log state with
  | nil source => rwa [List.append_nil]
  | cons hIndex hData hApply hRest ih =>
      rw [List.append_cons]
      exact ih (h.apply hSession hIds hIndex hData hApply)

end Paired

/-- Where the validator starts on a state that shows its log. -/
theorem paired_start (hTracks : source.Tracks session.context.genesis roster state.admissionView)
    (hEarned : state.completedJoins ≠ ∅ → state.admissionView.Ready session.context.genesis)
    (h : state.Receipted cfg session log) : Paired cfg session roster log source state := by
  have hReached : ∀ {id : LogId}, Knows (log[·]?) id →
      ∃ cursor ∈ source.cursor, id.index ≤ cursor.index := by
    intro id hId
    obtain ⟨last, hLast, -, hLe⟩ := h.exists_applied hId
    exact ⟨last, hTracks.cursor.trans hLast, hLe⟩
  refine ⟨hTracks.toTrails, ⟨fun pending hMem => (hTracks.inOrder pending hMem).plan,
    fun pending hMem => hReached (h.pending pending (hTracks.pending.symm.trans hMem)).prepared,
    fun pending hMem => (hTracks.inOrder pending hMem).ack, fun id hId => ?_⟩, .inl hTracks.pending,
    hEarned, h⟩
  by_cases hEmpty : state.lastMembership.membership.voterIds = ∅
  · rw [hTracks.unformed hEmpty] at hId
    cases hId
  · rw [hTracks.formed hEmpty] at hId
    exact hReached (h.membership id hId)

/-- Whatever was accepted and applied, the state shows its log. -/
theorem AcceptedLog.receipted {config : StoreConfig}
    (hLog : AcceptedLog valid cfg session config log) :
    ∃ source, Paired cfg session (rosterOf valid cfg session.context.genesis) log source
      (log.foldl KafStorageState.step config.start) := by
  induction hLog with
  | start =>
      refine ⟨⟨⟨none, rosterOf valid cfg session.context.genesis⟩, none, none⟩, paired_start ?_ ?_ ?_⟩
      · exact SourceState.tracks_start _ _ config
      · exact fun hSome => absurd rfl hSome
      · refine ⟨fun _ _ hEntry => (by cases hEntry), rfl, fun _ hEntry => (by cases hEntry),
          fun _ hNone => (by cases hNone), fun _ hNone => (by cases hNone),
          fun physicalId receipt hSome => ?_⟩
        simp [StoreConfig.start, KafStorageState.new] at hSome
  | @apply log applied hLog accepted hApplied ih =>
      obtain ⟨_, hPaired⟩ := ih
      obtain ⟨start, final, hStart, hReplays⟩ := accepted.replays fresh_of_unapplied
        hPaired.trails.ready
      obtain ⟨rest, hRest⟩ := hApplied
      rw [← hRest] at hReplays
      obtain ⟨middle, hFirst, -⟩ := hReplays.split
      rw [List.foldl_append]
      exact ⟨middle, (paired_start hStart hPaired.earned hPaired.receipted).replays accepted.session_eq
        accepted.captured.configuredPhysicalIds hFirst⟩

end Runs

/-! ### The snapshot -/

/-- Of two positions of a log with ascending terms, one is at or before the other. -/
theorem logAtOrBefore_of_knows {log : List Entry}
    (hTerms : log.Pairwise fun first second =>
      first.logId.leaderId.term ≤ second.logId.leaderId.term)
    {first second : LogId} (hFirst : Knows (log[·]?) first) (hSecond : Knows (log[·]?) second)
    (hLe : first.index ≤ second.index) : logAtOrBefore first second = true := by
  have hSame : first.index = second.index → first = second := hFirst.unique hSecond
  have hTerm : first.leaderId.term ≤ second.leaderId.term := by
    rcases Nat.lt_or_eq_of_le hLe with hLt | hEq
    · obtain ⟨entry, hEntry, hId⟩ := Option.map_eq_some_iff.mp hFirst
      obtain ⟨other, hOther, hOtherId⟩ := Option.map_eq_some_iff.mp hSecond
      obtain ⟨hFirstLt, rfl⟩ := List.getElem?_eq_some_iff.mp hEntry
      obtain ⟨hSecondLt, rfl⟩ := List.getElem?_eq_some_iff.mp hOther
      have hPair := List.pairwise_iff_getElem.mp hTerms _ _ hFirstLt hSecondLt hLt
      rwa [hId, hOtherId] at hPair
    · rw [hSame hEq]
  simp only [logAtOrBefore, decide_eq_true_eq]
  exact ⟨hLe, hTerm, or_iff_not_imp_left.mpr fun hEq => hSame (not_not.mp hEq)⟩

section Snapshot

variable {cfg : Config} {session : AdmissionSession} {log : List Entry} {state : KafStorageState}
  {auth : RaftAuthorization}

/-- The leader of every logged entry is configured. -/
theorem KafStorageState.Receipted.log_eq_ok (h : state.Receipted cfg session log)
    (hIds : auth.configuredPhysicalIds = cfg.physicalIds) {id : LogId} (hId : Knows (log[·]?) id) :
    auth.log (some id) = .ok () := by
  obtain ⟨entry, hEntry, rfl⟩ := Option.map_eq_some_iff.mp hId
  have hLeader := h.leaders entry (List.mem_of_getElem? hEntry)
  simp [RaftAuthorization.log, hIds, hLeader]

/-- The receipt fits the state: it is kept under the consumer's physical id, preparation,
acknowledgement and promotion are in order, the promotion is neither above what is applied nor
above the last membership, which it agrees with at equal index, and the consumer is a voter. -/
structure KafStorageState.Earned (state : KafStorageState) (physicalId : Nat)
    (receipt : CompletedJoin) : Prop where
  key : physicalId = receipt.prepared.plan.consumer.physicalId
  barriers : ∃ ack, receipt.prepared.learnerApplied = some ack ∧
    (receipt.prepared.prepared.index < ack.index ∧ logAtOrBefore receipt.prepared.prepared ack) ∧
    ack.index < receipt.promoted.index ∧ logAtOrBefore ack receipt.promoted
  applied : state.lastAppliedLog.any (logAtOrBefore receipt.promoted)
  voter : receipt.prepared.plan.consumer ∈ state.lastMembership.membership.voterIds
  membership : ∃ last, state.lastMembership.logId = some last ∧
    logAtOrBefore receipt.promoted last ∧ (last.index = receipt.promoted.index →
      last = receipt.promoted ∧
        state.lastMembership.membership.getJointConfig = [receipt.prepared.plan.nextVoters])

theorem KafStorageState.Receipted.earned (h : state.Receipted cfg session log)
    (hTerms : log.Pairwise fun first second =>
      first.logId.leaderId.term ≤ second.logId.leaderId.term) {physicalId : Nat}
    {receipt : CompletedJoin} (hSome : state.completedJoins[physicalId]? = some receipt) :
    state.Earned physicalId receipt := by
  obtain ⟨hKey, hLogged, hPromoted, ⟨ack, hAck, hAckLt⟩, hVoter, last, hLast, hLastLe, hFinal⟩ :=
    h.receipts physicalId receipt hSome
  obtain ⟨hAckKnown, hPreparedLt⟩ := hLogged.ack ack hAck
  obtain ⟨applied, hApplied, hAppliedKnown, hAppliedLe⟩ := h.exists_applied hPromoted
  have hLastKnown := h.membership last hLast
  have hOrdered : ∀ {first second : LogId}, Knows (log[·]?) first → Knows (log[·]?) second →
      first.index ≤ second.index → logAtOrBefore first second = true :=
    logAtOrBefore_of_knows hTerms
  refine ⟨hKey, ⟨ack, hAck, ⟨hPreparedLt, hOrdered hLogged.prepared hAckKnown hPreparedLt.le⟩, hAckLt,
    hOrdered hAckKnown hPromoted hAckLt.le⟩, (Option.any_eq_true _ _).mpr ⟨applied, hApplied,
    hOrdered hPromoted hAppliedKnown hAppliedLe⟩, hVoter, last, hLast,
    hOrdered hPromoted hLastKnown hLastLe, fun hIndex => ?_⟩
  exact ⟨hLastKnown.unique hPromoted hIndex, hFinal hIndex⟩

/-- An earned receipt passes its checks. -/
theorem KafStorageState.Receipted.snapshotCompletion (h : state.Receipted cfg session log)
    (hTerms : log.Pairwise fun first second =>
      first.logId.leaderId.term ≤ second.logId.leaderId.term)
    (hGenesis : auth.session.context.genesis = session.context.genesis)
    (hIds : auth.configuredPhysicalIds = cfg.physicalIds) (physicalId : Nat)
    (receipt : CompletedJoin) (hSome : state.completedJoins[physicalId]? = some receipt) :
    physicalId ∈ cfg.physicalIds ∧
      auth.snapshotCompletion (KafSnapshot.of state).identities physicalId receipt = .ok () := by
  obtain ⟨hKey, ⟨ack, hAck, hBefore, hBetween⟩, hApplied, hVoter, last, hLast, hPast, hFinal⟩ :=
    h.earned hTerms hSome
  obtain ⟨-, hLogged, hPromoted, -⟩ := h.receipts physicalId receipt hSome
  have hPlan := RaftAuthorization.joinPlanData_eq_ok.mp hLogged.plan
  have hConfigured : physicalId ∈ cfg.physicalIds := by
    obtain ⟨hValid, -, -, hMembers⟩ := hPlan
    rw [hKey]
    exact hMembers _ (Finset.mem_union_right _ (JoinPlan.consumer_mem_next hValid))
  have hAllowed : auth.joinPlanData receipt.prepared.plan = .ok () := by
    rw [RaftAuthorization.joinPlanData_eq_ok, hGenesis, hIds]
    exact hPlan
  have hMembership : (KafSnapshot.of state).identities.lastMembership.logId.any
      (logAtOrBefore receipt.promoted) = true := (Option.any_eq_true _ _).mpr ⟨last, hLast, hPast⟩
  refine ⟨hConfigured, ?_⟩
  simp only [RaftAuthorization.snapshotCompletion, Checks.bind_eq_ok, okOr_eq_ok]
  refine ⟨(), hAllowed, (), h.log_eq_ok hIds hLogged.prepared, (), ?_, (), h.log_eq_ok hIds hPromoted,
    ack, hAck, (), ?_, ?_⟩
  · rw [hAck]
    exact h.log_eq_ok hIds (hLogged.ack ack hAck).1
  · rw [ensure_eq_ok, decide_eq_true_eq, hIds]
    exact ⟨hKey, hConfigured, hBefore.1, hBefore.2, hBetween.1, hBetween.2, hApplied, hMembership,
      hVoter⟩
  · split
    · next hEqual =>
        obtain ⟨other, hOther, hIndex⟩ := (Option.any_eq_true _ _).mp hEqual
        obtain rfl := Option.some.inj (hLast.symm.trans hOther)
        obtain ⟨hSame, hConfigs⟩ := hFinal (of_decide_eq_true hIndex)
        rw [ensure_eq_ok, decide_eq_true_eq]
        exact ⟨hSame ▸ hLast, hConfigs⟩
    · rfl

end Snapshot

/-- Receipts pass snapshot validation: every receipt of a state that an accepted log with
ascending terms has built fits that state, and on the snapshot of the state all checks of the
completion history succeed. -/
theorem receipts_pass_snapshot (valid : MembershipCheck) (cfg : Config)
    (session : AdmissionSession) (config : StoreConfig) (log : List Entry)
    (hLog : AcceptedLog valid cfg session config log)
    (hTerms : log.Pairwise fun first second =>
      first.logId.leaderId.term ≤ second.logId.leaderId.term)
    (auth : RaftAuthorization)
    (hGenesis : auth.session.context.genesis = session.context.genesis)
    (hIds : auth.configuredPhysicalIds = cfg.physicalIds) :
    let state := log.foldl KafStorageState.step config.start
    (∀ physicalId receipt, state.completedJoins[physicalId]? = some receipt →
        state.Earned physicalId receipt) ∧
      auth.snapshotCompletions (KafSnapshot.of state).identities = .ok () := by
  intro state
  obtain ⟨_, hPaired⟩ := hLog.receipted
  refine ⟨fun physicalId receipt hSome => hPaired.receipted.earned hTerms hSome, ?_⟩
  have hReceipt := hPaired.receipted.snapshotCompletion hTerms hGenesis hIds
  simp only [RaftAuthorization.snapshotCompletions, Checks.bind_eq_ok]
  refine ⟨(), ?_, Checks.forM_eq_ok.mpr fun item hItem => ?_⟩
  · rw [ensure_eq_ok, decide_eq_true_eq, hIds]
    have hKeys : state.completedJoins.keys.toFinset ⊆ cfg.physicalIds := by
      intro physicalId hMem
      rw [List.mem_toFinset, ExtTreeMap.mem_keys] at hMem
      obtain ⟨receipt, hSome⟩ := Option.isSome_iff_exists.mp
        (ExtTreeMap.mem_iff_isSome_getElem?.mp hMem)
      exact (hReceipt physicalId receipt hSome).1
    have hCard := Finset.card_le_card hKeys
    rw [List.toFinset_card_of_nodup ExtTreeMap.nodup_keys, ExtTreeMap.length_keys] at hCard
    exact hCard
  · exact (hReceipt item.1 item.2 (ExtTreeMap.mem_toList_iff_getElem?_eq_some.mp hItem)).2

/-- The sample cluster completes its join, and its receipt passes. -/
theorem receipts_pass_snapshot_rejoin :
    let state := (rejoinEntriesAll ++ rejoinPromotion).foldl KafStorageState.step rejoinStore.start
    state.completedJoins[3]?.map CompletedJoin.promoted = some (rejoinLog 6) ∧
      (authorityOf rejoinConfig rejoinSession).snapshotCompletions (KafSnapshot.of state).identities =
        .ok () := by
  obtain ⟨accepted, hNode, hRequest⟩ := exists_acceptance rejoinStore.start rejoinNode
    (wholeLog (rejoinEntriesAll ++ rejoinPromotion) 6) rfl rfl (by decide +kernel)
  have hEntries : rejoinEntriesAll ++ rejoinPromotion <+: accepted.entries := by
    rw [Acceptance.entries, hNode, hRequest]
    decide +kernel
  exact ⟨by decide +kernel, (receipts_pass_snapshot documentedCheck rejoinConfig rejoinSession
    rejoinStore _ (.apply .start accepted hEntries) (by decide +kernel) _ rfl rfl).2⟩

end KeepAfloat
