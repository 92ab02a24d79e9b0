import KeepAfloat.Network.Replay
import KeepAfloat.Store.AdmissionView

/-! The replication validator simulates the state machine. What the validator
permits is read off once as the stages of a join; the simulation then compares the
replay with the admission part of the state machine entry by entry. -/

namespace KeepAfloat

namespace Membership

theorem new_eq_ok {valid : MembershipCheck}
    {configs : List (Finset ReplicaId)} {nodes : Std.ExtTreeMap ReplicaId BasicNode}
    {membership : Membership} (h : new valid configs nodes = .ok membership) :
    membership = ⟨configs, nodes⟩ := by
  simp only [new, Checks.bind_eq_ok, Checks.pure_eq_ok] at h
  obtain ⟨_, -, hEq⟩ := h
  exact hEq.symm

end Membership

/-- The changes of membership that a pending join goes through. The flag marks the
change that ends it. -/
inductive JoinStage (pending : PreparedJoin) (current next : Membership) : Bool → Prop where
  | addLearner (hCurrent : current.configs = [pending.plan.previousVoters])
      (hNext : next.configs = [pending.plan.previousVoters])
      (hNodes : ∀ replica, replica ∈ next.nodes ↔
        replica = pending.plan.consumer ∨ replica ∈ current.nodes) :
      JoinStage pending current next false
  | removeLearner (hCurrent : current.configs = [pending.plan.previousVoters])
      (hNext : next.configs = [pending.plan.previousVoters])
      (hNodes : ∀ replica, replica ∈ next.nodes ↔
        replica ≠ pending.plan.consumer ∧ replica ∈ current.nodes) :
      JoinStage pending current next false
  | enterJoint (ack : LogId) (hAck : pending.learnerApplied = some ack)
      (hCurrent : current.configs = [pending.plan.previousVoters])
      (hLearner : pending.plan.consumer ∈ current.learnerIds)
      (hNext : next.configs = [pending.plan.previousVoters, pending.plan.nextVoters])
      (hNodes : ∀ replica, replica ∈ next.nodes ↔
        replica = pending.plan.consumer ∨ replica ∈ current.nodes) :
      JoinStage pending current next false
  | promote (ack : LogId) (hAck : pending.learnerApplied = some ack)
      (hCurrent : current.configs = [pending.plan.previousVoters, pending.plan.nextVoters])
      (hNext : next.configs = [pending.plan.nextVoters])
      (hNodes : ∀ replica, replica ∈ next.nodes ↔ replica ∈ current.nodes ∧
        replica ∉ pending.plan.previousVoters \ pending.plan.nextVoters) :
      JoinStage pending current next true

/-- What an accepted admission command does to the pending join. -/
inductive CommandStage (source : SourceState) (log : LogId) (frontier : Option LogId) :
    AdmissionCommand → Option PreparedJoin → Prop where
  | prepare {plan : JoinPlan} (hNone : source.pending = none)
      (hStable : source.membership.membership.configs = [plan.previousVoters]) :
      CommandStage source log frontier (.prepareJoin plan) (some ⟨plan, log, none⟩)
  | prepareAgain {pending : PreparedJoin} (hPending : source.pending = some pending) :
      CommandStage source log frontier (.prepareJoin pending.plan) (some pending)
  | cancel {pending : PreparedJoin} (hPending : source.pending = some pending)
      (hCommitted : ReplicationHistory.isCommitted pending.prepared frontier = true)
      (hStable : source.membership.membership.configs = [pending.plan.previousVoters])
      (hRemoved : pending.plan.consumer ∉ source.membership.membership.nodes) :
      CommandStage source log frontier (.cancelJoin pending.plan pending.prepared) none
  | acknowledge {pending : PreparedJoin} {membershipLog : LogId}
      (hPending : source.pending = some pending)
      (hCommitted : ReplicationHistory.isCommitted pending.prepared frontier = true)
      (hNone : pending.learnerApplied = none)
      (hStable : source.membership.membership.configs = [pending.plan.previousVoters])
      (hLearner : pending.plan.consumer ∈ source.membership.membership.learnerIds)
      (hMembershipLog : source.membership.logId = some membershipLog)
      (hLogged : ReplicationHistory.isCommitted membershipLog frontier = true) :
      CommandStage source log frontier
        (.learnerApplied pending.plan.consumer pending.plan.requestNonce pending.prepared)
        (some { pending with learnerApplied := some log })
  | acknowledgeAgain {pending : PreparedJoin} (hPending : source.pending = some pending)
      (hCommitted : ReplicationHistory.isCommitted pending.prepared frontier = true)
      (hSome : pending.learnerApplied ≠ none) :
      CommandStage source log frontier
        (.learnerApplied pending.plan.consumer pending.plan.requestNonce pending.prepared)
        (some pending)

namespace ReplicationHistory

variable {valid : MembershipCheck} {history : ReplicationHistory}
  {auth : RaftAuthorization} {frontier : Option LogId}

theorem membership_eq_ok {configs : List (Finset ReplicaId)} {ids : Finset ReplicaId}
    {membership : Membership} (h : history.membership valid configs ids = .ok membership) :
    membership.configs = configs ∧ ∀ replica, replica ∈ membership.nodes ↔ replica ∈ ids := by
  simp only [ReplicationHistory.membership, Checks.bind_eq_ok, okOr_eq_ok] at h
  obtain ⟨nodes, hNodes, hNew⟩ := h
  rw [Membership.new_eq_ok hNew]
  exact ⟨rfl, mem_addressed hNodes⟩

theorem stablePermitted_stage {current next : Membership} {pending : PreparedJoin}
    {permitted : List Membership}
    (hCurrent : current.configs = [pending.plan.previousVoters])
    (hPermitted : history.stablePermitted valid current pending frontier = .ok permitted)
    (hNext : next ∈ permitted) : JoinStage pending current next false := by
  simp only [stablePermitted, Checks.bind_eq_ok] at hPermitted
  obtain ⟨added, hAdded, removed, hRemoved, hRest⟩ := hPermitted
  obtain ⟨hAddedConfigs, hAddedNodes⟩ := membership_eq_ok hAdded
  obtain ⟨hRemovedConfigs, hRemovedNodes⟩ := membership_eq_ok hRemoved
  have hAdd : JoinStage pending current added false :=
    .addLearner hCurrent hAddedConfigs fun replica => by simp [hAddedNodes]
  have hRemove : JoinStage pending current removed false :=
    .removeLearner hCurrent hRemovedConfigs fun replica => by simp [hRemovedNodes]
  split at hRest
  · next hAcknowledged =>
      simp only [Checks.bind_eq_ok, Checks.pure_eq_ok] at hRest
      obtain ⟨joint, hJoint, rfl⟩ := hRest
      obtain ⟨hJointConfigs, hJointNodes⟩ := membership_eq_ok hJoint
      rw [Bool.and_eq_true, decide_eq_true_iff, Option.any_eq_true] at hAcknowledged
      obtain ⟨⟨ack, hAck, -⟩, hLearner⟩ := hAcknowledged
      simp only [List.mem_cons, List.not_mem_nil, or_false] at hNext
      rcases hNext with rfl | rfl | rfl
      · exact hAdd
      · exact hRemove
      · exact .enterJoint ack hAck hCurrent hLearner hJointConfigs
          fun replica => by simp [hJointNodes]
  · simp only [Checks.pure_eq_ok] at hRest
    subst hRest
    simp only [List.mem_cons, List.not_mem_nil, or_false] at hNext
    rcases hNext with rfl | rfl
    · exact hAdd
    · exact hRemove

theorem finalPermitted_stage {current : StoredMembership} {next : Membership}
    {pending : PreparedJoin} {permitted : List Membership}
    (hPermitted : history.finalPermitted valid current pending frontier = .ok permitted)
    (hNext : next ∈ permitted) : JoinStage pending current.membership next true := by
  simp only [finalPermitted, Checks.bind_eq_ok, Checks.pure_eq_ok] at hPermitted
  obtain ⟨_, hBarrier, promoted, hPromoted, rfl⟩ := hPermitted
  obtain ⟨hConfigs, hNodes⟩ := membership_eq_ok hPromoted
  obtain ⟨hJoint, hAck, -⟩ := of_decide_eq_true (ensure_eq_ok.mp hBarrier)
  obtain ⟨ack, hAck, -⟩ := (Option.any_eq_true _ _).mp hAck
  obtain rfl := List.mem_singleton.mp hNext
  exact .promote ack hAck hJoint hConfigs fun replica => by simp [hNodes]

/-- An accepted membership repeats the current one or is the next stage of the
pending join. -/
theorem transition_stage {source after : SourceState} {membership : Membership} {log : LogId}
    (h : history.transition valid source membership log frontier = .ok after) :
    (membership = source.membership.membership ∧
        after = { source with membership := ⟨some log, membership⟩ }) ∨
      ∃ pending final, source.pending = some pending ∧
        JoinStage pending source.membership.membership membership final ∧
        after = { source with
          membership := ⟨some log, membership⟩
          pending := if final then none else source.pending } := by
  rw [transition] at h
  split at h
  · next hSame => exact Or.inl ⟨hSame, (Except.ok.inj h).symm⟩
  · simp only [Checks.bind_eq_ok, okOr_eq_ok, Checks.pure_eq_ok] at h
    obtain ⟨pending, hPending, _, -, permitted, hPermitted, _, hNext, rfl⟩ := h
    have hNext := of_decide_eq_true (ensure_eq_ok.mp hNext)
    refine Or.inr ⟨pending, !RaftAuthorization.stablePrevious source.membership.membership
      pending.plan, hPending, ?_, ?_⟩
    · cases hStable : RaftAuthorization.stablePrevious source.membership.membership pending.plan with
      | true =>
          rw [permittedNext, hStable, if_pos rfl] at hPermitted
          exact stablePermitted_stage (RaftAuthorization.stablePrevious_eq_true.mp hStable)
            hPermitted hNext
      | false =>
          rw [permittedNext, hStable, if_neg (by simp)] at hPermitted
          exact finalPermitted_stage hPermitted hNext
    · cases RaftAuthorization.stablePrevious source.membership.membership pending.plan <;> rfl

theorem applyCommand_eq_ok {source : SourceState} {command : AdmissionCommand} {log : LogId}
    {next : Option PreparedJoin} :
    applyCommand source command log frontier = .ok next ↔
      CommandStage source log frontier command next := by
  constructor
  · intro h
    cases command with
    | prepareJoin plan =>
        cases hJoin : source.pending with
        | none =>
            simp only [applyCommand, hJoin, Checks.bind_eq_ok, Checks.pure_eq_ok] at h
            obtain ⟨_, hStable, rfl⟩ := h
            rw [ensure_eq_ok, RaftAuthorization.stablePrevious_eq_true] at hStable
            exact .prepare hJoin hStable
        | some pending =>
            simp only [applyCommand, hJoin, Checks.bind_eq_ok, Checks.pure_eq_ok] at h
            obtain ⟨_, hSame, rfl⟩ := h
            obtain rfl := of_decide_eq_true (ensure_eq_ok.mp hSame)
            exact .prepareAgain hJoin
    | cancelJoin plan prepared =>
        simp only [applyCommand, Checks.bind_eq_ok, okOr_eq_ok, Checks.pure_eq_ok] at h
        obtain ⟨pending, hJoin, _, hExact, rfl⟩ := h
        obtain ⟨rfl, rfl, hCommitted, hStable, hRemoved⟩ :=
          of_decide_eq_true (ensure_eq_ok.mp hExact)
        exact .cancel hJoin hCommitted (RaftAuthorization.stablePrevious_eq_true.mp hStable) hRemoved
    | learnerApplied consumer requestNonce prepared =>
        simp only [applyCommand, Checks.bind_eq_ok, okOr_eq_ok] at h
        obtain ⟨pending, hJoin, _, hExact, hRest⟩ := h
        obtain ⟨rfl, rfl, rfl, hCommitted⟩ := of_decide_eq_true (ensure_eq_ok.mp hExact)
        cases hAck : pending.learnerApplied with
        | some ack =>
            simp only [hAck, Option.isSome_some, if_true, Checks.pure_eq_ok] at hRest
            subst hRest
            exact .acknowledgeAgain hJoin hCommitted (by simp [hAck])
        | none =>
            simp only [hAck, Option.isSome_none, Bool.false_eq_true, if_false, Checks.bind_eq_ok,
              Checks.pure_eq_ok] at hRest
            obtain ⟨_, hStage, rfl⟩ := hRest
            obtain ⟨hStable, hLearner, hLogged⟩ := of_decide_eq_true (ensure_eq_ok.mp hStage)
            obtain ⟨membershipLog, hMembershipLog, hLogged⟩ := (Option.any_eq_true _ _).mp hLogged
            exact .acknowledge hJoin hCommitted hAck
              (RaftAuthorization.stablePrevious_eq_true.mp hStable) hLearner hMembershipLog hLogged
  · intro h
    cases h with
    | prepare hNone hStable => simp [applyCommand, hNone, hStable]
    | prepareAgain hPending => simp [applyCommand, hPending]
    | cancel hPending hCommitted hStable hRemoved =>
        simp [applyCommand, hPending, hCommitted, hStable, hRemoved]
    | acknowledge hPending hCommitted hNone hStable hLearner hMembershipLog hLogged =>
        simp only [Membership.mem_learnerIds] at hLearner
        simp [applyCommand, hPending, hCommitted, hNone, hStable, hLearner, hMembershipLog, hLogged]
    | acknowledgeAgain hPending hCommitted hSome =>
        simp [applyCommand, hPending, hCommitted, Option.isSome_iff_ne_none.mpr hSome]

/-- What an accepted entry does to the replay. -/
inductive EntryStage (valid : MembershipCheck)
    (history : ReplicationHistory) (auth : RaftAuthorization) (frontier : Option LogId)
    (source : SourceState) (entry : Entry) : SourceState → Prop where
  | other (hMembership : ∀ membership, entry.payload ≠ .membership membership)
      (hCommand : ∀ command, entry.payload ≠ .normal (.admissionMembership command))
      (hAccepted : ∀ request, entry.payload = .normal request →
        auth.command request entry.logId = .ok ()) :
      EntryStage valid history auth frontier source entry
        { source with cursor := some entry.logId }
  | membership {membership : Membership} {next : SourceState}
      (hPayload : entry.payload = .membership membership)
      (hNext : history.transition valid source membership entry.logId frontier = .ok next) :
      EntryStage valid history auth frontier source entry { next with cursor := some entry.logId }
  | command {command : AdmissionCommand} {next : Option PreparedJoin}
      (hPayload : entry.payload = .normal (.admissionMembership command))
      (hNext : CommandStage source entry.logId frontier command next) :
      EntryStage valid history auth frontier source entry
        { source with pending := next, cursor := some entry.logId }

theorem apply_eq_ok {source after : SourceState} {entry : Entry} :
    history.apply valid auth frontier source entry = .ok after ↔
      EntryStage valid history auth frontier source entry after := by
  simp only [apply, Checks.bind_eq_ok, Checks.pure_eq_ok]
  constructor
  · rintro ⟨next, hNext, rfl⟩
    rw [applyPayload] at hNext
    cases hPayload : entry.payload with
    | blank =>
        rw [hPayload] at hNext
        obtain rfl := Except.ok.inj hNext
        exact .other (by simp [hPayload]) (by simp [hPayload]) (by simp [hPayload])
    | membership membership =>
        rw [hPayload] at hNext
        exact .membership hPayload hNext
    | normal request =>
        rw [hPayload] at hNext
        have hOther : (do auth.command request entry.logId; return source) = .ok next →
            (∀ command, request ≠ .admissionMembership command) →
            EntryStage valid history auth frontier source entry
              { next with cursor := some entry.logId } := by
          intro hRequest hCommand
          simp only [Checks.bind_eq_ok, Checks.pure_eq_ok] at hRequest
          obtain ⟨_, hAccepted, rfl⟩ := hRequest
          refine .other (by simp [hPayload]) (by simpa [hPayload] using hCommand) ?_
          rintro other hSame
          cases hPayload.symm.trans hSame
          exact hAccepted
        cases request with
        | admissionMembership command =>
            simp only [Checks.bind_eq_ok, Checks.pure_eq_ok] at hNext
            obtain ⟨pending, hPending, rfl⟩ := hNext
            exact .command hPayload (applyCommand_eq_ok.mp hPending)
        | admissionGenesis genesis => exact hOther hNext (by simp)
        | healthProgress progress => exact hOther hNext (by simp)
        | healthUpdate nodeId healthy => exact hOther hNext (by simp)
        | vipReleased nodeId vip generation => exact hOther hNext (by simp)
        | clusterFormed clusterId semantics enforced => exact hOther hNext (by simp)
        | enableFailoverSemanticsV2 => exact hOther hNext (by simp)
        | enableConfigIdentityV1 => exact hOther hNext (by simp)
  · intro h
    cases h with
    | membership hPayload hNext =>
        refine ⟨_, ?_, rfl⟩
        rw [applyPayload, hPayload]
        exact hNext
    | @command command next hPayload hNext =>
        refine ⟨{ source with pending := next }, ?_, rfl⟩
        simp only [applyPayload, hPayload, applyCommand_eq_ok.mpr hNext]
        rfl
    | other hMembership hCommand hAccepted =>
        refine ⟨source, ?_, rfl⟩
        rw [applyPayload]
        cases hPayload : entry.payload with
        | blank => rfl
        | membership membership => exact absurd hPayload (hMembership membership)
        | normal request =>
            have hRequest := hAccepted request hPayload
            cases request with
            | admissionMembership command => exact absurd hPayload (hCommand command)
            | admissionGenesis genesis => simp only [hRequest]; rfl
            | healthProgress progress => simp only [hRequest]; rfl
            | healthUpdate nodeId healthy => simp only [hRequest]; rfl
            | vipReleased nodeId vip generation => simp only [hRequest]; rfl
            | clusterFormed clusterId semantics enforced => simp only [hRequest]; rfl
            | enableFailoverSemanticsV2 => simp only [hRequest]; rfl
            | enableConfigIdentityV1 => simp only [hRequest]; rfl

end ReplicationHistory

/-- A state in which join operations can be judged: genesis is applied, and so is a
membership. -/
structure AdmissionView.Ready (genesis : Genesis) (view : AdmissionView) : Prop where
  genesis : view.genesis = some genesis
  voters : view.lastMembership.membership.voterIds ≠ ∅

namespace AdmissionView

variable {genesis : Genesis} {view : AdmissionView} {entry : Entry}

/-- A genesis stays once it is set. -/
theorem genesis_step (h : view.genesis = some genesis) (entry : Entry) :
    (view.step entry).genesis = some genesis := by
  rw [step]
  split
  · exact h
  · exact h
  · dsimp only
    split
    · next hAdmits =>
        rw [admitsGenesis, Bool.and_eq_true, h] at hAdmits
        simpa [eq_comm] using hAdmits.1
    · exact h
  · exact h
  · exact h

/-- A ready state stays ready over entries whose memberships have voters. -/
theorem Ready.step (h : view.Ready genesis) (hVoters : ∀ membership,
    entry.payload = .membership membership → membership.voterIds ≠ ∅) :
    (view.step entry).Ready genesis := by
  refine ⟨genesis_step h.genesis entry, ?_⟩
  by_cases hMembership : ∃ membership, entry.payload = .membership membership
  · obtain ⟨membership, hPayload⟩ := hMembership
    rw [AdmissionView.step, hPayload]
    exact hVoters membership hPayload
  · rw [view.lastMembership_step fun membership hPayload => hMembership ⟨membership, hPayload⟩]
    exact h.voters

/-- A join is pending only where the state is ready. -/
theorem ready_step (hKnown : ∀ current ∈ view.genesis, current = genesis)
    (hReady : view.preparedJoin ≠ none → view.Ready genesis)
    (hVoters : ∀ membership, entry.payload = .membership membership → membership.voterIds ≠ ∅)
    (hPending : (view.step entry).preparedJoin ≠ none) : (view.step entry).Ready genesis := by
  by_cases hNone : view.preparedJoin = none
  · cases hPayload : entry.payload with
    | blank => simp [AdmissionView.step, hPayload, hNone] at hPending
    | membership membership =>
        simp [AdmissionView.step, hPayload, AdmissionView.pendingAfter, hNone] at hPending
    | normal request =>
        cases request with
        | admissionMembership command =>
            simp only [AdmissionView.step, hPayload] at hPending ⊢
            rcases admissionOutcome_cases view.preparedJoin view.genesis
              view.lastMembership.membership command entry.logId with hSame | hEnded |
              ⟨plan, -, -, hPlan, hGenesis, hVoterIds, -⟩ | ⟨pending, hSome, -⟩
            · exact absurd (hSame.trans hNone) hPending
            · exact absurd hEnded hPending
            · refine ⟨?_, ?_⟩
              · rw [hGenesis, hKnown plan.genesis hGenesis]
              · rw [hVoterIds]
                exact (JoinPlan.validate_eq_ok.mp hPlan).1.ne_empty
            · rw [hNone] at hSome
              cases hSome
        | _ => simp [AdmissionView.step, hPayload, hNone] at hPending
  · exact (hReady hNone).step hVoters

theorem known_step (hKnown : ∀ current ∈ view.genesis, current = genesis)
    (hAccepted : ∀ other, entry.payload = .normal (.admissionGenesis other) → other = genesis) :
    ∀ current ∈ (view.step entry).genesis, current = genesis := by
  intro current hCurrent
  by_cases hAdopts : ∃ other, entry.payload = .normal (.admissionGenesis other)
  · obtain ⟨other, hPayload⟩ := hAdopts
    simp only [AdmissionView.step, hPayload] at hCurrent
    split at hCurrent
    · exact (Option.some.inj hCurrent).symm.trans (hAccepted other hPayload)
    · exact hKnown current hCurrent
  · rw [view.genesis_other fun other hPayload => hAdopts ⟨other, hPayload⟩] at hCurrent
    exact hKnown current hCurrent

end AdmissionView

namespace SourceState

/-- The replay stands before a position. -/
def Before (source : SourceState) (log : LogId) : Prop :=
  ∀ cursor ∈ source.cursor, cursor.index < log.index

/-- What the replay knows about its pending join. -/
structure InOrder (genesis : Genesis) (source : SourceState) (pending : PreparedJoin) : Prop where
  plan : pending.plan.validate = .ok ()
  genesis : pending.plan.genesis = genesis
  stage : source.membership.membership.configs = [pending.plan.previousVoters] ∨
    source.membership.membership.configs = [pending.plan.previousVoters, pending.plan.nextVoters]
  ack : ∀ ack ∈ pending.learnerApplied, ∃ cursor ∈ source.cursor, ack.index ≤ cursor.index

/-- The replay and the state machine stand at one position with one membership. Before any
membership is applied the replay starts from the genesis roster. -/
structure Trails (genesis : Genesis) (roster : Membership) (source : SourceState)
    (view : AdmissionView) : Prop where
  cursor : source.cursor = view.lastAppliedLog
  known : ∀ current ∈ view.genesis, current = genesis
  unformed : view.lastMembership.membership.voterIds = ∅ → source.membership = ⟨none, roster⟩
  formed : view.lastMembership.membership.voterIds ≠ ∅ → source.membership = view.lastMembership
  ready : view.preparedJoin ≠ none → view.Ready genesis
  inOrder : ∀ pending ∈ source.pending, source.InOrder genesis pending

/-- The replay stands where the state machine stands, with the same pending join. -/
structure Tracks (genesis : Genesis) (roster : Membership) (source : SourceState)
    (view : AdmissionView) : Prop extends Trails genesis roster source view where
  pending : source.pending = view.preparedJoin

/-- In order, only the promoted membership completes the join. -/
theorem InOrder.not_completedBy {genesis : Genesis} {source : SourceState}
    {pending : PreparedJoin} (h : source.InOrder genesis pending) {next : Membership} {log : LogId}
    (hNext : next.configs = [pending.plan.previousVoters] ∨
      next.configs = [pending.plan.previousVoters, pending.plan.nextVoters]) :
    pending.completedBy next log = false := by
  rcases hNext with hNext | hNext
  · have hVoters := Membership.voterIds_of_stable hNext
    have hNe := JoinPlan.previous_ne_next h.plan
    simp [PreparedJoin.completedBy, hVoters, hNe]
  · simp [PreparedJoin.completedBy, Membership.getJointConfig, hNext]

/-- A later position keeps the order. -/
theorem InOrder.advance {genesis : Genesis} {source after : SourceState} {pending : PreparedJoin}
    (h : source.InOrder genesis pending) {log : LogId} (hAbove : source.Before log)
    (hMembership : after.membership.membership.configs = [pending.plan.previousVoters] ∨
      after.membership.membership.configs = [pending.plan.previousVoters, pending.plan.nextVoters])
    (hCursor : after.cursor = some log) : after.InOrder genesis pending where
  plan := h.plan
  genesis := h.genesis
  stage := hMembership
  ack := by
    intro ack hAck
    obtain ⟨cursor, hMem, hLe⟩ := h.ack ack hAck
    exact ⟨log, hCursor, hLe.trans (hAbove cursor hMem).le⟩

variable {valid : MembershipCheck} {history : ReplicationHistory}
  {auth : RaftAuthorization} {frontier : Option LogId} {genesis : Genesis} {roster : Membership}
  {source after : SourceState} {view : AdmissionView}

/-- The join that is pending after a membership entry was pending before, and is in
order at the same or the next stage. -/
theorem inOrder_membership (h : ∀ pending ∈ source.pending, source.InOrder genesis pending)
    {next : Membership} {log : LogId} (hAbove : source.Before log)
    (hNext : history.transition valid source next log frontier = .ok after) :
    ∀ pending ∈ after.pending, InOrder genesis { after with cursor := some log } pending := by
  have hKept : ∀ pending ∈ source.pending,
      (next.configs = [pending.plan.previousVoters] ∨
        next.configs = [pending.plan.previousVoters, pending.plan.nextVoters]) →
      InOrder genesis { after with cursor := some log } pending := by
    intro pending hMem hStage
    refine (h pending hMem).advance hAbove ?_ rfl
    rcases ReplicationHistory.transition_stage hNext with ⟨-, rfl⟩ | ⟨_, _, -, -, rfl⟩ <;> exact hStage
  intro pending hMem
  rcases ReplicationHistory.transition_stage hNext with ⟨rfl, rfl⟩ |
    ⟨other, final, hOther, hStage, rfl⟩
  · exact hKept pending hMem (h pending hMem).stage
  · cases hStage with
    | promote ack hAck hCurrent hConfigs hNodes => cases hMem
    | addLearner hCurrent hConfigs hNodes =>
        obtain rfl := Option.some.inj (hOther.symm.trans hMem)
        exact hKept other hOther (Or.inl hConfigs)
    | removeLearner hCurrent hConfigs hNodes =>
        obtain rfl := Option.some.inj (hOther.symm.trans hMem)
        exact hKept other hOther (Or.inl hConfigs)
    | enterJoint ack hAck hCurrent hLearner hConfigs hNodes =>
        obtain rfl := Option.some.inj (hOther.symm.trans hMem)
        exact hKept other hOther (Or.inr hConfigs)

/-- The pending join survives every stage but the promotion, on both sides. -/
theorem Tracks.pendingAfter_eq (hTracks : Tracks genesis roster source view) {next : Membership}
    {log : LogId} (hAbove : source.Before log)
    (h : history.transition valid source next log frontier = .ok after) :
    view.pendingAfter next log = after.pending := by
  rcases ReplicationHistory.transition_stage h with ⟨rfl, rfl⟩ |
    ⟨pending, final, hPending, hStage, rfl⟩
  · refine (AdmissionView.pendingAfter_kept fun pending hMem => ?_).trans hTracks.pending.symm
    have hOrder := hTracks.inOrder pending (hTracks.pending ▸ hMem)
    exact hOrder.not_completedBy hOrder.stage
  · have hOrder := hTracks.inOrder pending hPending
    have hJoin : view.preparedJoin = some pending := hTracks.pending ▸ hPending
    have hKept : ∀ {membership : Membership},
        membership.configs = [pending.plan.previousVoters] ∨
          membership.configs = [pending.plan.previousVoters, pending.plan.nextVoters] →
        view.pendingAfter membership log = source.pending := by
      intro membership hConfigs
      refine (AdmissionView.pendingAfter_kept fun other hMem => ?_).trans hTracks.pending.symm
      obtain rfl := Option.some.inj (hJoin.symm.trans hMem)
      exact hOrder.not_completedBy hConfigs
    cases hStage with
    | addLearner hCurrent hNext hNodes => exact hKept (Or.inl hNext)
    | removeLearner hCurrent hNext hNodes => exact hKept (Or.inl hNext)
    | enterJoint ack hAck hCurrent hLearner hNext hNodes => exact hKept (Or.inr hNext)
    | promote ack hAck hCurrent hNext hNodes =>
        obtain ⟨cursor, hCursor, hLe⟩ := hOrder.ack ack hAck
        have hBefore : ack.index < log.index := hLe.trans_lt (hAbove cursor hCursor)
        have hVoters := Membership.voterIds_of_stable hNext
        refine AdmissionView.pendingAfter_completed hJoin ?_
        simp [PreparedJoin.completedBy, hAck, hBefore, Membership.getJointConfig, hNext, hVoters]

/-- What the data check leaves to use about a command. -/
def CommandData (genesis : Genesis) (log : LogId) : AdmissionCommand → Prop
  | .prepareJoin plan => plan.validate = .ok () ∧ plan.genesis = genesis
  | .cancelJoin plan prepared => plan.genesis = genesis ∧ prepared.index < log.index
  | .learnerApplied _ _ prepared => prepared.index < log.index

/-- An accepted command is answered with success and leaves the same pending join. -/
theorem Tracks.outcome_eq (hTracks : Tracks genesis roster source view)
    {command : AdmissionCommand} {log : LogId} (hData : CommandData genesis log command)
    (hReady : ∀ plan, command = .prepareJoin plan → view.Ready genesis)
    {next : Option PreparedJoin} (h : CommandStage source log frontier command next) :
    admissionOutcome view.preparedJoin view.genesis view.lastMembership.membership command log =
      (next, .ok) := by
  have hFormed : ∀ {voters}, view.Ready genesis →
      source.membership.membership.configs = [voters] →
      view.lastMembership.membership.configs = [voters] ∧
        view.lastMembership.membership.voterIds = voters := by
    intro voters hSet hStable
    rw [hTracks.formed hSet.voters] at hStable
    exact ⟨hStable, Membership.voterIds_of_stable hStable⟩
  have hPresent : ∀ {pending}, source.pending = some pending →
      view.preparedJoin = some pending ∧ view.Ready genesis := by
    intro pending hPending
    have hView : view.preparedJoin = some pending := hTracks.pending ▸ hPending
    exact ⟨hView, hTracks.ready (by simp [hView])⟩
  cases h with
  | prepare hNone hStable =>
      have hSet := hReady _ rfl
      obtain ⟨hPlan, hGenesis⟩ := hData
      obtain ⟨hConfigs, hVoters⟩ := hFormed hSet hStable
      simp [admissionOutcome, hPlan, hSet.genesis, hGenesis, ← hTracks.pending, hNone,
        Membership.getJointConfig, hConfigs, hVoters]
  | prepareAgain hPending =>
      obtain ⟨hPlan, hGenesis⟩ := hData
      obtain ⟨hView, hSet⟩ := hPresent hPending
      simp [admissionOutcome, hPlan, hSet.genesis, hGenesis, hView]
  | cancel hPending hCommitted hStable hRemoved =>
      obtain ⟨hGenesis, hBefore⟩ := hData
      obtain ⟨hView, hSet⟩ := hPresent hPending
      obtain ⟨hConfigs, hVoters⟩ := hFormed hSet hStable
      rw [hTracks.formed hSet.voters] at hRemoved
      simp [admissionOutcome, hView, hSet.genesis, hGenesis, Membership.getJointConfig, hConfigs,
        hVoters, hRemoved, hBefore]
  | acknowledge hPending hCommitted hNone hStable hLearner hMembershipLog hLogged =>
      obtain ⟨hView, hSet⟩ := hPresent hPending
      obtain ⟨hConfigs, hVoters⟩ := hFormed hSet hStable
      have hGenesis := (hTracks.inOrder _ hPending).genesis
      have hBefore := show _ < log.index from hData
      rw [hTracks.formed hSet.voters] at hLearner
      simp only [Membership.mem_learnerIds, hVoters] at hLearner
      simp [admissionOutcome, hView, hSet.genesis, hGenesis, hNone, Membership.getJointConfig,
        hConfigs, hVoters, hLearner, hBefore]
  | acknowledgeAgain hPending hCommitted hSome =>
      obtain ⟨hView, hSet⟩ := hPresent hPending
      have hGenesis := (hTracks.inOrder _ hPending).genesis
      simp [admissionOutcome, hView, hSet.genesis, hGenesis, Option.isSome_iff_ne_none.mpr hSome]

/-- The join that is pending after a command is in order. -/
theorem inOrder_command (hInOrder : ∀ pending ∈ source.pending, source.InOrder genesis pending)
    {command : AdmissionCommand} {log : LogId} (hData : CommandData genesis log command)
    (hAbove : source.Before log) {next : Option PreparedJoin}
    (h : CommandStage source log frontier command next) (pending : PreparedJoin)
    (hMem : pending ∈ next) :
    InOrder genesis { source with pending := next, cursor := some log } pending := by
  have hKept : ∀ current ∈ source.pending,
      InOrder genesis { source with pending := next, cursor := some log } current :=
    fun current hCurrent => (hInOrder current hCurrent).advance hAbove
      (hInOrder current hCurrent).stage rfl
  cases h with
  | prepare hNone hStable =>
      obtain rfl := Option.some.inj hMem
      exact ⟨hData.1, hData.2, Or.inl hStable, fun _ hAck => by cases hAck⟩
  | prepareAgain hPending =>
      obtain rfl := Option.some.inj hMem
      exact hKept _ hPending
  | cancel => cases hMem
  | acknowledge hPending =>
      obtain rfl := Option.some.inj hMem
      obtain ⟨hPlan, hGenesis, hStage, -⟩ := hKept _ hPending
      exact ⟨hPlan, hGenesis, hStage, fun ack hNew => ⟨ack, hNew, le_rfl⟩⟩
  | acknowledgeAgain hPending =>
      obtain rfl := Option.some.inj hMem
      exact hKept _ hPending

end SourceState

namespace ReplicationHistory

variable {valid : MembershipCheck} {history : ReplicationHistory} {auth : RaftAuthorization}

/-- Memberships with acceptable data have a voter. -/
theorem data_membership {entry : Entry} {membership : Membership}
    (hPayload : entry.payload = .membership membership)
    (h : history.data valid auth entry = .ok ()) : membership.voterIds ≠ ∅ := by
  simp only [data, hPayload, Checks.bind_eq_ok] at h
  obtain ⟨_, -, _, hShape, _, hVoters, -⟩ := h
  obtain ⟨hSome, -⟩ := of_decide_eq_true (ensure_eq_ok.mp hShape)
  have hVoters := of_decide_eq_true (ensure_eq_ok.mp hVoters)
  obtain ⟨config, hConfig⟩ := List.exists_mem_of_ne_nil _ hSome
  obtain ⟨voter, hVoter⟩ := (hVoters config hConfig).1
  exact Finset.ne_empty_of_mem (Membership.mem_voterIds.mpr ⟨config, hConfig, hVoter⟩)

theorem data_command {entry : Entry} {command : AdmissionCommand}
    (hPayload : entry.payload = .normal (.admissionMembership command))
    (h : history.data valid auth entry = .ok ()) :
    SourceState.CommandData auth.session.context.genesis entry.logId command := by
  cases command with
  | prepareJoin plan =>
      simp only [data, hPayload, Checks.bind_eq_ok] at h
      obtain ⟨_, -, hPlan⟩ := h
      obtain ⟨hValid, -, hGenesis, -⟩ := RaftAuthorization.joinPlanData_eq_ok.mp hPlan
      exact ⟨hValid, hGenesis⟩
  | cancelJoin plan prepared =>
      simp only [data, hPayload, Checks.bind_eq_ok] at h
      obtain ⟨_, -, _, hPlan, _, -, hBefore⟩ := h
      obtain ⟨-, -, hGenesis, -⟩ := RaftAuthorization.joinPlanData_eq_ok.mp hPlan
      exact ⟨hGenesis, of_decide_eq_true (ensure_eq_ok.mp hBefore)⟩
  | learnerApplied consumer requestNonce prepared =>
      simp only [data, hPayload, Checks.bind_eq_ok] at h
      obtain ⟨_, -, _, -, _, -, hBefore⟩ := h
      have hBefore : prepared.index < entry.logId.index :=
        of_decide_eq_true (ensure_eq_ok.mp hBefore)
      exact hBefore

variable {frontier : Option LogId} {genesis : Genesis} {roster : Membership}
  {source after : SourceState} {view : AdmissionView} {entry : Entry}

/-- An accepted entry keeps position and membership together, whatever is pending. -/
theorem apply_trails (h : source.Trails genesis roster view)
    (hGenesis : auth.session.context.genesis = genesis) (hAbove : source.Before entry.logId)
    (hData : history.data valid auth entry = .ok ())
    (hApply : history.apply valid auth frontier source entry = .ok after) :
    after.Trails genesis roster (view.step entry) := by
  have hVoters : ∀ membership, entry.payload = .membership membership → membership.voterIds ≠ ∅ :=
    fun membership hPayload => data_membership hPayload hData
  have hCursor := (view.lastAppliedLog_step entry).symm
  have hReady := AdmissionView.ready_step h.known h.ready hVoters
  cases apply_eq_ok.mp hApply with
  | other hMembership hCommand hAccepted =>
      have hKept := view.lastMembership_step hMembership
      refine ⟨hCursor, AdmissionView.known_step h.known fun other hPayload => ?_,
        hKept ▸ h.unformed, hKept ▸ h.formed, hReady, fun pending hMem => ?_⟩
      · exact (of_decide_eq_true (ensure_eq_ok.mp (hAccepted _ hPayload))).trans hGenesis
      · exact (h.inOrder pending hMem).advance hAbove (h.inOrder pending hMem).stage rfl
  | @membership membership next hPayload hNext =>
      have hNew : next.membership = ⟨some entry.logId, membership⟩ := by
        rcases transition_stage hNext with ⟨-, rfl⟩ | ⟨_, _, -, -, rfl⟩ <;> rfl
      have hStep : (view.step entry).lastMembership = ⟨some entry.logId, membership⟩ := by
        rw [AdmissionView.step, hPayload]
      have hInOrder := SourceState.inOrder_membership h.inOrder hAbove hNext
      refine ⟨hCursor, AdmissionView.known_step h.known (by simp [hPayload]), fun hEmpty => ?_,
        fun _ => hNew.trans hStep.symm, hReady, hInOrder⟩
      rw [hStep] at hEmpty
      exact absurd hEmpty (hVoters membership hPayload)
  | command hPayload hNext =>
      have hKept : (view.step entry).lastMembership = view.lastMembership :=
        view.lastMembership_step (by simp [hPayload])
      exact ⟨hCursor, AdmissionView.known_step h.known (by simp [hPayload]), hKept ▸ h.unformed,
        hKept ▸ h.formed, hReady, SourceState.inOrder_command h.inOrder
          (hGenesis ▸ data_command hPayload hData) hAbove hNext⟩

/-- One accepted entry keeps the replay on the state machine, and the state machine
answers an admission command with success. -/
theorem apply_tracks (hTracks : source.Tracks genesis roster view)
    (hGenesis : auth.session.context.genesis = genesis) (hAbove : source.Before entry.logId)
    (hReady : ∀ plan, entry.payload = .normal (.admissionMembership (.prepareJoin plan)) →
      view.Ready genesis)
    (hData : history.data valid auth entry = .ok ())
    (h : history.apply valid auth frontier source entry = .ok after) :
    after.Tracks genesis roster (view.step entry) ∧
      ∀ command, entry.payload = .normal (.admissionMembership command) →
        (admissionOutcome view.preparedJoin view.genesis view.lastMembership.membership command
          entry.logId).2 = .ok := by
  have hTrails := apply_trails hTracks.toTrails hGenesis hAbove hData h
  cases apply_eq_ok.mp h with
  | membership hPayload hNext =>
      refine ⟨⟨hTrails, ?_⟩, by simp [hPayload]⟩
      rw [AdmissionView.step, hPayload]
      exact (hTracks.pendingAfter_eq hAbove hNext).symm
  | @command command next hPayload hNext =>
      have hOutcome := hTracks.outcome_eq (hGenesis ▸ data_command hPayload hData)
        (fun plan hPlan => hReady plan (by rw [hPayload, hPlan])) hNext
      refine ⟨⟨hTrails, ?_⟩, fun other hOther => ?_⟩
      · rw [AdmissionView.step, hPayload]
        simp only [hOutcome]
      · cases hPayload.symm.trans hOther
        rw [hOutcome]
  | other hMembership hCommand hAccepted =>
      exact ⟨⟨hTrails, hTracks.pending.trans (view.preparedJoin_step hMembership hCommand).symm⟩,
        fun command hPayload => absurd hPayload (hCommand command)⟩

end ReplicationHistory

namespace SourceState

variable {genesis : Genesis} {roster : Membership} {source : SourceState} {view : AdmissionView}
  {entry : Entry} {plan : JoinPlan}

/-- A preparation that finds no ready state is rejected. -/
theorem Trails.preparedJoin_unready (h : source.Trails genesis roster view)
    (hPayload : entry.payload = .normal (.admissionMembership (.prepareJoin plan)))
    (hUnready : ¬view.Ready genesis) : (view.step entry).preparedJoin = none := by
  by_contra hSome
  obtain ⟨hKnown, hVoters⟩ := AdmissionView.ready_step h.known h.ready (by simp [hPayload]) hSome
  rw [AdmissionView.step, hPayload] at hKnown hVoters
  exact hUnready ⟨hKnown, hVoters⟩

/-- A rejected preparation leaves the state machine where the replay stood before it. -/
theorem Tracks.reject (h : source.Tracks genesis roster view)
    (hPayload : entry.payload = .normal (.admissionMembership (.prepareJoin plan)))
    (hUnready : ¬view.Ready genesis) :
    Tracks genesis roster { source with cursor := some entry.logId } (view.step entry) := by
  have hNone := h.preparedJoin_unready hPayload hUnready
  have hPending : source.pending = none := h.pending.trans <| by
    by_contra hSome
    exact hUnready (h.ready hSome)
  have hKept : (view.step entry).lastMembership = view.lastMembership :=
    view.lastMembership_step (by simp [hPayload])
  refine ⟨⟨(view.lastAppliedLog_step entry).symm, AdmissionView.known_step h.known (by simp [hPayload]),
    hKept ▸ h.unformed, hKept ▸ h.formed, fun hSome => absurd hNone hSome, fun pending hMem => ?_⟩,
    hPending.trans hNone.symm⟩
  cases hPending.symm.trans hMem

/-- The replay of an empty log. -/
theorem tracks_start (genesis : Genesis) (roster : Membership) (config : StoreConfig) :
    Tracks genesis roster ⟨⟨none, roster⟩, none, none⟩ config.start.admissionView :=
  ⟨⟨rfl, fun _ hNone => (by cases hNone), fun _ => rfl, fun hSome => absurd rfl hSome,
    fun hSome => absurd rfl hSome, fun _ hNone => by cases hNone⟩, rfl⟩

end SourceState

end KeepAfloat
