import KeepAfloat.Store.StateMachine

/-! The admission part of the state machine on its own. Membership, pending join,
genesis and epoch evolve without looking at health or placement, so what the
transport validator has to agree with is this small machine. -/

namespace KeepAfloat

/-- Everything that admission commands and memberships read or write, the
completion history apart. -/
structure AdmissionView where
  lastAppliedLog : Option LogId
  lastMembership : StoredMembership
  preparedJoin : Option PreparedJoin
  genesis : Option Genesis
  clusterEpoch : Option (BitVec 128)

namespace AdmissionView

/-- The pending join that remains after a membership entry. -/
def pendingAfter (view : AdmissionView) (membership : Membership) (logId : LogId) :
    Option PreparedJoin :=
  view.preparedJoin.filter fun pending => !pending.completedBy membership logId

theorem pendingAfter_kept {view : AdmissionView} {membership : Membership} {logId : LogId}
    (h : ∀ pending ∈ view.preparedJoin, pending.completedBy membership logId = false) :
    view.pendingAfter membership logId = view.preparedJoin := by
  rw [pendingAfter]
  cases hJoin : view.preparedJoin with
  | none => rfl
  | some pending => simp [Option.filter, h pending hJoin]

theorem pendingAfter_completed {view : AdmissionView} {pending : PreparedJoin}
    {membership : Membership} {logId : LogId} (hJoin : view.preparedJoin = some pending)
    (h : pending.completedBy membership logId = true) :
    view.pendingAfter membership logId = none := by
  simp [pendingAfter, hJoin, Option.filter, h]

/-- A genesis is adopted unless another genesis or epoch stands. -/
def admitsGenesis (view : AdmissionView) (genesis : Genesis) : Bool :=
  view.genesis.all (· = genesis) && view.clusterEpoch.all (· = genesis.epoch)

/-- One entry. -/
def step (view : AdmissionView) (entry : Entry) : AdmissionView :=
  match entry.payload with
  | .membership membership =>
      { view with
        lastAppliedLog := some entry.logId
        lastMembership := ⟨some entry.logId, membership⟩
        preparedJoin := view.pendingAfter membership entry.logId }
  | .normal (.admissionMembership command) =>
      { view with
        lastAppliedLog := some entry.logId
        preparedJoin := (admissionOutcome view.preparedJoin view.genesis
          view.lastMembership.membership command entry.logId).1 }
  | .normal (.admissionGenesis genesis) =>
      { view with
        lastAppliedLog := some entry.logId
        genesis := if view.admitsGenesis genesis then some genesis else view.genesis
        clusterEpoch := if view.admitsGenesis genesis then some genesis.epoch
          else view.clusterEpoch }
  | .normal (.clusterFormed clusterId _ _) =>
      { view with
        lastAppliedLog := some entry.logId
        clusterEpoch := view.clusterEpoch.or (some clusterId) }
  | _ => { view with lastAppliedLog := some entry.logId }

@[simp] theorem lastAppliedLog_step (view : AdmissionView) (entry : Entry) :
    (view.step entry).lastAppliedLog = some entry.logId := by
  rw [step]
  split <;> rfl

/-- Only the empty run applies nothing. -/
theorem eq_nil_of_unapplied {view : AdmissionView} {entries : List Entry}
    (h : (entries.foldl step view).lastAppliedLog = none) : entries = [] := by
  rcases List.eq_nil_or_concat entries with rfl | ⟨before, entry, rfl⟩
  · rfl
  · simp [List.concat_eq_append] at h

theorem lastMembership_step (view : AdmissionView) {entry : Entry}
    (h : ∀ membership, entry.payload ≠ .membership membership) :
    (view.step entry).lastMembership = view.lastMembership := by
  rw [step]
  split
  · next membership hPayload => exact absurd hPayload (h membership)
  all_goals rfl

theorem preparedJoin_step (view : AdmissionView) {entry : Entry}
    (hMembership : ∀ membership, entry.payload ≠ .membership membership)
    (hCommand : ∀ command, entry.payload ≠ .normal (.admissionMembership command)) :
    (view.step entry).preparedJoin = view.preparedJoin := by
  rw [step]
  split
  · next membership hPayload => exact absurd hPayload (hMembership membership)
  · next command hPayload => exact absurd hPayload (hCommand command)
  all_goals rfl

theorem genesis_other (view : AdmissionView) {entry : Entry}
    (h : ∀ genesis, entry.payload ≠ .normal (.admissionGenesis genesis)) :
    (view.step entry).genesis = view.genesis := by
  rw [step]
  split
  all_goals first
    | rfl
    | next genesis hPayload => exact absurd hPayload (h genesis)

end AdmissionView

namespace KafStorageState

def admissionView (state : KafStorageState) : AdmissionView where
  lastAppliedLog := state.lastAppliedLog
  lastMembership := state.lastMembership
  preparedJoin := state.preparedJoin
  genesis := state.genesis
  clusterEpoch := state.clusterEpoch

theorem admissionView_recompute (state : KafStorageState) :
    state.recompute.admissionView = state.admissionView := by
  obtain ⟨_, _, _, hTracked⟩ := trackFailback_frame state
  rw [recompute, hTracked]
  rfl

theorem admissionView_activateV2 (state : KafStorageState) :
    state.activateV2.admissionView = state.admissionView := by
  obtain ⟨_, _, _, _, _, hActivated⟩ := activateV2_frame state
  rw [hActivated]
  rfl

theorem admissionView_adoptGenesis (state : KafStorageState) :
    state.adoptGenesis.admissionView = state.admissionView := by
  rw [adoptGenesis]
  exact admissionView_activateV2
    { state with nodeHealth := ∅, nodeProbeTicks := ∅, nodeRecoveryTick := ∅, appliedProgress := ∅ }

/-- Completion drops the pending join, everything else about it stays. -/
theorem preparedJoin_applyMembership (state : KafStorageState) (membership : Membership)
    (logId : LogId) : (state.applyMembership membership logId).preparedJoin =
      state.admissionView.pendingAfter membership logId := by
  simp only [applyMembership, AdmissionView.pendingAfter, admissionView]
  cases state.preparedJoin with
  | none => rfl
  | some pending =>
      cases hCompleted : pending.completedBy membership logId <;>
        simp [Option.filter, hCompleted]

theorem admissionView_finish (dispatched : Dispatched) :
    dispatched.finish.1.admissionView = dispatched.state.admissionView := by
  rw [Dispatched.finish]
  dsimp only
  split
  · exact admissionView_recompute dispatched.state
  · rfl

/-- The state machine refines its admission part. -/
theorem admissionView_step (state : KafStorageState) (entry : Entry) :
    (state.step entry).admissionView = state.admissionView.step entry := by
  rw [step, applyOne, admissionView_finish]
  rw [dispatch, AdmissionView.step]
  cases entry.payload with
  | blank => rfl
  | membership membership =>
      have hPending := preparedJoin_applyMembership
        { state with lastAppliedLog := some entry.logId } membership entry.logId
      exact congrArg (AdmissionView.mk _ _ · _ _) hPending
  | normal request =>
      cases request with
      | admissionMembership command => rfl
      | vipReleased nodeId vip generation => rfl
      | enableConfigIdentityV1 => rfl
      | enableFailoverSemanticsV2 => exact admissionView_activateV2 _
      | healthUpdate nodeId healthy =>
          dsimp only
          split <;> rfl
      | healthProgress progress =>
          simp only [dispatchHealthProgress]
          split
          · rfl
          · split <;> rfl
      | clusterFormed clusterId failoverSemantics configIdentityEnforced =>
          simp only [dispatchClusterFormed]
          cases hEpoch : state.clusterEpoch with
          | some epoch => simp [admissionView, hEpoch]
          | none =>
              cases failoverSemantics with
              | legacy => simp [admissionView, hEpoch]
              | v2 =>
                  rw [if_pos (by simp)]
                  refine (admissionView_activateV2 _).trans ?_
                  simp [admissionView, hEpoch]
      | admissionGenesis genesis =>
          have hRefused : ((state.genesis.any (· ≠ genesis)) ||
              state.clusterEpoch.any (· ≠ genesis.epoch)) =
                !state.admissionView.admitsGenesis genesis := by
            simp only [AdmissionView.admitsGenesis, admissionView]
            cases state.genesis <;> cases state.clusterEpoch <;> simp
          simp only [dispatchGenesis, hRefused, Bool.not_eq_true']
          cases hAccepted : state.admissionView.admitsGenesis genesis with
          | false => rfl
          | true =>
              cases hGenesis : state.genesis with
              | some current => rfl
              | none =>
                  have hAdopted := admissionView_adoptGenesis
                    { state with lastAppliedLog := some entry.logId }
                  simp only [admissionView, AdmissionView.mk.injEq] at hAdopted
                  obtain ⟨hLog, hMembership, hJoin, -, -⟩ := hAdopted
                  simp only [admissionView, Option.isNone_none, if_true, AdmissionView.mk.injEq]
                  exact ⟨hGenesis ▸ hLog, hGenesis ▸ hMembership, hGenesis ▸ hJoin, rfl, rfl⟩

theorem admissionView_foldl (state : KafStorageState) (entries : List Entry) :
    (entries.foldl step state).admissionView = entries.foldl AdmissionView.step state.admissionView := by
  induction entries generalizing state with
  | nil => rfl
  | cons entry rest ih => rw [List.foldl_cons, List.foldl_cons, ih, admissionView_step]

/-- An admission command is answered by the admission part alone. -/
theorem applyOne_admissionMembership (state : KafStorageState) (entry : Entry)
    (command : AdmissionCommand) (h : entry.payload = .normal (.admissionMembership command)) :
    (state.applyOne entry).2 = (admissionOutcome state.preparedJoin state.genesis
      state.lastMembership.membership command entry.logId).2 := by
  rw [applyOne, dispatch, h]
  rfl

/-! ### The completion history -/

/-- The pending join that a membership entry completes. -/
def completion (state : KafStorageState) (membership : Membership) (logId : LogId) :
    Option PreparedJoin :=
  state.preparedJoin.filter (·.completedBy membership logId)

theorem completedJoins_recompute (state : KafStorageState) :
    state.recompute.completedJoins = state.completedJoins := by
  obtain ⟨_, _, _, hTracked⟩ := trackFailback_frame state
  rw [recompute, hTracked]

theorem completedJoins_finish (dispatched : Dispatched) :
    dispatched.finish.1.completedJoins = dispatched.state.completedJoins := by
  rw [Dispatched.finish]
  dsimp only
  split
  · exact completedJoins_recompute dispatched.state
  · rfl

theorem completedJoins_membership (state : KafStorageState) {entry : Entry} {membership : Membership}
    (h : entry.payload = .membership membership) :
    (state.step entry).completedJoins =
      match state.completion membership entry.logId with
      | some pending =>
          state.completedJoins.insert pending.plan.consumer.physicalId ⟨pending, entry.logId⟩
      | none => state.completedJoins := by
  rw [step, applyOne, completedJoins_finish, dispatch, h]
  rfl

/-- Only membership entries complete a join. -/
theorem completedJoins_other (state : KafStorageState) {entry : Entry}
    (h : ∀ membership, entry.payload ≠ .membership membership) :
    (state.step entry).completedJoins = state.completedJoins := by
  have hActivated : ∀ other : KafStorageState,
      other.activateV2.completedJoins = other.completedJoins := by
    intro other
    obtain ⟨_, _, _, _, _, hActivated⟩ := activateV2_frame other
    rw [hActivated]
  rw [step, applyOne, completedJoins_finish, dispatch]
  cases hPayload : entry.payload with
  | blank => rfl
  | membership membership => exact absurd hPayload (h membership)
  | normal request =>
      cases request with
      | admissionMembership command => rfl
      | vipReleased nodeId vip generation => rfl
      | enableConfigIdentityV1 => rfl
      | enableFailoverSemanticsV2 => exact hActivated _
      | healthUpdate nodeId healthy =>
          dsimp only
          split <;> rfl
      | healthProgress progress =>
          simp only [dispatchHealthProgress]
          split
          · rfl
          · split <;> rfl
      | clusterFormed clusterId failoverSemantics configIdentityEnforced =>
          simp only [dispatchClusterFormed]
          split
          · cases failoverSemantics with
            | legacy => rfl
            | v2 => exact hActivated _
          · rfl
      | admissionGenesis genesis =>
          have hAdopted : ∀ other : KafStorageState,
              other.adoptGenesis.completedJoins = other.completedJoins := fun other => by
            rw [adoptGenesis]
            exact hActivated _
          simp only [dispatchGenesis]
          split
          · rfl
          · dsimp only
            split
            · exact hAdopted _
            · rfl

end KafStorageState

end KeepAfloat
