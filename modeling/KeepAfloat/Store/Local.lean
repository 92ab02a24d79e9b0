import KeepAfloat.Store.StateMachine

/-! Applying an entry reads replicated fields and configuration constants only.
The session, the log, the vote and the commit frontier belong to the process, and
replacing them commutes with every entry. -/

namespace KeepAfloat

namespace KafStorageState

/-- Replace the fields that belong to the process: its session, log, vote and
commit frontier. -/
def withLocal (state other : KafStorageState) : KafStorageState :=
  { state with
    admission := other.admission
    lastPurgedLogId := other.lastPurgedLogId
    log := other.log
    vote := other.vote
    committed := other.committed }

/-- Replace the fields that dispatch does not read: those of the process, and the
failback delay, which only the recomputation of placement looks at. -/
def withUnread (state other : KafStorageState) : KafStorageState :=
  { state.withLocal other with failbackDelayTicks := other.failbackDelayTicks }

theorem withUnread_delay (state other : KafStorageState) {delay : Nat}
    (h : state.failbackDelayTicks = delay) :
    state.withUnread { other with failbackDelayTicks := delay } = state.withLocal other := by
  subst h
  rfl

theorem activateV2_withUnread (state other : KafStorageState) :
    (state.withUnread other).activateV2 = state.activateV2.withUnread other := by
  cases hSemantics : state.failoverSemantics with
  | v2 => simp [activateV2, withUnread, withLocal, hSemantics]
  | legacy =>
      cases hFailback : state.failback with
      | true => simp [activateV2, withUnread, withLocal, hSemantics, hFailback]
      | false => simp [activateV2, withUnread, withLocal, hSemantics, hFailback]

theorem adoptGenesis_withUnread (state other : KafStorageState) :
    (state.withUnread other).adoptGenesis = state.adoptGenesis.withUnread other := by
  have hActivated := activateV2_withUnread
    { state with nodeHealth := ∅, nodeProbeTicks := ∅, nodeRecoveryTick := ∅, appliedProgress := ∅ }
    other
  rw [adoptGenesis, adoptGenesis]
  exact congrArg (fun activated => { activated with configIdentityEnforced := true }) hActivated

end KafStorageState

def Dispatched.withUnread (dispatched : Dispatched) (other : KafStorageState) : Dispatched :=
  { dispatched with state := dispatched.state.withUnread other }

def Dispatched.withLocal (dispatched : Dispatched) (other : KafStorageState) : Dispatched :=
  { dispatched with state := dispatched.state.withLocal other }

namespace KafStorageState

theorem dispatch_withUnread (state other : KafStorageState) (entry : Entry) :
    (state.withUnread other).dispatch entry = (state.dispatch entry).withUnread other := by
  rw [dispatch, dispatch]
  cases entry.payload with
  | blank => rfl
  | membership membership => rfl
  | normal request =>
      cases request with
      | admissionMembership command => rfl
      | vipReleased nodeId vip generation => rfl
      | enableConfigIdentityV1 => rfl
      | enableFailoverSemanticsV2 =>
          simp only [activateV2_withUnread]
          rfl
      | healthUpdate nodeId healthy =>
          dsimp only
          rw [apply_ite fun dispatched => Dispatched.withUnread dispatched other]
          rfl
      | healthProgress progress =>
          simp only [dispatchHealthProgress]
          rw [apply_ite fun dispatched => Dispatched.withUnread dispatched other]
          cases progress.healthy with
          | none => rfl
          | some healthy => rfl
      | admissionGenesis genesis =>
          have hAdopted : (if (state.withUnread other).genesis.isNone then
                (state.withUnread other).adoptGenesis else state.withUnread other) =
              (if state.genesis.isNone then state.adoptGenesis else state).withUnread other := by
            rw [adoptGenesis_withUnread, apply_ite fun adopted => withUnread adopted other]
            rfl
          simp only [dispatchGenesis, hAdopted]
          rw [apply_ite fun dispatched => Dispatched.withUnread dispatched other]
          rfl
      | clusterFormed clusterId failoverSemantics configIdentityEnforced =>
          simp only [dispatchClusterFormed]
          rw [apply_ite fun dispatched => Dispatched.withUnread dispatched other]
          cases failoverSemantics with
          | legacy => rfl
          | v2 =>
              have hActivated := activateV2_withUnread
                { state with
                  clusterEpoch := some clusterId
                  configIdentityEnforced := state.configIdentityEnforced || configIdentityEnforced }
                other
              simp only [Dispatched.withUnread, ← hActivated]
              rfl

theorem dispatch_withLocal (state other : KafStorageState) (entry : Entry) :
    (state.withLocal other).dispatch entry = (state.dispatch entry).withLocal other := by
  have hDelay := (dispatch_frame state entry).1.failbackDelayTicks
  rw [← withUnread_delay state other rfl, dispatch_withUnread, Dispatched.withUnread,
    withUnread_delay _ other hDelay, Dispatched.withLocal]

theorem recompute_withLocal (state other : KafStorageState) :
    (state.withLocal other).recompute = state.recompute.withLocal other := by
  have hUpdated : (state.withLocal other).updateV2FailbackTracking =
      state.updateV2FailbackTracking.withLocal other := by
    rw [updateV2FailbackTracking, updateV2FailbackTracking,
      apply_ite fun tracked => withLocal tracked other]
    rfl
  have hTracked : (state.withLocal other).trackFailback = state.trackFailback.withLocal other := by
    rw [trackFailback, trackFailback, hUpdated]
    cases hSemantics : state.failoverSemantics with
    | legacy => simp [withLocal, hSemantics]
    | v2 => simp [withLocal, hSemantics]
  rw [recompute, hTracked]
  rfl

/-- Applying an entry reads replicated fields and configuration constants only. -/
theorem applyOne_withLocal (state other : KafStorageState) (entry : Entry) :
    (state.withLocal other).applyOne entry =
      ((state.applyOne entry).1.withLocal other, (state.applyOne entry).2) := by
  have hDispatch := dispatch_withLocal { state with lastAppliedLog := some entry.logId } other entry
  have hFinish : ∀ dispatched : Dispatched, (dispatched.withLocal other).finish =
      (dispatched.finish.1.withLocal other, dispatched.finish.2) := by
    intro dispatched
    simp only [Dispatched.finish, Dispatched.withLocal, recompute_withLocal,
      apply_ite fun finished => withLocal finished other]
  rw [applyOne, applyOne, ← hFinish]
  exact congrArg Dispatched.finish hDispatch

/-- The answers to a sequence of entries. -/
def responses : KafStorageState → List Entry → List KafResponse
  | _, [] => []
  | state, entry :: rest => (state.applyOne entry).2 :: responses (state.step entry) rest

/-- A change of fields that commutes with one entry commutes with a whole log, and is
not seen in the answers. -/
theorem foldl_step_commutes (change : KafStorageState → KafStorageState)
    (holds : KafStorageState → Prop)
    (hApply : ∀ state, holds state → ∀ entry, holds (state.step entry) ∧
      (change state).applyOne entry = (change (state.step entry), (state.applyOne entry).2))
    {state : KafStorageState} (h : holds state) (entries : List Entry) :
    entries.foldl step (change state) = change (entries.foldl step state) ∧
      (change state).responses entries = state.responses entries := by
  induction entries generalizing state with
  | nil => exact ⟨rfl, rfl⟩
  | cons entry rest ih =>
      obtain ⟨hNext, hEntry⟩ := hApply state h entry
      have hStep : (change state).step entry = change (state.step entry) :=
        congrArg Prod.fst hEntry
      obtain ⟨hRest, hResponses⟩ := ih hNext
      rw [List.foldl_cons, List.foldl_cons, hStep, hRest, responses, responses, hStep, hResponses,
        congrArg Prod.snd hEntry]
      exact ⟨rfl, rfl⟩

theorem foldl_step_withLocal (state other : KafStorageState) (entries : List Entry) :
    entries.foldl step (state.withLocal other) = (entries.foldl step state).withLocal other ∧
      (state.withLocal other).responses entries = state.responses entries :=
  foldl_step_commutes (withLocal · other) (fun _ => True)
    (fun state _ entry => ⟨trivial, applyOne_withLocal state other entry⟩) trivial entries

end KafStorageState

end KeepAfloat
