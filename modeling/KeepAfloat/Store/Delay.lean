import KeepAfloat.Store.Local

/-! Without failback no node is ever in recovery, so the failback delay is a constant
that nothing depends on. -/

namespace KeepAfloat

namespace KafStorageState

def withDelay (state : KafStorageState) (ticks : Nat) : KafStorageState :=
  { state with failbackDelayTicks := ticks }

/-- Failback is off and no node waits for it. -/
structure NoRecovery (state : KafStorageState) : Prop where
  failback : state.failback = false
  ticks : ∀ id : Nat, state.nodeRecoveryTick[id]? = none

theorem dispatch_withDelay (state : KafStorageState) (ticks : Nat) (entry : Entry) :
    (state.withDelay ticks).dispatch entry =
      { state.dispatch entry with state := (state.dispatch entry).state.withDelay ticks } := by
  have hLocal : (state.dispatch entry).state.withLocal state = (state.dispatch entry).state :=
    congrArg Dispatched.state (dispatch_withLocal state state entry).symm
  have hUnread := dispatch_withUnread state (state.withDelay ticks) entry
  rw [Dispatched.withUnread] at hUnread
  conv_rhs => rw [← hLocal]
  exact hUnread

theorem activateV2_noRecovery {state : KafStorageState} (h : state.NoRecovery) :
    state.activateV2.NoRecovery := by
  cases hSemantics : state.failoverSemantics with
  | v2 => simpa [activateV2, hSemantics] using h
  | legacy => exact ⟨by simp [activateV2, hSemantics, h.failback],
      by simp [activateV2, hSemantics, h.failback]⟩

theorem applyHealth_noRecovery {state : KafStorageState} (h : state.NoRecovery) (nodeId : Nat)
    (healthy : Bool) : (state.applyHealth nodeId healthy).NoRecovery := by
  refine ⟨h.failback, fun id => ?_⟩
  change (state.reportedRecoveryTick nodeId healthy _)[id]? = none
  rw [reportedRecoveryTick, h.failback]
  cases state.failoverSemantics with
  | v2 => exact h.ticks id
  | legacy =>
      cases healthy with
      | true => exact h.ticks id
      | false => simp [Std.ExtTreeMap.getElem?_erase, h.ticks id]

theorem dispatch_noRecovery {state : KafStorageState} (h : state.NoRecovery) (entry : Entry) :
    (state.dispatch entry).state.NoRecovery := by
  rw [dispatch]
  cases entry.payload with
  | blank => exact h
  | membership membership =>
      refine ⟨h.failback, fun id => ?_⟩
      have hKept := congrArg MemberEvidence.recoveryTick (state.retainedEvidence_of membership id)
      refine Eq.trans hKept ?_
      split
      · rfl
      · exact h.ticks id
  | normal request =>
      cases request with
      | admissionMembership command => exact ⟨h.failback, h.ticks⟩
      | vipReleased nodeId vip generation => exact ⟨h.failback, h.ticks⟩
      | enableConfigIdentityV1 => exact ⟨h.failback, h.ticks⟩
      | enableFailoverSemanticsV2 => exact activateV2_noRecovery h
      | healthUpdate nodeId healthy =>
          dsimp only
          split
          · exact h
          · exact applyHealth_noRecovery h nodeId healthy
      | healthProgress progress =>
          simp only [dispatchHealthProgress]
          split
          · exact h
          · split
            · exact ⟨h.failback, h.ticks⟩
            · refine applyHealth_noRecovery ?_ _ _
              exact ⟨h.failback, h.ticks⟩
      | admissionGenesis genesis =>
          dsimp only
          rcases state.dispatchGenesis_cases genesis with hKept | ⟨-, hFirst⟩ | ⟨-, hAgain⟩
          · rw [hKept]
            exact h
          · have hActivated := activateV2_noRecovery
              (show { state with
                  nodeHealth := ∅
                  nodeProbeTicks := ∅
                  nodeRecoveryTick := ∅
                  appliedProgress := ∅ }.NoRecovery from ⟨h.failback, fun _ => by simp⟩)
            rw [hFirst]
            exact ⟨hActivated.failback, hActivated.ticks⟩
          · rw [hAgain]
            exact ⟨h.failback, h.ticks⟩
      | clusterFormed clusterId failoverSemantics configIdentityEnforced =>
          simp only [dispatchClusterFormed]
          split
          · cases failoverSemantics with
            | legacy => exact ⟨h.failback, h.ticks⟩
            | v2 =>
                refine activateV2_noRecovery ?_
                exact ⟨h.failback, h.ticks⟩
          · exact h

theorem trackFailback_noRecovery {state : KafStorageState} (h : state.NoRecovery) :
    state.trackFailback.NoRecovery := by
  rw [trackFailback]
  cases state.failoverSemantics with
  | legacy => exact h
  | v2 => exact ⟨by simp [updateV2FailbackTracking, h.failback],
      by simp [updateV2FailbackTracking, h.failback]⟩

theorem recompute_noRecovery {state : KafStorageState} (h : state.NoRecovery) :
    state.recompute.NoRecovery :=
  ⟨(trackFailback_noRecovery h).failback, (trackFailback_noRecovery h).ticks⟩

theorem eligibleNodes_withDelay {state : KafStorageState} (h : state.NoRecovery) (ticks : Nat)
    (membership : StoredMembership) (blocked : Finset Nat) :
    eligibleNodes membership (.of (state.withDelay ticks)) blocked =
      eligibleNodes membership (.of state) blocked := by
  have hDelay : ∀ id, inFailbackDelay id (.of (state.withDelay ticks)) =
      inFailbackDelay id (.of state) := by
    intro id
    have hNone : (EligibilityInputs.of state).nodeRecoveryTick[id]? = none := h.ticks id
    have hNone' : (EligibilityInputs.of (state.withDelay ticks)).nodeRecoveryTick[id]? = none :=
      h.ticks id
    rw [inFailbackDelay, inFailbackDelay, hNone, hNone']
  have hEligible : (isNodeEligible · (.of (state.withDelay ticks)) blocked) =
      (isNodeEligible · (.of state) blocked) := by
    funext id
    rw [isNodeEligible, isNodeEligible, hDelay]
    rfl
  rw [eligibleNodes, eligibleNodes, hEligible]

theorem recompute_withDelay {state : KafStorageState} (h : state.NoRecovery) (ticks : Nat) :
    (state.withDelay ticks).recompute = state.recompute.withDelay ticks := by
  have hTracked : (state.withDelay ticks).trackFailback = state.trackFailback.withDelay ticks := by
    cases hSemantics : state.failoverSemantics with
    | legacy => simp [trackFailback, withDelay, hSemantics]
    | v2 =>
        simp only [trackFailback, withDelay, hSemantics, updateV2FailbackTracking, h.failback,
          Bool.not_false, if_true]
        rfl
  have hHolders : (state.trackFailback.withDelay ticks).recomputedHolders =
      state.trackFailback.recomputedHolders := by
    have hNodes := eligibleNodes_withDelay (trackFailback_noRecovery h) ticks
    rw [recomputedHolders, recomputedHolders]
    cases hSemantics : state.trackFailback.failoverSemantics with
    | legacy =>
        simp only [withDelay, hSemantics, recomputeVipHolder] at hNodes ⊢
        rw [hNodes]
        rfl
    | v2 =>
        simp only [withDelay, hSemantics, recomputeVipHolderV2] at hNodes ⊢
        rw [hNodes]
        rfl
  rw [recompute, recompute, hTracked, hHolders]
  rfl

/-- Applying an entry without failback: nobody enters recovery, and the delay is only
carried along. -/
theorem applyOne_withDelay {state : KafStorageState} (h : state.NoRecovery) (ticks : Nat)
    (entry : Entry) :
    (state.step entry).NoRecovery ∧
      (state.withDelay ticks).applyOne entry =
        ((state.step entry).withDelay ticks, (state.applyOne entry).2) := by
  have hStart : { state with lastAppliedLog := some entry.logId }.NoRecovery :=
    ⟨h.failback, h.ticks⟩
  have hDispatched := dispatch_noRecovery hStart entry
  have hRecompute := recompute_withDelay hDispatched ticks
  have hDispatch := dispatch_withDelay { state with lastAppliedLog := some entry.logId } ticks entry
  constructor
  · rw [step, applyOne, Dispatched.finish]
    dsimp only
    split
    · exact recompute_noRecovery hDispatched
    · exact hDispatched
  · refine (congrArg Dispatched.finish hDispatch).trans ?_
    rw [step, applyOne, Dispatched.finish, Dispatched.finish]
    dsimp only
    rw [hRecompute, apply_ite fun finished => withDelay finished ticks]

theorem foldl_step_withDelay {state : KafStorageState} (h : state.NoRecovery) (ticks : Nat)
    (entries : List Entry) :
    entries.foldl step (state.withDelay ticks) = (entries.foldl step state).withDelay ticks ∧
      (state.withDelay ticks).responses entries = state.responses entries :=
  foldl_step_commutes (withDelay · ticks) NoRecovery
    (fun _ hState entry => applyOne_withDelay hState ticks entry) h entries

end KafStorageState

/-- Two stores behave alike on every log if they differ in the failback delay only, and
there only without failback. -/
theorem StoreConfig.replay_eq {first second : StoreConfig} (hVips : first.vipList = second.vipList)
    (hStale : first.staleMissedProbes = second.staleMissedProbes)
    (hFailback : first.failback = second.failback)
    (hDelay : first.failback = true → first.failbackDelayTicks = second.failbackDelayTicks)
    (entries : List Entry) :
    KafSnapshot.of (entries.foldl KafStorageState.step first.start) =
        KafSnapshot.of (entries.foldl KafStorageState.step second.start) ∧
      first.start.responses entries = second.start.responses entries := by
  obtain ⟨vipList, staleMissedProbes, failback, ticks⟩ := first
  obtain ⟨_, _, _, ticks'⟩ := second
  obtain rfl := hVips
  obtain rfl := hStale
  obtain rfl := hFailback
  cases failback with
  | true =>
      obtain rfl : ticks = ticks' := hDelay rfl
      exact ⟨rfl, rfl⟩
  | false =>
      have hStart : (StoreConfig.start ⟨vipList, staleMissedProbes, false, ticks⟩).NoRecovery :=
        ⟨rfl, fun _ => by simp [StoreConfig.start, KafStorageState.new]⟩
      obtain ⟨hStates, hResponses⟩ := KafStorageState.foldl_step_withDelay hStart ticks' entries
      exact ⟨(congrArg KafSnapshot.of hStates).symm, hResponses.symm⟩

end KeepAfloat
