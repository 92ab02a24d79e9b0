import KeepAfloat.Store.Generation
import KeepAfloat.Store.Local

/-! Installing a snapshot equals replaying the log. Restoring drops failback sets
that the local configuration could not have produced; reachable states do not have
them. Replay then agrees because applying an entry reads nothing but replicated
fields and configuration constants. -/

namespace KeepAfloat

namespace KafStorageState

/-! ### Failback sets of reachable states -/

/-- Legacy blocks exist only without failback, and never under V2. -/
structure Unblocked (state : KafStorageState) : Prop where
  legacy : state.failoverSemantics = .legacy → state.failback = true →
    state.nodeFailbackBlocked = ∅
  v2 : state.failoverSemantics = .v2 → state.nodeFailbackBlocked = ∅

/-- The failback sets are those that the semantics and the configuration use. -/
structure Settled (state : KafStorageState) : Prop extends Unblocked state where
  failback : state.failoverSemantics = .v2 → state.failback = true → state.nodeNopreempt = ∅
  nopreempt : state.failoverSemantics = .v2 → state.failback = false →
    state.nodeRecoveryPending = ∅ ∧ state.nodeRecoveryTick = ∅

/-- Semantics and failback sets agree. -/
structure SameFailback (first second : KafStorageState) : Prop where
  failoverSemantics : first.failoverSemantics = second.failoverSemantics
  failback : first.failback = second.failback
  nodeFailbackBlocked : first.nodeFailbackBlocked = second.nodeFailbackBlocked
  nodeNopreempt : first.nodeNopreempt = second.nodeNopreempt
  nodeRecoveryPending : first.nodeRecoveryPending = second.nodeRecoveryPending
  nodeRecoveryTick : first.nodeRecoveryTick = second.nodeRecoveryTick

theorem Settled.congr {first second : KafStorageState} (hSettled : second.Settled)
    (hSame : first.SameFailback second) : first.Settled := by
  obtain ⟨hSemantics, hFailback, hBlocked, hNopreempt, hPending, hTick⟩ := hSame
  refine ⟨⟨?_, ?_⟩, ?_, ?_⟩
  · rw [hSemantics, hFailback, hBlocked]
    exact hSettled.legacy
  · rw [hSemantics, hBlocked]
    exact hSettled.v2
  · rw [hSemantics, hFailback, hNopreempt]
    exact hSettled.failback
  · rw [hSemantics, hFailback, hPending, hTick]
    exact hSettled.nopreempt

theorem activateV2_unblocked {state : KafStorageState} (hState : state.Unblocked) :
    state.activateV2.Unblocked := by
  cases hSemantics : state.failoverSemantics with
  | v2 => simpa [activateV2, hSemantics] using hState
  | legacy =>
      cases hFailback : state.failback with
      | true => exact ⟨by simp [activateV2, hSemantics, hFailback],
          by simp [activateV2, hSemantics, hFailback]⟩
      | false => exact ⟨by simp [activateV2, hSemantics, hFailback],
          by simp [activateV2, hSemantics, hFailback]⟩

theorem applyHealth_unblocked {state : KafStorageState} (hState : state.Unblocked) (nodeId : Nat)
    (healthy : Bool) : (state.applyHealth nodeId healthy).Unblocked := by
  refine ⟨fun hLegacy hFailback => ?_, fun hV2 => ?_⟩
  · change state.failoverSemantics = .legacy at hLegacy
    change state.failback = true at hFailback
    change state.reportedBlocked nodeId healthy = ∅
    simpa [reportedBlocked, hLegacy, hFailback] using hState.legacy hLegacy hFailback
  · change state.failoverSemantics = .v2 at hV2
    change state.reportedBlocked nodeId healthy = ∅
    simpa [reportedBlocked, hV2] using hState.v2 hV2

/-- Dispatch keeps legacy blocks in their place. -/
theorem dispatch_unblocked {state : KafStorageState} (hState : state.Unblocked) (entry : Entry) :
    (state.dispatch entry).state.Unblocked := by
  rw [dispatch]
  cases entry.payload with
  | blank => exact hState
  | membership membership => exact ⟨hState.legacy, hState.v2⟩
  | normal request =>
      cases request with
      | admissionMembership command => exact ⟨hState.legacy, hState.v2⟩
      | vipReleased nodeId vip generation => exact ⟨hState.legacy, hState.v2⟩
      | enableConfigIdentityV1 => exact ⟨hState.legacy, hState.v2⟩
      | enableFailoverSemanticsV2 => exact activateV2_unblocked hState
      | healthUpdate nodeId healthy =>
          dsimp only
          split
          · exact hState
          · exact applyHealth_unblocked hState nodeId healthy
      | healthProgress progress =>
          simp only [dispatchHealthProgress]
          split
          · exact hState
          · split
            · exact ⟨hState.legacy, hState.v2⟩
            · refine applyHealth_unblocked ?_ _ _
              exact ⟨hState.legacy, hState.v2⟩
      | admissionGenesis genesis =>
          simp only [dispatchGenesis]
          split
          · exact hState
          · cases state.genesis with
            | some current => exact ⟨hState.legacy, hState.v2⟩
            | none =>
                have hActivated := activateV2_unblocked
                  (show { state with
                      nodeHealth := ∅
                      nodeProbeTicks := ∅
                      nodeRecoveryTick := ∅
                      appliedProgress := ∅ }.Unblocked from ⟨hState.legacy, hState.v2⟩)
                exact ⟨hActivated.legacy, hActivated.v2⟩
      | clusterFormed clusterId failoverSemantics configIdentityEnforced =>
          simp only [dispatchClusterFormed]
          split
          · cases failoverSemantics with
            | legacy => exact ⟨hState.legacy, hState.v2⟩
            | v2 =>
                refine activateV2_unblocked ?_
                exact ⟨hState.legacy, hState.v2⟩
          · exact hState

theorem recompute_settled {state : KafStorageState} (hState : state.Unblocked) :
    state.recompute.Settled := by
  have hTracked : state.trackFailback.Settled := by
    cases hSemantics : state.failoverSemantics with
    | legacy =>
        have hKept : state.trackFailback = state := by simp [trackFailback, hSemantics]
        rw [hKept]
        exact ⟨hState, by simp [hSemantics], by simp [hSemantics]⟩
    | v2 =>
        have hKept : state.trackFailback = state.updateV2FailbackTracking := by
          simp [trackFailback, hSemantics]
        have hBlocked := hState.v2 hSemantics
        rw [hKept]
        cases hFailback : state.failback with
        | true =>
            refine ⟨⟨?_, ?_⟩, ?_, ?_⟩ <;>
              simp [updateV2FailbackTracking, hSemantics, hFailback, hBlocked]
        | false =>
            refine ⟨⟨?_, ?_⟩, ?_, ?_⟩ <;>
              simp [updateV2FailbackTracking, hSemantics, hFailback, hBlocked]
  exact ⟨⟨hTracked.legacy, hTracked.v2⟩, hTracked.failback, hTracked.nopreempt⟩

theorem step_settled {state : KafStorageState} (hState : state.Settled) (entry : Entry) :
    (state.step entry).Settled := by
  have hStart : { state with lastAppliedLog := some entry.logId }.Settled :=
    hState.congr ⟨rfl, rfl, rfl, rfl, rfl, rfl⟩
  rw [step, applyOne, Dispatched.finish]
  dsimp only
  split
  · exact recompute_settled (dispatch_unblocked hStart.toUnblocked entry)
  · next hNot =>
      obtain ⟨_, _, _, _, _, _, hSkipped, _⟩ := dispatch_skipped _ entry (by simpa using hNot)
      rw [hSkipped]
      exact hStart.congr ⟨rfl, rfl, rfl, rfl, rfl, rfl⟩

theorem start_settled (config : StoreConfig) : config.start.Settled :=
  ⟨⟨fun _ _ => rfl, fun _ => rfl⟩, fun _ _ => rfl, fun _ _ => ⟨rfl, rfl⟩⟩

theorem stateAfter_settled (config : StoreConfig) (entries : List Entry) (i : Nat) :
    (stateAfter config entries i).Settled :=
  Runs.stateAt_invariant _ _ Settled (start_settled config)
    (fun _ entry hState => step_settled hState entry) entries i

theorem stateAfter_sameConfig (config : StoreConfig) (entries : List Entry) (i : Nat) :
    (stateAfter config entries i).SameConfig config.start :=
  Runs.stateAt_invariant _ _ (fun state => state.SameConfig config.start) ⟨rfl, rfl, rfl, rfl⟩
    (fun state entry hState => (step_sameConfig state entry).trans hState) entries i

/-- On a settled state restoring clears nothing: the target becomes the state, up
to its own local fields. -/
theorem restoreInto_of {state target : KafStorageState} (hState : state.Settled)
    (hConfig : target.SameConfig state) :
    (KafSnapshot.of state).restoreInto target = state.withLocal target := by
  obtain ⟨hList, hStale, hFailback, hDelay⟩ := hConfig
  cases hSemantics : state.failoverSemantics with
  | legacy =>
      cases hLocal : state.failback with
      | true =>
          have hBlocked := hState.legacy hSemantics hLocal
          simp [KafSnapshot.restoreInto, KafSnapshot.of, withLocal, hSemantics, hFailback, hLocal,
            hList, hStale, hDelay, hBlocked]
      | false =>
          simp [KafSnapshot.restoreInto, KafSnapshot.of, withLocal, hSemantics, hFailback, hLocal,
            hList, hStale, hDelay]
  | v2 =>
      have hBlocked := hState.v2 hSemantics
      cases hLocal : state.failback with
      | true =>
          have hNopreempt := hState.failback hSemantics hLocal
          simp [KafSnapshot.restoreInto, KafSnapshot.of, withLocal, hSemantics, hFailback, hLocal,
            hList, hStale, hDelay, hBlocked, hNopreempt]
      | false =>
          obtain ⟨hPending, hTick⟩ := hState.nopreempt hSemantics hLocal
          simp [KafSnapshot.restoreInto, KafSnapshot.of, withLocal, hSemantics, hFailback, hLocal,
            hList, hStale, hDelay, hBlocked, hPending, hTick]

end KafStorageState

/-- Snapshot installation equals log replay: the target takes every field of the state but those
of its own process, and a suffix of entries then gives both the same states and responses. -/
theorem snapshot_replay (config : StoreConfig) (entries : List Entry) (target : KafStorageState)
    (hConfig : target.SameConfig config.start) :
    let state := stateAfter config entries entries.length
    let restored := (KafSnapshot.of state).restoreInto target
    restored = state.withLocal target ∧
      ∀ suffix : List Entry,
        suffix.foldl KafStorageState.step restored =
            (suffix.foldl KafStorageState.step state).withLocal target ∧
          restored.responses suffix = state.responses suffix := by
  intro state restored
  have hStart := KafStorageState.stateAfter_sameConfig config entries entries.length
  have hTarget : target.SameConfig state :=
    hConfig.trans ⟨hStart.vipList.symm, hStart.staleMissedProbes.symm, hStart.failback.symm,
      hStart.failbackDelayTicks.symm⟩
  have hRestored : restored = state.withLocal target :=
    KafStorageState.restoreInto_of (KafStorageState.stateAfter_settled config entries _) hTarget
  refine ⟨hRestored, fun suffix => ?_⟩
  rw [hRestored]
  exact KafStorageState.foldl_step_withLocal state target suffix

/-- A node that starts empty takes over the whole handoff log from a snapshot. -/
theorem snapshot_replay_handoff :
    handoffConfig.start.SameConfig handoffConfig.start ∧
      (KafSnapshot.of (stateAfter handoffConfig handoffLog handoffLog.length)).restoreInto
        handoffConfig.start =
      (stateAfter handoffConfig handoffLog handoffLog.length).withLocal handoffConfig.start :=
  ⟨⟨rfl, rfl, rfl, rfl⟩,
    (snapshot_replay handoffConfig handoffLog handoffConfig.start ⟨rfl, rfl, rfl, rfl⟩).1⟩

end KeepAfloat
