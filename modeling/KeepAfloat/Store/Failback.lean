import KeepAfloat.Library.Maps
import KeepAfloat.Store.Generation
import KeepAfloat.Store.Placement

/-! Failback under V2, along whole runs. A recomputation judges every holder by the
state that its entry leaves behind. A holder that fails the test is remembered: without
failback for good, with failback until it has been healthy long enough. -/

namespace KeepAfloat

open Std (ExtTreeMap)

namespace KafStorageState

/-- The state that an entry hands to the recomputation, if it asks for one. -/
def recomputeInput (state : KafStorageState) (entry : Entry) : Option KafStorageState :=
  let dispatched := { state with lastAppliedLog := some entry.logId }.dispatch entry
  if dispatched.shouldRecompute then some dispatched.state else none

theorem recomputeInput_eq_some {state found : KafStorageState} {entry : Entry} :
    state.recomputeInput entry = some found ↔
      ({ state with lastAppliedLog := some entry.logId }.dispatch entry).shouldRecompute = true ∧
        ({ state with lastAppliedLog := some entry.logId }.dispatch entry).state = found := by
  rw [recomputeInput]
  split <;> simp_all

theorem step_of_recompute {state found : KafStorageState} {entry : Entry}
    (h : state.recomputeInput entry = some found) : state.step entry = found.recompute := by
  obtain ⟨hAsked, rfl⟩ := recomputeInput_eq_some.mp h
  rw [step, applyOne, Dispatched.finish, if_pos hAsked]

/-- Without a recomputation, placement and failback history stay as they are. -/
theorem step_of_skip {state : KafStorageState} {entry : Entry}
    (h : state.recomputeInput entry = none) :
    ∃ preparedJoin genesis epoch progress enforced assignments,
      state.step entry =
        { state with
          lastAppliedLog := some entry.logId
          preparedJoin := preparedJoin
          genesis := genesis
          clusterEpoch := epoch
          appliedProgress := progress
          configIdentityEnforced := enforced
          vipAssignments := assignments } ∧
      ∀ vip : IpAddr, assignments[vip]?.map VipAssignment.holder =
        state.vipAssignments[vip]?.map VipAssignment.holder := by
  have hSkip : ({ state with lastAppliedLog := some entry.logId }.dispatch entry).shouldRecompute =
      false := by
    rw [recomputeInput] at h
    split at h
    · cases h
    · next hNot => simpa using hNot
  obtain ⟨preparedJoin, genesis, epoch, progress, enforced, assignments, hState, hHolders⟩ :=
    dispatch_skipped _ entry hSkip
  refine ⟨preparedJoin, genesis, epoch, progress, enforced, assignments, ?_, hHolders⟩
  rw [step, applyOne, Dispatched.finish, hSkip, if_neg Bool.false_ne_true]
  exact hState

/-- No entry that asks for a recomputation moves a holder before it. -/
theorem holderOf_recomputeInput {state found : KafStorageState} {entry : Entry}
    (h : state.recomputeInput entry = some found) : found.holderOf = state.holderOf := by
  obtain ⟨hAsked, rfl⟩ := recomputeInput_eq_some.mp h
  have hVips := (dispatch_frame { state with lastAppliedLog := some entry.logId } entry).2
  funext vip
  rw [holderOf, (hVips fun nodeId released generation hPayload => ?_).vipAssignments]
  · rfl
  · rw [dispatch, hPayload] at hAsked
    cases hAsked

/-- What dispatch does to the failback history once V2 is active: recovery ticks can be
dropped and the frontier can advance. -/
structure TrackingKept (before after : KafStorageState) : Prop where
  semantics : after.failoverSemantics = .v2
  nopreempt : after.nodeNopreempt = before.nodeNopreempt
  pending : after.nodeRecoveryPending = before.nodeRecoveryPending
  ticks : ∀ node tick : Nat, after.nodeRecoveryTick[node]? = some tick →
    before.nodeRecoveryTick[node]? = some tick
  latest : before.latestProbeTick ≤ after.latestProbeTick

theorem activateV2_of_v2 {state : KafStorageState} (h : state.failoverSemantics = .v2) :
    state.activateV2 = state := by
  rw [activateV2, h]

theorem applyHealth_tracking {state : KafStorageState} (h : state.failoverSemantics = .v2)
    (nodeId : Nat) (healthy : Bool) : TrackingKept state (state.applyHealth nodeId healthy) where
  semantics := h
  nopreempt := rfl
  pending := rfl
  ticks := fun node tick hTick => by
    simpa [applyHealth, reportedRecoveryTick, h] using hTick
  latest := le_max_right _ _

theorem adoptGenesis_tracking {state : KafStorageState} (h : state.failoverSemantics = .v2) :
    TrackingKept state state.adoptGenesis := by
  have hCleared : { state with
      nodeHealth := ∅
      nodeProbeTicks := ∅
      nodeRecoveryTick := ∅
      appliedProgress := ∅ }.failoverSemantics = .v2 := h
  rw [adoptGenesis, activateV2_of_v2 hCleared]
  refine ⟨h, rfl, rfl, fun node tick hTick => ?_, le_rfl⟩
  simp at hTick

theorem dispatch_tracking {state : KafStorageState} (h : state.failoverSemantics = .v2)
    (entry : Entry) : TrackingKept state (state.dispatch entry).state := by
  have hSame : TrackingKept state state := ⟨h, rfl, rfl, fun _ _ hTick => hTick, le_rfl⟩
  rw [dispatch]
  cases entry.payload with
  | blank => exact hSame
  | membership membership =>
      refine ⟨h, rfl, rfl, fun node tick hTick => ?_, le_rfl⟩
      have hKept := congrArg MemberEvidence.recoveryTick (state.retainedEvidence_of membership node)
      have hTick : ((state.retainedEvidence membership).of node).recoveryTick = some tick := hTick
      rw [hKept] at hTick
      split at hTick
      · cases hTick
      · exact hTick
  | normal request =>
      cases request with
      | healthProgress progress =>
          simp only [dispatchHealthProgress]
          split
          · exact hSame
          · split
            · exact ⟨h, rfl, rfl, fun _ _ hTick => hTick, le_rfl⟩
            · next healthy _ =>
                have hRecorded : { state with
                    appliedProgress :=
                      state.appliedProgress.insert progress.nodeId ⟨progress, entry.logId⟩
                    }.failoverSemantics = .v2 := h
                obtain ⟨hV2, hNopreempt, hPending, hTicks, hLatest⟩ :=
                  applyHealth_tracking hRecorded progress.nodeId (healthy &&
                    decide ((uniqueVoters state.lastMembership.membership)[progress.nodeId]? =
                      some progress.replica))
                exact ⟨hV2, hNopreempt, hPending, hTicks, hLatest⟩
      | admissionGenesis genesis =>
          simp only [dispatchGenesis]
          split
          · exact hSame
          · cases state.genesis with
            | some current => exact ⟨h, rfl, rfl, fun _ _ hTick => hTick, le_rfl⟩
            | none =>
                obtain ⟨hV2, hNopreempt, hPending, hTicks, hLatest⟩ := adoptGenesis_tracking h
                exact ⟨hV2, hNopreempt, hPending, hTicks, hLatest⟩
      | admissionMembership command => exact ⟨h, rfl, rfl, fun _ _ hTick => hTick, le_rfl⟩
      | healthUpdate nodeId healthy =>
          dsimp only
          split
          · exact hSame
          · exact applyHealth_tracking h nodeId healthy
      | vipReleased nodeId vip generation => exact ⟨h, rfl, rfl, fun _ _ hTick => hTick, le_rfl⟩
      | clusterFormed clusterId failoverSemantics configIdentityEnforced =>
          simp only [dispatchClusterFormed]
          split
          · cases failoverSemantics with
            | legacy => exact ⟨h, rfl, rfl, fun _ _ hTick => hTick, le_rfl⟩
            | v2 =>
                rw [activateV2_of_v2 (by exact h)]
                exact ⟨h, rfl, rfl, fun _ _ hTick => hTick, le_rfl⟩
          · exact hSame
      | enableFailoverSemanticsV2 =>
          rw [activateV2_of_v2 h]
          exact hSame
      | enableConfigIdentityV1 => exact ⟨h, rfl, rfl, fun _ _ hTick => hTick, le_rfl⟩

theorem recomputeInput_tracking {state found : KafStorageState} {entry : Entry}
    (h : state.recomputeInput entry = some found) (hV2 : state.failoverSemantics = .v2) :
    TrackingKept state found := by
  obtain ⟨-, rfl⟩ := recomputeInput_eq_some.mp h
  have hLogged : { state with lastAppliedLog := some entry.logId }.failoverSemantics = .v2 := hV2
  obtain ⟨hSemantics, hNopreempt, hPending, hTicks, hLatest⟩ := dispatch_tracking hLogged entry
  exact ⟨hSemantics, hNopreempt, hPending, hTicks, hLatest⟩

theorem recomputeInput_sameConfig {state found : KafStorageState} {entry : Entry}
    (h : state.recomputeInput entry = some found) : found.SameConfig state := by
  obtain ⟨-, rfl⟩ := recomputeInput_eq_some.mp h
  obtain ⟨hList, hStale, hFailback, hDelay⟩ :=
    (dispatch_frame { state with lastAppliedLog := some entry.logId } entry).1
  exact ⟨hList, hStale, hFailback, hDelay⟩

/-! ### Without failback -/

theorem mem_failedOwners {state : KafStorageState} {node : Nat} :
    node ∈ state.failedOwners ↔
      (∃ vip, state.holderOf vip = some node) ∧ state.votingAndBaseEligible node = false := by
  simp only [failedOwners, List.mem_toFinset, List.mem_filter, List.mem_map, Maps.mem_values,
    Bool.not_eq_true', holderOf, Option.map_eq_some_iff]
  constructor
  · rintro ⟨⟨assignment, ⟨vip, hVip⟩, hHolder⟩, hFailed⟩
    exact ⟨⟨vip, assignment, hVip, hHolder⟩, hFailed⟩
  · rintro ⟨⟨vip, assignment, hVip, hHolder⟩, hFailed⟩
    exact ⟨⟨assignment, ⟨vip, hVip⟩, hHolder⟩, hFailed⟩

theorem trackFailback_of_v2 {state : KafStorageState} (h : state.failoverSemantics = .v2) :
    state.trackFailback = state.updateV2FailbackTracking := by
  rw [trackFailback, h]

theorem nodeNopreempt_recompute {state : KafStorageState} (hV2 : state.failoverSemantics = .v2)
    (hFailback : state.failback = false) :
    state.recompute.nodeNopreempt = state.nodeNopreempt ∪ state.failedOwners ∧
      state.recompute.nodeRecoveryTick = ∅ := by
  rw [recompute, trackFailback_of_v2 hV2, updateV2FailbackTracking]
  simp [hFailback]

/-- A recomputation changes none of the facts that it judges a node by. -/
theorem votingAndBaseEligible_recompute (state : KafStorageState) (node : Nat) :
    state.recompute.votingAndBaseEligible node = state.votingAndBaseEligible node := by
  obtain ⟨_, _, _, hTracked⟩ := trackFailback_frame state
  rw [recompute, hTracked]
  rfl

theorem failoverSemantics_recompute (state : KafStorageState) :
    state.recompute.failoverSemantics = state.failoverSemantics := by
  obtain ⟨_, _, _, hTracked⟩ := trackFailback_frame state
  rw [recompute, hTracked]

/-- Under V2 nothing but the recovery delay stands between a healthy voter and a VIP. -/
theorem mem_eligible_of_v2 {state : KafStorageState} (hV2 : state.failoverSemantics = .v2)
    {node : Nat} : node ∈ state.eligible ↔
      state.votingAndBaseEligible node = true ∧ inFailbackDelay node (.of state) = false := by
  rw [mem_eligible, blockedNodes, hV2, isNodeEligible, votingAndBaseEligible, Bool.and_eq_true,
    decide_eq_true_iff]
  simp [EligibilityInputs.of, and_assoc]

/-- A VIP taken from a holder that is still voting, healthy and fresh goes to a node
outside the nopreempt set. -/
theorem moved_to_receiver {state : KafStorageState} (hV2 : state.failoverSemantics = .v2)
    (hFailback : state.failback = false) {vip : IpAddr} {holder next : Nat}
    (hHolder : state.holderOf vip = some holder) (hNext : state.recompute.holderOf vip = some next)
    (hMoved : holder ≠ next) (hEligible : state.votingAndBaseEligible holder = true) :
    next ∉ state.recompute.nodeNopreempt := by
  obtain ⟨_, _, _, hTracked⟩ := trackFailback_frame state
  have hNopreempt : state.recompute.nodeNopreempt = state.trackFailback.nodeNopreempt := rfl
  have hTicks : state.trackFailback.nodeRecoveryTick = ∅ := (nodeNopreempt_recompute hV2 hFailback).2
  have hTrackedV2 : state.trackFailback.failoverSemantics = .v2 := by rw [hTracked, ← hV2]
  rw [holderOf_recompute] at hNext
  have hVip := ((recomputedHolders_placed state.trackFailback).placed_mem vip next hNext).1
  have hCurrent : state.trackFailback.currentHolders[vip]? = some holder := by
    rw [getElem?_currentHolders, hTracked]
    exact hHolder
  have hStays : holder ∈ state.trackFailback.eligible := by
    refine (mem_eligible_of_v2 hTrackedV2).mpr ⟨?_, ?_⟩
    · rw [hTracked]
      exact hEligible
    · simp [inFailbackDelay, EligibilityInputs.of, hTicks]
  rw [recomputedHolders_eq] at hNext
  have hReceiver := assignVipsMinimalMovementWithReceivers_moved state.trackFailback.vipList.nodup_addrs
    hVip hCurrent hStays hNext hMoved
  rw [rebalanceReceivers, hTrackedV2] at hReceiver
  rw [hNopreempt]
  simpa using (List.mem_filter.mp hReceiver).2

/-- Once V2 is active every entry keeps it, and without failback the nopreempt set only
grows. -/
theorem step_of_v2 {state : KafStorageState} (hV2 : state.failoverSemantics = .v2) (entry : Entry) :
    (state.step entry).failoverSemantics = .v2 ∧
      (state.failback = false → state.nodeNopreempt ⊆ (state.step entry).nodeNopreempt) := by
  cases hInput : state.recomputeInput entry with
  | none =>
      obtain ⟨_, _, _, _, _, _, hState, -⟩ := step_of_skip hInput
      rw [hState]
      exact ⟨hV2, fun _ => Finset.Subset.refl _⟩
  | some found =>
      have hKept := recomputeInput_tracking hInput hV2
      have hConfig := recomputeInput_sameConfig hInput
      rw [step_of_recompute hInput, failoverSemantics_recompute]
      refine ⟨hKept.semantics, fun hFailback => ?_⟩
      rw [(nodeNopreempt_recompute hKept.semantics (hConfig.failback.trans hFailback)).1,
        hKept.nopreempt]
      exact Finset.subset_union_left

/-- The state after the first entries of a log, from any state. -/
def after (start : KafStorageState) (entries : List Entry) (i : Nat) : KafStorageState :=
  Runs.stateAt step start entries i

theorem after_succ (start : KafStorageState) {entries : List Entry} {i : Nat}
    (h : i < entries.length) : start.after entries (i + 1) = (start.after entries i).step entries[i] :=
  Runs.stateAt_succ step start h

/-- The state that the recomputation at a position of a run judges by. -/
def recomputeAt (start : KafStorageState) (entries : List Entry) (i : Nat) : Option KafStorageState :=
  entries[i]?.bind fun entry => (start.after entries i).recomputeInput entry

theorem recomputeAt_eq (start : KafStorageState) {entries : List Entry} {i : Nat}
    (h : i < entries.length) :
    start.recomputeAt entries i = (start.after entries i).recomputeInput entries[i] := by
  rw [recomputeAt, List.getElem?_eq_getElem h]
  rfl

theorem sameConfig_after (start : KafStorageState) (entries : List Entry) (i : Nat) :
    (start.after entries i).SameConfig start :=
  Runs.stateAt_invariant step start (·.SameConfig start) ⟨rfl, rfl, rfl, rfl⟩
    (fun state entry hState => (step_sameConfig state entry).trans hState) entries i

/-- The nopreempt set of a run without failback only grows. -/
theorem nodeNopreempt_mono {start : KafStorageState} (hFailback : start.failback = false)
    {entries : List Entry} {i j : Nat} (hij : i ≤ j) (hj : j ≤ entries.length)
    (hV2 : (start.after entries i).failoverSemantics = .v2) :
    (start.after entries i).nodeNopreempt ⊆ (start.after entries j).nodeNopreempt := by
  have hRelated := Runs.stateAt_related step start
    (fun before later => before.failoverSemantics = .v2 → later.failoverSemantics = .v2 ∧
      before.nodeNopreempt ⊆ later.nodeNopreempt)
    (fun _ h => ⟨h, Finset.Subset.refl _⟩)
    (fun _ _ _ hFirst hSecond h =>
      ⟨(hSecond (hFirst h).1).1, (hFirst h).2.trans (hSecond (hFirst h).1).2⟩)
    (fun k hk h => ⟨(step_of_v2 h _).1,
      (step_of_v2 h _).2 ((sameConfig_after start entries k).failback.trans hFailback)⟩) hij hj
  exact (hRelated hV2).2

end KafStorageState

/-- No preemption without failback, along any run after V2 is active. A holder that a
recomputation finds failing is in the nopreempt set from then on, and a VIP leaves a
holder that passes the test only for a node outside that set. -/
theorem no_preemption (start : KafStorageState) (hFailback : start.failback = false)
    (entries : List Entry) (k : Nat) (hk : k < entries.length)
    (hV2 : (start.after entries (k + 1)).failoverSemantics = .v2) :
    (∀ found, start.recomputeAt entries k = some found →
      ∀ vip node, (start.after entries k).holderOf vip = some node →
        found.votingAndBaseEligible node = false → ∀ j, k < j → j ≤ entries.length →
          node ∈ (start.after entries j).nodeNopreempt) ∧
      ∀ vip holder next, (start.after entries k).holderOf vip = some holder →
        (start.after entries (k + 1)).holderOf vip = some next → holder ≠ next →
          (start.after entries (k + 1)).votingAndBaseEligible holder = false ∨
            next ∉ (start.after entries (k + 1)).nodeNopreempt := by
  have hConfig := (KafStorageState.sameConfig_after start entries (k + 1)).failback
  have hStep := start.after_succ hk
  constructor
  · intro found hInput vip node hHolder hFailed j hkj hj
    rw [start.recomputeAt_eq hk] at hInput
    refine KafStorageState.nodeNopreempt_mono hFailback hkj hj hV2 ?_
    rw [hStep, KafStorageState.step_of_recompute hInput] at hV2 hConfig ⊢
    rw [KafStorageState.failoverSemantics_recompute] at hV2
    rw [(KafStorageState.recompute_sameConfig found).failback] at hConfig
    rw [(KafStorageState.nodeNopreempt_recompute hV2 (hConfig.trans hFailback)).1]
    refine Finset.mem_union_right _ (KafStorageState.mem_failedOwners.mpr ⟨⟨vip, ?_⟩, hFailed⟩)
    rw [KafStorageState.holderOf_recomputeInput hInput, hHolder]
  · intro vip holder next hHolder hNext hMoved
    rw [hStep] at hV2 hNext hConfig ⊢
    cases hInput : (start.after entries k).recomputeInput entries[k] with
    | none =>
        obtain ⟨_, _, _, _, _, assignments, hState, hHolders⟩ := KafStorageState.step_of_skip hInput
        rw [hState] at hNext
        exact absurd (Option.some.inj (hHolder.symm.trans ((hHolders vip).symm.trans hNext))) hMoved
    | some found =>
        rw [KafStorageState.step_of_recompute hInput] at hV2 hNext hConfig ⊢
        rw [KafStorageState.failoverSemantics_recompute] at hV2
        rw [(KafStorageState.recompute_sameConfig found).failback] at hConfig
        rw [KafStorageState.votingAndBaseEligible_recompute]
        cases hEligible : found.votingAndBaseEligible holder with
        | false => exact Or.inl rfl
        | true =>
            right
            rw [← KafStorageState.holderOf_recomputeInput hInput] at hHolder
            exact KafStorageState.moved_to_receiver hV2 (hConfig.trans hFailback) hHolder hNext hMoved
              hEligible

/-! ### With failback -/

namespace KafStorageState

/-- Since when a node in recovery counts, before the recomputation looks at it. A node
that fails as a holder starts again. -/
def recoverySince (state : KafStorageState) (node : Nat) : Option Nat :=
  if node ∈ state.failedOwners then none else state.nodeRecoveryTick[node]?

/-- The node passes the test and has passed it for the whole delay. -/
def RecoveryComplete (state : KafStorageState) (node : Nat) : Prop :=
  state.votingAndBaseEligible node = true ∧
    state.failbackDelayTicks ≤
      state.latestProbeTick - (state.recoverySince node).getD state.latestProbeTick

/-- The recovery loop, read at one node. -/
theorem trackRecovery_foldl (state : KafStorageState) {ids : List Nat} (hNodup : ids.Nodup)
    (ticks : ExtTreeMap Nat Nat) (node : Nat) :
    (ids.foldl state.trackRecovery (ticks, [])).1[node]? =
        (if node ∈ ids then
          if state.votingAndBaseEligible node then some (ticks[node]?.getD state.latestProbeTick)
          else none
        else ticks[node]?) ∧
      (node ∈ (ids.foldl state.trackRecovery (ticks, [])).2 ↔
        node ∈ ids ∧ state.votingAndBaseEligible node = true ∧ state.failbackDelayTicks ≤
          state.latestProbeTick - ticks[node]?.getD state.latestProbeTick) := by
  induction ids using List.reverseRecOn generalizing node with
  | nil => simp
  | append_singleton ids last ih =>
      have hSplit := List.nodup_append.mp hNodup
      have hFresh : last ∉ ids := fun hMem => hSplit.2.2 _ hMem _ (by simp) rfl
      rw [List.foldl_append, List.foldl_cons, List.foldl_nil]
      have hNode := ih hSplit.1 node
      have hLast := ih hSplit.1 last
      set tracked := ids.foldl state.trackRecovery (ticks, [])
      rw [if_neg hFresh] at hLast
      rw [trackRecovery]
      cases hEligible : state.votingAndBaseEligible last with
      | false =>
          simp only [Bool.not_false, if_true, ExtTreeMap.getElem?_erase, compare_eq_iff_eq]
          by_cases hSame : last = node
          · subst hSame
            simp [hEligible, hLast]
          · simp [hSame, Ne.symm hSame, hNode]
      | true =>
          simp only [Bool.not_true, Bool.false_eq_true, if_false, hLast.1,
            ExtTreeMap.getElem?_insert, compare_eq_iff_eq]
          by_cases hSame : last = node
          · subst hSame
            constructor
            · simp [hEligible]
            · split
              · next hLong => simp [hEligible, hLong]
              · next hShort => simp [hEligible, hShort, hLast]
          · constructor
            · simp [hSame, Ne.symm hSame, hNode]
            · split <;> simp [Ne.symm hSame, hNode]

variable {state : KafStorageState} {node : Nat}

/-- What the failback tracking leaves of a node in recovery. -/
theorem tracking_recovery (hFailback : state.failback = true) (node : Nat) :
    (node ∈ state.updateV2FailbackTracking.nodeRecoveryPending ↔
        (node ∈ state.nodeRecoveryPending ∨ node ∈ state.failedOwners) ∧
          ¬state.RecoveryComplete node) ∧
      (node ∈ state.updateV2FailbackTracking.nodeRecoveryPending →
        state.updateV2FailbackTracking.nodeRecoveryTick[node]? =
          if state.votingAndBaseEligible node then
            some ((state.recoverySince node).getD state.latestProbeTick)
          else none) := by
  have hSince : ((Ascending.members state.failedOwners).foldl (fun ticks id => ticks.erase id)
      state.nodeRecoveryTick)[node]? = state.recoverySince node := by
    rw [Maps.getElem?_foldl_erase, recoverySince]
    simp only [Ascending.mem_members]
  rw [updateV2FailbackTracking]
  simp only [hFailback, Bool.not_true, Bool.false_eq_true, if_false]
  obtain ⟨hTick, hCompleted⟩ := state.trackRecovery_foldl
    (Ascending.members_nodup (state.nodeRecoveryPending ∪ state.failedOwners))
    ((Ascending.members state.failedOwners).foldl (fun ticks id => ticks.erase id)
      state.nodeRecoveryTick) node
  simp only [hSince, Ascending.mem_members, Finset.mem_union] at hTick hCompleted
  rw [Maps.mem_foldl_erase, Finset.mem_union]
  constructor
  · rw [hCompleted, RecoveryComplete]
    tauto
  · rintro ⟨hPending, hNot⟩
    rw [Maps.getElem?_foldl_erase, if_neg hNot, hTick, if_pos hPending]

/-- After a recomputation no node in recovery holds a VIP. -/
theorem not_pending_of_holder (hV2 : state.failoverSemantics = .v2) (hFailback : state.failback = true)
    {vip : IpAddr} (hHolder : state.recompute.holderOf vip = some node) :
    node ∉ state.recompute.nodeRecoveryPending := by
  intro hPending
  have hRecomputed : state.recompute.failoverSemantics = .v2 :=
    (failoverSemantics_recompute state).trans hV2
  have hEligible : node ∈ state.recompute.eligible :=
    mem_eligible.mpr ⟨(recompute_placement state).holder_voter vip node hHolder,
      (recompute_placement state).holder_eligible vip node hHolder⟩
  rw [mem_eligible_of_v2 hRecomputed, votingAndBaseEligible_recompute] at hEligible
  obtain ⟨hTest, hDelay⟩ := hEligible
  obtain ⟨hIff, hTick⟩ := tracking_recovery hFailback node
  have hTracked : state.trackFailback = state.updateV2FailbackTracking := trackFailback_of_v2 hV2
  have hPending : node ∈ state.updateV2FailbackTracking.nodeRecoveryPending := hTracked ▸ hPending
  have hIncomplete := (hIff.mp hPending).2
  have hTick := hTick hPending
  rw [if_pos hTest] at hTick
  have hRecoveryTick : state.recompute.nodeRecoveryTick[node]? =
      some ((state.recoverySince node).getD state.latestProbeTick) := by
    rw [recompute, hTracked]
    exact hTick
  obtain ⟨_, _, _, hFrame⟩ := updateV2FailbackTracking_frame state
  have hLatest : state.recompute.latestProbeTick = state.latestProbeTick := by
    rw [recompute, hTracked, hFrame]
  have hConfig := (recompute_sameConfig state).failbackDelayTicks
  rw [inFailbackDelay, EligibilityInputs.of] at hDelay
  simp only [hRecoveryTick, hLatest, hConfig, decide_eq_false_iff_not, not_lt] at hDelay
  exact hIncomplete ⟨hTest, hDelay⟩

/-- Between two recomputations after `k`, and up to `j`, the node passed the test at
every recomputation, and the frontier advanced by the delay. -/
def Recovered (start : KafStorageState) (entries : List Entry) (node k j : Nat) : Prop :=
  ∃ i e first last, k < i ∧ i ≤ e ∧ e ≤ j ∧ start.recomputeAt entries i = some first ∧
    start.recomputeAt entries e = some last ∧
    (∀ m found, i ≤ m → m ≤ e → start.recomputeAt entries m = some found →
      found.votingAndBaseEligible node = true) ∧
    first.latestProbeTick + start.failbackDelayTicks ≤ last.latestProbeTick

/-- The node is in recovery after `m` entries, and its recovery tick, if it has one, is
the frontier of a recomputation since which it passed every test. -/
structure Waiting (start : KafStorageState) (entries : List Entry) (node k m : Nat) : Prop where
  pending : node ∈ (start.after entries m).nodeRecoveryPending
  since : ∀ tick, (start.after entries m).nodeRecoveryTick[node]? = some tick →
    tick ≤ (start.after entries m).latestProbeTick ∧
      ∃ i first, k < i ∧ i < m ∧ start.recomputeAt entries i = some first ∧
        first.latestProbeTick = tick ∧
        ∀ r found, i ≤ r → r < m → start.recomputeAt entries r = some found →
          found.votingAndBaseEligible node = true

variable {start : KafStorageState} {entries : List Entry} {k m : Nat}

/-- A node that passes the test now has passed it since its count started. -/
theorem Waiting.since_of_passed (h : Waiting start entries node k m) {found : KafStorageState}
    (hAt : start.recomputeAt entries m = some found)
    (hKept : TrackingKept (start.after entries m) found) (hk : k < m)
    (hPassed : found.votingAndBaseEligible node = true) :
    (found.recoverySince node).getD found.latestProbeTick ≤ found.latestProbeTick ∧
      ∃ i first, k < i ∧ i ≤ m ∧ start.recomputeAt entries i = some first ∧
        first.latestProbeTick = (found.recoverySince node).getD found.latestProbeTick ∧
        ∀ r other, i ≤ r → r ≤ m → start.recomputeAt entries r = some other →
          other.votingAndBaseEligible node = true := by
  have hNow : ∀ r other, r = m → start.recomputeAt entries r = some other →
      other.votingAndBaseEligible node = true := by
    rintro r other rfl hOther
    rw [hAt] at hOther
    rw [← Option.some.inj hOther, hPassed]
  have hOwner : node ∉ found.failedOwners := by
    rw [mem_failedOwners, hPassed]
    simp
  rw [recoverySince, if_neg hOwner]
  cases hTick : found.nodeRecoveryTick[node]? with
  | none =>
      exact ⟨le_rfl, m, found, hk, le_rfl, hAt, rfl, fun r other hmr hrm => hNow r other (by omega)⟩
  | some tick =>
      have hOld := hKept.ticks node tick hTick
      obtain ⟨hLe, i, first, hki, him, hFirst, hCount, hAll⟩ := h.since tick hOld
      refine ⟨hLe.trans hKept.latest, i, first, hki, him.le, hFirst, hCount, fun r other hir hrm => ?_⟩
      rcases Nat.lt_or_eq_of_le hrm with hLt | hEq
      · exact hAll r other hir hLt
      · exact hNow r other hEq

/-- One entry later the node still waits, or its recovery is complete. -/
theorem Waiting.step (h : Waiting start entries node k m) (hk : k < m) (hm : m < entries.length)
    (hV2 : (start.after entries m).failoverSemantics = .v2) (hFailback : start.failback = true) :
    Waiting start entries node k (m + 1) ∨ Recovered start entries node k m := by
  have hAt := start.recomputeAt_eq hm
  have hNext := start.after_succ hm
  cases hInput : (start.after entries m).recomputeInput entries[m] with
  | none =>
      obtain ⟨_, _, _, _, _, _, hState, -⟩ := step_of_skip hInput
      left
      refine ⟨?_, fun tick hTick => ?_⟩
      · rw [hNext, hState]
        exact h.pending
      · rw [hNext, hState] at hTick ⊢
        obtain ⟨hLe, i, first, hki, him, hFirst, hTick, hPassed⟩ := h.since tick hTick
        refine ⟨hLe, i, first, hki, by omega, hFirst, hTick, fun r found hir hrm hFound => ?_⟩
        rcases Nat.lt_succ_iff_lt_or_eq.mp hrm with hLt | rfl
        · exact hPassed r found hir hLt hFound
        · rw [hAt, hInput] at hFound
          cases hFound
  | some found =>
      rw [hInput] at hAt
      have hKept := recomputeInput_tracking hInput hV2
      have hConfig := (recomputeInput_sameConfig hInput).trans (sameConfig_after start entries m)
      obtain ⟨hPendingIff, hTick⟩ := tracking_recovery (hConfig.failback.trans hFailback) node
      have hTracked : found.recompute.nodeRecoveryPending =
            found.updateV2FailbackTracking.nodeRecoveryPending ∧
          found.recompute.nodeRecoveryTick = found.updateV2FailbackTracking.nodeRecoveryTick := by
        rw [recompute, trackFailback_of_v2 hKept.semantics]
        exact ⟨rfl, rfl⟩
      have hLatest : found.recompute.latestProbeTick = found.latestProbeTick := by
        obtain ⟨_, _, _, hFrame⟩ := trackFailback_frame found
        rw [recompute, hFrame]
      have hPending : node ∈ found.nodeRecoveryPending := hKept.pending ▸ h.pending
      have hSince := h.since_of_passed hAt hKept hk
      by_cases hComplete : found.RecoveryComplete node
      · right
        obtain ⟨hLe, i, first, hki, him, hFirst, hCount, hPassed⟩ := hSince hComplete.1
        have hDelay := hComplete.2
        rw [hConfig.failbackDelayTicks] at hDelay
        exact ⟨i, m, first, found, hki, him, le_rfl, hFirst, hAt, hPassed, by omega⟩
      · left
        have hStill := hPendingIff.mpr ⟨Or.inl hPending, hComplete⟩
        refine ⟨?_, fun tick hOld => ?_⟩
        · rw [hNext, step_of_recompute hInput, hTracked.1]
          exact hStill
        · rw [hNext, step_of_recompute hInput, hTracked.2, hTick hStill] at hOld
          split at hOld
          · next hEligible =>
              obtain ⟨hLe, i, first, hki, him, hFirst, hCount, hPassed⟩ := hSince hEligible
              obtain rfl := Option.some.inj hOld
              rw [hNext, step_of_recompute hInput, hLatest]
              exact ⟨hLe, i, first, hki, by omega, hFirst, hCount, fun r other hir hrm =>
                hPassed r other hir (by omega)⟩
          · cases hOld

/-- A holder that fails the test waits. -/
theorem waiting_of_failed (hFailback : start.failback = true) (hk : k < entries.length)
    (hV2 : (start.after entries (k + 1)).failoverSemantics = .v2) {found : KafStorageState}
    (hAt : start.recomputeAt entries k = some found) {vip : IpAddr}
    (hHolder : (start.after entries k).holderOf vip = some node)
    (hFailed : found.votingAndBaseEligible node = false) :
    Waiting start entries node k (k + 1) := by
  rw [start.recomputeAt_eq hk] at hAt
  have hNext := (start.after_succ hk).trans (step_of_recompute hAt)
  have hConfig := (recomputeInput_sameConfig hAt).trans (sameConfig_after start entries k)
  rw [hNext, failoverSemantics_recompute] at hV2
  have hOwner : node ∈ found.failedOwners := by
    refine mem_failedOwners.mpr ⟨⟨vip, ?_⟩, hFailed⟩
    rw [holderOf_recomputeInput hAt, hHolder]
  obtain ⟨hPendingIff, hTick⟩ := tracking_recovery (hConfig.failback.trans hFailback) node
  have hPending : node ∈ found.updateV2FailbackTracking.nodeRecoveryPending := by
    refine hPendingIff.mpr ⟨Or.inr hOwner, fun hComplete => ?_⟩
    rw [RecoveryComplete, hFailed] at hComplete
    exact Bool.false_ne_true hComplete.1
  have hNone := hTick hPending
  rw [hFailed, if_neg Bool.false_ne_true] at hNone
  refine ⟨?_, fun tick hSome => ?_⟩
  · rw [hNext, recompute, trackFailback_of_v2 hV2]
    exact hPending
  · rw [hNext, recompute, trackFailback_of_v2 hV2] at hSome
    rw [hNone] at hSome
    cases hSome

theorem failoverSemantics_after {i j : Nat} (hij : i ≤ j) (hj : j ≤ entries.length)
    (hV2 : (start.after entries i).failoverSemantics = .v2) :
    (start.after entries j).failoverSemantics = .v2 :=
  Runs.stateAt_related KafStorageState.step start
    (fun before later => before.failoverSemantics = .v2 → later.failoverSemantics = .v2)
    (fun _ h => h) (fun _ _ _ hFirst hSecond h => hSecond (hFirst h))
    (fun _ _ h => (step_of_v2 h _).1) hij hj hV2

/-- Until its recovery is complete the node waits. -/
theorem Waiting.run (hFailback : start.failback = true)
    (hV2 : (start.after entries (k + 1)).failoverSemantics = .v2)
    (h : Waiting start entries node k (k + 1)) {j : Nat} (hkj : k + 1 ≤ j) (hj : j ≤ entries.length) :
    Waiting start entries node k j ∨ ∃ e, e < j ∧ Recovered start entries node k e := by
  induction j, hkj using Nat.le_induction with
  | base => exact Or.inl h
  | succ j hkj ih =>
      rcases ih (by omega) with hWaiting | ⟨e, he, hRecovered⟩
      · rcases hWaiting.step hkj hj (failoverSemantics_after hkj (by omega) hV2) hFailback with
          hStill | hRecovered
        · exact Or.inl hStill
        · exact Or.inr ⟨j, by omega, hRecovered⟩
      · exact Or.inr ⟨e, by omega, hRecovered⟩

end KafStorageState

/-- The failback delay under V2, along any run after V2 is active. A node that fails the
test as a holder holds no VIP again until the frontier has advanced by the delay between
two recomputations, with the test passed at every recomputation from one to the other. -/
theorem failback_delay (start : KafStorageState) (hFailback : start.failback = true)
    (entries : List Entry) (k j : Nat) (hkj : k < j) (hj : j < entries.length)
    (hV2 : (start.after entries (k + 1)).failoverSemantics = .v2) (failed recomputed : KafStorageState)
    (hk : start.recomputeAt entries k = some failed) (node : Nat)
    (hHeld : ∃ vip, (start.after entries k).holderOf vip = some node)
    (hFailed : failed.votingAndBaseEligible node = false)
    (hRecomputed : start.recomputeAt entries j = some recomputed)
    (hHolds : ∃ vip, (start.after entries (j + 1)).holderOf vip = some node) :
    ∃ i e first last, k < i ∧ i ≤ e ∧ e ≤ j ∧ start.recomputeAt entries i = some first ∧
      start.recomputeAt entries e = some last ∧
      (∀ m found, i ≤ m → m ≤ e → start.recomputeAt entries m = some found →
        found.votingAndBaseEligible node = true) ∧
      first.latestProbeTick + start.failbackDelayTicks ≤ last.latestProbeTick := by
  obtain ⟨vip, hHeld⟩ := hHeld
  obtain ⟨held, hHolds⟩ := hHolds
  have hWaiting := KafStorageState.waiting_of_failed hFailback (by omega) hV2 hk hHeld hFailed
  rcases hWaiting.run hFailback hV2 (by omega) (show j + 1 ≤ entries.length by omega) with
    hStill | ⟨e, he, hRecovered⟩
  · rw [start.recomputeAt_eq hj] at hRecomputed
    have hConfig := (KafStorageState.recomputeInput_sameConfig hRecomputed).trans
      (KafStorageState.sameConfig_after start entries j)
    have hKept := KafStorageState.recomputeInput_tracking hRecomputed
      (KafStorageState.failoverSemantics_after hkj (by omega) hV2)
    have hPending := hStill.pending
    rw [start.after_succ hj, KafStorageState.step_of_recompute hRecomputed] at hHolds hPending
    exact absurd hPending (KafStorageState.not_pending_of_holder hKept.semantics
      (hConfig.failback.trans hFailback) hHolds)
  · obtain ⟨i, e', first, last, hki, hie, hee, hRest⟩ := hRecovered
    exact ⟨i, e', first, last, hki, hie, by omega, hRest⟩

/-! ### A sample with three nodes: the first fails, the second takes over, and the first
recovers before the second fails -/

def failbackConfig (failback : Bool) (failbackDelayTicks : Nat) : StoreConfig :=
  { handoffConfig with
    failback := failback
    failbackDelayTicks := failbackDelayTicks }

def failbackPayloads : List EntryPayload :=
  [.membership handoffMembership, .normal .enableFailoverSemanticsV2, .normal (.healthUpdate 1 true),
    .normal (.healthUpdate 2 true), .normal (.healthUpdate 1 false), .normal (.healthUpdate 1 true),
    .normal (.healthUpdate 2 true), .normal (.healthUpdate 1 true), .normal (.healthUpdate 2 false)]

def failbackLog : List Entry :=
  failbackPayloads.zipIdx.map fun (payload, index) => ⟨⟨⟨1, handoffReplica 1⟩, index⟩, payload⟩

theorem no_preemption_recovered :
    1 ∈ ((failbackConfig false 0).start.after failbackLog 8).nodeNopreempt ∧
      ((failbackConfig false 0).start.after failbackLog 8).holderOf handoffVip = some 2 := by
  have hInput : ((failbackConfig false 0).start.recomputeAt failbackLog 4).map
      (fun found => found.votingAndBaseEligible 1) = some false := by
    decide +kernel
  obtain ⟨found, hInput, hFailed⟩ := Option.map_eq_some_iff.mp hInput
  exact ⟨(no_preemption (failbackConfig false 0).start rfl failbackLog 4 (by decide) (by decide +kernel)).1
    found hInput handoffVip 1 (by decide +kernel) hFailed 8 (by decide) (by decide), by decide +kernel⟩

/-- The first node comes back after one tick, in time to take the VIP over again. -/
theorem failback_delay_recovered :
    ((failbackConfig true 1).start.after failbackLog 9).holderOf handoffVip = some 1 ∧
      ∃ i e first last, 4 < i ∧ i ≤ e ∧ e ≤ 8 ∧
        (failbackConfig true 1).start.recomputeAt failbackLog i = some first ∧
        (failbackConfig true 1).start.recomputeAt failbackLog e = some last ∧
        (∀ m found, i ≤ m → m ≤ e →
          (failbackConfig true 1).start.recomputeAt failbackLog m = some found →
          found.votingAndBaseEligible 1 = true) ∧
        first.latestProbeTick + 1 ≤ last.latestProbeTick := by
  have hHolds : ((failbackConfig true 1).start.after failbackLog 9).holderOf handoffVip = some 1 := by
    decide +kernel
  have hFailed : ((failbackConfig true 1).start.recomputeAt failbackLog 4).map
      (fun found => found.votingAndBaseEligible 1) = some false := by
    decide +kernel
  have hLater : ((failbackConfig true 1).start.recomputeAt failbackLog 8).map (fun _ => ()) =
      some () := by
    decide +kernel
  obtain ⟨failed, hFailedAt, hFailed⟩ := Option.map_eq_some_iff.mp hFailed
  obtain ⟨later, hLaterAt, -⟩ := Option.map_eq_some_iff.mp hLater
  exact ⟨hHolds, failback_delay (failbackConfig true 1).start rfl failbackLog 4 8 (by decide) (by decide)
    (by decide +kernel) failed later hFailedAt 1 ⟨handoffVip, by decide +kernel⟩ hFailed hLaterAt
    ⟨handoffVip, hHolds⟩⟩

end KeepAfloat
