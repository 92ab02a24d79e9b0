import KeepAfloat.Library.Runs
import KeepAfloat.Store.Membership
import KeepAfloat.Store.Reconcile

/-! The state machine: one committed entry is dispatched on its payload, and the
entries that can change placement are followed by a recomputation of the VIP
holders and their fences. -/

namespace KeepAfloat

open Std (ExtTreeMap)

namespace KafStorageState

def activateV2 (state : KafStorageState) : KafStorageState :=
  match state.failoverSemantics with
  | .v2 => state
  | .legacy =>
      if state.failback then
        { state with
          failoverSemantics := .v2
          nodeRecoveryPending := state.nodeRecoveryPending ∪ state.nodeRecoveryTick.keys.toFinset
          nodeFailbackBlocked := ∅ }
      else
        { state with
          failoverSemantics := .v2
          nodeNopreempt := state.nodeNopreempt ∪ state.nodeFailbackBlocked
          nodeRecoveryTick := ∅
          nodeFailbackBlocked := ∅ }

/-- A unique voter that is healthy and fresh. -/
def votingAndBaseEligible (state : KafStorageState) (nodeId : Nat) : Bool :=
  decide (nodeId ∈ uniqueVoters state.lastMembership.membership) &&
    isNodeBaseEligible nodeId state.nodeHealth state.nodeProbeTicks state.latestProbeTick
      state.staleMissedProbes

/-- Holders that are no longer voting, healthy and fresh. -/
def failedOwners (state : KafStorageState) : Finset Nat :=
  ((state.vipAssignments.values.map VipAssignment.holder).filter
    fun nodeId => !state.votingAndBaseEligible nodeId).toFinset

/-- One pending node of the recovery loop: a node that fails again restarts its
delay, one that stayed healthy long enough is completed. -/
def trackRecovery (state : KafStorageState) (acc : ExtTreeMap Nat Nat × List Nat)
    (nodeId : Nat) : ExtTreeMap Nat Nat × List Nat :=
  if !state.votingAndBaseEligible nodeId then (acc.1.erase nodeId, acc.2)
  else
    let recoveryTick := acc.1[nodeId]?.getD state.latestProbeTick
    (acc.1.insert nodeId recoveryTick,
      if state.failbackDelayTicks ≤ state.latestProbeTick - recoveryTick then acc.2 ++ [nodeId]
      else acc.2)

/-- Update V2 recovery history from actual failed VIP owners, including silently
stale ones. -/
def updateV2FailbackTracking (state : KafStorageState) : KafStorageState :=
  let failedOwners := state.failedOwners
  if !state.failback then
    { state with
      nodeNopreempt := state.nodeNopreempt ∪ failedOwners
      nodeRecoveryPending := ∅
      nodeRecoveryTick := ∅ }
  else
    let pending := state.nodeRecoveryPending ∪ failedOwners
    let ticks := (Ascending.members failedOwners).foldl (fun ticks id => ticks.erase id)
      state.nodeRecoveryTick
    let tracked := (Ascending.members pending).foldl state.trackRecovery (ticks, [])
    { state with
      nodeNopreempt := ∅
      nodeRecoveryPending := tracked.2.foldl (fun pending id => pending.erase id) pending
      nodeRecoveryTick := tracked.2.foldl (fun ticks id => ticks.erase id) tracked.1 }

/-- Recovery ticks after a health report: legacy starts a delay when a node
reports healthy again and drops it when the node fails. -/
def reportedRecoveryTick (state : KafStorageState) (nodeId : Nat) (healthy : Bool)
    (nextTick : Nat) : ExtTreeMap Nat Nat :=
  match state.failoverSemantics with
  | .v2 => state.nodeRecoveryTick
  | .legacy =>
      if healthy then
        if state.failback && state.nodeHealth[nodeId]? = some false then
          state.nodeRecoveryTick.insert nodeId nextTick
        else state.nodeRecoveryTick
      else state.nodeRecoveryTick.erase nodeId

/-- Legacy blocks after a health report: without failback, a node that was
healthy and fails is blocked. -/
def reportedBlocked (state : KafStorageState) (nodeId : Nat) (healthy : Bool) : Finset Nat :=
  match state.failoverSemantics with
  | .v2 => state.nodeFailbackBlocked
  | .legacy =>
      if !healthy && !state.failback && state.nodeHealth[nodeId]? = some true then
        insert nodeId state.nodeFailbackBlocked
      else state.nodeFailbackBlocked

def applyHealth (state : KafStorageState) (nodeId : Nat) (healthy : Bool) : KafStorageState :=
  let nextTick := nextProbeTick state.nodeProbeTicks[nodeId]? state.latestProbeTick
  { state with
    nodeHealth := state.nodeHealth.insert nodeId healthy
    nodeProbeTicks := state.nodeProbeTicks.insert nodeId nextTick
    latestProbeTick := nextTick
    nodeRecoveryTick := state.reportedRecoveryTick nodeId healthy nextTick
    nodeFailbackBlocked := state.reportedBlocked nodeId healthy }

/-- The first genesis drops physical-only evidence and activates V2. -/
def adoptGenesis (state : KafStorageState) : KafStorageState :=
  { { state with
      nodeHealth := ∅
      nodeProbeTicks := ∅
      nodeRecoveryTick := ∅
      appliedProgress := ∅ }.activateV2 with
    configIdentityEnforced := true }

/-- Prior committed holders. -/
def currentHolders (state : KafStorageState) : ExtTreeMap IpAddr Nat :=
  state.vipAssignments.map fun _ assignment => assignment.holder

def recomputedHolders (state : KafStorageState) : ExtTreeMap IpAddr Nat :=
  match state.failoverSemantics with
  | .legacy => recomputeVipHolder state.lastMembership (.of state) state.nodeFailbackBlocked
      state.vipList state.currentHolders
  | .v2 => recomputeVipHolderV2 state.lastMembership (.of state) state.nodeNopreempt
      state.vipList state.currentHolders

/-- Failback history is kept by V2 only. -/
def trackFailback (state : KafStorageState) : KafStorageState :=
  match state.failoverSemantics with
  | .v2 => state.updateV2FailbackTracking
  | .legacy => state

/-- Failback tracking, then placement, then the fences. -/
def recompute (state : KafStorageState) : KafStorageState :=
  let tracked := state.trackFailback
  let merged := reconcileVipAssignments tracked.recomputedHolders tracked.latestProbeTick
    tracked.vipList tracked.vipAssignments tracked.vipGeneration tracked.vipLastHolder
  { tracked with
    vipAssignments := merged.next
    vipGeneration := merged.generation
    vipLastHolder := merged.lastHolder }

end KafStorageState

/-- The state after dispatch, the answer, and whether placement is recomputed. -/
structure Dispatched where
  state : KafStorageState
  response : KafResponse
  shouldRecompute : Bool

/-- Recompute placement if the dispatched entry can have changed it. -/
def Dispatched.finish (dispatched : Dispatched) : KafStorageState × KafResponse :=
  (if dispatched.shouldRecompute then dispatched.state.recompute else dispatched.state,
    dispatched.response)

namespace KafStorageState

def dispatchGenesis (state : KafStorageState) (genesis : Genesis) : Dispatched :=
  if (state.genesis.any (· ≠ genesis)) || (state.clusterEpoch.any (· ≠ genesis.epoch)) then
    ⟨state, .rejected "immutable genesis mismatch", false⟩
  else
    let adopted := if state.genesis.isNone then state.adoptGenesis else state
    ⟨{ adopted with genesis := some genesis, clusterEpoch := some genesis.epoch }, .ok,
      state.genesis.isNone⟩

def dispatchHealthProgress (state : KafStorageState) (progress : HealthProgress) (logId : LogId) :
    Dispatched :=
  if progress.validate ≠ .ok () ∨ state.genesis ≠ some progress.genesis ∨
      progress.replica ∉ state.lastMembership.membership.nodes then
    ⟨state, .rejected "progress context differs from committed genesis", false⟩
  else
    let recorded : KafStorageState :=
      { state with
        appliedProgress := state.appliedProgress.insert progress.nodeId ⟨progress, logId⟩ }
    match progress.healthy with
    | none => ⟨recorded, .ok, false⟩
    | some healthy =>
        let eligible := (uniqueVoters state.lastMembership.membership)[progress.nodeId]? =
          some progress.replica
        ⟨recorded.applyHealth progress.nodeId (healthy && eligible), .ok, true⟩

/-- A release is recorded only for the generation and the previous holder that
the current assignment names. -/
def recordRelease (state : KafStorageState) (nodeId : Nat) (vip : IpAddr) (generation : Nat) :
    KafStorageState :=
  { state with
    vipAssignments := match state.vipAssignments[vip]? with
      | none => state.vipAssignments
      | some assignment =>
          if assignment.generation = generation ∧ assignment.previousHolder = some nodeId then
            state.vipAssignments.insert vip { assignment with previousHolderReleased := true }
          else state.vipAssignments }

def dispatchClusterFormed (state : KafStorageState) (clusterId : BitVec 128)
    (failoverSemantics : FailoverSemantics) (configIdentityEnforced : Bool) : Dispatched :=
  if state.clusterEpoch.isNone then
    let formed : KafStorageState :=
      { state with
        clusterEpoch := some clusterId
        configIdentityEnforced := state.configIdentityEnforced || configIdentityEnforced }
    match failoverSemantics with
    | .v2 => ⟨formed.activateV2, .ok, true⟩
    | .legacy => ⟨formed, .ok, false⟩
  else ⟨state, .ok, false⟩

/-- Dispatch one entry on a state whose `lastAppliedLog` is already the entry's. -/
def dispatch (state : KafStorageState) (entry : Entry) : Dispatched :=
  match entry.payload with
  | .blank => ⟨state, .ok, false⟩
  | .normal (.admissionMembership command) =>
      let applied := state.applyAdmissionMembership command entry.logId
      ⟨applied.1, applied.2, false⟩
  | .normal (.admissionGenesis genesis) => state.dispatchGenesis genesis
  | .normal (.healthProgress progress) => state.dispatchHealthProgress progress entry.logId
  | .normal (.healthUpdate nodeId healthy) =>
      if state.genesis.isSome then
        ⟨state, .rejected "physical-only health has no boot authority", false⟩
      else ⟨state.applyHealth nodeId healthy, .ok, true⟩
  | .normal (.vipReleased nodeId vip generation) =>
      ⟨state.recordRelease nodeId vip generation, .ok, false⟩
  | .normal (.clusterFormed clusterId failoverSemantics configIdentityEnforced) =>
      state.dispatchClusterFormed clusterId failoverSemantics configIdentityEnforced
  | .normal .enableFailoverSemanticsV2 => ⟨state.activateV2, .ok, true⟩
  | .normal .enableConfigIdentityV1 => ⟨{ state with configIdentityEnforced := true }, .ok, false⟩
  | .membership membership => ⟨state.applyMembership membership entry.logId, .ok, true⟩

/-- Apply one committed entry. -/
def applyOne (state : KafStorageState) (entry : Entry) : KafStorageState × KafResponse :=
  ({ state with lastAppliedLog := some entry.logId }.dispatch entry).finish

/-- The state after one entry, without the answer. -/
def step (state : KafStorageState) (entry : Entry) : KafStorageState := (state.applyOne entry).1

end KafStorageState

/-! ### Frames

The helpers that branch before they write each write a fixed set of fields. The
equations below say which; that every other field is unchanged follows by
projection. -/

namespace KafStorageState

theorem activateV2_frame (state : KafStorageState) :
    ∃ semantics pending nopreempt ticks blocked, state.activateV2 =
      { state with
        failoverSemantics := semantics
        nodeRecoveryPending := pending
        nodeNopreempt := nopreempt
        nodeRecoveryTick := ticks
        nodeFailbackBlocked := blocked } := by
  rw [activateV2]
  cases state.failoverSemantics with
  | v2 => exact ⟨_, _, _, _, _, rfl⟩
  | legacy =>
      dsimp only
      split
      · exact ⟨_, _, _, _, _, rfl⟩
      · exact ⟨_, _, _, _, _, rfl⟩

theorem updateV2FailbackTracking_frame (state : KafStorageState) :
    ∃ nopreempt pending ticks, state.updateV2FailbackTracking =
      { state with
        nodeNopreempt := nopreempt
        nodeRecoveryPending := pending
        nodeRecoveryTick := ticks } := by
  rw [updateV2FailbackTracking]
  dsimp only
  split
  · exact ⟨_, _, _, rfl⟩
  · exact ⟨_, _, _, rfl⟩

theorem trackFailback_frame (state : KafStorageState) :
    ∃ nopreempt pending ticks, state.trackFailback =
      { state with
        nodeNopreempt := nopreempt
        nodeRecoveryPending := pending
        nodeRecoveryTick := ticks } := by
  rw [trackFailback]
  split
  · exact updateV2FailbackTracking_frame state
  · exact ⟨_, _, _, rfl⟩

/-- A genesis entry is refused, adopted as the first one, or repeats the one in force. -/
theorem dispatchGenesis_cases (state : KafStorageState) (genesis : Genesis) :
    (state.dispatchGenesis genesis).state = state ∨
      (state.genesis = none ∧ (state.dispatchGenesis genesis).state =
        { state.adoptGenesis with genesis := some genesis, clusterEpoch := some genesis.epoch }) ∨
      (state.genesis = some genesis ∧ (state.dispatchGenesis genesis).state =
        { state with clusterEpoch := some genesis.epoch }) := by
  rw [dispatchGenesis]
  split
  · exact Or.inl rfl
  · next hMatches =>
      cases hGenesis : state.genesis with
      | none => exact Or.inr (Or.inl ⟨rfl, rfl⟩)
      | some current =>
          obtain rfl : current = genesis := by
            by_contra hNe
            exact hMatches (by simp [hGenesis, hNe])
          have hKnown : state.genesis.isNone = false := by rw [hGenesis]; rfl
          refine Or.inr (Or.inr ⟨rfl, ?_⟩)
          simp only [hKnown, Bool.false_eq_true, if_false, ← hGenesis]

/-- The configuration constants agree. They never enter the log. -/
structure SameConfig (first second : KafStorageState) : Prop where
  vipList : first.vipList = second.vipList
  staleMissedProbes : first.staleMissedProbes = second.staleMissedProbes
  failback : first.failback = second.failback
  failbackDelayTicks : first.failbackDelayTicks = second.failbackDelayTicks

/-- The maps behind the fences agree. -/
structure SameVips (first second : KafStorageState) : Prop where
  vipAssignments : first.vipAssignments = second.vipAssignments
  vipGeneration : first.vipGeneration = second.vipGeneration
  vipLastHolder : first.vipLastHolder = second.vipLastHolder

theorem SameConfig.trans {first second third : KafStorageState} (h : first.SameConfig second)
    (h' : second.SameConfig third) : first.SameConfig third :=
  ⟨h.vipList.trans h'.vipList, h.staleMissedProbes.trans h'.staleMissedProbes,
    h.failback.trans h'.failback, h.failbackDelayTicks.trans h'.failbackDelayTicks⟩

theorem adoptGenesis_frame (state : KafStorageState) :
    state.adoptGenesis.SameConfig state ∧ state.adoptGenesis.SameVips state := by
  obtain ⟨_, _, _, _, _, hActivated⟩ := activateV2_frame
    { state with nodeHealth := ∅, nodeProbeTicks := ∅, nodeRecoveryTick := ∅, appliedProgress := ∅ }
  rw [adoptGenesis, hActivated]
  exact ⟨⟨rfl, rfl, rfl, rfl⟩, ⟨rfl, rfl, rfl⟩⟩

/-- Dispatch touches neither the configuration nor, unless it records a release,
the VIP maps. -/
theorem dispatch_frame (state : KafStorageState) (entry : Entry) :
    (state.dispatch entry).state.SameConfig state ∧
      ((∀ nodeId vip generation, entry.payload ≠ .normal (.vipReleased nodeId vip generation)) →
        (state.dispatch entry).state.SameVips state) := by
  have hRefl : state.SameConfig state ∧ state.SameVips state :=
    ⟨⟨rfl, rfl, rfl, rfl⟩, ⟨rfl, rfl, rfl⟩⟩
  have hActivate : ∀ other : KafStorageState,
      other.activateV2.SameConfig other ∧ other.activateV2.SameVips other := by
    intro other
    obtain ⟨_, _, _, _, _, hActivated⟩ := activateV2_frame other
    rw [hActivated]
    exact ⟨⟨rfl, rfl, rfl, rfl⟩, ⟨rfl, rfl, rfl⟩⟩
  rw [dispatch]
  cases entry.payload with
  | blank => exact ⟨hRefl.1, fun _ => hRefl.2⟩
  | membership membership =>
      exact ⟨⟨rfl, rfl, rfl, rfl⟩, fun _ => ⟨rfl, rfl, rfl⟩⟩
  | normal request =>
      cases request with
      | healthProgress progress =>
          simp only [dispatchHealthProgress]
          split
          · exact ⟨hRefl.1, fun _ => hRefl.2⟩
          · split
            · exact ⟨⟨rfl, rfl, rfl, rfl⟩, fun _ => ⟨rfl, rfl, rfl⟩⟩
            · exact ⟨⟨rfl, rfl, rfl, rfl⟩, fun _ => ⟨rfl, rfl, rfl⟩⟩
      | admissionGenesis genesis =>
          simp only [dispatchGenesis]
          split
          · exact ⟨hRefl.1, fun _ => hRefl.2⟩
          · obtain ⟨hConfig, hVips⟩ := adoptGenesis_frame state
            cases state.genesis with
            | none =>
                exact ⟨⟨hConfig.1, hConfig.2, hConfig.3, hConfig.4⟩,
                  fun _ => ⟨hVips.1, hVips.2, hVips.3⟩⟩
            | some current => exact ⟨⟨rfl, rfl, rfl, rfl⟩, fun _ => ⟨rfl, rfl, rfl⟩⟩
      | admissionMembership command =>
          exact ⟨⟨rfl, rfl, rfl, rfl⟩, fun _ => ⟨rfl, rfl, rfl⟩⟩
      | healthUpdate nodeId healthy =>
          dsimp only
          split
          · exact ⟨hRefl.1, fun _ => hRefl.2⟩
          · exact ⟨⟨rfl, rfl, rfl, rfl⟩, fun _ => ⟨rfl, rfl, rfl⟩⟩
      | vipReleased nodeId vip generation =>
          exact ⟨⟨rfl, rfl, rfl, rfl⟩, fun hNot => absurd rfl (hNot nodeId vip generation)⟩
      | clusterFormed clusterId failoverSemantics configIdentityEnforced =>
          simp only [dispatchClusterFormed]
          split
          · cases failoverSemantics with
            | legacy => exact ⟨⟨rfl, rfl, rfl, rfl⟩, fun _ => ⟨rfl, rfl, rfl⟩⟩
            | v2 =>
                obtain ⟨hConfig, hVips⟩ := hActivate
                  { state with
                    clusterEpoch := some clusterId
                    configIdentityEnforced :=
                      state.configIdentityEnforced || configIdentityEnforced }
                exact ⟨⟨hConfig.1, hConfig.2, hConfig.3, hConfig.4⟩,
                  fun _ => ⟨hVips.1, hVips.2, hVips.3⟩⟩
          · exact ⟨hRefl.1, fun _ => hRefl.2⟩
      | enableFailoverSemanticsV2 => exact ⟨(hActivate state).1, fun _ => (hActivate state).2⟩
      | enableConfigIdentityV1 => exact ⟨⟨rfl, rfl, rfl, rfl⟩, fun _ => ⟨rfl, rfl, rfl⟩⟩

/-- An entry that skips the recomputation leaves every input of placement and
every holder as they were. -/
theorem dispatch_skipped (state : KafStorageState) (entry : Entry)
    (hSkip : (state.dispatch entry).shouldRecompute = false) :
    ∃ preparedJoin genesis epoch progress enforced assignments,
      (state.dispatch entry).state =
        { state with
          preparedJoin := preparedJoin
          genesis := genesis
          clusterEpoch := epoch
          appliedProgress := progress
          configIdentityEnforced := enforced
          vipAssignments := assignments } ∧
      ∀ vip : IpAddr, assignments[vip]?.map VipAssignment.holder =
        state.vipAssignments[vip]?.map VipAssignment.holder := by
  rw [dispatch] at hSkip ⊢
  cases hPayload : entry.payload with
  | blank => exact ⟨_, _, _, _, _, _, rfl, fun _ => rfl⟩
  | membership membership => simp [hPayload] at hSkip
  | normal request =>
      cases request with
      | admissionMembership command => exact ⟨_, _, _, _, _, _, rfl, fun _ => rfl⟩
      | enableConfigIdentityV1 => exact ⟨_, _, _, _, _, _, rfl, fun _ => rfl⟩
      | enableFailoverSemanticsV2 => simp [hPayload] at hSkip
      | healthUpdate nodeId healthy =>
          simp only [hPayload] at hSkip
          split at hSkip
          · next hGenesis =>
              simp only [hGenesis, if_true]
              exact ⟨_, _, _, _, _, _, rfl, fun _ => rfl⟩
          · cases hSkip
      | healthProgress progress =>
          simp only [hPayload, dispatchHealthProgress] at hSkip ⊢
          split
          · exact ⟨_, _, _, _, _, _, rfl, fun _ => rfl⟩
          · next hAccepted =>
              cases hHealthy : progress.healthy with
              | none => exact ⟨_, _, _, _, _, _, rfl, fun _ => rfl⟩
              | some healthy => simp [hAccepted, hHealthy] at hSkip
      | admissionGenesis genesis =>
          simp only [hPayload] at hSkip
          dsimp only
          rw [dispatchGenesis] at hSkip ⊢
          split
          · exact ⟨_, _, _, _, _, _, rfl, fun _ => rfl⟩
          · next hAccepted =>
              rw [if_neg hAccepted] at hSkip
              have hKnown : state.genesis.isNone = false := hSkip
              simp only [hKnown, Bool.false_eq_true, if_false]
              exact ⟨_, _, _, _, _, _, rfl, fun _ => rfl⟩
      | clusterFormed clusterId failoverSemantics configIdentityEnforced =>
          simp only [hPayload, dispatchClusterFormed] at hSkip ⊢
          split
          · next hFirst =>
              cases failoverSemantics with
              | legacy => exact ⟨_, _, _, _, _, _, rfl, fun _ => rfl⟩
              | v2 => simp [hFirst] at hSkip
          · exact ⟨_, _, _, _, _, _, rfl, fun _ => rfl⟩
      | vipReleased nodeId vip generation =>
          refine ⟨_, _, _, _, _, _, rfl, fun other => ?_⟩
          cases hVip : state.vipAssignments[vip]? with
          | none => rfl
          | some assignment =>
              dsimp only
              split
              · rw [Std.ExtTreeMap.getElem?_insert]
                split
                · next hOther =>
                    cases Std.LawfulEqCmp.eq_of_compare hOther
                    simp [hVip]
                · rfl
              · rfl

theorem recompute_sameConfig (state : KafStorageState) : state.recompute.SameConfig state := by
  obtain ⟨_, _, _, hTracked⟩ := trackFailback_frame state
  rw [recompute, hTracked]
  exact ⟨rfl, rfl, rfl, rfl⟩

theorem step_sameConfig (state : KafStorageState) (entry : Entry) :
    (state.step entry).SameConfig state := by
  have hDispatch := (dispatch_frame { state with lastAppliedLog := some entry.logId } entry).1
  have hState : { state with lastAppliedLog := some entry.logId }.SameConfig state :=
    ⟨rfl, rfl, rfl, rfl⟩
  rw [step, applyOne, Dispatched.finish]
  dsimp only
  split
  · exact (recompute_sameConfig _).trans (hDispatch.trans hState)
  · exact hDispatch.trans hState

/-! ### What one entry does to the fence of one VIP -/

/-- The fence of a VIP as the three maps hold it. -/
def fence (state : KafStorageState) (vip : IpAddr) : VipFence :=
  ⟨state.vipAssignments[vip]?, state.vipGeneration[vip]?, state.vipLastHolder[vip]?⟩

theorem fence_congr {first second : KafStorageState}
    (hAssignments : first.vipAssignments = second.vipAssignments)
    (hGeneration : first.vipGeneration = second.vipGeneration)
    (hLastHolder : first.vipLastHolder = second.vipLastHolder) (vip : IpAddr) :
    first.fence vip = second.fence vip := by
  rw [fence, fence, hAssignments, hGeneration, hLastHolder]

theorem fence_recompute (state : KafStorageState) (vip : IpAddr) :
    state.recompute.fence vip =
      if vip ∈ state.vipList.addrs then
        (state.fence vip).reconcile state.latestProbeTick state.trackFailback.recomputedHolders[vip]?
      else ⟨none, (state.fence vip).generation, (state.fence vip).lastHolder⟩ := by
  obtain ⟨nopreempt, pending, ticks, hTracked⟩ := trackFailback_frame state
  have hAfter := reconcileVipAssignments_after state.trackFailback.recomputedHolders
    state.trackFailback.latestProbeTick state.trackFailback.vipList
    state.trackFailback.vipAssignments state.trackFailback.vipGeneration
    state.trackFailback.vipLastHolder vip
  rw [recompute, fence]
  refine hAfter.trans ?_
  rw [hTracked]
  rfl

theorem fence_recordRelease (state : KafStorageState) (nodeId : Nat) (released vip : IpAddr)
    (generation : Nat) :
    (state.recordRelease nodeId released generation).fence vip =
      if released = vip then (state.fence vip).release nodeId generation else state.fence vip := by
  simp only [fence, recordRelease]
  cases hReleased : state.vipAssignments[released]? with
  | none =>
      by_cases hVip : released = vip
      · subst hVip
        simp [VipFence.release, hReleased]
      · simp [hVip]
  | some assignment =>
      by_cases hMatch : assignment.generation = generation ∧ assignment.previousHolder = some nodeId
      · by_cases hVip : released = vip
        · subst hVip
          simp [VipFence.release, hReleased, hMatch]
        · simp [hVip, hMatch, ExtTreeMap.getElem?_insert]
      · by_cases hVip : released = vip
        · subst hVip
          simp [VipFence.release, hReleased, hMatch]
        · simp [hVip, hMatch]

end KafStorageState

/-- The state after the first `i` entries of a log, from the empty store. -/
def stateAfter (config : StoreConfig) (entries : List Entry) (i : Nat) : KafStorageState :=
  Runs.stateAt KafStorageState.step config.start entries i

theorem stateAfter_succ {config : StoreConfig} {entries : List Entry} {i : Nat}
    (h : i < entries.length) :
    stateAfter config entries (i + 1) = (stateAfter config entries i).step entries[i] :=
  Runs.stateAt_succ _ _ h

end KeepAfloat
