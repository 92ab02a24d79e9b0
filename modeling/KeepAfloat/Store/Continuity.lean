import KeepAfloat.Store.BootHealth
import KeepAfloat.Store.Placement

/-! What two samples of a run say about the states between them. The generation of a VIP
and the probe tick of a node only count up along a committed log, whose indices are
64-bit words; so an equal count at both ends excludes every change in between. -/

namespace KeepAfloat

open Std (ExtTreeMap)

/-- A committed log has no more entries than there are 64-bit indices. -/
structure CommittedLog (entries : List Entry) : Prop where
  length_le : entries.length ≤ Word64.maxWord + 1

/-! ### Assignments -/

/-- An ownership stands between any two moments that see its generation. -/
theorem fenceAt_steady {events : List FenceEvent} (hShort : events.length ≤ Word64.maxWord)
    {i j k : Nat} (hik : i ≤ k) (hkj : k ≤ j) (hj : j ≤ events.length)
    {first second : VipAssignment} (hFirst : (fenceAt events i).assignment = some first)
    (hSecond : (fenceAt events j).assignment = some second)
    (hGeneration : first.generation = second.generation) :
    ∃ between, (fenceAt events k).assignment = some between ∧
      between.generation = first.generation ∧ between.handoff = first.handoff := by
  have hAtFirst := (fenceAt_numbered events i).assigned first hFirst
  have hAtSecond := (fenceAt_numbered events j).assigned second hSecond
  have hBelow := lastGeneration_mono hik (hkj.trans hj)
  have hAbove := lastGeneration_mono hkj hj
  have hSome : (fenceAt events k).assignment ≠ none := by
    intro hNone
    obtain ⟨m, hkm, hmj, hEmpty, hHeld⟩ := Runs.exists_step_of_change VipFence.advance VipFence.empty
      (fun fence => fence.assignment ≠ none) hkj (not_not.mpr hNone)
      (show (fenceAt events j).assignment ≠ none by simp [hSecond])
    have hm : m < events.length := hmj.trans_le hj
    have hOver : (fenceAt events m).HandsOver events[m] := by
      rw [VipFence.handsOver_iff, ← fenceAt_succ hm]
      obtain ⟨held, hHeld⟩ := Option.ne_none_iff_exists'.mp hHeld
      exact ⟨held, hHeld, by rw [show (fenceAt events m).assignment = none from not_not.mp hEmpty]; simp⟩
    have hNext := (lastGeneration_succ hShort hm).1 hOver
    have hTo := lastGeneration_mono hkm hm.le
    have hFrom : (fenceAt events (m + 1)).lastGeneration ≤ _ := lastGeneration_mono hmj hj
    omega
  obtain ⟨between, hBetween⟩ := Option.ne_none_iff_exists'.mp hSome
  have hAt := (fenceAt_numbered events k).assigned between hBetween
  have hSame : between.generation = first.generation := by omega
  exact ⟨between, hBetween, hSame, handoff_eq_of_generation_eq hShort (hkj.trans hj)
    (hik.trans (hkj.trans hj)) hBetween hFirst hSame⟩

/-- Without a holder nothing happens to a VIP that was never owned. -/
theorem VipFence.advance_empty {event : FenceEvent}
    (h : (VipFence.empty.advance event).assignment = none) :
    VipFence.empty.advance event = VipFence.empty := by
  rcases VipFence.empty.advance_cases event with ⟨_, _, -, hEq⟩ | hEq | hEq |
    ⟨_, hExisting, -⟩ | ⟨_, _, -, -, hEq⟩
  · exact hEq
  · exact hEq
  · exact hEq
  · cases hExisting
  · rw [hEq] at h
    cases h

theorem healthy_of_eligible {node : Nat} {inputs : EligibilityInputs} {blocked : Finset Nat}
    (h : isNodeEligible node inputs blocked = true) : inputs.nodeHealth[node]? = some true := by
  unfold isNodeEligible isNodeBaseEligible at h
  cases hHealth : inputs.nodeHealth[node]? with
  | none => simp [hHealth] at h
  | some healthy => cases healthy <;> simp [hHealth] at h ⊢

/-- The first entry of a log assigns nothing: a membership finds no healthy node, and a
health report no voter. -/
theorem unassigned_first (config : StoreConfig) (entries : List Entry) (vip : IpAddr)
    (hSome : 0 < entries.length) : (stateAfter config entries 1).vipAssignments[vip]? = none := by
  by_contra hAssigned
  obtain ⟨assignment, hAssigned⟩ := Option.ne_none_iff_exists'.mp hAssigned
  have hPlacement := stateAfter_placement config entries 1
  have hHolder : (stateAfter config entries 1).holderOf vip = some assignment.holder := by
    rw [KafStorageState.holderOf, hAssigned, Option.map_some]
  have hHealthy := healthy_of_eligible (hPlacement.holder_eligible vip _ hHolder)
  have hVoter := hPlacement.holder_voter vip _ hHolder
  have hNoVoter : ∀ node, node ∉ uniqueVoters config.start.lastMembership.membership := by
    intro node hNode
    rw [ExtTreeMap.mem_iff_isSome_getElem?] at hNode
    cases hNode
  have hEvent := KafStorageState.bootEvent_step config.start entries[0]
  have hAfter : stateAfter config entries 1 = config.start.step entries[0] := stateAfter_succ hSome
  rw [← hAfter] at hEvent
  generalize hView : (stateAfter config entries 1).bootView = view at hEvent
  have hHealth : view.nodeHealth[assignment.holder]? = some true := by rw [← hView]; exact hHealthy
  have hMember : assignment.holder ∈ uniqueVoters view.membership := by rw [← hView]; exact hVoter
  cases hEvent with
  | report hPayload hAccepts hReported => cases hAccepts.2.1
  | renewal hPayload hAccepts hNone => cases hAccepts.2.1
  | membership hPayload hKept hProgress =>
      rw [hKept] at hHealth
      simp [KafStorageState.bootView, StoreConfig.start, KafStorageState.new] at hHealth
  | adopt hPayload hNone => simp at hHealth
  | physical hNone => exact hNoVoter _ hMember
  | quiet hRefused => exact hNoVoter _ hMember

/-- The fence of a VIP along a committed log is a run of the fence machine that is too
short to exhaust the generation counter. -/
theorem exists_short_fence_run {entries : List Entry} (hLog : CommittedLog entries)
    (config : StoreConfig) (vip : IpAddr) :
    ∃ events : List FenceEvent, events.length = entries.length - 1 ∧
      events.length ≤ Word64.maxWord ∧
      ∀ i, i ≤ entries.length → (stateAfter config entries i).fence vip = fenceAt events (i - 1) := by
  obtain ⟨events, hLength, -, hRun⟩ := exists_fence_run config entries vip
  have hBound := hLog.length_le
  refine ⟨events.tail, by rw [List.length_tail, hLength], ?_, fun i hi => ?_⟩
  · rw [List.length_tail]
    omega
  · rw [hRun i hi]
    cases i with
    | zero => rfl
    | succ i =>
        cases events with
        | nil =>
            simp only [List.length_nil] at hLength
            omega
        | cons event rest =>
            have hFirst : VipFence.empty.advance event = VipFence.empty := by
              apply VipFence.advance_empty
              have hOne := hRun 1 (by omega)
              have hNone := unassigned_first config entries vip (by omega)
              exact (congrArg VipFence.assignment hOne).symm.trans hNone
            show Runs.stateAt VipFence.advance (VipFence.empty.advance event) rest i = _
            rw [hFirst]
            rfl

/-- Between two samples that see one generation of a VIP, the assignment stood. -/
theorem assignment_steady {entries : List Entry} (hLog : CommittedLog entries)
    {config : StoreConfig} {vip : IpAddr} {i j k : Nat} (hik : i ≤ k) (hkj : k ≤ j)
    (hj : j ≤ entries.length) {first second : VipAssignment}
    (hFirst : (stateAfter config entries i).vipAssignments[vip]? = some first)
    (hSecond : (stateAfter config entries j).vipAssignments[vip]? = some second)
    (hGeneration : first.generation = second.generation) :
    ∃ between, (stateAfter config entries k).vipAssignments[vip]? = some between ∧
      between.generation = first.generation ∧ between.handoff = first.handoff := by
  obtain ⟨events, hLength, hShort, hRun⟩ := exists_short_fence_run hLog config vip
  have hAssigned : ∀ n, n ≤ entries.length →
      (stateAfter config entries n).vipAssignments[vip]? = (fenceAt events (n - 1)).assignment :=
    fun n hn => congrArg VipFence.assignment (hRun n hn)
  rw [hAssigned i (by omega)] at hFirst
  rw [hAssigned j hj] at hSecond
  rw [hAssigned k (by omega)]
  exact fenceAt_steady hShort (by omega) (by omega) (by omega) hFirst hSecond hGeneration

/-! ### Probe ticks -/

/-- What the probe ticks depend on. -/
structure ProbeView where
  genesis : Option Genesis
  membership : Membership
  nodeProbeTicks : ExtTreeMap Nat Nat
  latestProbeTick : Nat

/-- A node publishes once more. -/
def ProbeView.publish (view : ProbeView) (node : Nat) : ProbeView :=
  let nextTick := nextProbeTick view.nodeProbeTicks[node]? view.latestProbeTick
  { view with
    nodeProbeTicks := view.nodeProbeTicks.insert node nextTick
    latestProbeTick := nextTick }

/-- What an entry does that is not an accepted health-bearing report. -/
inductive SilentEvent (view : ProbeView) : ProbeView → Prop where
  | membership {membership : Membership} {ticks : ExtTreeMap Nat Nat}
      (hTicks : ∀ id : Nat, ticks[id]? =
        if view.genesis.isSome ∧
            (uniqueVoters view.membership)[id]? ≠ (uniqueVoters membership)[id]? then none
        else view.nodeProbeTicks[id]?) :
      SilentEvent view ⟨view.genesis, membership, ticks, view.latestProbeTick⟩
  | adopt (genesis : Genesis) (hNone : view.genesis = none) :
      SilentEvent view ⟨some genesis, view.membership, ∅, view.latestProbeTick⟩
  | quiet : SilentEvent view view

/-- What one entry does to a view. -/
inductive ProbeEvent (view : ProbeView) : ProbeView → Prop where
  | published (node : Nat) : ProbeEvent view (view.publish node)
  | silent {after : ProbeView} (hSilent : SilentEvent view after) : ProbeEvent view after

/-- The node that a health-bearing report is about. -/
def EntryPayload.reporter : EntryPayload → Option Nat
  | .normal (.healthUpdate nodeId _) => some nodeId
  | .normal (.healthProgress progress) => progress.healthy.map fun _ => progress.nodeId
  | _ => none

namespace KafStorageState

def probeView (state : KafStorageState) : ProbeView where
  genesis := state.genesis
  membership := state.lastMembership.membership
  nodeProbeTicks := state.nodeProbeTicks
  latestProbeTick := state.latestProbeTick

theorem probeView_recompute (state : KafStorageState) :
    state.recompute.probeView = state.probeView := by
  obtain ⟨_, _, _, hTracked⟩ := trackFailback_frame state
  rw [recompute, hTracked]
  rfl

theorem probeView_activateV2 (state : KafStorageState) :
    state.activateV2.probeView = state.probeView := by
  obtain ⟨_, _, _, _, _, hActivated⟩ := activateV2_frame state
  rw [hActivated]
  rfl

theorem probeView_finish (dispatched : Dispatched) :
    dispatched.finish.1.probeView = dispatched.state.probeView := by
  rw [Dispatched.finish]
  dsimp only
  split
  · exact probeView_recompute _
  · rfl

/-- An accepted health-bearing report publishes for its node; every other entry leaves the
frontier alone. -/
theorem probeView_dispatch (state : KafStorageState) (entry : Entry) :
    ((state.dispatch entry).response = .ok ∧ ∃ node, entry.payload.reporter = some node ∧
        (state.dispatch entry).state.probeView = state.probeView.publish node) ∨
      ((state.dispatch entry).response = .ok → entry.payload.reporter = none) ∧
        SilentEvent state.probeView (state.dispatch entry).state.probeView := by
  rw [dispatch]
  cases entry.payload with
  | blank => exact .inr ⟨fun _ => rfl, .quiet⟩
  | membership membership =>
      refine .inr ⟨fun _ => rfl, .membership fun id => ?_⟩
      exact (congrArg MemberEvidence.probeTick (state.retainedEvidence_of membership id)).trans
        (apply_ite MemberEvidence.probeTick _ _ _)
  | normal request =>
      cases request with
      | admissionMembership command => exact .inr ⟨fun _ => rfl, .quiet⟩
      | enableConfigIdentityV1 => exact .inr ⟨fun _ => rfl, .quiet⟩
      | vipReleased nodeId vip generation => exact .inr ⟨fun _ => rfl, .quiet⟩
      | enableFailoverSemanticsV2 =>
          refine .inr ⟨fun _ => rfl, ?_⟩
          rw [probeView_activateV2]
          exact .quiet
      | clusterFormed clusterId failoverSemantics configIdentityEnforced =>
          refine .inr ⟨fun _ => rfl, ?_⟩
          simp only [dispatchClusterFormed]
          split
          · cases failoverSemantics with
            | legacy => exact .quiet
            | v2 =>
                rw [probeView_activateV2]
                exact .quiet
          · exact .quiet
      | healthUpdate nodeId healthy =>
          dsimp only
          split
          · exact .inr ⟨fun hOk => (by cases hOk), .quiet⟩
          · exact .inl ⟨rfl, nodeId, rfl, rfl⟩
      | healthProgress progress =>
          simp only [dispatchHealthProgress]
          split
          · exact .inr ⟨fun hOk => (by cases hOk), .quiet⟩
          · cases hHealthy : progress.healthy with
            | none => exact .inr ⟨fun _ => by simp [EntryPayload.reporter, hHealthy], .quiet⟩
            | some healthy =>
                exact .inl ⟨rfl, progress.nodeId, by simp [EntryPayload.reporter, hHealthy], rfl⟩
      | admissionGenesis genesis =>
          refine .inr ⟨fun _ => rfl, ?_⟩
          dsimp only
          rcases dispatchGenesis_cases state genesis with hSame | ⟨hNone, hAdopted⟩ | ⟨-, hAgain⟩
          · rw [hSame]
            exact .quiet
          · have hView : { state.adoptGenesis with
                genesis := some genesis
                clusterEpoch := some genesis.epoch }.probeView =
                  ⟨some genesis, state.probeView.membership, ∅, state.probeView.latestProbeTick⟩ :=
              congrArg (fun view : ProbeView => { view with genesis := some genesis })
                (probeView_activateV2
                  { state with
                    nodeHealth := ∅
                    nodeProbeTicks := ∅
                    nodeRecoveryTick := ∅
                    appliedProgress := ∅ })
            rw [hAdopted, hView]
            exact .adopt genesis hNone
          · rw [hAgain]
            exact .quiet

theorem probeEvent_dispatch (state : KafStorageState) (entry : Entry) :
    ProbeEvent state.probeView (state.dispatch entry).state.probeView := by
  rcases probeView_dispatch state entry with ⟨-, node, -, hPublished⟩ | ⟨-, hSilent⟩
  · rw [hPublished]
    exact .published node
  · exact .silent hSilent

theorem probeEvent_step (state : KafStorageState) (entry : Entry) :
    ProbeEvent state.probeView (state.step entry).probeView := by
  rw [step, applyOne, probeView_finish]
  exact probeEvent_dispatch { state with lastAppliedLog := some entry.logId } entry

/-- An accepted report publishes for its node. -/
theorem probeView_report {state : KafStorageState} {entry : Entry} {node : Nat}
    {progress : HealthProgress} (h : HealthReport state entry node progress) :
    (state.step entry).probeView = state.probeView.publish node := by
  obtain ⟨hPayload, rfl, hSome, hOk⟩ := h
  obtain ⟨healthy, hHealthy⟩ := Option.ne_none_iff_exists'.mp hSome
  have hAccepts := (applyOne_healthProgress hPayload).mp hOk
  have hTaken := accepts_iff.mp hAccepts
  rw [step, applyOne, probeView_finish, dispatch, hPayload]
  simp only [dispatchHealthProgress, hHealthy]
  rw [if_neg hTaken]
  rfl

end KafStorageState

/-- No tick is ahead of the frontier, and the frontier is not ahead of the log; the entry
that set genesis published nothing. -/
structure ProbeView.Within (view : ProbeView) (entries : Nat) : Prop where
  tick : ∀ (node tick : Nat), view.nodeProbeTicks[node]? = some tick → tick ≤ view.latestProbeTick
  frontier : view.latestProbeTick ≤ entries
  genesis : view.genesis ≠ none → view.latestProbeTick < entries

theorem nextProbeTick_le {prev : Option Nat} {latest : Nat} (h : ∀ tick ∈ prev, tick ≤ latest) :
    nextProbeTick prev latest ≤ latest + 1 := by
  unfold nextProbeTick Word64.satAdd
  cases prev with
  | none =>
      simp only [Option.getD_none]
      omega
  | some tick =>
      have hTick := h tick rfl
      simp only [Option.getD_some]
      omega

section Event

variable {view after : ProbeView} {n : Nat}

theorem ProbeView.Within.publish (h : view.Within n) (node : Nat) :
    (view.publish node).Within (n + 1) := by
  have hFrontier := h.frontier
  have hNext : nextProbeTick view.nodeProbeTicks[node]? view.latestProbeTick ≤
      view.latestProbeTick + 1 := nextProbeTick_le (h.tick node)
  refine ⟨fun other tick hTick => ?_, hNext.trans (by omega), fun hGenesis => ?_⟩
  · simp only [ProbeView.publish, ExtTreeMap.getElem?_insert] at hTick ⊢
    split at hTick
    · exact (Option.some.inj hTick).ge
    · exact (h.tick other tick hTick).trans (le_max_right _ _)
  · have hBelow := h.genesis hGenesis
    exact hNext.trans_lt (by omega)

theorem SilentEvent.within (hEvent : SilentEvent view after) (h : view.Within n) :
    after.Within (n + 1) := by
  have hFrontier := h.frontier
  cases hEvent with
  | @membership membership ticks hTicks =>
      refine ⟨fun node tick hTick => ?_, hFrontier.trans (by omega), fun hGenesis => ?_⟩
      · have hKept : ticks[node]? = some tick := hTick
        rw [hTicks] at hKept
        split at hKept
        · cases hKept
        · exact h.tick node tick hKept
      · exact Nat.lt_succ_of_lt (h.genesis hGenesis)
  | adopt genesis hNone =>
      refine ⟨fun node tick hTick => ?_, hFrontier.trans (by omega), fun _ => ?_⟩
      · simp at hTick
      · exact Nat.lt_succ_of_le hFrontier
  | quiet =>
      exact ⟨h.tick, hFrontier.trans (by omega), fun hGenesis => Nat.lt_succ_of_lt (h.genesis hGenesis)⟩

theorem ProbeEvent.within (hEvent : ProbeEvent view after) (h : view.Within n) :
    after.Within (n + 1) := by
  cases hEvent with
  | published node => exact h.publish node
  | silent hSilent => exact hSilent.within h

theorem SilentEvent.genesis_kept (hEvent : SilentEvent view after) (h : view.genesis ≠ none) :
    after.genesis ≠ none := by
  cases hEvent with
  | membership hTicks => exact h
  | adopt genesis hNone => exact absurd hNone h
  | quiet => exact h

theorem ProbeEvent.genesis_kept (hEvent : ProbeEvent view after) (h : view.genesis ≠ none) :
    after.genesis ≠ none := by
  cases hEvent with
  | published node => exact h
  | silent hSilent => exact hSilent.genesis_kept h

end Event

/-- How often a node has published, as far as its tick shows: an absent tick counts
below every other. -/
def tickRank (tick : Option Nat) : Nat := tick.elim 0 (· + 1)

theorem tickRank_publish_lt {view : ProbeView} {n : Nat} (h : view.Within n)
    (hGenesis : view.genesis ≠ none) (hWord : n ≤ Word64.maxWord) (node : Nat) :
    tickRank view.nodeProbeTicks[node]? < tickRank (view.publish node).nodeProbeTicks[node]? := by
  have hBelow := h.genesis hGenesis
  have hNew : (view.publish node).nodeProbeTicks[node]? =
      some (nextProbeTick view.nodeProbeTicks[node]? view.latestProbeTick) :=
    ExtTreeMap.getElem?_insert_self
  rw [hNew]
  cases hTick : view.nodeProbeTicks[node]? with
  | none => exact Nat.succ_pos _
  | some tick =>
      have hLe := h.tick node tick hTick
      have hNext : tick + 1 ≤ nextProbeTick (some tick) view.latestProbeTick := by
        rw [nextProbeTick, Option.getD_some, Word64.satAdd_of_le (by omega)]
        exact le_max_left _ _
      exact Nat.succ_lt_succ hNext

section Rank

variable {view after : ProbeView} {n node : Nat}

/-- While the voting boot of a node stays, its tick is not taken back. -/
theorem SilentEvent.tickRank_le (hEvent : SilentEvent view after) (hGenesis : view.genesis ≠ none)
    (hBoot : (uniqueVoters view.membership)[node]? = (uniqueVoters after.membership)[node]?) :
    tickRank view.nodeProbeTicks[node]? ≤ tickRank after.nodeProbeTicks[node]? := by
  cases hEvent with
  | membership hTicks =>
      rw [hTicks, if_neg fun hChanged => hChanged.2 hBoot]
  | adopt genesis hNone => exact absurd hNone hGenesis
  | quiet => exact le_rfl

theorem ProbeEvent.tickRank_le (hEvent : ProbeEvent view after) (h : view.Within n)
    (hGenesis : view.genesis ≠ none) (hWord : n ≤ Word64.maxWord)
    (hBoot : (uniqueVoters view.membership)[node]? = (uniqueVoters after.membership)[node]?) :
    tickRank view.nodeProbeTicks[node]? ≤ tickRank after.nodeProbeTicks[node]? := by
  cases hEvent with
  | published other =>
      by_cases hOther : other = node
      · subst hOther
        exact (tickRank_publish_lt h hGenesis hWord other).le
      · have hKept : (view.publish other).nodeProbeTicks[node]? = view.nodeProbeTicks[node]? := by
          simp [ProbeView.publish, ExtTreeMap.getElem?_insert, hOther]
        rw [hKept]
  | silent hSilent => exact hSilent.tickRank_le hGenesis hBoot

end Rank

section Run

variable {config : StoreConfig} {entries : List Entry}

theorem probeEvent_succ {i : Nat} (hi : i < entries.length) :
    ProbeEvent (stateAfter config entries i).probeView
      (stateAfter config entries (i + 1)).probeView := by
  rw [stateAfter_succ hi]
  exact KafStorageState.probeEvent_step _ _

theorem probeView_within (i : Nat) (hi : i ≤ entries.length) :
    (stateAfter config entries i).probeView.Within i := by
  induction i with
  | zero =>
      refine ⟨fun node tick hTick => ?_, le_rfl, fun hGenesis => absurd rfl hGenesis⟩
      simp [stateAfter, KafStorageState.probeView, StoreConfig.start, KafStorageState.new] at hTick
  | succ i ih => exact (probeEvent_succ hi).within (ih (by omega))

theorem genesis_mono {i j : Nat} (hij : i ≤ j) (hj : j ≤ entries.length)
    (hGenesis : (stateAfter config entries i).genesis ≠ none) :
    (stateAfter config entries j).genesis ≠ none := by
  induction j, hij using Nat.le_induction with
  | base => exact hGenesis
  | succ j hij ih => exact (probeEvent_succ hj).genesis_kept (ih (by omega))

/-- The node's tick after the first entries, ranked. -/
def tickRankAt (config : StoreConfig) (entries : List Entry) (node i : Nat) : Nat :=
  tickRank (stateAfter config entries i).nodeProbeTicks[node]?

theorem tickRankAt_mono (hLog : CommittedLog entries) {node i j : Nat} (hij : i ≤ j)
    (hj : j ≤ entries.length) (hGenesis : (stateAfter config entries i).genesis ≠ none)
    (hBoot : ∀ m, i ≤ m → m < j →
      votingBoot config entries m node = votingBoot config entries (m + 1) node) :
    tickRankAt config entries node i ≤ tickRankAt config entries node j := by
  have hLength := hLog.length_le
  induction j, hij using Nat.le_induction with
  | base => exact le_rfl
  | succ j hij ih =>
      have hBefore := ih (by omega) fun m hm hmj => hBoot m hm (by omega)
      exact hBefore.trans ((probeEvent_succ hj).tickRank_le (probeView_within j (by omega))
        (genesis_mono hij (by omega) hGenesis) (by omega) (hBoot j hij (by omega)))

theorem tickRankAt_report (hLog : CommittedLog entries) {node q : Nat} {entry : Entry}
    {progress : HealthProgress} (hEntry : entries[q]? = some entry)
    (hGenesis : (stateAfter config entries q).genesis ≠ none)
    (hReport : HealthReport (stateAfter config entries q) entry node progress) :
    tickRankAt config entries node q < tickRankAt config entries node (q + 1) := by
  have hLength := hLog.length_le
  obtain ⟨hq, rfl⟩ := List.getElem?_eq_some_iff.mp hEntry
  have hRank := tickRank_publish_lt (probeView_within q hq.le) hGenesis (by omega) node
  rw [← KafStorageState.probeView_report hReport, ← stateAfter_succ hq] at hRank
  exact hRank

/-- Between two samples that see one tick of a node no report of the node was applied,
unless its voting boot changed. -/
theorem boot_changed_of_report (hLog : CommittedLog entries) {node i j q : Nat} (hiq : i ≤ q)
    (hqj : q < j) (hj : j ≤ entries.length)
    (hGenesis : (stateAfter config entries i).genesis ≠ none)
    (hTick : (stateAfter config entries i).nodeProbeTicks[node]? =
      (stateAfter config entries j).nodeProbeTicks[node]?)
    {entry : Entry} {progress : HealthProgress} (hEntry : entries[q]? = some entry)
    (hReport : HealthReport (stateAfter config entries q) entry node progress) :
    ∃ m, i ≤ m ∧ m < j ∧
      votingBoot config entries m node ≠ votingBoot config entries (m + 1) node := by
  by_contra hNone
  have hBoot : ∀ m, i ≤ m → m < j →
      votingBoot config entries m node = votingBoot config entries (m + 1) node := by
    intro m hm hmj
    by_contra hChanged
    exact hNone ⟨m, hm, hmj, hChanged⟩
  have hBefore := tickRankAt_mono hLog hiq (by omega) hGenesis fun m hm hmq => hBoot m hm (by omega)
  have hReported := tickRankAt_report hLog hEntry (genesis_mono hiq (by omega) hGenesis) hReport
  have hAfter : tickRankAt config entries node (q + 1) ≤ _ :=
    tickRankAt_mono hLog hqj hj (genesis_mono (by omega) (by omega) hGenesis)
      fun m hm hmj => hBoot m (by omega) hmj
  have hSame : tickRankAt config entries node i = tickRankAt config entries node j :=
    congrArg tickRank hTick
  omega

end Run

end KeepAfloat
