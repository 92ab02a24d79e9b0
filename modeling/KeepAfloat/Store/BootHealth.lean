import KeepAfloat.Store.Generation
import KeepAfloat.Store.Placement
import KeepAfloat.Store.StateMachine

/-! Health belongs to the voting boot. Once genesis is set, the health of a physical node
is written by accepted reports only, counts only for the boot that votes, and is dropped
when that boot changes. -/

namespace KeepAfloat

open Std (ExtTreeMap)

/-- What the evidence about boots is judged by. -/
structure BootView where
  genesis : Option Genesis
  membership : Membership
  nodeHealth : ExtTreeMap Nat Bool
  appliedProgress : ExtTreeMap Nat AppliedHealthProgress

/-- The conditions under which a progress entry is taken. -/
def BootView.Accepts (view : BootView) (progress : HealthProgress) : Prop :=
  progress.validate = .ok () ∧ view.genesis = some progress.genesis ∧
    progress.replica ∈ view.membership.nodes

/-- What one entry does to a view. -/
inductive BootEvent (entry : Entry) (view : BootView) : BootView → Prop where
  | report {progress : HealthProgress} {healthy : Bool}
      (hPayload : entry.payload = .normal (.healthProgress progress))
      (hAccepts : view.Accepts progress) (hHealthy : progress.healthy = some healthy) :
      BootEvent entry view
        { view with
          nodeHealth := view.nodeHealth.insert progress.nodeId
            (healthy && (uniqueVoters view.membership)[progress.nodeId]? = some progress.replica)
          appliedProgress := view.appliedProgress.insert progress.nodeId ⟨progress, entry.logId⟩ }
  | renewal {progress : HealthProgress}
      (hPayload : entry.payload = .normal (.healthProgress progress))
      (hAccepts : view.Accepts progress) (hNone : progress.healthy = none) :
      BootEvent entry view
        { view with
          appliedProgress := view.appliedProgress.insert progress.nodeId ⟨progress, entry.logId⟩ }
  | membership {membership : Membership} {nodeHealth : ExtTreeMap Nat Bool}
      {appliedProgress : ExtTreeMap Nat AppliedHealthProgress}
      (hPayload : entry.payload = .membership membership)
      (hHealth : ∀ id : Nat, nodeHealth[id]? =
        if view.genesis.isSome ∧
            (uniqueVoters view.membership)[id]? ≠ (uniqueVoters membership)[id]? then none
        else view.nodeHealth[id]?)
      (hProgress : ∀ (id : Nat) applied, appliedProgress[id]? = some applied →
        view.appliedProgress[id]? = some applied ∧ applied.request.replica ∈ membership.nodes) :
      BootEvent entry view ⟨view.genesis, membership, nodeHealth, appliedProgress⟩
  | adopt {genesis : Genesis} (hPayload : entry.payload = .normal (.admissionGenesis genesis))
      (hNone : view.genesis = none) :
      BootEvent entry view ⟨some genesis, view.membership, ∅, ∅⟩
  | physical {nodeHealth : ExtTreeMap Nat Bool} (hNone : view.genesis = none) :
      BootEvent entry view { view with nodeHealth := nodeHealth }
  | quiet (hRefused : ∀ progress, entry.payload = .normal (.healthProgress progress) →
      ¬view.Accepts progress) :
      BootEvent entry view view

namespace KafStorageState

def bootView (state : KafStorageState) : BootView where
  genesis := state.genesis
  membership := state.lastMembership.membership
  nodeHealth := state.nodeHealth
  appliedProgress := state.appliedProgress

theorem bootView_recompute (state : KafStorageState) : state.recompute.bootView = state.bootView := by
  obtain ⟨_, _, _, hTracked⟩ := trackFailback_frame state
  rw [recompute, hTracked]
  rfl

theorem bootView_activateV2 (state : KafStorageState) :
    state.activateV2.bootView = state.bootView := by
  obtain ⟨_, _, _, _, _, hActivated⟩ := activateV2_frame state
  rw [hActivated]
  rfl

theorem accepts_iff {state : KafStorageState} {progress : HealthProgress} :
    state.bootView.Accepts progress ↔
      ¬(progress.validate ≠ .ok () ∨ state.genesis ≠ some progress.genesis ∨
        progress.replica ∉ state.lastMembership.membership.nodes) := by
  push Not
  rfl

/-- A progress entry is answered with success exactly when it is taken. -/
theorem dispatchHealthProgress_ok {state : KafStorageState} {progress : HealthProgress}
    {logId : LogId} :
    (state.dispatchHealthProgress progress logId).response = .ok ↔
      state.bootView.Accepts progress := by
  rw [accepts_iff, dispatchHealthProgress]
  split
  · next hRefused => simp [hRefused]
  · next hTaken =>
      cases progress.healthy with
      | none => simp [hTaken]
      | some healthy => simp [hTaken]

theorem bootView_adoptGenesis (state : KafStorageState) :
    state.adoptGenesis.bootView = ⟨state.genesis, state.lastMembership.membership, ∅, ∅⟩ :=
  bootView_activateV2
    { state with nodeHealth := ∅, nodeProbeTicks := ∅, nodeRecoveryTick := ∅, appliedProgress := ∅ }

theorem bootEvent_dispatch (state : KafStorageState) (entry : Entry) :
    BootEvent entry state.bootView (state.dispatch entry).state.bootView := by
  have hQuiet : ∀ {payload : EntryPayload}, entry.payload = payload →
      (∀ progress, payload ≠ .normal (.healthProgress progress)) →
      BootEvent entry state.bootView state.bootView := by
    intro payload hPayload hOther
    exact .quiet fun progress hProgress => absurd (hPayload.symm.trans hProgress) (hOther progress)
  rw [dispatch]
  cases hPayload : entry.payload with
  | blank => exact hQuiet hPayload (by simp)
  | membership membership =>
      refine .membership hPayload (fun id => ?_) fun id applied hApplied => ?_
      · exact (congrArg MemberEvidence.health (state.retainedEvidence_of membership id)).trans
          (apply_ite MemberEvidence.health _ _ _)
      · have hApplied : ((state.retainedEvidence membership).appliedProgress.filter fun _ progress =>
            progress.request.replica ∈ membership.nodes)[id]? = some applied := hApplied
        rw [ExtTreeMap.getElem?_filter', Option.filter_eq_some_iff] at hApplied
        have hKept := congrArg MemberEvidence.progress (state.retainedEvidence_of membership id)
        have hOld : ((state.retainedEvidence membership).of id).progress = some applied := hApplied.1
        rw [hKept] at hOld
        refine ⟨?_, of_decide_eq_true hApplied.2⟩
        split at hOld
        · cases hOld
        · exact hOld
  | normal request =>
      cases request with
      | healthProgress progress =>
          dsimp only
          rw [dispatchHealthProgress]
          by_cases hAccepts : state.bootView.Accepts progress
          · rw [if_neg (accepts_iff.mp hAccepts)]
            cases hHealthy : progress.healthy with
            | none => exact .renewal hPayload hAccepts hHealthy
            | some healthy => exact .report hPayload hAccepts hHealthy
          · rw [if_pos (not_not.mp fun hNot => hAccepts (accepts_iff.mpr hNot))]
            refine .quiet fun other hOther => ?_
            cases hPayload.symm.trans hOther
            exact hAccepts
      | admissionGenesis genesis =>
          dsimp only
          rcases dispatchGenesis_cases state genesis with hSame | ⟨hNone, hAdopted⟩ | ⟨-, hAgain⟩
          · rw [hSame]
            exact hQuiet hPayload (by simp)
          · have hView : { state.adoptGenesis with
                genesis := some genesis
                clusterEpoch := some genesis.epoch }.bootView =
                  ⟨some genesis, state.bootView.membership, ∅, ∅⟩ :=
              congrArg (fun view : BootView => { view with genesis := some genesis })
                (bootView_adoptGenesis state)
            rw [hAdopted, hView]
            exact .adopt hPayload hNone
          · rw [hAgain]
            exact hQuiet hPayload (by simp)
      | admissionMembership command => exact hQuiet hPayload (by simp)
      | healthUpdate nodeId healthy =>
          dsimp only
          split
          · exact hQuiet hPayload (by simp)
          · next hNone => exact .physical (Option.not_isSome_iff_eq_none.mp hNone)
      | vipReleased nodeId vip generation => exact hQuiet hPayload (by simp)
      | clusterFormed clusterId failoverSemantics configIdentityEnforced =>
          simp only [dispatchClusterFormed]
          split
          · cases failoverSemantics with
            | legacy => exact hQuiet hPayload (by simp)
            | v2 =>
                rw [bootView_activateV2]
                exact hQuiet hPayload (by simp)
          · exact hQuiet hPayload (by simp)
      | enableFailoverSemanticsV2 =>
          rw [bootView_activateV2]
          exact hQuiet hPayload (by simp)
      | enableConfigIdentityV1 => exact hQuiet hPayload (by simp)

theorem bootEvent_step (state : KafStorageState) (entry : Entry) :
    BootEvent entry state.bootView (state.step entry).bootView := by
  have hDispatch := bootEvent_dispatch { state with lastAppliedLog := some entry.logId } entry
  rw [step, applyOne, Dispatched.finish]
  dsimp only
  split
  · rw [bootView_recompute]
    exact hDispatch
  · exact hDispatch

theorem applyOne_healthProgress {state : KafStorageState} {entry : Entry} {progress : HealthProgress}
    (hPayload : entry.payload = .normal (.healthProgress progress)) :
    (state.applyOne entry).2 = .ok ↔ state.bootView.Accepts progress := by
  rw [applyOne, Dispatched.finish, dispatch, hPayload]
  exact dispatchHealthProgress_ok

/-- A progress entry without a health value writes the progress table alone. -/
theorem step_renewal (state : KafStorageState) {entry : Entry} {progress : HealthProgress}
    (hPayload : entry.payload = .normal (.healthProgress progress)) (hNone : progress.healthy = none) :
    ∃ appliedProgress, state.step entry =
      { state with
        lastAppliedLog := some entry.logId
        appliedProgress := appliedProgress } := by
  rw [step, applyOne, Dispatched.finish, dispatch, hPayload]
  simp only [dispatchHealthProgress, hNone]
  split
  · exact ⟨state.appliedProgress, rfl⟩
  · exact ⟨_, rfl⟩

end KafStorageState

/-! ### The progress table -/

/-- Every entry of the progress table is kept under its own physical id and names a
member. -/
def BootView.ProgressOfMembers (view : BootView) : Prop :=
  ∀ (key : Nat) applied, view.appliedProgress[key]? = some applied →
    applied.request.nodeId = key ∧ applied.request.replica.physicalId = key ∧
      applied.request.replica ∈ view.membership.nodes

namespace BootEvent

variable {entry : Entry} {view after : BootView}

theorem progress_insert (h : view.ProgressOfMembers) {progress : HealthProgress}
    (hAccepts : view.Accepts progress) {logId : LogId} {key : Nat} {applied : AppliedHealthProgress}
    (hApplied : (view.appliedProgress.insert progress.nodeId ⟨progress, logId⟩)[key]? = some applied) :
    applied.request.nodeId = key ∧ applied.request.replica.physicalId = key ∧
      applied.request.replica ∈ view.membership.nodes := by
  rw [ExtTreeMap.getElem?_insert] at hApplied
  split at hApplied
  · next hKey =>
      obtain rfl := Option.some.inj hApplied
      obtain ⟨hIdentity, -⟩ := of_decide_eq_true (ensure_eq_ok.mp hAccepts.1)
      have hKey := compare_eq_iff_eq.mp hKey
      exact ⟨hKey, hIdentity.symm.trans hKey, hAccepts.2.2⟩
  · exact h key applied hApplied

theorem progressOfMembers (hEvent : BootEvent entry view after) (h : view.ProgressOfMembers) :
    after.ProgressOfMembers := by
  intro key applied hApplied
  cases hEvent with
  | report hPayload hAccepts hHealthy => exact progress_insert h hAccepts hApplied
  | renewal hPayload hAccepts hNone => exact progress_insert h hAccepts hApplied
  | membership hPayload hHealth hProgress =>
      obtain ⟨hOld, hMember⟩ := hProgress key applied hApplied
      obtain ⟨hNode, hPhysical, -⟩ := h key applied hOld
      exact ⟨hNode, hPhysical, hMember⟩
  | adopt hPayload hNone => simp at hApplied
  | physical hNone => exact h key applied hApplied
  | quiet hRefused => exact h key applied hApplied

/-! ### Where health comes from -/

/-- An entry after which a node is healthy, with genesis set, either reports that for the
boot that votes, or leaves the node's health and its voting boot as they were. -/
theorem healthy_cases (hEvent : BootEvent entry view after) (hGenesis : after.genesis ≠ none)
    {node : Nat} (hHealthy : after.nodeHealth[node]? = some true) :
    (∃ progress, entry.payload = .normal (.healthProgress progress) ∧ view.Accepts progress ∧
        progress.nodeId = node ∧ progress.healthy = some true ∧
        (uniqueVoters view.membership)[node]? = some progress.replica ∧
        after.membership = view.membership) ∨
      (view.genesis ≠ none ∧ view.nodeHealth[node]? = some true ∧
        (uniqueVoters after.membership)[node]? = (uniqueVoters view.membership)[node]? ∧
        ∀ progress, entry.payload = .normal (.healthProgress progress) → view.Accepts progress →
          progress.nodeId = node → progress.healthy = none) := by
  cases hEvent with
  | @report progress healthy hPayload hAccepts hReported =>
      rw [ExtTreeMap.getElem?_insert] at hHealthy
      split at hHealthy
      · next hNode =>
          obtain rfl := compare_eq_iff_eq.mp hNode
          have hBoth := Option.some.inj hHealthy
          rw [Bool.and_eq_true, decide_eq_true_iff] at hBoth
          exact Or.inl ⟨progress, hPayload, hAccepts, rfl, by rw [hReported, hBoth.1], hBoth.2, rfl⟩
      · next hNode =>
          refine Or.inr ⟨hGenesis, hHealthy, rfl, fun other hOther _ hSame => ?_⟩
          cases hPayload.symm.trans hOther
          exact absurd (compare_eq_iff_eq.mpr hSame) hNode
  | @renewal progress hPayload hAccepts hNone =>
      refine Or.inr ⟨hGenesis, hHealthy, rfl, fun other hOther _ _ => ?_⟩
      cases hPayload.symm.trans hOther
      exact hNone
  | membership hPayload hHealth hProgress =>
      rw [hHealth] at hHealthy
      split at hHealthy
      · cases hHealthy
      · next hSame =>
          have hVoter := not_not.mp fun hNe => hSame ⟨Option.isSome_iff_ne_none.mpr hGenesis, hNe⟩
          refine Or.inr ⟨hGenesis, hHealthy, hVoter.symm, fun other hOther => ?_⟩
          cases hPayload.symm.trans hOther
  | adopt hPayload hNone => simp at hHealthy
  | physical hNone => exact absurd hNone hGenesis
  | quiet hRefused =>
      exact Or.inr ⟨hGenesis, hHealthy, rfl, fun progress hPayload hAccepts =>
        absurd hAccepts (hRefused progress hPayload)⟩

end BootEvent

/-- An accepted progress entry of a physical node that carries a health value. -/
def HealthReport (state : KafStorageState) (entry : Entry) (node : Nat) (progress : HealthProgress) :
    Prop :=
  entry.payload = .normal (.healthProgress progress) ∧ progress.nodeId = node ∧
    progress.healthy ≠ none ∧ (state.applyOne entry).2 = .ok

/-- The boot that votes for a physical node after the first entries of a log. -/
def votingBoot (config : StoreConfig) (entries : List Entry) (i node : Nat) : Option ReplicaId :=
  (uniqueVoters (stateAfter config entries i).lastMembership.membership)[node]?

/-- The latest accepted report of the node came from this boot and said healthy, and the
boot has been the node's unique voter ever since. -/
def ReportedBy (config : StoreConfig) (entries : List Entry) (i node : Nat) (boot : ReplicaId) :
    Prop :=
  ∃ q entry progress, q < i ∧ entries[q]? = some entry ∧
    HealthReport (stateAfter config entries q) entry node progress ∧ progress.replica = boot ∧
    progress.healthy = some true ∧
    (∀ m, q ≤ m → m ≤ i → votingBoot config entries m node = some boot) ∧
    ∀ r other later, q < r → r < i → entries[r]? = some other →
      ¬HealthReport (stateAfter config entries r) other node later

theorem reportedBy_of_healthy (config : StoreConfig) (entries : List Entry) (node : Nat) (i : Nat)
    (hi : i ≤ entries.length) (hGenesis : (stateAfter config entries i).genesis ≠ none)
    (hHealthy : (stateAfter config entries i).nodeHealth[node]? = some true) :
    ∃ boot, ReportedBy config entries i node boot := by
  induction i with
  | zero =>
      rw [stateAfter, Runs.stateAt_zero] at hGenesis
      exact absurd rfl hGenesis
  | succ i ih =>
      have hLt : i < entries.length := hi
      have hEntry := List.getElem?_eq_getElem hLt
      have hEvent := KafStorageState.bootEvent_step (stateAfter config entries i) entries[i]
      rw [← stateAfter_succ hLt] at hEvent
      rcases hEvent.healthy_cases hGenesis hHealthy with
        ⟨progress, hPayload, hAccepts, hNode, hTrue, hVoter, hMembership⟩ |
        ⟨hOldGenesis, hOldHealthy, hVoter, hSilent⟩
      · have hBefore : votingBoot config entries i node = some progress.replica := hVoter
        have hAfter : votingBoot config entries (i + 1) node = some progress.replica :=
          (congrArg (fun membership => (uniqueVoters membership)[node]?) hMembership).trans hVoter
        refine ⟨progress.replica, i, entries[i], progress, Nat.lt_succ_self i, hEntry,
          ⟨hPayload, hNode, by simp [hTrue], (KafStorageState.applyOne_healthProgress hPayload).mpr hAccepts⟩,
          rfl, hTrue, fun m hm hmi => ?_, fun r other later hr hri => by omega⟩
        rcases Nat.lt_or_eq_of_le hmi with hLe | rfl
        · obtain rfl : m = i := by omega
          exact hBefore
        · exact hAfter
      · obtain ⟨boot, q, entry, progress, hq, hAt, hReport, hBoot, hTrue, hVoting, hLatest⟩ :=
          ih (by omega) hOldGenesis hOldHealthy
        refine ⟨boot, q, entry, progress, by omega, hAt, hReport, hBoot, hTrue, fun m hm hmi => ?_,
          fun r other later hr hri hOther hLater => ?_⟩
        · rcases Nat.lt_or_eq_of_le hmi with hLe | rfl
          · exact hVoting m hm (by omega)
          · exact hVoter.trans (hVoting i (by omega) le_rfl)
        · rcases Nat.lt_or_eq_of_le (Nat.lt_succ_iff.mp hri) with hLt' | rfl
          · exact hLatest r other later hr hLt' hOther hLater
          · obtain ⟨hPayload, hSame, hSome, hOk⟩ := hLater
            rw [hEntry] at hOther
            obtain rfl := Option.some.inj hOther
            exact hSome (hSilent later hPayload
              ((KafStorageState.applyOne_healthProgress hPayload).mp hOk) hSame)

/-- Health belongs to the current boot, in every state that a log reaches with genesis
set. -/
theorem health_of_current_boot (config : StoreConfig) (entries : List Entry) (i : Nat)
    (hi : i ≤ entries.length) (hGenesis : (stateAfter config entries i).genesis ≠ none) :
    (∀ node : Nat, (stateAfter config entries i).nodeHealth[node]? = some true →
      ∃ boot, votingBoot config entries i node = some boot ∧ ReportedBy config entries i node boot) ∧
    (∀ (key : Nat) applied, (stateAfter config entries i).appliedProgress[key]? = some applied →
      applied.request.nodeId = key ∧ applied.request.replica.physicalId = key ∧
        applied.request.replica ∈ (stateAfter config entries i).lastMembership.membership.nodes) ∧
    ∀ entry progress, entry.payload = .normal (.healthProgress progress) →
      progress.healthy = none →
      ∃ appliedProgress, (stateAfter config entries i).step entry =
        { stateAfter config entries i with
          lastAppliedLog := some entry.logId
          appliedProgress := appliedProgress } := by
  refine ⟨fun node hHealthy => ?_, ?_, fun entry progress hPayload hNone =>
    KafStorageState.step_renewal _ hPayload hNone⟩
  · obtain ⟨boot, hReported⟩ := reportedBy_of_healthy config entries node i hi hGenesis hHealthy
    obtain ⟨q, entry, progress, hq, hAt, hReport, hBoot, hTrue, hVoting, hLatest⟩ := hReported
    exact ⟨boot, hVoting i hq.le le_rfl,
      q, entry, progress, hq, hAt, hReport, hBoot, hTrue, hVoting, hLatest⟩
  · have hProgress := Runs.stateAt_invariant KafStorageState.step config.start
      (fun state => state.bootView.ProgressOfMembers) (fun key applied hNone => by
        simp [KafStorageState.bootView, StoreConfig.start, KafStorageState.new] at hNone)
      (fun state entry hState => (KafStorageState.bootEvent_step state entry).progressOfMembers hState)
      entries i
    exact hProgress

/-! ### A sample: a report of the voting boot, and a renewal without a health value -/

def bootGenesis : Genesis := ⟨⟨1, 0⟩, 7, {handoffReplica 1, handoffReplica 2, handoffReplica 3}⟩

def bootProgress (healthy : Option Bool) : HealthProgress :=
  ⟨1, healthy, handoffReplica 1, 7, 5, bootGenesis⟩

def bootPayloads : List EntryPayload :=
  [.membership handoffMembership, .normal (.admissionGenesis bootGenesis),
    .normal (.healthProgress (bootProgress (some true))), .normal (.healthProgress (bootProgress none))]

def bootLog : List Entry :=
  bootPayloads.zipIdx.map fun (payload, index) => ⟨⟨⟨1, handoffReplica 1⟩, index⟩, payload⟩

theorem health_of_current_boot_reported :
    (stateAfter handoffConfig bootLog 4).nodeHealth[1]? = some true ∧
      ∃ boot, votingBoot handoffConfig bootLog 4 1 = some boot ∧
        ReportedBy handoffConfig bootLog 4 1 boot := by
  have hHealthy : (stateAfter handoffConfig bootLog 4).nodeHealth[1]? = some true := by
    decide +kernel
  exact ⟨hHealthy, (health_of_current_boot handoffConfig bootLog 4 (by decide) (by decide +kernel)).1 1
    hHealthy⟩

/-- A node holds a VIP through the one boot that votes for it. While a joint configuration
has two boots of a node, it holds none. -/
theorem holder_votes_once (config : StoreConfig) (entries : List Entry) (i : Nat) (vip : IpAddr)
    (node : Nat) (hHolder : (stateAfter config entries i).holderOf vip = some node) :
    ∃! replica, replica ∈ (stateAfter config entries i).lastMembership.membership.voterIds ∧
      replica.physicalId = node := by
  have hPlacement := stateAfter_placement config entries i
  obtain ⟨replica, hVoter⟩ := Option.isSome_iff_exists.mp
    (ExtTreeMap.mem_iff_isSome_getElem?.mp (hPlacement.holder_voter vip node hHolder))
  obtain ⟨hMem, hId, hOnly⟩ := getElem?_uniqueVoters.mp hVoter
  exact ⟨replica, ⟨hMem, hId⟩, fun other hOther => hOnly other hOther.1 hOther.2⟩

theorem holder_votes_once_reported : ∃ vip,
    (stateAfter handoffConfig bootLog 4).holderOf vip = some 1 ∧
      ∃! replica, replica ∈
        (stateAfter handoffConfig bootLog 4).lastMembership.membership.voterIds ∧
          replica.physicalId = 1 := by
  have hHolder : (stateAfter handoffConfig bootLog 4).holderOf handoffVip = some 1 := by
    decide +kernel
  exact ⟨handoffVip, hHolder, holder_votes_once handoffConfig bootLog 4 handoffVip 1 hHolder⟩

end KeepAfloat
