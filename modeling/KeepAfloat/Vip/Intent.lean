import KeepAfloat.Store.Continuity
import KeepAfloat.Vip.Takeover
import KeepAfloat.Vip.Witness

/-! What a process may conclude from two samples of its applied state. An effect intent
and a takeover wait are compared with a later sample only; the states in between are
covered by the counters of the state machine. -/

namespace KeepAfloat

/-- The positions between two samples, in either order. -/
def Between (first second k : Nat) : Prop := min first second ≤ k ∧ k ≤ max first second

/-- The VIP is assigned as in `assignment`, up to the release flag. -/
def KafStorageState.StillAssigned (state : KafStorageState) (vip : IpAddr)
    (assignment : VipAssignment) : Prop :=
  ∃ current, state.vipAssignments[vip]? = some current ∧ current.holder = assignment.holder ∧
    current.generation = assignment.generation ∧
    current.previousHolder = assignment.previousHolder ∧
    current.activationTick = assignment.activationTick

/-- No report of the node was applied between two samples, unless its voting boot
changed between them. -/
def SilentBetween (config : StoreConfig) (entries : List Entry) (node first second : Nat) : Prop :=
  (∀ q entry progress, min first second ≤ q → q < max first second → entries[q]? = some entry →
      ¬HealthReport (stateAfter config entries q) entry node progress) ∨
    ∃ m, min first second ≤ m ∧ m < max first second ∧
      votingBoot config entries m node ≠ votingBoot config entries (m + 1) node

section Samples

variable {config : StoreConfig} {entries : List Entry}

theorem stillAssigned_between (hLog : CommittedLog entries) {vip : IpAddr}
    {first second : Nat} (hFirstLe : first ≤ entries.length) (hSecondLe : second ≤ entries.length)
    {assignment other : VipAssignment}
    (hFirst : (stateAfter config entries first).vipAssignments[vip]? = some assignment)
    (hSecond : (stateAfter config entries second).vipAssignments[vip]? = some other)
    (hGeneration : other.generation = assignment.generation) {k : Nat}
    (hk : Between first second k) : (stateAfter config entries k).StillAssigned vip assignment := by
  obtain ⟨between, hBetween, hNumber, hHandoff⟩ : ∃ between,
      (stateAfter config entries k).vipAssignments[vip]? = some between ∧
        between.generation = assignment.generation ∧ between.handoff = assignment.handoff := by
    unfold Between at hk
    rcases le_total first second with hLe | hLe
    · exact assignment_steady hLog (by omega) (by omega) hSecondLe hFirst hSecond hGeneration.symm
    · obtain ⟨between, hBetween, hNumber, hHandoff⟩ := assignment_steady hLog
        (show second ≤ k by omega) (show k ≤ first by omega) hFirstLe hSecond hFirst hGeneration
      obtain ⟨last, hLast, -, hSame⟩ := assignment_steady hLog hLe le_rfl hFirstLe hSecond hFirst
        hGeneration
      obtain rfl := Option.some.inj (hFirst.symm.trans hLast)
      exact ⟨between, hBetween, hNumber.trans hGeneration, hHandoff.trans hSame.symm⟩
  exact ⟨between, hBetween, congrArg Handoff.holder hHandoff, hNumber,
    congrArg Handoff.previousHolder hHandoff, congrArg Handoff.activationTick hHandoff⟩

theorem silentBetween_of_tick (hLog : CommittedLog entries) {node first second : Nat}
    (hFirstLe : first ≤ entries.length) (hSecondLe : second ≤ entries.length)
    (hFirst : (stateAfter config entries first).genesis ≠ none)
    (hSecond : (stateAfter config entries second).genesis ≠ none)
    (hTick : (stateAfter config entries first).nodeProbeTicks[node]? =
      (stateAfter config entries second).nodeProbeTicks[node]?) :
    SilentBetween config entries node first second := by
  rw [SilentBetween, or_iff_not_imp_right]
  intro hSame q entry progress hFrom hTo hEntry hReport
  apply hSame
  rcases le_total first second with hLe | hLe
  · rw [min_eq_left hLe] at hFrom ⊢
    rw [max_eq_right hLe] at hTo ⊢
    exact boot_changed_of_report hLog hFrom hTo hSecondLe hFirst hTick hEntry hReport
  · rw [min_eq_right hLe] at hFrom ⊢
    rw [max_eq_left hLe] at hTo ⊢
    exact boot_changed_of_report hLog hFrom hTo hFirstLe hSecond hTick.symm hEntry hReport

end Samples

/-! ### Intents -/

namespace EffectIntent

/-- An intent as a process holds it: captured from a state, with or without having been
activated since. -/
inductive CapturedFrom (state : KafStorageState) : EffectIntent → Prop where
  | captured (vip : IpAddr) (nodeId : Nat) (gates : BindGates) (activatedGeneration : Option Nat) :
      CapturedFrom state (capture vip nodeId gates state activatedGeneration)
  | activated {intent : EffectIntent} (h : CapturedFrom state intent) :
      CapturedFrom state intent.activated

theorem CapturedFrom.assignment_eq {state : KafStorageState} {intent : EffectIntent}
    (h : intent.CapturedFrom state) : intent.assignment = state.vipAssignments[intent.vip]? := by
  induction h with
  | captured vip nodeId gates activatedGeneration => rfl
  | activated h ih => exact ih

theorem CapturedFrom.previousTick_eq {state : KafStorageState} {intent : EffectIntent}
    (h : intent.CapturedFrom state) :
    intent.previousTick = (intent.assignment.bind VipAssignment.previousHolder).bind
      fun node => state.nodeProbeTicks[node]? := by
  induction h with
  | captured vip nodeId gates activatedGeneration => rfl
  | activated h ih => exact ih

/-- A valid intent that waits for its predecessor still sees that node's tick. -/
theorem previousTick_of_remainsValid {intent : EffectIntent} {state : KafStorageState}
    {gates : BindGates} (h : intent.remainsValid state gates = true)
    (hWaiting : intent.waitingForPredecessor = true) :
    intent.previousTick = (state.vipAssignments[intent.vip]?.bind VipAssignment.previousHolder).bind
      fun node => state.nodeProbeTicks[node]? := by
  simp only [remainsValid] at h
  split at h
  · cases h
  · rw [hWaiting] at h
    exact of_decide_eq_true h

/-- An intent that was captured with an assignment and is valid at a later sample of a
committed log proves that the VIP had one holder, one generation, one previous holder
and one activation tick all the way. -/
theorem remainsValid_assigned {config : StoreConfig} {entries : List Entry}
    (hLog : CommittedLog entries) {i j : Nat} (hij : i ≤ j) (hj : j ≤ entries.length)
    {intent : EffectIntent} (hCaptured : intent.CapturedFrom (stateAfter config entries i))
    {assignment : VipAssignment} (hAssigned : intent.assignment = some assignment)
    {gates : BindGates} (hValid : intent.remainsValid (stateAfter config entries j) gates = true)
    (k : Nat) (hik : i ≤ k) (hkj : k ≤ j) :
    (stateAfter config entries k).StillAssigned intent.vip assignment := by
  obtain ⟨current, hCurrent, hGeneration⟩ := remainsValid_generation hValid hAssigned
  apply stillAssigned_between hLog (hij.trans hj) hj
    (hCaptured.assignment_eq.symm.trans hAssigned) hCurrent hGeneration
  unfold Between
  omega

/-- A valid intent that waits for its predecessor missed no report of it. -/
theorem silentBetween_of_remainsValid {config : StoreConfig} {entries : List Entry}
    (hLog : CommittedLog entries) {i j : Nat} (hij : i ≤ j) (hj : j ≤ entries.length)
    (hGenesis : (stateAfter config entries i).genesis ≠ none) {intent : EffectIntent}
    (hCaptured : intent.CapturedFrom (stateAfter config entries i)) {gates : BindGates}
    (hValid : intent.remainsValid (stateAfter config entries j) gates = true)
    (hWaiting : intent.waitingForPredecessor = true) {assignment : VipAssignment} {previous : Nat}
    (hAssigned : intent.assignment = some assignment)
    (hPrevious : assignment.previousHolder = some previous) :
    SilentBetween config entries previous i j := by
  obtain ⟨current, hCurrent, hGeneration⟩ := remainsValid_generation hValid hAssigned
  obtain ⟨same, hSame, -, -, hNode, -⟩ := stillAssigned_between hLog (hij.trans hj) hj
    (hCaptured.assignment_eq.symm.trans hAssigned) hCurrent hGeneration
    (show Between i j j by unfold Between; omega)
  obtain rfl := Option.some.inj (hCurrent.symm.trans hSame)
  have hTick := hCaptured.previousTick_eq.symm.trans (previousTick_of_remainsValid hValid hWaiting)
  simp only [hAssigned, hCurrent, Option.bind_some, hNode, hPrevious] at hTick
  exact silentBetween_of_tick hLog (hij.trans hj) hj hGenesis (genesis_mono hij hj hGenesis) hTick

theorem handoffLog_committed : CommittedLog handoffLog := ⟨by decide⟩

/-- An intent of node 3 for its own generation outlives the acknowledgement of node 2. -/
theorem remainsValid_assigned_handoff :
    ((capture handoffVip 3 .opened (stateAfter handoffConfig handoffLog 6) (some 3)).remainsValid
        (stateAfter handoffConfig handoffLog 8) .opened = true) ∧
      ∀ k, 6 ≤ k → k ≤ 8 →
        (stateAfter handoffConfig handoffLog k).StillAssigned handoffVip ⟨3, 3, some 2, false, 3⟩ := by
  have hValid : (capture handoffVip 3 .opened (stateAfter handoffConfig handoffLog 6)
      (some 3)).remainsValid (stateAfter handoffConfig handoffLog 8) .opened = true := by
    decide +kernel
  exact ⟨hValid, remainsValid_assigned handoffLog_committed (by decide) (by decide)
    (.captured handoffVip 3 .opened (some 3)) (by decide +kernel) hValid⟩

end EffectIntent

/-! ### Takeover waits -/

/-- The questions that one process asks its takeover delay, each about a state that it
had applied with genesis set. -/
structure TakeoverSamples (Instant : Type) where
  config : StoreConfig
  entries : List Entry
  nodeId : Nat
  lifetime : Nat
  calls : List (ReadyCall Instant)
  applied_le : ∀ call ∈ calls, call.applied ≤ entries.length
  genesis : ∀ call ∈ calls, (stateAfter config entries call.applied).genesis ≠ none

namespace TakeoverSamples

variable {Instant : Type} (samples : TakeoverSamples Instant)

def view (applied : Nat) : KafStorageState := stateAfter samples.config samples.entries applied

/-- Two questions that see one generation and one tick of its previous holder. -/
theorem unbroken (hLog : CommittedLog samples.entries) {start call : ReadyCall Instant}
    (hStart : start ∈ samples.calls) (hCall : call ∈ samples.calls) {vip : IpAddr}
    {first assignment : VipAssignment}
    (hFirst : (samples.view start.applied).vipAssignments[vip]? = some first)
    (hAssigned : (samples.view call.applied).vipAssignments[vip]? = some assignment)
    (hGeneration : assignment.generation = first.generation)
    (hTick : TakeoverDelay.watchedTick (samples.view call.applied) assignment =
      TakeoverDelay.watchedTick (samples.view start.applied) first) :
    (∀ k, Between start.applied call.applied k →
        (stateAfter samples.config samples.entries k).StillAssigned vip assignment) ∧
      ∀ previous, assignment.previousHolder = some previous →
        SilentBetween samples.config samples.entries previous start.applied call.applied := by
  have hStartLe := samples.applied_le start hStart
  have hCallLe := samples.applied_le call hCall
  have hAll : ∀ k, Between call.applied start.applied k →
      (stateAfter samples.config samples.entries k).StillAssigned vip assignment :=
    fun k hk => stillAssigned_between hLog hCallLe hStartLe hAssigned hFirst hGeneration.symm hk
  refine ⟨fun k hk => hAll k ?_, fun previous hPrevious => ?_⟩
  · unfold Between at hk ⊢
    omega
  · obtain ⟨same, hSame, -, -, hNode, -⟩ := hAll start.applied (by unfold Between; omega)
    obtain rfl := Option.some.inj (hFirst.symm.trans hSame)
    simp only [TakeoverDelay.watchedTick, hNode, hPrevious, Option.bind_some] at hTick
    exact silentBetween_of_tick hLog hStartLe hCallLe (samples.genesis start hStart)
      (samples.genesis call hCall) hTick.symm

variable [CommRing Instant] [LinearOrder Instant]

def delayAt (i : Nat) : TakeoverDelay Instant :=
  .after samples.view samples.nodeId samples.lifetime samples.calls i

/-- Question `i` is answered with yes, and not for one of the immediate reasons. -/
structure WaitedOut (i : Nat) (call : ReadyCall Instant) (assignment : VipAssignment) : Prop where
  asked : samples.calls[i]? = some call
  assigned : (samples.view call.applied).vipAssignments[call.vip]? = some assignment
  waits : TakeoverDelay.immediate assignment call.activatedGeneration = false
  answer : (TakeoverDelay.ask samples.view samples.nodeId (samples.delayAt i) call).1 = true

/-- The question at which the wait on record after question `i` began. -/
structure Began (i : Nat) (call : ReadyCall Instant) (assignment : VipAssignment)
    (start : ReadyCall Instant) : Prop where
  asked : ∃ m ≤ i, samples.calls[m]? = some start
  vip : start.vip = call.vip
  recorded : ∃ tick, (samples.delayAt (i + 1)).waiting[call.vip]? =
    some (assignment.generation, tick, start.now)

/-- Along a committed log with genesis set no renewal of the previous holder is missed:
neither by a takeover that has waited, nor by an intent that still waits. -/
theorem no_missed_renewal (hLog : CommittedLog samples.entries) :
    (∀ i call assignment, samples.WaitedOut i call assignment →
      ∃ start, samples.Began i call assignment start ∧
        (samples.lifetime : Instant) ≤ call.checked - start.now ∧
        (∀ k, Between start.applied call.applied k →
          (stateAfter samples.config samples.entries k).StillAssigned call.vip assignment) ∧
        ∀ previous, assignment.previousHolder = some previous →
          SilentBetween samples.config samples.entries previous start.applied call.applied) ∧
    ∀ i j (intent : EffectIntent) gates (assignment : VipAssignment) previous, i ≤ j →
      j ≤ samples.entries.length →
      (stateAfter samples.config samples.entries i).genesis ≠ none →
      intent.CapturedFrom (stateAfter samples.config samples.entries i) →
      intent.waitingForPredecessor = true →
      intent.remainsValid (stateAfter samples.config samples.entries j) gates = true →
      intent.assignment = some assignment → assignment.previousHolder = some previous →
        SilentBetween samples.config samples.entries previous i j := by
  constructor
  · intro i call assignment hWaited
    obtain ⟨since, hRecorded, hBegun, hElapsed⟩ := TakeoverDelay.begunBy_of_ready hWaited.asked
      hWaited.assigned hWaited.waits hWaited.answer
    obtain ⟨m, start, first, hm, hStart, hVip, hFirst, hWait⟩ := hBegun
    simp only [Prod.mk.injEq] at hWait
    obtain ⟨hGeneration, hTick, rfl⟩ := hWait
    refine ⟨start, ⟨⟨m, by omega, hStart⟩, hVip, _, hRecorded⟩, hElapsed, ?_⟩
    exact samples.unbroken hLog (List.mem_of_getElem? hStart) (List.mem_of_getElem? hWaited.asked)
      hFirst hWaited.assigned hGeneration hTick
  · intro i j intent gates assignment previous hij hj hGenesis hCaptured hWaiting hValid hAssigned
      hPrevious
    exact EffectIntent.silentBetween_of_remainsValid hLog hij hj hGenesis hCaptured hValid hWaiting
      hAssigned hPrevious

/-! Node 1 reports once and falls silent; node 2 goes on and waits. -/

def healthyReport (node : Nat) : EntryPayload :=
  .normal (.healthProgress ⟨node, some true, handoffReplica node, 7, 5, bootGenesis⟩)

def silentReports : List Entry :=
  [EntryPayload.membership handoffMembership, .normal (.admissionGenesis bootGenesis),
    healthyReport 1, healthyReport 2, healthyReport 2, healthyReport 2, healthyReport 2,
    healthyReport 2].zipIdx.map
    fun (payload, index) => ⟨⟨⟨1, handoffReplica 1⟩, index⟩, payload⟩

def silentSamples : TakeoverSamples ℤ where
  config := handoffConfig
  entries := silentReports
  nodeId := 2
  lifetime := 10
  calls := [⟨handoffVip, 7, none, 100, 100⟩, ⟨handoffVip, 8, none, 110, 110⟩]
  applied_le := by decide
  genesis := by decide +kernel

theorem no_missed_renewal_silent :
    silentSamples.WaitedOut 1 ⟨handoffVip, 8, none, 110, 110⟩ ⟨2, 2, some 1, false, 5⟩ ∧
      ∃ start, silentSamples.Began 1 ⟨handoffVip, 8, none, 110, 110⟩ ⟨2, 2, some 1, false, 5⟩ start ∧
        SilentBetween handoffConfig silentReports 1 start.applied 8 := by
  have hWaited : silentSamples.WaitedOut 1 ⟨handoffVip, 8, none, 110, 110⟩
      ⟨2, 2, some 1, false, 5⟩ :=
    ⟨rfl, by decide +kernel, by decide, by decide +kernel⟩
  obtain ⟨start, hBegan, -, -, hSilent⟩ :=
    (silentSamples.no_missed_renewal ⟨by decide⟩).1 1 _ _ hWaited
  exact ⟨hWaited, start, hBegan, hSilent 1 rfl⟩

end TakeoverSamples

end KeepAfloat
