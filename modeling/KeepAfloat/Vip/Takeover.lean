import KeepAfloat.Policy.Bind
import KeepAfloat.Runtime.Timing

/-! Process-local delay for a takeover without the previous holder's explicit release.
A node that is assigned a VIP whose previous holder fell silent waits, on its own
clock, for longer than any proof of that holder can last. -/

namespace KeepAfloat

open Std (ExtTreeMap)

/-- Durations stop at the longest one. -/
def saturatingDuration (nanoseconds : Nat) : Nat := min nanoseconds maxDuration

/-- Reconciliation tick period. -/
def reconcileTick : Nat := 250000000

def ipCommandTimeout : Nat := 250000000

def processReapTimeout : Nat := 500000000

def outputDrainTimeout : Nat := 500000000

def ipOutputBudget : Nat := ipCommandTimeout + processReapTimeout + outputDrainTimeout

/-- A delete followed by a failed-delete presence query, including child cleanup. -/
def deleteBudget : Nat := ipCommandTimeout + processReapTimeout + ipOutputBudget

def shutdownUnbindAttempts : Nat := 3

/-- Address and marker deletion, each with verification, for every permitted attempt. -/
def shutdownVipBudget : Nat := deleteBudget * (2 * shutdownUnbindAttempts)

example : shutdownVipBudget = 12000000000 := rfl

/-- Bounded address and marker deletion for every VIP. -/
def cleanupWork (vipCount : Nat) : Nat :=
  if vipCount < 2 ^ 32 then saturatingDuration (shutdownVipBudget * vipCount) else maxDuration

def takeoverLifetime (proofLifetime vipCount : Nat) : Nat :=
  saturatingDuration (proofLifetime + saturatingDuration (reconcileTick + cleanupWork vipCount))

/-- Below the longest duration nothing saturates. -/
theorem takeoverLifetime_eq {proofLifetime vipCount : Nat}
    (h : takeoverLifetime proofLifetime vipCount < maxDuration) :
    takeoverLifetime proofLifetime vipCount =
      proofLifetime + (reconcileTick + cleanupWork vipCount) := by
  unfold takeoverLifetime saturatingDuration at h ⊢
  omega

/-- One question to the takeover delay, asked under a read lock of the applied state. -/
structure ReadyCall (Instant : Type) where
  vip : IpAddr
  applied : Nat
  activatedGeneration : Option Nat
  now : Instant
  checked : Instant

structure TakeoverDelay (Instant : Type) where
  lifetime : Nat
  waiting : ExtTreeMap IpAddr (Nat × Option Nat × Instant)

namespace TakeoverDelay

variable {Instant : Type} [CommRing Instant] [LinearOrder Instant]

def new (lifetime : Nat) : TakeoverDelay Instant := ⟨lifetime, ∅⟩

/-- Takeovers that do not wait: this process activated the generation before, the
previous holder released it, or nobody ever held the VIP. -/
def immediate (assignment : VipAssignment) (activatedGeneration : Option Nat) : Bool :=
  activatedGeneration = some assignment.generation ||
    (assignment.previousHolder.isSome && assignment.previousHolderReleased) ||
    (assignment.previousHolder.isNone && assignment.generation == 1)

/-- The wait for an assignment: the one that is pending, or a new one from `now` if
the generation or the last probe of the previous holder has changed. -/
def pending (delay : TakeoverDelay Instant) (vip : IpAddr) (generation : Nat)
    (previousTick : Option Nat) (now : Instant) : Nat × Option Nat × Instant :=
  match delay.waiting[vip]? with
  | some (waited, tick, since) =>
      if waited ≠ generation ∨ tick ≠ previousTick then (generation, previousTick, now)
      else (waited, tick, since)
  | none => (generation, previousTick, now)

/-- Whether the node may take the VIP over. A wait starts at the reading `now`, and
what has elapsed is measured at `checked`. -/
def ready (delay : TakeoverDelay Instant) (vip : IpAddr) (nodeId : Nat)
    (assignment : Option VipAssignment) (ticks : ExtTreeMap Nat Nat) (frontier stale : Nat)
    (activatedGeneration : Option Nat) (now checked : Instant) : Bool × TakeoverDelay Instant :=
  let reset := { delay with waiting := delay.waiting.erase vip }
  match assignment.filter fun assignment => assignment.holder == nodeId with
  | none => (false, reset)
  | some assignment =>
      if immediate assignment activatedGeneration then (true, reset)
      else if assignment.previousHolder.any fun previous =>
          isNodeProbeFresh previous ticks frontier stale then (false, reset)
      else
        let previousTick := assignment.previousHolder.bind fun node => ticks[node]?
        let pending := delay.pending vip assignment.generation previousTick now
        (decide ((delay.lifetime : Instant) ≤ checked - pending.2.2),
          { delay with waiting := delay.waiting.insert vip pending })

@[simp] theorem ready_lifetime (delay : TakeoverDelay Instant) (vip : IpAddr) (nodeId : Nat)
    (assignment : Option VipAssignment) (ticks : ExtTreeMap Nat Nat) (frontier stale : Nat)
    (activatedGeneration : Option Nat) (now checked : Instant) :
    (delay.ready vip nodeId assignment ticks frontier stale activatedGeneration now
      checked).2.lifetime = delay.lifetime := by
  unfold ready
  dsimp only
  split
  · rfl
  · split
    · rfl
    · split <;> rfl

omit [CommRing Instant] [LinearOrder Instant] in
/-- A wait is either the one that was pending, for the same generation, or starts now. -/
theorem pending_cases (delay : TakeoverDelay Instant) (vip : IpAddr) (generation : Nat)
    (previousTick : Option Nat) (now : Instant) :
    (∃ since, delay.pending vip generation previousTick now = (generation, previousTick, since) ∧
      delay.waiting[vip]? = some (generation, previousTick, since)) ∨
      delay.pending vip generation previousTick now = (generation, previousTick, now) := by
  unfold pending
  split
  · rename_i waited tick since hWaiting
    split
    · exact .inr rfl
    · rename_i hSame
      simp only [not_or, not_not] at hSame
      obtain ⟨rfl, rfl⟩ := hSame
      exact .inl ⟨since, rfl, hWaiting⟩
  · exact .inr rfl

omit [CommRing Instant] [LinearOrder Instant] in
theorem pending_eq (delay : TakeoverDelay Instant) (vip : IpAddr) (generation : Nat)
    (previousTick : Option Nat) (now : Instant) :
    delay.pending vip generation previousTick now =
      (generation, previousTick, (delay.pending vip generation previousTick now).2.2) := by
  rcases delay.pending_cases vip generation previousTick now with ⟨since, h, -⟩ | h
  · rw [h]
  · rw [h]

/-- What a call leaves waiting was waiting before it, or is the wait of the assignment
that the call was about. -/
theorem ready_waiting {delay : TakeoverDelay Instant} {vip other : IpAddr} {nodeId : Nat}
    {assignment : Option VipAssignment} {ticks : ExtTreeMap Nat Nat} {frontier stale : Nat}
    {activatedGeneration : Option Nat} {now checked : Instant}
    {entry : Nat × Option Nat × Instant}
    (h : (delay.ready vip nodeId assignment ticks frontier stale activatedGeneration now
      checked).2.waiting[other]? = some entry) :
    delay.waiting[other]? = some entry ∨
      other = vip ∧ ∃ assigned, assignment = some assigned ∧
        entry = delay.pending vip assigned.generation
          (assigned.previousHolder.bind fun node => ticks[node]?) now := by
  have hReset : (delay.waiting.erase vip)[other]? = some entry →
      delay.waiting[other]? = some entry := by
    intro hErase
    rw [ExtTreeMap.getElem?_erase] at hErase
    split at hErase
    · cases hErase
    · exact hErase
  unfold ready at h
  dsimp only at h
  split at h
  · exact .inl (hReset h)
  · rename_i assigned hAssigned
    split at h
    · exact .inl (hReset h)
    · split at h
      · exact .inl (hReset h)
      · rw [ExtTreeMap.getElem?_insert] at h
        split at h
        · rename_i hVip
          refine .inr ⟨(compare_eq_iff_eq.mp hVip).symm, assigned, ?_, (Option.some.inj h).symm⟩
          exact (Option.filter_eq_some_iff.mp hAssigned).1
        · exact .inl h

/-- Yes without an immediate reason means that the wait is over; it stays on record. -/
theorem ready_elapsed {delay : TakeoverDelay Instant} {vip : IpAddr} {nodeId : Nat}
    {assignment : VipAssignment} {ticks : ExtTreeMap Nat Nat} {frontier stale : Nat}
    {activatedGeneration : Option Nat} {now checked : Instant}
    (h : (delay.ready vip nodeId (some assignment) ticks frontier stale activatedGeneration now
      checked).1 = true)
    (hWaits : immediate assignment activatedGeneration = false) :
    (delay.ready vip nodeId (some assignment) ticks frontier stale activatedGeneration now
        checked).2.waiting[vip]? = some (delay.pending vip assignment.generation
          (assignment.previousHolder.bind fun node => ticks[node]?) now) ∧
      (delay.lifetime : Instant) ≤ checked - (delay.pending vip assignment.generation
        (assignment.previousHolder.bind fun node => ticks[node]?) now).2.2 := by
  unfold ready at h ⊢
  dsimp only at h ⊢
  split at h
  · cases h
  · rename_i assigned hAssigned
    obtain rfl := Option.some.inj (Option.filter_eq_some_iff.mp hAssigned).1
    simp only [hWaits, Bool.false_eq_true, if_false] at h ⊢
    split at h
    · cases h
    · next hSilent =>
        rw [if_neg hSilent]
        exact ⟨ExtTreeMap.getElem?_insert_self, of_decide_eq_true h⟩

/-! ### The questions of one process -/

section Calls

variable (view : Nat → KafStorageState) (nodeId : Nat)

/-- A question about the state that the process has applied. -/
def ask (delay : TakeoverDelay Instant) (call : ReadyCall Instant) : Bool × TakeoverDelay Instant :=
  let state := view call.applied
  delay.ready call.vip nodeId state.vipAssignments[call.vip]? state.nodeProbeTicks
    state.latestProbeTick state.staleMissedProbes call.activatedGeneration call.now call.checked

/-- The delay after the first questions of a process. -/
def after (lifetime : Nat) (calls : List (ReadyCall Instant)) (i : Nat) : TakeoverDelay Instant :=
  Runs.stateAt (fun delay call => (delay.ask view nodeId call).2) (.new lifetime) calls i

/-- The tick that a wait for an assignment watches. -/
def watchedTick (state : KafStorageState) (assignment : VipAssignment) : Option Nat :=
  assignment.previousHolder.bind fun node => state.nodeProbeTicks[node]?

/-- The wait was begun by one of the first `n` questions, for the assignment that it saw. -/
def BegunBy (calls : List (ReadyCall Instant)) (n : Nat) (vip : IpAddr)
    (wait : Nat × Option Nat × Instant) : Prop :=
  ∃ m call assignment, m < n ∧ calls[m]? = some call ∧ call.vip = vip ∧
    (view call.applied).vipAssignments[vip]? = some assignment ∧
    wait = (assignment.generation, watchedTick (view call.applied) assignment, call.now)

variable {view nodeId} {calls : List (ReadyCall Instant)} {lifetime : Nat}

theorem after_lifetime (i : Nat) : (after view nodeId lifetime calls i).lifetime = lifetime := by
  apply Runs.stateAt_invariant (fun delay call => (ask view nodeId delay call).2) _
    (fun delay : TakeoverDelay Instant => delay.lifetime = lifetime)
  · rfl
  · intro delay call h
    exact (ready_lifetime ..).trans h

omit [CommRing Instant] [LinearOrder Instant] in
/-- The wait that a question leaves was begun by it or before it. -/
theorem begunBy_pending {n : Nat} {call : ReadyCall Instant} {assignment : VipAssignment}
    {delay : TakeoverDelay Instant} (hCall : calls[n]? = some call)
    (hAssigned : (view call.applied).vipAssignments[call.vip]? = some assignment)
    (hWaiting : ∀ wait, delay.waiting[call.vip]? = some wait → BegunBy view calls n call.vip wait) :
    BegunBy view calls (n + 1) call.vip (delay.pending call.vip assignment.generation
      (watchedTick (view call.applied) assignment) call.now) := by
  rcases delay.pending_cases call.vip assignment.generation
    (watchedTick (view call.applied) assignment) call.now with ⟨since, hPending, hBefore⟩ | hPending
  · rw [hPending]
    obtain ⟨m, hm⟩ := hWaiting _ hBefore
    obtain ⟨earlier, assigned, hLt, hRest⟩ := hm
    exact ⟨m, earlier, assigned, by omega, hRest⟩
  · rw [hPending]
    exact ⟨n, call, assignment, Nat.lt_succ_self n, hCall, rfl, hAssigned, rfl⟩

theorem begunBy_after {i : Nat} (hi : i ≤ calls.length) :
    ∀ vip wait, (after view nodeId lifetime calls i).waiting[vip]? = some wait →
      BegunBy view calls i vip wait := by
  apply Runs.stateAt_indexed (fun delay call => (ask view nodeId delay call).2) _
    (fun n delay => ∀ vip wait, delay.waiting[vip]? = some wait → BegunBy view calls n vip wait)
    _ _ i hi
  · intro vip wait h
    simp [TakeoverDelay.new] at h
  · intro n hn ih vip wait h
    rcases ready_waiting h with hBefore | ⟨rfl, assigned, hAssigned, hEntry⟩
    · obtain ⟨m, earlier, assignment, hLt, hRest⟩ := ih vip wait hBefore
      exact ⟨m, earlier, assignment, by omega, hRest⟩
    · rw [hEntry]
      exact begunBy_pending (List.getElem?_eq_getElem hn) hAssigned (ih _)

/-- Yes after a wait: the wait was begun a whole lifetime ago by a question that saw the
same generation and the same tick of the previous holder. -/
theorem begunBy_of_ready {i : Nat} {call : ReadyCall Instant} {assignment : VipAssignment}
    (hCall : calls[i]? = some call)
    (hAssigned : (view call.applied).vipAssignments[call.vip]? = some assignment)
    (hWaits : immediate assignment call.activatedGeneration = false)
    (hReady : (ask view nodeId (after view nodeId lifetime calls i) call).1 = true) :
    ∃ since, (after view nodeId lifetime calls (i + 1)).waiting[call.vip]? =
        some (assignment.generation, watchedTick (view call.applied) assignment, since) ∧
      BegunBy view calls (i + 1) call.vip
        (assignment.generation, watchedTick (view call.applied) assignment, since) ∧
      (lifetime : Instant) ≤ call.checked - since := by
  obtain ⟨hi, rfl⟩ := List.getElem?_eq_some_iff.mp hCall
  have hNext : after view nodeId lifetime calls (i + 1) =
      (ask view nodeId (after view nodeId lifetime calls i) calls[i]).2 := Runs.stateAt_succ _ _ hi
  rw [ask, hAssigned] at hReady
  obtain ⟨hRecorded, hElapsed⟩ := ready_elapsed hReady hWaits
  rw [after_lifetime] at hElapsed
  have hWaiting : ∀ wait, (after view nodeId lifetime calls i).waiting[calls[i].vip]? = some wait →
      BegunBy view calls i calls[i].vip wait := begunBy_after hi.le calls[i].vip
  have hBegun := begunBy_pending hCall hAssigned hWaiting
  rw [pending_eq] at hRecorded hBegun
  refine ⟨_, ?_, hBegun, hElapsed⟩
  rw [hNext, ask, hAssigned]
  exact hRecorded

end Calls

end TakeoverDelay

end KeepAfloat
