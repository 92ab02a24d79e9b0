import KeepAfloat.Admission.Controller
import KeepAfloat.Library.Runs

/-! Recovery of a pending join. On every tick the leader looks at the join that its store has
prepared: it resumes a promotion that is under way, and selects a learner for cancellation that
has made no progress for a whole reservation interval. -/

namespace KeepAfloat

/-- What the leader remembers of one pending join. A missing index is below every other. -/
structure PendingProgress (Instant : Type) where
  operation : JoinBinding
  matchedIndex : WithBot Nat
  acknowledgedIndex : WithBot Nat
  since : Instant

/-- What one tick reads, in this order: the leader, the store twice, the metrics of the
consensus with the index matched by the consumer, the store again and the clock twice. -/
structure RecoveryTick (Instant : Type) where
  currentLeader : Option ReplicaId
  pending : Option PreparedJoin
  state : KafStorageState
  membership : Membership
  matched : ReplicaId → WithBot Nat
  current : Option PreparedJoin
  now : Instant
  checked : Instant

inductive RecoveryAction where
  | wait
  | promote (pending : PreparedJoin)
  | cancelJoin (pending : PreparedJoin)
  deriving DecidableEq

def PreparedJoin.acknowledgedIndex (pending : PreparedJoin) : WithBot Nat :=
  pending.learnerApplied.map LogId.index

/-- The joint configuration of the plan is applied, after the learner's acknowledgement. -/
def PreparedJoin.jointCommitted (pending : PreparedJoin) (state : KafStorageState) : Bool :=
  state.lastMembership.membership.getJointConfig =
      [pending.plan.previousVoters, pending.plan.nextVoters] &&
    pending.learnerApplied.any fun ack => state.lastMembership.logId.any fun membership =>
      ack.index < membership.index &&
        state.lastAppliedLog.any fun applied => membership.index ≤ applied.index

/-- The driver, without the progress that it remembers. -/
structure RuntimeDriver (Instant : Type) where
  localReplica : ReplicaId
  timing : AdmissionTiming Instant
  planDigest : JoinPlan → BitVec 256

namespace RuntimeDriver

variable {Instant : Type} [LinearOrder Instant] (driver : RuntimeDriver Instant)

def observePending (observed : Option (PendingProgress Instant)) (pending : PreparedJoin)
    (matchedIndex : WithBot Nat) (now checked : Instant) :
    Except AdmissionDenied Bool × PendingProgress Instant :=
  let binding := JoinBinding.fromPrepared driver.planDigest pending
  let acknowledgedIndex := pending.acknowledgedIndex
  match observed.filter fun previous => previous.operation = binding with
  | some previous =>
      let current :=
        if previous.matchedIndex < matchedIndex ∨ previous.acknowledgedIndex < acknowledgedIndex then
          { previous with
            matchedIndex := max previous.matchedIndex matchedIndex
            acknowledgedIndex := max previous.acknowledgedIndex acknowledgedIndex
            since := now }
        else previous
      ((driver.timing.reservationDeadline current.since).map fun deadline => deadline ≤ checked,
        current)
  | none => (.ok false, ⟨binding, matchedIndex, acknowledgedIndex, now⟩)

/-- The pending join that a tick judges, if it still waits for its learner. -/
def waiting (tick : RecoveryTick Instant) : Option PreparedJoin := do
  let pending ← tick.pending.filter fun pending => tick.currentLeader = some driver.localReplica &&
    !pending.jointCommitted tick.state && tick.membership.getJointConfig.length = 1 &&
    tick.membership.voterIds = pending.plan.previousVoters
  tick.current.filter fun current =>
    current.plan = pending.plan && current.prepared = pending.prepared

/-- A tick that judges no waiting join forgets what was observed. -/
def recoverPending (observed : Option (PendingProgress Instant)) (tick : RecoveryTick Instant) :
    Except AdmissionDenied RecoveryAction × Option (PendingProgress Instant) :=
  match driver.waiting tick with
  | some pending =>
      let (stalled, progress) := driver.observePending observed pending
        (tick.matched pending.plan.consumer) tick.now tick.checked
      (stalled.map fun stalled => if stalled then .cancelJoin pending else .wait, some progress)
  | none =>
      (.ok ((tick.pending.filter fun pending => tick.currentLeader = some driver.localReplica &&
        pending.jointCommitted tick.state).elim .wait .promote), none)

/-- One round of the driver. A tick that ends before it judges, by the bound of its phase or
for want of a consensus, keeps what was observed. -/
def driveRound (observed : Option (PendingProgress Instant)) :
    Option (RecoveryTick Instant) → Option (PendingProgress Instant)
  | some tick => (driver.recoverPending observed tick).2
  | none => observed

/-- What is remembered after the first `i` rounds. -/
def observedAt (ticks : List (Option (RecoveryTick Instant))) (i : Nat) :
    Option (PendingProgress Instant) :=
  Runs.stateAt driver.driveRound none ticks i

/-- The tick saw the operation, and no more progress than was known. -/
def Within (progress : PendingProgress Instant) (tick : RecoveryTick Instant) : Prop :=
  ∃ pending ∈ driver.waiting tick, .fromPrepared driver.planDigest pending = progress.operation ∧
    tick.matched pending.plan.consumer ≤ progress.matchedIndex ∧
      pending.acknowledgedIndex ≤ progress.acknowledgedIndex

/-- From round `k` up to round `i` this was remembered, and every tick that judged saw no
more. -/
def Unchanged (ticks : List (Option (RecoveryTick Instant))) (progress : PendingProgress Instant)
    (k i : Nat) : Prop :=
  ∀ j, k ≤ j → j < i → driver.observedAt ticks (j + 1) = some progress ∧
    ∀ tick, ticks[j]? = some (some tick) → driver.Within progress tick

/-- The interval of what is remembered begins with the tick of round `k`. -/
def BegunAt (ticks : List (Option (RecoveryTick Instant))) (progress : PendingProgress Instant)
    (k : Nat) : Prop :=
  ∃ tick, ticks[k]? = some (some tick) ∧ tick.now = progress.since

variable {driver} {observed : Option (PendingProgress Instant)} {tick : RecoveryTick Instant}
  {ticks : List (Option (RecoveryTick Instant))} {progress : PendingProgress Instant} {k i : Nat}

/-- What is remembered was remembered before, or starts with this tick. -/
theorem within_of_recoverPending (h : (driver.recoverPending observed tick).2 = some progress) :
    driver.Within progress tick ∧ (observed = some progress ∨ progress.since = tick.now) := by
  unfold recoverPending at h
  split at h
  · rename_i pending hWaiting
    obtain rfl := Option.some.inj h
    cases hPrevious : observed.filter fun previous =>
        previous.operation = .fromPrepared driver.planDigest pending with
    | none =>
        rw [observePending, hPrevious]
        exact ⟨⟨pending, hWaiting, rfl, le_rfl, le_rfl⟩, .inr rfl⟩
    | some previous =>
        simp only [observePending, hPrevious]
        obtain ⟨rfl, hSame⟩ := Option.filter_eq_some_iff.mp hPrevious
        have hOperation := (of_decide_eq_true hSame).symm
        split_ifs with hGrown
        · exact ⟨⟨pending, hWaiting, hOperation, le_max_right _ _, le_max_right _ _⟩, .inr rfl⟩
        · rw [not_or, not_lt, not_lt] at hGrown
          exact ⟨⟨pending, hWaiting, hOperation, hGrown.1, hGrown.2⟩, .inl rfl⟩
  · cases h

theorem within_of_driveRound {round : Option (RecoveryTick Instant)}
    (h : driver.driveRound observed round = some progress) :
    (∀ tick, round = some tick → driver.Within progress tick) ∧
      (observed = some progress ∨ ∃ tick, round = some tick ∧ tick.now = progress.since) := by
  cases round with
  | none =>
      rw [driveRound] at h
      exact ⟨fun _ hTick => absurd hTick (Option.some_ne_none _).symm, .inl h⟩
  | some tick =>
      rw [driveRound] at h
      obtain ⟨hWithin, hSince⟩ := within_of_recoverPending h
      refine ⟨fun _ hTick => Option.some.inj hTick ▸ hWithin, hSince.imp_right fun hStart => ?_⟩
      exact ⟨tick, rfl, hStart.symm⟩

theorem Unchanged.succ (h : k < i → driver.Unchanged ticks progress k i)
    (hObserved : driver.observedAt ticks (i + 1) = some progress)
    (hWithin : ∀ tick, ticks[i]? = some (some tick) → driver.Within progress tick) :
    driver.Unchanged ticks progress k (i + 1) := by
  intro j hkj hji
  rcases Nat.lt_succ_iff_lt_or_eq.mp hji with hEarlier | rfl
  · exact h (hkj.trans_lt hEarlier) j hkj hEarlier
  · exact ⟨hObserved, hWithin⟩

theorem unchanged_since (hi : i ≤ ticks.length) (h : driver.observedAt ticks i = some progress) :
    ∃ k < i, BegunAt ticks progress k ∧ driver.Unchanged ticks progress k i := by
  induction i generalizing progress with
  | zero => cases h
  | succ i ih =>
      have hTick : ticks[i]? = some ticks[i] := List.getElem?_eq_getElem hi
      have hStep := h
      rw [observedAt, Runs.stateAt_succ _ _ hi] at hStep
      obtain ⟨hWithin, hCases⟩ := within_of_driveRound hStep
      have hSeen : ∀ tick, ticks[i]? = some (some tick) → driver.Within progress tick :=
        fun tick hAt => hWithin tick (Option.some.inj (hTick.symm.trans hAt))
      rcases hCases with hKept | ⟨tick, hAt, hStart⟩
      · obtain ⟨k, hk, hBegun, hUnchanged⟩ := ih (Nat.le_of_succ_le hi) hKept
        exact ⟨k, Nat.lt_succ_of_lt hk, hBegun, .succ (fun _ => hUnchanged) h hSeen⟩
      · refine ⟨i, Nat.lt_succ_self i, ⟨tick, hAt ▸ hTick, hStart⟩, .succ (fun hLt => ?_) h hSeen⟩
        exact absurd hLt (lt_irrefl i)

/-- A selected join is the waiting one, and its time has run out. -/
theorem stalled_of_recoverPending {pending : PreparedJoin}
    (h : (driver.recoverPending observed tick).1 = .ok (.cancelJoin pending)) :
    pending ∈ driver.waiting tick ∧ ∃ progress deadline,
      (driver.recoverPending observed tick).2 = some progress ∧
        driver.timing.reservationDeadline progress.since = .ok deadline ∧ deadline ≤ tick.checked := by
  cases hWaiting : driver.waiting tick with
  | some found =>
      simp only [recoverPending, hWaiting, observePending] at h ⊢
      obtain ⟨stalled, hStalled, hAction⟩ := Checks.map_eq_ok.mp h
      cases stalled with
      | false => cases hAction
      | true =>
          cases hAction
          split at hStalled
          · obtain ⟨deadline, hDeadline, hPast⟩ := Checks.map_eq_ok.mp hStalled
            exact ⟨rfl, _, deadline, rfl, hDeadline, of_decide_eq_true hPast⟩
          · cases hStalled
  | none =>
      rw [recoverPending, hWaiting] at h
      cases hPromote : tick.pending.filter fun pending =>
          tick.currentLeader = some driver.localReplica && pending.jointCommitted tick.state <;>
        rw [hPromote] at h <;> cases h

/-- A join is selected for cancellation only if for a whole reservation interval every tick
that judged found this join waiting, without progress of its learner. -/
theorem cancelled_only_stalled (driver : RuntimeDriver Instant)
    (ticks : List (Option (RecoveryTick Instant))) (i : Nat) (tick : RecoveryTick Instant)
    (hTick : ticks[i]? = some (some tick)) (pending : PreparedJoin)
    (hCancel : (driver.recoverPending (driver.observedAt ticks i) tick).1 =
      .ok (.cancelJoin pending)) :
    pending ∈ driver.waiting tick ∧ ∃ k ≤ i, ∃ progress deadline, BegunAt ticks progress k ∧
      driver.timing.reservationDeadline progress.since = .ok deadline ∧ deadline ≤ tick.checked ∧
      driver.Unchanged ticks progress k (i + 1) := by
  obtain ⟨hi, hRound⟩ := List.getElem?_eq_some_iff.mp hTick
  obtain ⟨hWaiting, progress, deadline, hProgress, hDeadline, hPast⟩ :=
    stalled_of_recoverPending hCancel
  have hAfter : driver.observedAt ticks (i + 1) = some progress := by
    rw [observedAt, Runs.stateAt_succ _ _ hi, hRound]
    exact hProgress
  obtain ⟨k, hk, hBegun, hUnchanged⟩ := unchanged_since hi hAfter
  exact ⟨hWaiting, k, Nat.le_of_lt_succ hk, progress, deadline, hBegun, hDeadline, hPast, hUnchanged⟩

/-- A driver with a reservation of 20. -/
def sample : RuntimeDriver ℤ := ⟨⟨1, 1⟩, ⟨.ok, fun now => .ok (now + 20), .ok⟩, fun _ => 0⟩

/-- A second member is joined to the first. -/
def sampleJoin : PreparedJoin :=
  ⟨⟨⟨⟨1, 0⟩, 9, {⟨1, 1⟩}⟩, ⟨2, 1⟩, 0, {⟨1, 1⟩}, {⟨1, 1⟩, ⟨2, 1⟩}⟩, ⟨⟨1, ⟨1, 1⟩⟩, 3⟩, none⟩

/-- The learner has matched an index at a time. -/
def sampleTick (index : Nat) (now : ℤ) : RecoveryTick ℤ where
  currentLeader := some ⟨1, 1⟩
  pending := some sampleJoin
  state := .new ⟨[], by decide⟩ 2 true 0
  membership := ⟨[{⟨1, 1⟩}], ∅⟩
  matched := fun _ => index
  current := some sampleJoin
  now := now
  checked := now

/-- The learner matches more at 10, a tick is dropped, and the learner is selected at 30. -/
def sampleTicks : List (Option (RecoveryTick ℤ)) :=
  [some (sampleTick 4 0), some (sampleTick 5 10), none, some (sampleTick 5 30)]

theorem cancelled_only_stalled_sample : ∃ k ≤ 3, ∃ progress,
    BegunAt sampleTicks progress k ∧ sample.Unchanged sampleTicks progress k 4 := by
  obtain ⟨-, k, hk, progress, -, hBegun, -, -, hUnchanged⟩ := cancelled_only_stalled sample
    sampleTicks 3 (sampleTick 5 30) rfl sampleJoin (by decide +kernel)
  exact ⟨k, hk, progress, hBegun, hUnchanged⟩

end RuntimeDriver

end KeepAfloat
