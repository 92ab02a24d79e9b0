import KeepAfloat.Store.Generation
import KeepAfloat.Vip.Takeover
import KeepAfloat.Vip.Witness

/-! Takeover from a silent previous holder. Two processes apply prefixes of one
committed log, each with its own lag and on its own clock; the clocks run at one rate
and differ by an offset from a common one. The successor waits, and the previous
holder keeps its bindings on proofs that went through the same log. -/

namespace KeepAfloat

/-- The committed log and the policy that all nodes share. `committedAt` is the time
of every position on the common clock. -/
structure TakeoverCluster (Instant : Type) where
  config : StoreConfig
  proofLifetime : Nat
  vipCount : Nat
  entries : List Entry
  committedAt : Nat → Instant

/-- What a node sees that applied this many entries. -/
def TakeoverCluster.view {Instant : Type} (cluster : TakeoverCluster Instant) (applied : Nat) :
    KafStorageState :=
  stateAfter cluster.config cluster.entries applied

variable {Instant : Type} [CommRing Instant] [LinearOrder Instant] [IsStrictOrderedRing Instant]

/-- The process of a node that may take over. Its clock shows the common time plus
`offset`. It applies only what is committed, and no two of its readings are as far
apart as the longest duration. -/
structure Successor (cluster : TakeoverCluster Instant) where
  nodeId : Nat
  offset : Instant
  calls : List (ReadyCall Instant)
  applied_le : ∀ call ∈ calls, call.applied ≤ cluster.entries.length
  applied_committed : ∀ call ∈ calls, ∀ position < call.applied,
    cluster.committedAt position + offset ≤ call.now
  readings_close : ∀ first ∈ calls, ∀ last ∈ calls,
    last.checked - first.now < (maxDuration : Instant)

namespace Successor

variable {cluster : TakeoverCluster Instant} (successor : Successor cluster)

/-- The delay after the first questions of the process. -/
def delayAt (i : Nat) : TakeoverDelay Instant :=
  TakeoverDelay.after cluster.view successor.nodeId
    (takeoverLifetime cluster.proofLifetime cluster.vipCount) successor.calls i

/-- Question `i` is answered with yes after a wait for this assignment. -/
structure WaitedOut (i : Nat) (call : ReadyCall Instant) (assignment : VipAssignment)
    (previous : Nat) : Prop where
  asked : successor.calls[i]? = some call
  assigned : (cluster.view call.applied).vipAssignments[call.vip]? = some assignment
  previousHolder : assignment.previousHolder = some previous
  waits : TakeoverDelay.immediate assignment call.activatedGeneration = false
  answer : ((successor.delayAt i).ask cluster.view successor.nodeId call).1 = true

/-- A wait goes back to a question that already saw the generation. -/
def Since (vip : IpAddr) (generation : Nat) (since : Instant) : Prop :=
  ∃ call ∈ successor.calls, call.now = since ∧ ∃ assignment,
    (cluster.view call.applied).vipAssignments[vip]? = some assignment ∧
      assignment.generation = generation

variable {successor}

omit [IsStrictOrderedRing Instant] in
/-- The wait began a whole takeover lifetime ago, at a question that had seen the
assignment. -/
theorem WaitedOut.since {i previous : Nat} {call : ReadyCall Instant} {assignment : VipAssignment}
    (h : successor.WaitedOut i call assignment previous) :
    ∃ since, successor.Since call.vip assignment.generation since ∧
      (takeoverLifetime cluster.proofLifetime cluster.vipCount : Instant) ≤ call.checked - since := by
  obtain ⟨since, -, hBegun, hElapsed⟩ :=
    TakeoverDelay.begunBy_of_ready h.asked h.assigned h.waits h.answer
  obtain ⟨m, first, assigned, -, hFirst, -, hAssigned, hWait⟩ := hBegun
  simp only [Prod.mk.injEq] at hWait
  obtain ⟨hGeneration, -, rfl⟩ := hWait
  exact ⟨first.now, ⟨first, List.mem_of_getElem? hFirst, rfl, assigned, hAssigned, hGeneration.symm⟩,
    hElapsed⟩

end Successor

/-- The process of a node that may have held the VIP. A health proof is accepted only
after the process applied the entry of the proof, and the proof was started before
that entry was committed. -/
structure Predecessor (cluster : TakeoverCluster Instant) where
  nodeId : Nat
  offset : Instant
  run : FreshnessRun Instant
  lifetime_eq : run.lifetime = cluster.proofLifetime
  applied : Instant → Nat
  applied_mono : Monotone applied
  applied_le : ∀ now, applied now ≤ cluster.entries.length
  proofs : ∀ i (h : i < run.events.length) progress, run.acceptedAt i = some progress →
    ∃ position entry, cluster.entries[position]? = some entry ∧ entry.logId = progress.logId ∧
      position < applied (run.events[i]).now ∧
      progress.started ≤ cluster.committedAt position + offset

namespace Predecessor

variable {cluster : TakeoverCluster Instant} {predecessor : Predecessor cluster}

/-- A process that can retain has applied an entry that was committed within the last
proof lifetime. -/
theorem applied_of_retain {stamp : RetentionStamp} {permit : Permit Instant} {k : Nat}
    {now : Instant} (hMoment : predecessor.run.Moment k now)
    (h : predecessor.run.retainAt stamp k now = some permit) :
    ∃ position, position < predecessor.applied now ∧
      now < cluster.committedAt position + predecessor.offset + cluster.proofLifetime := by
  have hGrounds := FreshnessRun.Issued.grounds (.inr ⟨stamp, h⟩)
  obtain ⟨deadline, hDeadline, hNow⟩ := predecessor.run.deadline_bounds.fresh _ _ _ hGrounds.fresh
    (by rw [hGrounds.progress]; rfl)
  rw [FreshnessRun.deadline_eq_some hMoment.bound hGrounds.progress hDeadline,
    predecessor.lifetime_eq] at hNow
  obtain ⟨⟨m, hmk, hAccepted, -⟩, -⟩ :=
    (predecessor.run.recorded hMoment.bound).latest _ hGrounds.progress
  have hm : m < predecessor.run.events.length := hmk.trans_le hMoment.bound
  obtain ⟨position, entry, -, -, hApplied, hStarted⟩ := predecessor.proofs m hm _ hAccepted
  have hPast : (predecessor.run.events[m]).now ≤ now :=
    (FreshnessRun.now_le_finished hm).trans (hMoment.past m hm hmk)
  refine ⟨position, hApplied.trans_le (predecessor.applied_mono hPast), ?_⟩
  calc now < permit.progress.started + cluster.proofLifetime := (lt_min_iff.mp hNow).1
    _ ≤ cluster.committedAt position + predecessor.offset + cluster.proofLifetime := by gcongr

end Predecessor

/-- Whenever the successor is told to take over after a wait, then from a reconcile
tick and the cleanup budget before that moment on, no binding of the previous holder
from an earlier generation is both retained and shown by that holder's own state. -/
theorem takeover_no_overlap (cluster : TakeoverCluster Instant) (successor : Successor cluster)
    (predecessor : Predecessor cluster) (i : Nat) (call : ReadyCall Instant)
    (assignment : VipAssignment)
    (hWaited : successor.WaitedOut i call assignment predecessor.nodeId) (k : Nat) (now : Instant)
    (hMoment : predecessor.run.Moment k now)
    (hTime : call.checked - successor.offset -
      ((reconcileTick + cleanupWork cluster.vipCount : Nat) : Instant) ≤ now - predecessor.offset)
    (witness : CompletedBindingWitness) (earlier : VipAssignment)
    (hVip : witness.intent.vip = call.vip) (hIntent : witness.intent.assignment = some earlier)
    (hEarlier : earlier.generation < assignment.generation) (status : HealthStatus) (vip : VipAddr)
    (iface : String) :
    witness.retain predecessor.run.digest predecessor.run.fits
        (predecessor.run.stateAt k).freshness (predecessor.run.stateAt k).authority status now vip
        iface = none ∨
      witness.matchesState status (cluster.view (predecessor.applied now)) = false := by
  rw [or_iff_not_imp_left, ← Bool.not_eq_true]
  intro hRetained hMatches
  obtain ⟨permit, hPermit⟩ := Option.ne_none_iff_exists'.mp hRetained
  obtain ⟨position, hApplied, hRecent⟩ := Predecessor.applied_of_retain hMoment
    (CompletedBindingWitness.retain_stamp _ _ _ _ _ _ hPermit)
  obtain ⟨since, ⟨first, hFirst, rfl, assigned, hAssigned, hGeneration⟩, hElapsed⟩ := hWaited.since
  obtain ⟨hi, hCall⟩ := List.getElem?_eq_some_iff.mp hWaited.asked
  have hShort : takeoverLifetime cluster.proofLifetime cluster.vipCount < maxDuration := by
    have hClose := successor.readings_close first hFirst call (hCall ▸ List.getElem_mem hi)
    exact Nat.cast_lt.mp (hElapsed.trans_lt hClose)
  rw [takeoverLifetime_eq hShort, Nat.cast_add] at hElapsed
  have hLater : first.now < cluster.committedAt position + successor.offset := by linarith
  have hUnseen : first.applied ≤ position := by
    by_contra hSeen
    exact absurd hLater (not_lt.mpr
      (successor.applied_committed first hFirst position (not_le.mp hSeen)))
  obtain ⟨current, hCurrent, hSame⟩ := EffectIntent.remainsValid_generation hMatches hIntent
  rw [hVip] at hCurrent
  have hLe := generation_le (hUnseen.trans hApplied.le) (predecessor.applied_le now) hAssigned hCurrent
  omega

/-- Node 1 publishes once and falls silent; node 2 goes on. -/
def silentLog : List Entry :=
  [EntryPayload.membership handoffMembership, .normal (.healthUpdate 1 true),
    .normal (.healthUpdate 2 true), .normal (.healthUpdate 2 true), .normal (.healthUpdate 2 true),
    .normal (.healthUpdate 2 true)].zipIdx.map
    fun (payload, index) => ⟨⟨⟨1, RuntimeAuthority.rejoined⟩, index⟩, payload⟩

def silentCluster : TakeoverCluster ℤ where
  config := handoffConfig
  proofLifetime := 10
  vipCount := 1
  entries := silentLog
  committedAt := fun position => 8 + position

/-- Node 2 sees its assignment at 100 and asks again when the wait is over. -/
def silentSuccessor : Successor silentCluster where
  nodeId := 2
  offset := 20
  calls := [⟨handoffVip, 6, none, 100, 100⟩, ⟨handoffVip, 6, none, 12250000110, 12250000110⟩]
  applied_le := by simp [silentCluster, silentLog]
  applied_committed := by
    simp only [silentCluster, List.mem_cons, List.not_mem_nil, or_false]
    rintro call (rfl | rfl) position hPosition <;> dsimp only at * <;> omega
  readings_close := by simp [maxDuration]

/-- Node 1 records its one proof. -/
def silentRun : FreshnessRun ℤ :=
  { FreshnessRun.renewals with
    events := [⟨10, .recordApplied (FreshnessRun.renewal 8 1)⟩]
    wellTimed := by simp [FreshnessEvent.WellTimed]
    ordered := by simp }

/-- Node 1 stops applying entries after its own. -/
def silentPredecessor : Predecessor silentCluster where
  nodeId := 1
  offset := 0
  run := silentRun
  lifetime_eq := rfl
  applied := fun _ => 2
  applied_mono := monotone_const
  applied_le := by simp [silentCluster, silentLog]
  proofs := by
    intro i hi progress hAccepted
    obtain rfl : i = 0 := by simpa [silentRun] using hi
    have hOnly : silentRun.acceptedAt 0 = some (FreshnessRun.renewal 8 1) := by decide +kernel
    obtain rfl := Option.some.inj (hOnly.symm.trans hAccepted)
    exact ⟨1, _, rfl, rfl, by decide, by decide⟩

/-- The binding that node 1 completed under the first generation. -/
def silentWitness : CompletedBindingWitness where
  intent := (EffectIntent.capture handoffVip 1 .opened (silentCluster.view 2) none).activated
  health := ⟨0⟩
  iface := "eth0"
  vip := ⟨handoffVip, 24⟩
  context := RuntimeAuthority.rejoinContext
  stamp := ⟨0, RuntimeAuthority.rejoinContext, 1⟩

/-- Whether node 1 retains the binding at a reading of its clock. -/
def silentRetained (now : ℤ) : Option (Permit ℤ) :=
  silentWitness.retain silentPredecessor.run.digest silentPredecessor.run.fits
    (silentPredecessor.run.stateAt 1).freshness (silentPredecessor.run.stateAt 1).authority
    ⟨true, none, 0⟩ now ⟨handoffVip, 24⟩ "eth0"

theorem takeover_no_overlap_silent :
    (silentRetained 17).isSome ∧
      silentWitness.matchesState ⟨true, none, 0⟩ (silentCluster.view 2) = true ∧
      silentSuccessor.WaitedOut 1 ⟨handoffVip, 6, none, 12250000110, 12250000110⟩
        ⟨2, 2, some 1, false, 5⟩ 1 ∧
      (silentRetained 90 = none ∨
        silentWitness.matchesState ⟨true, none, 0⟩ (silentCluster.view 2) = false) := by
  have hWaited : silentSuccessor.WaitedOut 1 ⟨handoffVip, 6, none, 12250000110, 12250000110⟩
      ⟨2, 2, some 1, false, 5⟩ 1 :=
    ⟨rfl, by decide +kernel, rfl, by decide, by decide +kernel⟩
  have hMoment : silentPredecessor.run.Moment 1 90 :=
    ⟨by decide, by decide, by decide⟩
  refine ⟨by decide +kernel, by decide +kernel, hWaited, ?_⟩
  exact takeover_no_overlap silentCluster silentSuccessor silentPredecessor 1 _ _ hWaited 1 90
    hMoment (by decide) silentWitness ⟨1, 1, none, true, 1⟩ rfl (by decide +kernel) (by decide) _ _ _

end KeepAfloat
