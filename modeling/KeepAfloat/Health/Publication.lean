import KeepAfloat.Freshness.Permits
import KeepAfloat.Health.Local

/-! The health publication loop. A round probes the service, publishes the effective health
through consensus and turns an applied proof into freshness. Between two awaits of the loop
the other tasks of the process act: a worker reports a bind fault, a release cannot be
submitted, the admission runtime moves on. -/

namespace KeepAfloat

/-- Whether a failed submission showed a failed transport or a refusal. -/
inductive FailureKind where
  | unavailable
  | rejected

inductive PublicationReadiness where
  | pending
  | ready

/-- Where the loop waits, and what it has found out about the health to publish. -/
inductive PublicationPhase (Instant : Type) where
  | probing
  | readying (ok : Bool)
  | activating
  | publishing (placementHealthy : Bool)
  | recording (proof : VerifiedProgress Instant)

/-- The loop, the health and the freshness that it shares with other tasks, and the raw
results of its rounds, newest first. -/
structure Publication (Instant : Type) where
  health : LocalHealth
  shared : FreshnessState Instant
  bindFaultReported : Bool
  phase : PublicationPhase Instant
  results : List Bool

inductive PublicationCall (Instant : Type) where
  | probed (rawOk : Bool)
  | bindFailure
  | readiness (answer : Except Unit PublicationReadiness)
  | activation (ready : Bool)
  | published (answer : Except FailureKind (VerifiedProgress Instant))
  | failBinding (fault : BindFault)
  | releaseFailed (kind : FailureKind)
  | authority (call : RuntimeAuthority.Call Instant)

structure PublicationEvent (Instant : Type) where
  now : Instant
  call : PublicationCall Instant

/-- A process in which the loop runs. -/
structure PublicationRun (Instant : Type) where
  digest : Genesis → BitVec 256
  fits : Instant → Bool
  delayTicks : Nat
  lifetime : Nat
  identity : Nat
  authority : RuntimeAuthority Instant
  events : List (PublicationEvent Instant)

section Loop

variable {Instant : Type} [CommRing Instant] [LinearOrder Instant]
variable (digest : Genesis → BitVec 256) (fits : Instant → Bool)

namespace FreshnessState

def invalidate (state : FreshnessState Instant) : FreshnessState Instant :=
  { state with freshness := state.freshness.invalidate }

/-- What a failed submission does. -/
def fail (state : FreshnessState Instant) : FailureKind → FreshnessState Instant
  | .unavailable => { state with freshness := state.freshness.markUnavailable }
  | .rejected => state.invalidate

/-- Only an applied proof of a node that may activate VIPs makes it fresh. -/
def recordProbe (state : FreshnessState Instant) (activationReady : Bool)
    (proof : VerifiedProgress Instant) (now : Instant) : FreshnessState Instant :=
  if activationReady then
    match state.freshness.recordApplied digest fits proof state.authority now with
    | (.ok (), after) => { state with freshness := after }
    | (.error _, after) => invalidate { state with freshness := after }
  else state.invalidate

end FreshnessState

namespace Publication

/-- A round starts with a raw result. -/
def observe (loop : Publication Instant) (rawOk : Bool) : Publication Instant :=
  let health := loop.health.step (.probe rawOk)
  { loop with
    health := health
    shared := if health.isHealthy then loop.shared else loop.shared.invalidate
    phase := .readying health.isHealthy
    results := rawOk :: loop.results }

/-- A round ends. -/
def finish (loop : Publication Instant) (shared : FreshnessState Instant) : Publication Instant :=
  { loop with shared := shared, phase := .probing }

/-- What happens at an await of the loop or in another task; what cannot happen there
changes nothing. -/
def step (loop : Publication Instant) (event : PublicationEvent Instant) : Publication Instant :=
  match event.call, loop.phase with
  -- The select looks at the fault first, but a fault that comes after that look loses the race.
  | .probed rawOk, .probing => loop.observe rawOk
  | .bindFailure, .probing =>
      if !loop.bindFaultReported && loop.health.status.bindFault.isSome then
        { loop with bindFaultReported := true }.observe false
      else loop
  | .readiness (.ok .ready), .readying ok =>
      { loop with phase := if ok then .activating else .publishing false }
  | .readiness _, .readying _ => loop.finish loop.shared.invalidate
  | .activation ready, .activating => { loop with phase := .publishing ready }
  | .published (.ok proof), .publishing placementHealthy =>
      -- A renewal is made for the health that was submitted.
      if proof.healthy = some placementHealthy then { loop with phase := .recording proof }
      else loop
  | .published (.error kind), .publishing _ => loop.finish (loop.shared.fail kind)
  | .activation ready, .recording proof =>
      loop.finish (loop.shared.recordProbe digest fits ready proof event.now)
  | .failBinding fault, _ => { loop with health := loop.health.step (.failBinding fault) }
  | .releaseFailed kind, _ => { loop with shared := loop.shared.fail kind }
  | .authority call, _ =>
      { loop with shared := loop.shared.step digest fits ⟨event.now, .authority call⟩ }
  | _, _ => loop

/-- A permit could be issued now, to acquire a VIP or to keep one. -/
def Permits (loop : Publication Instant) (now : Instant) : Prop :=
  (∃ hasLeader, (loop.shared.freshness.acquire digest fits hasLeader loop.shared.authority
      now).isSome = true) ∨
    ∃ stamp, (loop.shared.freshness.retain digest fits stamp loop.shared.authority
      now).isSome = true

end Publication

namespace PublicationRun

def start (run : PublicationRun Instant) : Publication Instant :=
  ⟨.start run.delayTicks, ⟨.new run.lifetime run.identity, run.authority⟩, false, .probing, []⟩

/-- The loop after the first `i` events. -/
def after (run : PublicationRun Instant) (i : Nat) : Publication Instant :=
  Runs.stateAt (Publication.step run.digest run.fits) run.start run.events i

end PublicationRun

/-! ### What freshness rests on -/

namespace Publication

omit [CommRing Instant] [LinearOrder Instant]

/-- The round found the node healthy. -/
def Healthy (loop : Publication Instant) : Prop :=
  match loop.phase with
  | .probing => False
  | .readying ok => ok = true
  | .activating => True
  | .publishing placementHealthy => placementHealthy = true
  | .recording proof => proof.healthy = some true

def Fresh (loop : Publication Instant) : Prop := loop.shared.freshness.proof.started.isSome = true

/-- The health that the loop last observed still counts. -/
def Sound (loop : Publication Instant) : Prop :=
  loop.health.status.probeHealthy = true ∧ loop.bindFaultReported = false

structure Invariant (delayTicks : Nat) (loop : Publication Instant) : Prop where
  delay : loop.health.dampener.delayTicks = delayTicks
  counts : loop.health.dampener.Counts loop.results
  probed : loop.health.status.probeHealthy = loop.health.dampener.effectiveHealthy
  fault : loop.bindFaultReported = true → loop.health.status.bindFault.isSome = true
  sound : loop.Healthy ∨ loop.Fresh → loop.Sound

variable {delayTicks : Nat} {loop : Publication Instant}

/-- The loop goes on with the same observations. -/
theorem Invariant.frame {after : Publication Instant} (h : loop.Invariant delayTicks)
    (hHealth : after.health = loop.health) (hResults : after.results = loop.results)
    (hReported : after.bindFaultReported = loop.bindFaultReported)
    (hSound : after.Healthy ∨ after.Fresh → loop.Sound) : after.Invariant delayTicks := by
  refine ⟨?_, ?_, ?_, ?_, ?_⟩
  · rw [hHealth, h.delay]
  · rw [hHealth, hResults]
    exact h.counts
  · rw [hHealth, h.probed]
  · rw [hHealth, hReported]
    exact h.fault
  · rwa [Sound, hHealth, hReported]

theorem probed_step (health : LocalHealth) (rawOk : Bool) :
    (health.step (.probe rawOk)).status.probeHealthy =
        (health.step (.probe rawOk)).dampener.effectiveHealthy ∧
      (health.step (.probe rawOk)).status.bindFault = health.status.bindFault := by
  simp only [LocalHealth.step, HealthStatus.observeProbe, FailureDampener.observe_exposed]
  split_ifs <;> exact ⟨rfl, rfl⟩

/-- A round that starts healthy starts without a reported fault. -/
theorem invariant_observe (hDelay : loop.health.dampener.delayTicks = delayTicks)
    (hCounts : loop.health.dampener.Counts loop.results)
    (hReported : loop.bindFaultReported = true → loop.health.status.bindFault.isSome = true)
    (hShort : loop.results.length < Word64.maxWord) (rawOk : Bool) :
    (loop.observe rawOk).Invariant delayTicks := by
  obtain ⟨hProbed, hFault⟩ := probed_step loop.health rawOk
  refine ⟨?_, hCounts.observe hShort rawOk, hProbed, fun hSeen => hFault ▸ hReported hSeen, ?_⟩
  · rw [Publication.observe, LocalHealth.step, FailureDampener.delayTicks_observe, hDelay]
  · intro hClaim
    have hHealthy : (loop.health.step (.probe rawOk)).isHealthy = true := by
      by_contra hDown
      rw [Bool.not_eq_true] at hDown
      simp only [Healthy, Fresh, Publication.observe, hDown] at hClaim
      rcases hClaim with hOk | hStarted
      · cases hOk
      · cases hStarted
    rw [LocalHealth.isHealthy, HealthStatus.healthy, Bool.and_eq_true, hFault,
      Option.isNone_iff_eq_none] at hHealthy
    refine ⟨hHealthy.1, Bool.eq_false_iff.mpr fun hSeen => ?_⟩
    have hSome := hReported hSeen
    rw [hHealthy.2] at hSome
    cases hSome

theorem started_fail (state : FreshnessState Instant) (kind : FailureKind)
    (h : (state.fail kind).freshness.proof.started.isSome = true) :
    state.freshness.proof.started.isSome = true := by
  cases kind with
  | unavailable =>
      simp only [FreshnessState.fail, ConsensusFreshness.markUnavailable] at h
      split at h <;> exact h
  | rejected => cases h

/-- A fault does not change what was observed; it is not reported yet. -/
theorem Invariant.failBinding (h : loop.Invariant delayTicks) (fault : BindFault) :
    { loop with health := loop.health.step (.failBinding fault) }.Invariant delayTicks := by
  have hProbe : (loop.health.step (.failBinding fault)).status.probeHealthy =
      loop.health.status.probeHealthy := by
    simp only [LocalHealth.step, HealthStatus.failBinding]
    split <;> rfl
  refine ⟨h.delay, h.counts, hProbe.trans h.probed, fun _ => ?_, fun hClaim => ?_⟩
  · simp only [LocalHealth.step, HealthStatus.failBinding]
    split
    · assumption
    · rfl
  · obtain ⟨hHealthy, hReported⟩ := h.sound hClaim
    exact ⟨hProbe.trans hHealthy, hReported⟩

/-- A round ends with a freshness that was sound before. -/
theorem Invariant.finish (h : loop.Invariant delayTicks) {shared : FreshnessState Instant}
    (hFresh : shared.freshness.proof.started.isSome = true → loop.Sound) :
    (loop.finish shared).Invariant delayTicks :=
  h.frame rfl rfl rfl (Or.rec False.elim hFresh)

end Publication

namespace Publication

variable {delayTicks : Nat} {loop : Publication Instant}

/-- A proof that makes fresh was made for a healthy node. -/
theorem healthy_of_recordProbe {state : FreshnessState Instant} {ready : Bool}
    {proof : VerifiedProgress Instant} {now : Instant}
    (h : (state.recordProbe digest fits ready proof now).freshness.proof.started.isSome = true) :
    proof.healthy = some true := by
  cases ready with
  | false => cases h
  | true =>
      simp only [FreshnessState.recordProbe, if_true, ConsensusFreshness.recordApplied] at h
      cases hAcceptable : state.freshness.acceptable digest fits proof state.authority now with
      | error reason =>
          simp only [hAcceptable] at h
          cases h
      | ok value => exact FreshnessState.acceptable_healthy digest fits hAcceptable

theorem Invariant.step (h : loop.Invariant delayTicks)
    (hShort : loop.results.length < Word64.maxWord) (event : PublicationEvent Instant) :
    (loop.step digest fits event).Invariant delayTicks := by
  have hClaim : ∀ phase, loop.phase = phase → ({ loop with phase := phase }.Healthy → loop.Sound) :=
    fun _ hPhase hHealthy => h.sound (.inl (by rwa [Healthy, hPhase]))
  have hFresh := fun hFresh => h.sound (.inr hFresh)
  unfold Publication.step
  split
  · exact invariant_observe h.delay h.counts h.fault hShort _
  · split
    · rename_i hSeen
      rw [Bool.and_eq_true] at hSeen
      refine invariant_observe ?_ ?_ ?_ ?_ false
      · exact h.delay
      · exact h.counts
      · exact fun _ => hSeen.2
      · exact hShort
    · exact h
  · rename_i ok _ hReadying
    refine h.frame rfl rfl rfl (Or.rec (fun hHealthy => hClaim _ hReadying ?_) hFresh)
    cases ok with
    | true => rfl
    | false => cases hHealthy
  · exact h.finish fun hStarted => by cases hStarted
  · rename_i hActivating
    exact h.frame rfl rfl rfl (Or.rec (fun _ => hClaim _ hActivating trivial) hFresh)
  · rename_i hPublishing
    split
    · rename_i hProof
      refine h.frame rfl rfl rfl (Or.rec (fun hHealthy => hClaim _ hPublishing ?_) hFresh)
      exact Option.some.inj (hProof.symm.trans hHealthy)
    · exact h
  · exact h.finish fun hStarted => hFresh (started_fail _ _ hStarted)
  · rename_i hRecording
    exact h.finish fun hStarted => hClaim _ hRecording (healthy_of_recordProbe digest fits hStarted)
  · exact h.failBinding _
  · exact h.frame rfl rfl rfl (Or.rec (fun hHealthy => h.sound (.inl hHealthy))
      fun hStarted => hFresh (started_fail _ _ hStarted))
  · exact h.frame rfl rfl rfl h.sound
  · exact h

/-- One event adds at most one result, and a reported fault stays reported. -/
theorem step_results (loop : Publication Instant) (event : PublicationEvent Instant) :
    (loop.step digest fits event).results.length ≤ loop.results.length + 1 ∧
      (loop.bindFaultReported = true →
        (loop.step digest fits event).bindFaultReported = true) := by
  unfold Publication.step
  split
  case h_1 => exact ⟨le_rfl, id⟩
  case h_2 =>
    split
    · exact ⟨le_rfl, fun _ => rfl⟩
    · exact ⟨Nat.le_succ _, id⟩
  case h_6 => split <;> exact ⟨Nat.le_succ _, id⟩
  all_goals exact ⟨Nat.le_succ _, id⟩

theorem fresh_of_fresh {proof : Proof Instant} {lifetime : Nat} {authority : RuntimeAuthority Instant}
    {now : Instant} (h : proof.fresh digest fits lifetime authority now = true) :
    proof.started.isSome = true := by
  cases hStarted : proof.started with
  | none => simp [Proof.fresh, Proof.deadline, hStarted] at h
  | some started => rfl

theorem fresh_of_permits {now : Instant} (h : loop.Permits digest fits now) : loop.Fresh := by
  obtain ⟨hasLeader, hAcquired⟩ | ⟨stamp, hRetained⟩ := h
  · unfold ConsensusFreshness.acquire at hAcquired
    split at hAcquired
    · rename_i hFresh
      rw [Bool.and_eq_true] at hFresh
      exact fresh_of_fresh digest fits hFresh.2
    · cases hAcquired
  · unfold ConsensusFreshness.retain at hRetained
    obtain ⟨permit, hPermit⟩ := Option.isSome_iff_exists.mp hRetained
    obtain ⟨progress, -, hBody⟩ := Option.bind_eq_some_iff.mp hPermit
    split at hBody
    · rename_i hFresh
      exact fresh_of_fresh digest fits hFresh.2.2.2
    · cases hBody

end Publication

namespace PublicationRun

variable {run : PublicationRun Instant}

theorem invariant_after (hShort : run.events.length < 2 ^ 64) {i : Nat} (hi : i ≤ run.events.length) :
    (run.after i).Invariant run.delayTicks := by
  refine (Runs.stateAt_indexed _ _ (fun i (loop : Publication Instant) =>
    loop.Invariant run.delayTicks ∧ loop.results.length ≤ i) ⟨?_, le_rfl⟩ ?_ i hi).1
  · refine ⟨rfl, (LocalHealth.Tracks.start run.delayTicks).counts, rfl, fun h => ?_, ?_⟩
    · cases h
    · rintro (h | h) <;> cases h
  · intro i hLt h
    have hBelow : i < Word64.maxWord := by
      rw [Word64.maxWord]
      omega
    refine ⟨h.1.step run.digest run.fits (h.2.trans_lt hBelow) _, ?_⟩
    exact (Publication.step_results run.digest run.fits _ _).1.trans (Nat.succ_le_succ h.2)

/-- A fault that was reported once stays reported. -/
theorem reported_later {i j : Nat} (hij : i ≤ j) (hj : j ≤ run.events.length)
    (h : (run.after i).bindFaultReported = true) : (run.after j).bindFaultReported = true :=
  Runs.stateAt_related _ _
    (fun loop later : Publication Instant =>
      loop.bindFaultReported = true → later.bindFaultReported = true)
    (fun _ => id) (fun _ _ _ hFirst hNext hSeen => hNext (hFirst hSeen))
    (fun _ _ => (Publication.step_results run.digest run.fits _ _).2) hij hj h

/-- Whatever the other tasks do between two awaits, a permit can be issued, and a healthy
placement submitted, only while one of the last `delayTicks + 1` rounds saw a success and no
bind fault was ever reported. -/
theorem effects_rest_on_probes (run : PublicationRun Instant) (hShort : run.events.length < 2 ^ 64)
    (i : Nat) (hi : i ≤ run.events.length) (now : Instant)
    (hEffect : (run.after i).Permits run.digest run.fits now ∨
      (run.after i).phase = .publishing true) :
    true ∈ (run.after i).results.take (run.delayTicks + 1) ∧
      ∀ j ≤ i, (run.after j).bindFaultReported = false := by
  have h := invariant_after hShort hi
  have hSound : (run.after i).Sound := by
    apply h.sound
    rcases hEffect with hPermits | hPublishing
    · exact .inr (Publication.fresh_of_permits run.digest run.fits hPermits)
    · exact .inl (by rw [Publication.Healthy, hPublishing])
  constructor
  · have hWindow := h.counts.healthy_iff.mp (h.probed ▸ hSound.1)
    rwa [h.delay] at hWindow
  · intro j hj
    rw [← Bool.not_eq_true]
    intro hReported
    have hLater := reported_later hj hi hReported
    rw [hSound.2] at hLater
    cases hLater

end PublicationRun

end Loop

/-- A round that makes the node fresh, and one that reports a bind fault. -/
def PublicationRun.faulted : PublicationRun ℤ where
  digest := FreshnessRun.renewals.digest
  fits := FreshnessRun.renewals.fits
  delayTicks := 2
  lifetime := 10
  identity := 0
  authority := FreshnessRun.renewals.authority
  events := [⟨8, .probed true⟩, ⟨8, .readiness (.ok .ready)⟩, ⟨8, .activation true⟩,
    ⟨9, .published (.ok (FreshnessRun.renewal 8 4))⟩, ⟨10, .activation true⟩,
    ⟨12, .failBinding .failed⟩, ⟨13, .bindFailure⟩]

theorem PublicationRun.effects_rest_on_probes_faulted :
    true ∈ (faulted.after 5).results.take 3 ∧
      ¬(faulted.after 7).Permits faulted.digest faulted.fits 14 := by
  constructor
  · refine (effects_rest_on_probes faulted (by decide) 5 (by decide) 11 ?_).1
    exact Or.inl (Or.inl ⟨true, by decide +kernel⟩)
  · intro hPermits
    have hReported := (effects_rest_on_probes faulted (by decide) 7 (by decide) 14 (.inl hPermits)).2
    exact absurd (hReported 7 le_rfl) (by decide +kernel)

end KeepAfloat
