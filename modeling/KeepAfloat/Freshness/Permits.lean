import KeepAfloat.Freshness.Proof

/-! Permits over whole runs. Acquiring, retaining and checking read the proof and at
most find the permission behind it expired, which a `current` call of its own would.
So a run is the list of calls that change the proof or the authority, and a permit is
issued or checked at a moment of the run: a number of calls that have happened and a
clock reading between the last of them and the next. -/

namespace KeepAfloat

/-- The proof of one process and the authority that it consults. -/
structure FreshnessState (Instant : Type) where
  freshness : ConsensusFreshness Instant
  authority : RuntimeAuthority Instant

inductive FreshnessCall (Instant : Type) where
  | recordApplied (progress : VerifiedProgress Instant)
  | markUnavailable
  | invalidate
  | authority (call : RuntimeAuthority.Call Instant)

/-- A call and its first reading of the clock. -/
structure FreshnessEvent (Instant : Type) where
  now : Instant
  call : FreshnessCall Instant

namespace FreshnessEvent

variable {Instant : Type} [LinearOrder Instant]

/-- The last reading of the call. -/
def finished (event : FreshnessEvent Instant) : Instant :=
  match event.call with
  | .authority call => RuntimeAuthority.TimedCall.finished ⟨event.now, call⟩
  | _ => event.now

def WellTimed (event : FreshnessEvent Instant) : Prop :=
  match event.call with
  | .authority call => RuntimeAuthority.TimedCall.WellTimed ⟨event.now, call⟩
  | _ => True

theorem WellTimed.now_le_finished {event : FreshnessEvent Instant} (h : event.WellTimed) :
    event.now ≤ event.finished := by
  obtain ⟨now, call⟩ := event
  cases call with
  | authority call => exact RuntimeAuthority.TimedCall.WellTimed.now_le_finished h
  | _ => exact le_rfl

end FreshnessEvent

section Run

variable {Instant : Type} [CommRing Instant] [LinearOrder Instant]
variable (digest : Genesis → BitVec 256) (fits : Instant → Bool)

namespace FreshnessState

def step (state : FreshnessState Instant) (event : FreshnessEvent Instant) :
    FreshnessState Instant :=
  match event.call with
  | .recordApplied progress =>
      { state with
        freshness := (state.freshness.recordApplied digest fits progress state.authority
          event.now).2 }
  | .markUnavailable => { state with freshness := state.freshness.markUnavailable }
  | .invalidate => { state with freshness := state.freshness.invalidate }
  | .authority call => { state with authority := state.authority.step digest ⟨event.now, call⟩ }

/-- The proof that a call records, if it is accepted. -/
def accepted (state : FreshnessState Instant) (event : FreshnessEvent Instant) :
    Option (VerifiedProgress Instant) :=
  match event.call with
  | .recordApplied progress =>
      if (state.freshness.recordApplied digest fits progress state.authority event.now).1 = .ok ()
      then some progress else none
  | _ => none

/-- What a call can do to the proof. -/
inductive Moves (state : FreshnessState Instant) (event : FreshnessEvent Instant) :
    Proof Instant → Prop where
  | idle (hAccepted : accepted digest fits state event = none) :
      Moves state event state.freshness.proof
  | renew (progress : VerifiedProgress Instant)
      (hAccepted : accepted digest fits state event = some progress)
      (hHealthy : progress.healthy = some true)
      (hContinues : state.freshness.continues digest fits progress state.authority event.now) :
      Moves state event { state.freshness.proof with
        started := some progress.started
        available := true
        progress := some progress }
  | replace (progress : VerifiedProgress Instant)
      (hAccepted : accepted digest fits state event = some progress)
      (hHealthy : progress.healthy = some true) :
      Moves state event { state.freshness.proof with
        started := some progress.started
        invalidationEpoch := Word64.wrappingAdd state.freshness.proof.invalidationEpoch 1
        available := true
        progress := some progress }
  | unavailable (hAvailable : state.freshness.proof.available = true)
      (hAccepted : accepted digest fits state event = none) :
      Moves state event { state.freshness.proof with
        available := false
        acquisitionEpoch := Word64.wrappingAdd state.freshness.proof.acquisitionEpoch 1 }
  | invalidate (hAccepted : accepted digest fits state event = none) :
      Moves state event { state.freshness.proof with
        started := none
        available := false
        invalidationEpoch := Word64.wrappingAdd state.freshness.proof.invalidationEpoch 1 }

theorem acceptable_healthy {freshness : ConsensusFreshness Instant}
    {progress : VerifiedProgress Instant} {authority : RuntimeAuthority Instant} {now : Instant}
    (h : freshness.acceptable digest fits progress authority now = .ok ()) :
    progress.healthy = some true := by
  by_contra hUnhealthy
  simp [ConsensusFreshness.acceptable, hUnhealthy] at h

theorem step_moves (state : FreshnessState Instant) (event : FreshnessEvent Instant) :
    Moves digest fits state event (step digest fits state event).freshness.proof := by
  obtain ⟨now, call⟩ := event
  cases call with
  | authority call => exact .idle rfl
  | invalidate => exact .invalidate rfl
  | markUnavailable =>
      simp only [step, ConsensusFreshness.markUnavailable]
      split
      · exact .unavailable ‹_› rfl
      · exact .idle rfl
  | recordApplied progress =>
      have hAccepted : ∀ answer,
          (state.freshness.recordApplied digest fits progress state.authority now).1 = answer →
          accepted digest fits state ⟨now, .recordApplied progress⟩ =
            if answer = .ok () then some progress else none := by
        rintro answer rfl
        rfl
      simp only [step]
      cases hAcceptable : state.freshness.acceptable digest fits progress state.authority now with
      | error rejected =>
          have hRecord : state.freshness.recordApplied digest fits progress state.authority now =
              (.error rejected, state.freshness) := by
            simp only [ConsensusFreshness.recordApplied, hAcceptable]
          rw [hRecord]
          exact .idle (hAccepted _ (congrArg Prod.fst hRecord))
      | ok _ =>
          have hHealthy := acceptable_healthy digest fits hAcceptable
          by_cases hStalls : ConsensusFreshness.stalls state.freshness.proof progress
          · have hRecord : state.freshness.recordApplied digest fits progress state.authority now =
                (.error ⟨"health proof does not advance verified progress"⟩, state.freshness) := by
              simp only [ConsensusFreshness.recordApplied, hAcceptable, hStalls, if_true]
            rw [hRecord]
            exact .idle (hAccepted _ (congrArg Prod.fst hRecord))
          · have hOk : (state.freshness.recordApplied digest fits progress state.authority now).1 =
                .ok () := by
              simp only [ConsensusFreshness.recordApplied, hAcceptable, hStalls, if_false,
                Bool.false_eq_true]
            simp only [ConsensusFreshness.recordApplied, hAcceptable, hStalls, if_false,
              Bool.false_eq_true]
            split
            · exact .renew progress (hAccepted _ hOk) hHealthy ‹_›
            · exact .replace progress (hAccepted _ hOk) hHealthy

/-- A call leaves the lifetime and the identity of the proof alone. -/
theorem step_fixed (state : FreshnessState Instant) (event : FreshnessEvent Instant) :
    (step digest fits state event).freshness.lifetime = state.freshness.lifetime ∧
      (step digest fits state event).freshness.identity = state.freshness.identity := by
  obtain ⟨now, call⟩ := event
  cases call with
  | authority call => exact ⟨rfl, rfl⟩
  | invalidate => exact ⟨rfl, rfl⟩
  | markUnavailable =>
      simp only [step, ConsensusFreshness.markUnavailable]
      split <;> exact ⟨rfl, rfl⟩
  | recordApplied progress =>
      simp only [step, ConsensusFreshness.recordApplied]
      split
      · exact ⟨rfl, rfl⟩
      · split <;> exact ⟨rfl, rfl⟩

/-- The authority backs the context at this reading. -/
def Admitted (authority : RuntimeAuthority Instant) (context : AdmissionContext) (now : Instant) :
    Prop :=
  context.localReplica = authority.localReplica ∧ ∃ stage deadline,
    authority.permission = .active (authority.identity digest context) stage deadline ∧
      now < deadline

omit [CommRing Instant] in
/-- A proof checks exactly while its context is admitted and its own admission lasts. -/
theorem check_isOk {progress : VerifiedProgress Instant} {authority : RuntimeAuthority Instant}
    {now : Instant} :
    (progress.check digest authority now).isOk = true ↔
      Admitted digest authority progress.context now ∧ now < progress.acceptedDeadline := by
  have hIsOk : ∀ answer : Except AdmissionDenied Unit, answer.isOk = true ↔ answer = .ok () := by
    intro answer
    cases answer <;> simp [Except.isOk, Except.toBool]
  rw [hIsOk]
  simp only [VerifiedProgress.check, Checks.bind_eq_ok, RuntimeAuthority.check, okOr_eq_ok,
    Checks.pure_eq_ok]
  constructor
  · rintro ⟨deadline, ⟨⟨context, inForce⟩, hCurrent, _, hMatch, rfl⟩, _, hNow, hAccepted⟩
    obtain ⟨stage, hActive, -⟩ := RuntimePermission.current_eq_some.mp hCurrent
    obtain ⟨hLocal, rfl⟩ := of_decide_eq_true (ensure_eq_ok.mp hMatch)
    exact ⟨⟨hLocal, stage, inForce, hActive, of_decide_eq_true (ensure_eq_ok.mp hNow)⟩,
      of_decide_eq_true (ensure_eq_ok.mp hAccepted)⟩
  · rintro ⟨⟨hLocal, stage, deadline, hActive, hNow⟩, hAccepted⟩
    have hCurrent : (authority.permission.current now).1 =
        some (authority.identity digest progress.context, deadline) :=
      RuntimePermission.current_eq_some.mpr ⟨stage, hActive, hNow⟩
    exact ⟨deadline, ⟨_, hCurrent, (), ensure_eq_ok.mpr (decide_eq_true ⟨hLocal, rfl⟩), rfl⟩, (),
      ensure_eq_ok.mpr (decide_eq_true hNow), ensure_eq_ok.mpr (decide_eq_true hAccepted)⟩

/-- The authority after a call. -/
theorem step_authority (state : FreshnessState Instant) (event : FreshnessEvent Instant) :
    (step digest fits state event).authority = state.authority ∨
      ∃ call, (step digest fits state event).authority =
        state.authority.step digest ⟨event.now, call⟩ := by
  obtain ⟨now, call⟩ := event
  cases call with
  | authority call => exact .inr ⟨call, rfl⟩
  | _ => exact .inl rfl

end FreshnessState

end Run

/-- A run of calls at non-decreasing times, from a fresh proof and any authority. -/
structure FreshnessRun (Instant : Type) [CommRing Instant] [LinearOrder Instant] where
  digest : Genesis → BitVec 256
  fits : Instant → Bool
  lifetime : Nat
  identity : Nat
  authority : RuntimeAuthority Instant
  events : List (FreshnessEvent Instant)
  wellTimed : ∀ event ∈ events, event.WellTimed
  ordered : events.Pairwise fun earlier later => earlier.finished ≤ later.now

namespace FreshnessRun

variable {Instant : Type} [CommRing Instant] [LinearOrder Instant] (run : FreshnessRun Instant)

/-- The process after the first `i` calls. -/
def stateAt (i : Nat) : FreshnessState Instant :=
  Runs.stateAt (FreshnessState.step run.digest run.fits)
    ⟨.new run.lifetime run.identity, run.authority⟩ run.events i

def proofAt (i : Nat) : Proof Instant := (run.stateAt i).freshness.proof

/-- `i` calls have happened at the reading `now`. -/
structure Moment (i : Nat) (now : Instant) : Prop where
  bound : i ≤ run.events.length
  past : ∀ k (h : k < run.events.length), k < i → (run.events[k]).finished ≤ now
  future : ∀ k (h : k < run.events.length), i ≤ k → now ≤ (run.events[k]).now

/-- Neither epoch is counted up as often as it takes to go round. -/
def FewEpochs : Prop :=
  Word64.changes (fun i => (run.proofAt i).invalidationEpoch) run.events.length < 2 ^ 64 ∧
  Word64.changes (fun i => (run.proofAt i).acquisitionEpoch) run.events.length < 2 ^ 64

/-- The proof that call `i` records. -/
def acceptedAt (i : Nat) : Option (VerifiedProgress Instant) :=
  run.events[i]?.bind (FreshnessState.accepted run.digest run.fits (run.stateAt i))

/-- `progress` is the last proof accepted by the first `i` calls. -/
def LatestAccepted (i : Nat) (progress : VerifiedProgress Instant) : Prop :=
  ∃ m, m < i ∧ run.acceptedAt m = some progress ∧ ∀ n, m < n → n < i → run.acceptedAt n = none

def checkAt (permit : Permit Instant) (i : Nat) (now : Instant) : Bool :=
  permit.check run.digest (run.stateAt i).freshness (run.stateAt i).authority now

def acquireAt (hasLeader : Bool) (i : Nat) (now : Instant) : Option (Permit Instant) :=
  (run.stateAt i).freshness.acquire run.digest run.fits hasLeader (run.stateAt i).authority now

def retainAt (stamp : RetentionStamp) (i : Nat) (now : Instant) : Option (Permit Instant) :=
  (run.stateAt i).freshness.retain run.digest run.fits stamp (run.stateAt i).authority now

variable {run}

theorem stateAt_succ {i : Nat} (h : i < run.events.length) :
    run.stateAt (i + 1) = (run.stateAt i).step run.digest run.fits run.events[i] :=
  Runs.stateAt_succ _ _ h

theorem proof_moves {i : Nat} (h : i < run.events.length) :
    FreshnessState.Moves run.digest run.fits (run.stateAt i) run.events[i] (run.proofAt (i + 1)) := by
  rw [proofAt, stateAt_succ h]
  exact FreshnessState.step_moves run.digest run.fits _ _

theorem fixed (run : FreshnessRun Instant) (i : Nat) :
    (run.stateAt i).freshness.lifetime = run.lifetime ∧
      (run.stateAt i).freshness.identity = run.identity := by
  apply Runs.stateAt_invariant _ _ (fun state : FreshnessState Instant =>
    state.freshness.lifetime = run.lifetime ∧ state.freshness.identity = run.identity)
  · exact ⟨rfl, rfl⟩
  · rintro state event ⟨hLifetime, hIdentity⟩
    obtain ⟨hLifetime', hIdentity'⟩ := FreshnessState.step_fixed run.digest run.fits state event
    exact ⟨hLifetime'.trans hLifetime, hIdentity'.trans hIdentity⟩

theorem acceptedAt_eq {i : Nat} (h : i < run.events.length) :
    run.acceptedAt i = FreshnessState.accepted run.digest run.fits (run.stateAt i) run.events[i] := by
  simp [acceptedAt, List.getElem?_eq_getElem h]

/-- What is known about the recorded proof at every moment. -/
structure Recorded (run : FreshnessRun Instant) (i : Nat) : Prop where
  latest : ∀ progress, (run.proofAt i).progress = some progress →
    run.LatestAccepted i progress ∧ progress.healthy = some true
  started : ∀ started, (run.proofAt i).started = some started →
    ∃ progress, (run.proofAt i).progress = some progress ∧ progress.started = started

theorem LatestAccepted.later {i : Nat} {progress : VerifiedProgress Instant}
    (h : run.LatestAccepted i progress) (hNone : run.acceptedAt i = none) :
    run.LatestAccepted (i + 1) progress := by
  obtain ⟨m, hm, hAccepted, hOthers⟩ := h
  refine ⟨m, Nat.lt_succ_of_lt hm, hAccepted, ?_⟩
  intro n hmn hn
  rcases Nat.lt_succ_iff_lt_or_eq.mp hn with hLt | rfl
  · exact hOthers n hmn hLt
  · exact hNone

theorem LatestAccepted.new {i : Nat} {progress : VerifiedProgress Instant}
    (h : run.acceptedAt i = some progress) : run.LatestAccepted (i + 1) progress :=
  ⟨i, Nat.lt_succ_self i, h, fun _ hin hn => absurd hin (by omega)⟩

theorem Recorded.zero (run : FreshnessRun Instant) : run.Recorded 0 := by
  constructor
  · intro progress h
    cases h
  · intro started h
    cases h

theorem Recorded.succ {i : Nat} (h : run.Recorded i) (hi : i < run.events.length) :
    run.Recorded (i + 1) := by
  have hMoves := proof_moves hi
  have hAccepted := acceptedAt_eq hi
  have hKept : run.acceptedAt i = none → ∀ progress, (run.proofAt i).progress = some progress →
      run.LatestAccepted (i + 1) progress ∧ progress.healthy = some true := by
    intro hNone progress hProgress
    obtain ⟨hLatest, hHealthy⟩ := h.latest progress hProgress
    exact ⟨hLatest.later hNone, hHealthy⟩
  have hNew : ∀ recorded : VerifiedProgress Instant, run.acceptedAt i = some recorded →
      recorded.healthy = some true → ∀ progress, some recorded = some progress →
      run.LatestAccepted (i + 1) progress ∧ progress.healthy = some true := by
    rintro recorded hSome hHealthy progress ⟨⟩
    exact ⟨.new hSome, hHealthy⟩
  constructor
  · generalize run.proofAt (i + 1) = after at hMoves
    cases hMoves with
    | idle hNone => exact hKept (hAccepted.trans hNone)
    | unavailable _ hNone => exact hKept (hAccepted.trans hNone)
    | invalidate hNone => exact hKept (hAccepted.trans hNone)
    | renew progress hSome hHealthy _ => exact hNew progress (hAccepted.trans hSome) hHealthy
    | replace progress hSome hHealthy => exact hNew progress (hAccepted.trans hSome) hHealthy
  · intro started hStarted
    generalize run.proofAt (i + 1) = after at hMoves hStarted
    cases hMoves with
    | idle _ => exact h.started started hStarted
    | unavailable _ _ => exact h.started started hStarted
    | invalidate _ => cases hStarted
    | renew progress _ _ _ => exact ⟨progress, rfl, Option.some.inj hStarted⟩
    | replace progress _ _ => exact ⟨progress, rfl, Option.some.inj hStarted⟩

theorem recorded (run : FreshnessRun Instant) {i : Nat} (hi : i ≤ run.events.length) :
    run.Recorded i := by
  induction i with
  | zero => exact .zero run
  | succ i ih => exact (ih (Nat.le_of_succ_le hi)).succ hi

/-- Counting up is the only way an epoch changes. -/
theorem epochs_step {i : Nat} (hi : i < run.events.length) :
    ((run.proofAt (i + 1)).invalidationEpoch = (run.proofAt i).invalidationEpoch ∨
      (run.proofAt (i + 1)).invalidationEpoch =
        Word64.wrappingAdd (run.proofAt i).invalidationEpoch 1) ∧
    ((run.proofAt (i + 1)).acquisitionEpoch = (run.proofAt i).acquisitionEpoch ∨
      (run.proofAt (i + 1)).acquisitionEpoch =
        Word64.wrappingAdd (run.proofAt i).acquisitionEpoch 1) := by
  have hMoves := proof_moves hi
  generalize run.proofAt (i + 1) = after at hMoves
  cases hMoves with
  | idle _ => exact ⟨.inl rfl, .inl rfl⟩
  | renew _ _ _ _ => exact ⟨.inl rfl, .inl rfl⟩
  | replace _ _ _ => exact ⟨.inr rfl, .inl rfl⟩
  | unavailable _ _ => exact ⟨.inl rfl, .inr rfl⟩
  | invalidate _ => exact ⟨.inr rfl, .inl rfl⟩

/-- Neither epoch takes a value again after leaving it. -/
theorem FewEpochs.invalidation_steady (hFew : run.FewEpochs) {i j k : Nat} (hij : i ≤ j)
    (hjk : j ≤ k) (hk : k ≤ run.events.length)
    (hEpoch : (run.proofAt i).invalidationEpoch = (run.proofAt k).invalidationEpoch) :
    (run.proofAt j).invalidationEpoch = (run.proofAt i).invalidationEpoch :=
  @Word64.steady_of_eq (fun i => (run.proofAt i).invalidationEpoch) _ (Nat.zero_le _)
    (fun _ hn => (epochs_step hn).1) hFew.1 _ _ hk hEpoch _ hij hjk

theorem FewEpochs.acquisition_steady (hFew : run.FewEpochs) {i j k : Nat} (hij : i ≤ j)
    (hjk : j ≤ k) (hk : k ≤ run.events.length)
    (hEpoch : (run.proofAt i).acquisitionEpoch = (run.proofAt k).acquisitionEpoch) :
    (run.proofAt j).acquisitionEpoch = (run.proofAt i).acquisitionEpoch :=
  @Word64.steady_of_eq (fun i => (run.proofAt i).acquisitionEpoch) _ (Nat.zero_le _)
    (fun _ hn => (epochs_step hn).2) hFew.2 _ _ hk hEpoch _ hij hjk

/-- A proof of the context is recorded, and a bound that goes with it is not reached. -/
def Lasting (bound : Proof Instant → Option Instant) (context : AdmissionContext)
    (proof : Proof Instant) (now : Instant) : Prop :=
  (∃ progress, proof.progress = some progress ∧ progress.context = context) ∧
    ∃ deadline, bound proof = some deadline ∧ now < deadline

omit [CommRing Instant] in
theorem Lasting.earlier {bound : Proof Instant → Option Instant} {context : AdmissionContext}
    {proof : Proof Instant} {now earlier : Instant} (h : Lasting bound context proof now)
    (hEarlier : earlier ≤ now) : Lasting bound context proof earlier := by
  obtain ⟨hProgress, deadline, hDeadline, hNow⟩ := h
  exact ⟨hProgress, deadline, hDeadline, hEarlier.trans_lt hNow⟩

/-- A bound that is read off the recorded proof and lasts while the proof is fresh. -/
structure Bounds (run : FreshnessRun Instant) (bound : Proof Instant → Option Instant) : Prop where
  congr : ∀ proof proof' : Proof Instant, proof.started = proof'.started →
    proof.progress = proof'.progress → bound proof = bound proof'
  fresh : ∀ (proof : Proof Instant) authority now,
    proof.fresh run.digest run.fits run.lifetime authority now = true →
    proof.progress.isSome → ∃ deadline, bound proof = some deadline ∧ now < deadline

/-- Where the epoch stands still, what lasts after a call lasted when it was made. -/
theorem Lasting.before {bound : Proof Instant → Option Instant} (hBounds : run.Bounds bound)
    {context : AdmissionContext} {i : Nat} {now : Instant} (hi : i < run.events.length)
    (hSteady : (run.proofAt (i + 1)).invalidationEpoch = (run.proofAt i).invalidationEpoch)
    (hNow : (run.events[i]).now ≤ now) (h : Lasting bound context (run.proofAt (i + 1)) now) :
    Lasting bound context (run.proofAt i) (run.events[i]).now := by
  have hMoves := proof_moves hi
  generalize run.proofAt (i + 1) = after at hMoves hSteady h
  have hSame : after.started = (run.proofAt i).started → after.progress = (run.proofAt i).progress →
      Lasting bound context (run.proofAt i) (run.events[i]).now := by
    intro hStarted hProgress
    have hLasting := h.earlier hNow
    unfold Lasting at hLasting ⊢
    rwa [hBounds.congr _ _ hStarted hProgress, hProgress] at hLasting
  cases hMoves with
  | idle _ => exact hSame rfl rfl
  | unavailable _ _ => exact hSame rfl rfl
  | replace _ _ _ => exact absurd hSteady (Word64.wrappingAdd_one_ne _)
  | invalidate _ => exact absurd hSteady (Word64.wrappingAdd_one_ne _)
  | renew progress _ _ hContinues =>
      obtain ⟨⟨_, hProgress, hContext⟩, -⟩ := h
      obtain rfl := Option.some.inj hProgress
      simp only [ConsensusFreshness.continues, Bool.and_eq_true, Option.any_eq_true,
        decide_eq_true_eq] at hContinues
      obtain ⟨hFresh, previous, hPrevious, hMatch⟩ := hContinues
      rw [(run.fixed i).1] at hFresh
      refine ⟨⟨previous, hPrevious, hMatch.trans hContext⟩, ?_⟩
      exact hBounds.fresh (run.proofAt i) _ _ hFresh (by rw [proofAt, hPrevious]; rfl)

theorem now_le_finished {i : Nat} (hi : i < run.events.length) :
    (run.events[i]).now ≤ (run.events[i]).finished :=
  (run.wellTimed _ (List.getElem_mem hi)).now_le_finished

theorem finished_le_now {i j : Nat} (hij : i < j) (hj : j < run.events.length) :
    (run.events[i]).finished ≤ (run.events[j]).now :=
  List.pairwise_iff_getElem.mp run.ordered i j (hij.trans hj) hj hij

/-- A call is made at a moment. -/
theorem moment_of_call {i : Nat} (hi : i < run.events.length) :
    run.Moment i (run.events[i]).now := by
  constructor
  · exact hi.le
  · intro k hk hki
    exact finished_le_now hki hi
  · intro k hk hik
    obtain rfl | hLt := hik.eq_or_lt
    · exact le_rfl
    · exact (now_le_finished hi).trans (finished_le_now hLt hk)

/-- What lasts at one moment lasted at every earlier one of the same epoch. -/
theorem Lasting.since {bound : Proof Instant → Option Instant} (hBounds : run.Bounds bound)
    {context : AdmissionContext} {j k : Nat} {now reading : Instant}
    (hReading : run.Moment j reading) (hjk : j ≤ k)
    (hSteady : ∀ n, j ≤ n → n ≤ k →
      (run.proofAt n).invalidationEpoch = (run.proofAt j).invalidationEpoch)
    (hMoment : run.Moment k now) (hLe : reading ≤ now)
    (h : Lasting bound context (run.proofAt k) now) :
    Lasting bound context (run.proofAt j) reading := by
  induction k, hjk using Nat.le_induction generalizing now with
  | base => exact h.earlier hLe
  | succ k hjk ih =>
      have hk : k < run.events.length := hMoment.bound
      have hNow : (run.events[k]).now ≤ now :=
        (now_le_finished hk).trans (hMoment.past k hk (Nat.lt_succ_self k))
      have hStep := (hSteady (k + 1) (Nat.le_succ_of_le hjk) le_rfl).trans
        (hSteady k hjk (Nat.le_succ k)).symm
      have hBefore := Lasting.before hBounds hk hStep hNow h
      apply ih _ (moment_of_call hk) (hReading.future k hk hjk) hBefore
      intro n hjn hnk
      exact hSteady n hjn (Nat.le_succ_of_le hnk)

/-- The bound of a proof by itself: the admission that came with it. -/
def ownBound (proof : Proof Instant) : Option Instant :=
  proof.progress.map VerifiedProgress.acceptedDeadline

theorem ownBound_bounds (run : FreshnessRun Instant) : run.Bounds ownBound := by
  constructor
  · intro proof proof' _ hProgress
    simp only [ownBound, hProgress]
  · intro proof authority now hFresh hSome
    obtain ⟨progress, hProgress⟩ := Option.isSome_iff_exists.mp hSome
    simp only [Proof.fresh, hProgress, Bool.and_eq_true, Option.all_some] at hFresh
    exact ⟨progress.acceptedDeadline, by simp [ownBound, hProgress],
      ((FreshnessState.check_isOk run.digest).mp hFresh.2).2⟩

theorem deadline_bounds (run : FreshnessRun Instant) :
    run.Bounds fun proof => proof.deadline run.fits run.lifetime := by
  constructor
  · intro proof proof' hStarted hProgress
    simp only [Proof.deadline, hStarted, hProgress]
  · intro proof authority now hFresh _
    simp only [Proof.fresh, Bool.and_eq_true, Option.any_eq_true, decide_eq_true_eq] at hFresh
    exact hFresh.1

/-- While both epochs stand still an available proof stays available. -/
theorem available_since {i j : Nat} (hij : i ≤ j) (hj : j ≤ run.events.length)
    (hInvalidation : ∀ n, i ≤ n → n ≤ j →
      (run.proofAt n).invalidationEpoch = (run.proofAt i).invalidationEpoch)
    (hAcquisition : ∀ n, i ≤ n → n ≤ j →
      (run.proofAt n).acquisitionEpoch = (run.proofAt i).acquisitionEpoch)
    (h : (run.proofAt i).available = true) : (run.proofAt j).available = true := by
  induction j, hij using Nat.le_induction with
  | base => exact h
  | succ j hij ih =>
      have hPrior := ih (Nat.le_of_succ_le hj) (fun n hin hnj => hInvalidation n hin (by omega))
        (fun n hin hnj => hAcquisition n hin (by omega))
      have hStill := (hInvalidation (j + 1) (by omega) le_rfl).trans (hInvalidation j hij (by omega)).symm
      have hStill' := (hAcquisition (j + 1) (by omega) le_rfl).trans (hAcquisition j hij (by omega)).symm
      have hMoves := proof_moves hj
      generalize run.proofAt (j + 1) = after at hMoves hStill hStill' ⊢
      cases hMoves with
      | idle _ => exact hPrior
      | renew _ _ _ _ => rfl
      | replace _ _ _ => rfl
      | unavailable _ _ => exact absurd hStill' (Word64.wrappingAdd_one_ne _)
      | invalidate _ => exact absurd hStill (Word64.wrappingAdd_one_ne _)

def authorityAt (run : FreshnessRun Instant) (i : Nat) : RuntimeAuthority Instant :=
  (run.stateAt i).authority

theorem authority_step {i : Nat} (hi : i < run.events.length) :
    run.authorityAt (i + 1) = run.authorityAt i ∨
      ∃ call, run.authorityAt (i + 1) =
        (run.authorityAt i).step run.digest ⟨(run.events[i]).now, call⟩ := by
  unfold authorityAt
  rw [stateAt_succ hi]
  exact FreshnessState.step_authority run.digest run.fits _ _

/-- One boot has one replica, and its permission goes one way. -/
theorem authority_related {i j : Nat} (hij : i ≤ j) (hj : j ≤ run.events.length) :
    (run.authorityAt j).localReplica = (run.authorityAt i).localReplica ∧
      (run.authorityAt i).permission.Precedes (run.authorityAt j).permission := by
  induction j, hij using Nat.le_induction with
  | base => exact ⟨rfl, .refl _⟩
  | succ j hij ih =>
      obtain ⟨hLocal, hPrecedes⟩ := ih (Nat.le_of_succ_le hj)
      rcases authority_step hj with hSame | ⟨call, hStep⟩
      · rw [hSame]
        exact ⟨hLocal, hPrecedes⟩
      · rw [hStep]
        exact ⟨(RuntimeAuthority.step_local run.digest _ _).trans hLocal,
          hPrecedes.trans _ _ _ (RuntimeAuthority.step_precedes run.digest _ _)⟩

/-- A permission found expired is never extended. -/
theorem authority_expired {j k : Nat} {reading deadline : Instant} {context : AuthorityContext}
    {stage : Stage} (hReading : run.Moment j reading) (hExpired : deadline ≤ reading)
    (hActive : (run.authorityAt j).permission = .active context stage deadline) (hjk : j ≤ k)
    (hk : k ≤ run.events.length) :
    (run.authorityAt k).permission = .active context stage deadline ∨
      (run.authorityAt k).permission = .sealed := by
  induction k, hjk using Nat.le_induction with
  | base => exact .inl hActive
  | succ k hjk ih =>
      have hNow : deadline ≤ (run.events[k]).now := hExpired.trans (hReading.future k hk hjk)
      rcases authority_step hk with hSame | ⟨call, hStep⟩
      · rw [hSame]
        exact ih (Nat.le_of_succ_le hk)
      · rw [hStep]
        rcases ih (Nat.le_of_succ_le hk) with hStill | hSealed
        · exact RuntimeAuthority.step_expired run.digest hStill hNow
        · right
          have hPrecedes := RuntimeAuthority.step_precedes run.digest (run.authorityAt k)
            ⟨(run.events[k]).now, call⟩
          rwa [hSealed] at hPrecedes

/-- Admission is one interval: what is admitted at two moments is so in between. -/
theorem admitted_between {context : AdmissionContext} {i j k : Nat} {first reading last : Instant}
    (hReading : run.Moment j reading) (hij : i ≤ j) (hjk : j ≤ k) (hk : k ≤ run.events.length)
    (hLe : reading ≤ last)
    (hFirst : FreshnessState.Admitted run.digest (run.authorityAt i) context first)
    (hLast : FreshnessState.Admitted run.digest (run.authorityAt k) context last) :
    FreshnessState.Admitted run.digest (run.authorityAt j) context reading := by
  obtain ⟨hLocal, stage, deadline, hActive, -⟩ := hFirst
  obtain ⟨-, stage', deadline', hActive', hLast⟩ := hLast
  obtain ⟨hReplica, hBefore⟩ := authority_related hij (hjk.trans hk)
  obtain ⟨-, hAfter⟩ := authority_related hjk hk
  have hIdentity : (run.authorityAt j).identity run.digest context =
      (run.authorityAt i).identity run.digest context := by
    simp only [RuntimeAuthority.identity, hReplica]
  rw [hActive] at hBefore
  rw [hActive'] at hAfter
  refine ⟨hLocal.trans hReplica.symm, ?_⟩
  cases hPermission : (run.authorityAt j).permission with
  | quarantined ready =>
      rw [hPermission] at hBefore
      cases hBefore
  | sealed =>
      rw [hPermission] at hAfter
      cases hAfter
  | active context' stage'' deadline'' =>
      rw [hPermission] at hBefore
      obtain ⟨rfl, -, -⟩ := hBefore
      refine ⟨stage'', deadline'', by rw [hIdentity], ?_⟩
      by_contra hExpired
      rcases authority_expired hReading (not_lt.mp hExpired) hPermission hjk hk with hStill | hSealed
      · rw [hActive'] at hStill
        obtain ⟨-, -, rfl⟩ := RuntimePermission.active.inj hStill
        exact hExpired (hLe.trans_lt hLast)
      · rw [hActive'] at hSealed
        cases hSealed

/-- The permit was handed out at this moment. -/
def Issued (run : FreshnessRun Instant) (permit : Permit Instant) (i : Nat) (now : Instant) : Prop :=
  (∃ hasLeader, run.acquireAt hasLeader i now = some permit) ∨
    ∃ stamp, run.retainAt stamp i now = some permit

/-- What a permit rests on when it is handed out. -/
structure Grounds (run : FreshnessRun Instant) (permit : Permit Instant) (i : Nat)
    (now : Instant) : Prop where
  progress : (run.proofAt i).progress = some permit.progress
  context : permit.progress.context = permit.stamp.context
  epoch : (run.proofAt i).invalidationEpoch = permit.stamp.epoch
  fresh : (run.proofAt i).fresh run.digest run.fits run.lifetime (run.authorityAt i) now = true
  deadline : (run.proofAt i).deadline run.fits run.lifetime = some permit.deadline
  acquisition : ∀ epoch, permit.acquisitionEpoch = some epoch →
    (run.proofAt i).available = true ∧ (run.proofAt i).acquisitionEpoch = epoch

theorem Issued.grounds {permit : Permit Instant} {i : Nat} {now : Instant}
    (h : run.Issued permit i now) : run.Grounds permit i now := by
  have hLifetime := (run.fixed i).1
  rcases h with ⟨hasLeader, h⟩ | ⟨stamp, h⟩
  · simp only [acquireAt, ConsensusFreshness.acquire, hLifetime] at h
    split at h
    · rename_i hReady
      simp only [Bool.and_eq_true] at hReady
      obtain ⟨progress, hProgress, h⟩ := Option.bind_eq_some_iff.mp h
      obtain ⟨deadline, hDeadline, h⟩ := Option.bind_eq_some_iff.mp h
      obtain rfl := Option.some.inj h
      exact ⟨hProgress, rfl, rfl, hReady.2, hDeadline, by rintro epoch ⟨⟩; exact ⟨hReady.1.2, rfl⟩⟩
    · cases h
  · simp only [retainAt, ConsensusFreshness.retain, hLifetime] at h
    obtain ⟨progress, hProgress, h⟩ := Option.bind_eq_some_iff.mp h
    split at h
    · rename_i hReady
      obtain ⟨-, hEpoch, hContext, hFresh⟩ := hReady
      obtain ⟨deadline, hDeadline, h⟩ := Option.bind_eq_some_iff.mp h
      obtain rfl := Option.some.inj h
      exact ⟨hProgress, hContext, hEpoch, hFresh, hDeadline, by rintro epoch ⟨⟩⟩
    · cases h

theorem Grounds.admitted {permit : Permit Instant} {i : Nat} {now : Instant}
    (h : run.Grounds permit i now) :
    FreshnessState.Admitted run.digest (run.authorityAt i) permit.stamp.context now := by
  have hFresh := h.fresh
  simp only [Proof.fresh, h.progress, Bool.and_eq_true, Option.all_some] at hFresh
  rw [← h.context]
  exact ((FreshnessState.check_isOk run.digest).mp hFresh.2).1

/-- The deadline of a recorded proof is the earlier of its two bounds. -/
theorem deadline_eq_some {i : Nat} {deadline : Instant} {progress : VerifiedProgress Instant}
    (hi : i ≤ run.events.length) (hProgress : (run.proofAt i).progress = some progress)
    (h : (run.proofAt i).deadline run.fits run.lifetime = some deadline) :
    deadline = min (progress.started + run.lifetime) progress.acceptedDeadline := by
  obtain ⟨started, hStarted, h⟩ := Option.bind_eq_some_iff.mp h
  obtain ⟨stop, hStop, h⟩ := Option.bind_eq_some_iff.mp h
  obtain ⟨_, hSame, rfl⟩ := (run.recorded hi).started started hStarted
  obtain rfl := Option.some.inj (hProgress.symm.trans hSame)
  simp only [checkedAdd] at hStop
  split at hStop
  · obtain rfl := Option.some.inj hStop
    rw [← Option.some.inj h, hProgress]
    rfl
  · cases hStop

theorem checkAt_eq_true {permit : Permit Instant} {i : Nat} {now : Instant}
    (hContext : permit.progress.context = permit.stamp.context) :
    run.checkAt permit i now = true ↔
      FreshnessState.Admitted run.digest (run.authorityAt i) permit.stamp.context now ∧
      now < permit.deadline ∧ now < permit.progress.acceptedDeadline ∧
      (run.proofAt i).invalidationEpoch = permit.stamp.epoch ∧
      Lasting ownBound permit.stamp.context (run.proofAt i) now ∧
      ∀ epoch, permit.acquisitionEpoch = some epoch →
        (run.proofAt i).available = true ∧ (run.proofAt i).acquisitionEpoch = epoch := by
  simp only [checkAt, Permit.check, Bool.and_eq_true, decide_eq_true_eq, Option.any_eq_true,
    Option.all_eq_true, FreshnessState.check_isOk, hContext]
  constructor
  · rintro ⟨⟨⟨⟨hDeadline, hAdmitted, hOwn⟩, hEpoch⟩, progress, hProgress, hMatch, -, hLatest⟩, hRest⟩
    exact ⟨hAdmitted, hDeadline, hOwn, hEpoch, ⟨⟨progress, hProgress, hMatch⟩,
      progress.acceptedDeadline, by simp [ownBound, proofAt, hProgress], hLatest⟩, hRest⟩
  · rintro ⟨hAdmitted, hDeadline, hOwn, hEpoch, ⟨⟨progress, hProgress, hMatch⟩, bound, hBound, hLatest⟩,
      hRest⟩
    simp only [ownBound, hProgress, Option.map_some] at hBound
    obtain rfl := Option.some.inj hBound
    refine ⟨⟨⟨⟨hDeadline, hAdmitted, hOwn⟩, hEpoch⟩, progress, hProgress, hMatch, ?_, hLatest⟩, hRest⟩
    rwa [hMatch]

/-- A permit that checks did so at every moment since it was handed out. -/
theorem check_since (hFew : run.FewEpochs) {permit : Permit Instant} {i j k : Nat}
    {issued reading now : Instant} (hIssued : run.Issued permit i issued) (hij : i ≤ j)
    (hReading : run.Moment j reading) (hjk : j ≤ k) (hLe : reading ≤ now)
    (hMoment : run.Moment k now) (h : run.checkAt permit k now = true) :
    run.checkAt permit j reading = true := by
  have hGrounds := hIssued.grounds
  have hk := hMoment.bound
  have hik := hij.trans hjk
  obtain ⟨hAdmitted, hDeadline, hOwn, hEpoch, hLasting, hAcquisition⟩ :=
    (checkAt_eq_true hGrounds.context).mp h
  have hSteady : ∀ n, i ≤ n → n ≤ k →
      (run.proofAt n).invalidationEpoch = (run.proofAt i).invalidationEpoch := by
    intro n hin hnk
    exact hFew.invalidation_steady hin hnk hk (hGrounds.epoch.trans hEpoch.symm)
  have hLastingThen : Lasting ownBound permit.stamp.context (run.proofAt j) reading := by
    apply Lasting.since run.ownBound_bounds hReading hjk _ hMoment hLe hLasting
    intro n hjn hnk
    exact (hSteady n (hij.trans hjn) hnk).trans (hSteady j hij hjk).symm
  have hAcquisitionThen : ∀ epoch, permit.acquisitionEpoch = some epoch →
      (run.proofAt j).available = true ∧ (run.proofAt j).acquisitionEpoch = epoch := by
    intro epoch hSome
    obtain ⟨hAvailable, hFirst⟩ := hGrounds.acquisition epoch hSome
    obtain ⟨-, hLast⟩ := hAcquisition epoch hSome
    have hSteady' : ∀ n, i ≤ n → n ≤ k →
        (run.proofAt n).acquisitionEpoch = (run.proofAt i).acquisitionEpoch := by
      intro n hin hnk
      exact hFew.acquisition_steady hin hnk hk (hFirst.trans hLast.symm)
    exact ⟨available_since hij (hjk.trans hk) (fun n hin hnj => hSteady n hin (hnj.trans hjk))
      (fun n hin hnj => hSteady' n hin (hnj.trans hjk)) hAvailable, (hSteady' j hij hjk).trans hFirst⟩
  exact (checkAt_eq_true hGrounds.context).mpr
    ⟨admitted_between hReading hij hjk hk hLe hGrounds.admitted hAdmitted, hLe.trans_lt hDeadline,
      hLe.trans_lt hOwn, (hSteady j hij hjk).trans hGrounds.epoch, hLastingThen, hAcquisitionThen⟩

theorem Grounds.deadline_eq {permit : Permit Instant} {i : Nat} {issued : Instant}
    (h : run.Grounds permit i issued) (hi : i ≤ run.events.length) :
    permit.deadline = min (permit.progress.started + run.lifetime) permit.progress.acceptedDeadline :=
  deadline_eq_some hi h.progress h.deadline

/-- A permit to acquire does not check once the proof was made unavailable or invalid. -/
theorem check_revoked (hFew : run.FewEpochs) {permit : Permit Instant} {hasLeader : Bool}
    {i m k : Nat} {issued now : Instant} (hAcquired : run.acquireAt hasLeader i issued = some permit)
    (him : i ≤ m) (hmk : m < k) (hMoment : run.Moment k now) (hNone : run.acceptedAt m = none)
    (hChanged : run.proofAt (m + 1) ≠ run.proofAt m) : run.checkAt permit k now = false := by
  have hGrounds := Issued.grounds (.inl ⟨hasLeader, hAcquired⟩)
  have hEpoch : permit.acquisitionEpoch = some (run.proofAt i).acquisitionEpoch := by
    simp only [acquireAt, ConsensusFreshness.acquire] at hAcquired
    split at hAcquired
    · obtain ⟨progress, -, h⟩ := Option.bind_eq_some_iff.mp hAcquired
      obtain ⟨deadline, -, h⟩ := Option.bind_eq_some_iff.mp h
      rw [← Option.some.inj h]
      rfl
    · cases hAcquired
  have hk := hMoment.bound
  have hm : m < run.events.length := hmk.trans_le hk
  rw [← Bool.not_eq_true]
  intro hCheck
  obtain ⟨-, -, -, hInvalidation, -, hAcquisition⟩ := (checkAt_eq_true hGrounds.context).mp hCheck
  obtain ⟨-, hLast⟩ := hAcquisition _ hEpoch
  have hStill := (hFew.invalidation_steady (him.trans (Nat.le_succ m)) hmk hk
    (hGrounds.epoch.trans hInvalidation.symm)).trans
    (hFew.invalidation_steady him hmk.le hk (hGrounds.epoch.trans hInvalidation.symm)).symm
  have hStill' := (hFew.acquisition_steady (him.trans (Nat.le_succ m)) hmk hk hLast.symm).trans
    (hFew.acquisition_steady him hmk.le hk hLast.symm).symm
  have hMoves := proof_moves hm
  rw [acceptedAt_eq hm] at hNone
  generalize run.proofAt (m + 1) = after at hMoves hChanged hStill hStill'
  cases hMoves with
  | idle _ => exact hChanged rfl
  | renew progress hSome _ _ => exact absurd (hSome.symm.trans hNone) (by simp)
  | replace progress hSome _ => exact absurd (hSome.symm.trans hNone) (by simp)
  | unavailable _ _ => exact absurd hStill' (Word64.wrappingAdd_one_ne _)
  | invalidate _ => exact absurd hStill (Word64.wrappingAdd_one_ne _)

/-- The last accepted proof is good at this moment: healthy, of the context, and within
both of its bounds. -/
def Continuous (run : FreshnessRun Instant) (context : AdmissionContext) (i : Nat)
    (now : Instant) : Prop :=
  ∃ progress, run.LatestAccepted i progress ∧ progress.healthy = some true ∧
    progress.context = context ∧ now < progress.started + run.lifetime ∧
    now < progress.acceptedDeadline

/-- A stamp is retained only over a continuous chain of proofs. -/
theorem continuous_since (hFew : run.FewEpochs) {permit retained : Permit Instant} {i j k : Nat}
    {issued reading now : Instant} (hIssued : run.Issued permit i issued) (hij : i ≤ j)
    (hReading : run.Moment j reading) (hjk : j ≤ k) (hLe : reading ≤ now)
    (hMoment : run.Moment k now) (hRetained : run.retainAt permit.stamp k now = some retained) :
    run.Continuous permit.stamp.context j reading := by
  have hGrounds := hIssued.grounds
  have hLater := Issued.grounds (.inr ⟨_, hRetained⟩)
  have hk := hMoment.bound
  have hStamp : retained.stamp = permit.stamp := by
    simp only [retainAt, ConsensusFreshness.retain] at hRetained
    obtain ⟨progress, -, h⟩ := Option.bind_eq_some_iff.mp hRetained
    split at h
    · obtain ⟨deadline, -, h⟩ := Option.bind_eq_some_iff.mp h
      rw [← Option.some.inj h]
    · cases h
  have hEpoch : (run.proofAt i).invalidationEpoch = (run.proofAt k).invalidationEpoch := by
    rw [hGrounds.epoch, hLater.epoch, hStamp]
  obtain ⟨deadline, hDeadline, hNow⟩ := run.deadline_bounds.fresh _ _ _ hLater.fresh
    (by rw [hLater.progress]; rfl)
  have hLasting : Lasting (fun proof => proof.deadline run.fits run.lifetime) permit.stamp.context
      (run.proofAt k) now :=
    ⟨⟨retained.progress, hLater.progress, by rw [hLater.context, hStamp]⟩, deadline, hDeadline, hNow⟩
  obtain ⟨⟨progress, hProgress, hContext⟩, bound, hBound, hBefore⟩ :=
    Lasting.since run.deadline_bounds hReading hjk
      (fun n hjn hnk => (hFew.invalidation_steady (hij.trans hjn) hnk hk hEpoch).trans
        (hFew.invalidation_steady hij hjk hk hEpoch).symm) hMoment hLe hLasting
  obtain ⟨hLatest, hHealthy⟩ := (run.recorded (hjk.trans hk)).latest progress hProgress
  rw [deadline_eq_some (hjk.trans hk) hProgress hBound] at hBefore
  obtain ⟨hStarted, hAccepted⟩ := lt_min_iff.mp hBefore
  exact ⟨progress, hLatest, hHealthy, hContext, hStarted, hAccepted⟩

/-- Permits are lost for good, and keeping a stamp means unbroken freshness. -/
structure PermitsKept (run : FreshnessRun Instant) : Prop where
  lost_once : ∀ permit i issued j reading k now, run.Issued permit i issued → run.Moment i issued →
    run.Moment j reading → run.Moment k now → i ≤ j → issued ≤ reading → j ≤ k → reading ≤ now →
    run.checkAt permit j reading = false → run.checkAt permit k now = false
  bounded : ∀ permit i issued k now, run.Issued permit i issued → run.Moment i issued →
    run.LatestAccepted i permit.progress ∧
      (min (permit.progress.started + run.lifetime) permit.progress.acceptedDeadline ≤ now →
        run.checkAt permit k now = false)
  revoked : ∀ hasLeader permit i issued m (h : m < run.events.length) k now,
    run.acquireAt hasLeader i issued = some permit → run.Moment i issued → i ≤ m →
    (run.events[m]).call = .markUnavailable ∨ (run.events[m]).call = .invalidate →
    run.proofAt (m + 1) ≠ run.proofAt m → m < k → run.Moment k now →
    run.checkAt permit k now = false
  retained : ∀ permit i issued j reading k now retained, run.Issued permit i issued →
    run.Moment i issued → run.Moment j reading → run.Moment k now → i ≤ j → issued ≤ reading →
    j ≤ k → reading ≤ now → run.retainAt permit.stamp k now = some retained →
    run.Continuous permit.stamp.context j reading

theorem permits_kept (run : FreshnessRun Instant) (hFew : run.FewEpochs) : run.PermitsKept where
  lost_once permit i issued j reading k now hIssued _ hReading hMoment hij _ hjk hLe hLost := by
    rw [← Bool.not_eq_true] at hLost ⊢
    intro hCheck
    exact hLost (check_since hFew hIssued hij hReading hjk hLe hMoment hCheck)
  bounded permit i issued k now hIssued hMoment := by
    have hGrounds := hIssued.grounds
    refine ⟨((run.recorded hMoment.bound).latest _ hGrounds.progress).1, ?_⟩
    intro hPast
    rw [← Bool.not_eq_true]
    intro hCheck
    obtain ⟨-, hDeadline, -⟩ := (checkAt_eq_true hGrounds.context).mp hCheck
    rw [hGrounds.deadline_eq hMoment.bound] at hDeadline
    exact absurd hDeadline (not_lt.mpr hPast)
  revoked hasLeader permit i issued m hm k now hAcquired _ him hCall hChanged hmk hMoment := by
    apply check_revoked hFew hAcquired him hmk hMoment _ hChanged
    rw [acceptedAt_eq hm, FreshnessState.accepted]
    rcases hCall with hCall | hCall <;> rw [hCall]
  retained permit i issued j reading k now kept hIssued _ hReading hMoment hij _ hjk hLe hRetained :=
    continuous_since hFew hIssued hij hReading hjk hLe hMoment hRetained

/-- The renewal that a single member starts at `started` and applies at log `index`. -/
def renewal (started : ℤ) (index : Nat) : VerifiedProgress ℤ where
  started := started
  applied := ⟨⟨1, some true, RuntimeAuthority.rejoined, 9, 0, RuntimeAuthority.rejoinContext.genesis⟩,
    ⟨⟨1, RuntimeAuthority.rejoined⟩, index⟩⟩
  acceptedDeadline := 90
  session := ⟨RuntimeAuthority.rejoinContext⟩

/-- A proof is recorded, made unavailable, continued, and replaced after it expired. -/
def renewals : FreshnessRun ℤ where
  digest := fun _ => 7
  fits := fun _ => true
  lifetime := 10
  identity := 0
  authority := ⟨RuntimeAuthority.rejoined, .active ⟨2, 9, 7, 1⟩ .voting 100, none⟩
  events := [⟨10, .recordApplied (renewal 8 4)⟩, ⟨12, .markUnavailable⟩,
    ⟨14, .recordApplied (renewal 13 5)⟩, ⟨30, .recordApplied (renewal 29 6)⟩]
  wellTimed := by simp [FreshnessEvent.WellTimed]
  ordered := by simp [FreshnessEvent.finished]

/-- The permit to acquire is lost where its stamp is kept, and the stamp over the gap. -/
theorem permits_kept_renewals : renewals.PermitsKept ∧
    (renewals.acquireAt true 1 11).any (fun permit =>
      renewals.checkAt permit 1 11 && !renewals.checkAt permit 2 12 &&
        !renewals.checkAt permit 3 15 && (renewals.retainAt permit.stamp 3 22).isSome &&
        (renewals.retainAt permit.stamp 4 31).isNone) = true := by
  constructor
  · apply permits_kept
    constructor <;> decide +kernel
  · decide +kernel

end FreshnessRun

end KeepAfloat
