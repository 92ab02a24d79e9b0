import KeepAfloat.Library.Runs
import KeepAfloat.Library.Word64

/-! Local health. Raw probe results pass a failure dampener and are combined with a bind
fault that lasts for the life of the process. Every loss of health advances an epoch, by
which a holder of an earlier observation can tell whether health lasted. -/

namespace KeepAfloat

/-- Why a VIP effect failed. Either way the fault lasts for the life of the process. -/
inductive BindFault where
  | failed
  | timedOut
  deriving DecidableEq, Repr

/-- The service probe combined with a process-lifetime bind fault. -/
structure HealthStatus where
  probeHealthy : Bool
  bindFault : Option BindFault
  lossEpoch : Nat
  deriving DecidableEq, Repr

def HealthStatus.healthy (status : HealthStatus) : Bool :=
  status.probeHealthy && status.bindFault.isNone

/-- Health that was never lost since it was observed. -/
structure HealthContinuity where
  lossEpoch : Nat
  deriving DecidableEq, Repr

def HealthContinuity.check (health : HealthContinuity) (status : HealthStatus) : Bool :=
  status.healthy && status.lossEpoch == health.lossEpoch && health.lossEpoch != Word64.maxWord

namespace HealthStatus

def new (probeHealthy : Bool) : HealthStatus := ⟨probeHealthy, none, 0⟩

def observeContinuity (status : HealthStatus) : HealthContinuity := ⟨status.lossEpoch⟩

/-- Update only the probe result. The second component is the previous effective health. -/
def observeProbe (status : HealthStatus) (healthy : Bool) : HealthStatus × Bool :=
  let probed := { status with probeHealthy := healthy }
  (if status.healthy && !probed.healthy then
      { probed with lossEpoch := Word64.satAdd status.lossEpoch 1 }
    else probed,
    status.healthy)

/-- The first fault stays; later ones change nothing. -/
def failBinding (status : HealthStatus) (fault : BindFault) : HealthStatus :=
  if status.bindFault.isSome then status
  else
    { status with
      bindFault := some fault
      lossEpoch := if status.healthy then Word64.satAdd status.lossEpoch 1 else status.lossEpoch }

end HealthStatus

/-- Converts raw probe results into effective health. Only a node that has already been
healthy receives the grace period. -/
structure FailureDampener where
  delayTicks : Nat
  failureTicks : Nat
  effectiveHealthy : Bool
  deriving DecidableEq, Repr

namespace FailureDampener

def new (delayTicks : Nat) : FailureDampener := ⟨delayTicks, 0, false⟩

/-- Observe one raw probe result. The second component is the health exposed to binding. -/
def observe (dampener : FailureDampener) (rawHealthy : Bool) : FailureDampener × Bool :=
  if rawHealthy then ({ dampener with failureTicks := 0, effectiveHealthy := true }, true)
  else if !dampener.effectiveHealthy then (dampener, false)
  else
    let failureTicks := Word64.satAdd dampener.failureTicks 1
    let effectiveHealthy :=
      if dampener.delayTicks < failureTicks then false else dampener.effectiveHealthy
    ({ dampener with failureTicks := failureTicks, effectiveHealthy := effectiveHealthy },
      effectiveHealthy)

end FailureDampener

/-- What happens to local health. -/
inductive HealthEvent where
  | probe (rawHealthy : Bool)
  | failBinding (fault : BindFault)
  deriving DecidableEq, Repr

/-- The dampener of the probe loop and the shared status. -/
structure LocalHealth where
  dampener : FailureDampener
  status : HealthStatus
  deriving DecidableEq, Repr

namespace LocalHealth

def start (delayTicks : Nat) : LocalHealth := ⟨.new delayTicks, .new false⟩

def step (health : LocalHealth) : HealthEvent → LocalHealth
  | .probe rawHealthy =>
      let dampened := health.dampener.observe rawHealthy
      ⟨dampened.1, (health.status.observeProbe dampened.2).1⟩
  | .failBinding fault => { health with status := health.status.failBinding fault }

def isHealthy (health : LocalHealth) : Bool := health.status.healthy

/-- Local health after the first `n` events. -/
def after (delayTicks : Nat) (events : List HealthEvent) (n : Nat) : LocalHealth :=
  Runs.stateAt step (start delayTicks) events n

end LocalHealth

namespace HealthEvent

def rawHealthy? : HealthEvent → Option Bool
  | .probe rawHealthy => some rawHealthy
  | .failBinding _ => none

/-- The raw probe results among the events. -/
def probeResults (events : List HealthEvent) : List Bool := events.filterMap rawHealthy?

def isFault : HealthEvent → Bool
  | .probe _ => false
  | .failBinding _ => true

end HealthEvent

/-! ### The window -/

open HealthEvent

/-- The dampener counts the failures since the last success, newest result first, and is
healthy while they are at most the delay. -/
structure FailureDampener.Counts (dampener : FailureDampener) (recent : List Bool) : Prop where
  healthy_iff : dampener.effectiveHealthy = true ↔ true ∈ recent.take (dampener.delayTicks + 1)
  failureTicks : dampener.effectiveHealthy = true → dampener.failureTicks = recent.idxOf true

theorem FailureDampener.Counts.observe {dampener : FailureDampener} {recent : List Bool}
    (h : dampener.Counts recent) (hShort : recent.length < Word64.maxWord) (rawHealthy : Bool) :
    (dampener.observe rawHealthy).1.Counts (rawHealthy :: recent) := by
  cases rawHealthy with
  | true => exact ⟨by simp [FailureDampener.observe], by simp [FailureDampener.observe]⟩
  | false =>
      cases hHealthy : dampener.effectiveHealthy with
      | false =>
          have hNone : true ∉ recent.take dampener.delayTicks := by
            intro hMem
            have hWindow := List.take_subset_take_left recent (Nat.le_succ dampener.delayTicks) hMem
            rw [h.healthy_iff.mpr hWindow] at hHealthy
            cases hHealthy
          constructor
          · simp [FailureDampener.observe, hHealthy, hNone]
          · simp [FailureDampener.observe, hHealthy]
      | true =>
          have hTicks := h.failureTicks hHealthy
          have hMem : true ∈ recent := List.mem_of_mem_take (h.healthy_iff.mp hHealthy)
          have hIndex := List.idxOf_lt_length_of_mem hMem
          have hNext : Word64.satAdd dampener.failureTicks 1 = recent.idxOf true + 1 := by
            rw [hTicks]
            exact Word64.satAdd_of_le (by omega)
          have hWindow : true ∈ recent.take dampener.delayTicks ↔ recent.idxOf true < dampener.delayTicks :=
            List.mem_take_iff_idxOf_lt hMem
          constructor
          · simp [FailureDampener.observe, hHealthy, hNext, hWindow]
          · simp [FailureDampener.observe, hHealthy, hNext]

@[simp] theorem FailureDampener.delayTicks_observe (dampener : FailureDampener) (rawHealthy : Bool) :
    (dampener.observe rawHealthy).1.delayTicks = dampener.delayTicks := by
  unfold observe
  split_ifs <;> rfl

/-- What is exposed is what is stored. -/
theorem FailureDampener.observe_exposed (dampener : FailureDampener) (rawHealthy : Bool) :
    (dampener.observe rawHealthy).2 = (dampener.observe rawHealthy).1.effectiveHealthy := by
  unfold observe
  split_ifs with hRaw hDown
  · rfl
  · simpa using hDown
  · rfl

namespace LocalHealth

/-- What the state says about the events that led to it. Losses need recoveries in between,
so that they are at most half of the events. -/
structure Tracks (delayTicks : Nat) (events : List HealthEvent) (health : LocalHealth) : Prop where
  delay : health.dampener.delayTicks = delayTicks
  counts : health.dampener.Counts (probeResults events).reverse
  probed : health.status.probeHealthy = health.dampener.effectiveHealthy
  fault : health.status.bindFault.isSome = events.any isFault
  losses : 2 * health.status.lossEpoch + health.isHealthy.toNat ≤ events.length

/-- An event advances the loss epoch exactly if it ends effective health. -/
theorem lossEpoch_step (health : LocalHealth) (event : HealthEvent) :
    (health.step event).status.lossEpoch =
      if health.isHealthy && !(health.step event).isHealthy then Word64.satAdd health.status.lossEpoch 1
      else health.status.lossEpoch := by
  cases event with
  | probe rawHealthy =>
      simp only [step, isHealthy, HealthStatus.observeProbe]
      split_ifs <;> simp_all [HealthStatus.healthy]
  | failBinding fault =>
      simp only [step, isHealthy, HealthStatus.failBinding]
      split_ifs <;> simp_all [HealthStatus.healthy]

theorem Tracks.step {delayTicks : Nat} {events : List HealthEvent} {health : LocalHealth}
    (h : health.Tracks delayTicks events) (hShort : events.length < Word64.maxWord)
    (event : HealthEvent) : (health.step event).Tracks delayTicks (events ++ [event]) := by
  have hLosses : 2 * (health.step event).status.lossEpoch + (health.step event).isHealthy.toNat ≤
      (events ++ [event]).length := by
    have hBefore := h.losses
    have hAdd : Word64.satAdd health.status.lossEpoch 1 = health.status.lossEpoch + 1 :=
      Word64.satAdd_of_le (by omega)
    rw [lossEpoch_step, hAdd, List.length_append, List.length_singleton]
    cases hOld : health.isHealthy <;> cases hNew : (health.step event).isHealthy <;>
      simp [hOld] at hBefore ⊢ <;> omega
  cases event with
  | probe rawHealthy =>
      have hResults : (probeResults (events ++ [.probe rawHealthy])).reverse =
          rawHealthy :: (probeResults events).reverse := by
        simp [probeResults, rawHealthy?]
      have hFew : (probeResults events).reverse.length < Word64.maxWord := by
        rw [List.length_reverse]
        exact (List.length_filterMap_le _ _).trans_lt hShort
      refine ⟨?_, ?_, ?_, ?_, hLosses⟩
      · simp [LocalHealth.step, h.delay]
      · rw [hResults]
        exact h.counts.observe hFew rawHealthy
      · simp only [LocalHealth.step, HealthStatus.observeProbe, FailureDampener.observe_exposed]
        split_ifs <;> rfl
      · simp only [LocalHealth.step, HealthStatus.observeProbe, List.any_append, ← h.fault]
        split_ifs <;> simp [isFault]
  | failBinding fault =>
      refine ⟨h.delay, ?_, ?_, ?_, hLosses⟩
      · have hResults : probeResults (events ++ [.failBinding fault]) = probeResults events := by
          simp [probeResults, rawHealthy?]
        rw [hResults]
        exact h.counts
      · simp only [LocalHealth.step, HealthStatus.failBinding]
        split_ifs <;> exact h.probed
      · have hSeen : (events ++ [HealthEvent.failBinding fault]).any isFault = true := by simp [isFault]
        simp only [LocalHealth.step, HealthStatus.failBinding, hSeen]
        split
        · assumption
        · rfl

theorem Tracks.start (delayTicks : Nat) : (LocalHealth.start delayTicks).Tracks delayTicks [] :=
  ⟨rfl, ⟨by simp [LocalHealth.start, FailureDampener.new, probeResults],
    by simp [LocalHealth.start, FailureDampener.new]⟩, rfl, rfl, le_rfl⟩

theorem after_tracks (delayTicks : Nat) {events : List HealthEvent} (hShort : events.length < 2 ^ 64)
    {n : Nat} (hn : n ≤ events.length) :
    (after delayTicks events n).Tracks delayTicks (events.take n) := by
  refine Runs.stateAt_indexed LocalHealth.step (LocalHealth.start delayTicks)
    (fun n health => health.Tracks delayTicks (events.take n)) (by simpa using Tracks.start delayTicks)
    (fun i hi hTracks => ?_) n hn
  rw [← List.take_append_getElem hi]
  refine hTracks.step ?_ _
  rw [List.length_take, Word64.maxWord]
  omega

/-! ### Continuity -/

/-- Between two moments of a run, from a healthy one on: either health lasted and no loss was
counted, or it was interrupted and one was. -/
theorem lasted_or_lost (delayTicks : Nat) {events : List HealthEvent} (hShort : events.length < 2 ^ 64)
    {i j : Nat} (hij : i ≤ j) (hj : j ≤ events.length)
    (hHealthy : (after delayTicks events i).isHealthy = true) :
    ((∀ k, i ≤ k → k ≤ j → (after delayTicks events k).isHealthy = true) ∧
        (after delayTicks events j).status.lossEpoch = (after delayTicks events i).status.lossEpoch) ∨
      ((∃ k, i ≤ k ∧ k ≤ j ∧ (after delayTicks events k).isHealthy = false) ∧
        (after delayTicks events i).status.lossEpoch < (after delayTicks events j).status.lossEpoch) := by
  induction j, hij using Nat.le_induction with
  | base =>
      refine Or.inl ⟨fun k hik hki => ?_, rfl⟩
      rwa [Nat.le_antisymm hki hik]
  | succ j hij ih =>
      have hlt : j < events.length := hj
      have hStep : after delayTicks events (j + 1) = (after delayTicks events j).step events[j] :=
        Runs.stateAt_succ _ _ hlt
      have hBefore := (after_tracks delayTicks hShort hlt.le).losses
      rw [List.length_take, Nat.min_eq_left hlt.le] at hBefore
      have hAdd : Word64.satAdd (after delayTicks events j).status.lossEpoch 1 =
          (after delayTicks events j).status.lossEpoch + 1 :=
        Word64.satAdd_of_le (by rw [Word64.maxWord]; omega)
      have hEpoch := lossEpoch_step (after delayTicks events j) events[j]
      rw [← hStep, hAdd] at hEpoch
      rcases ih hlt.le with ⟨hLasted, hSame⟩ | ⟨⟨k, hik, hkj, hDown⟩, hMore⟩
      · rw [hLasted j hij le_rfl, hSame] at hEpoch
        cases hNow : (after delayTicks events (j + 1)).isHealthy with
        | true =>
            refine Or.inl ⟨fun k hik hkj => ?_, by simpa [hNow] using hEpoch⟩
            rcases Nat.lt_or_eq_of_le hkj with hEarlier | rfl
            · exact hLasted k hik (Nat.le_of_lt_succ hEarlier)
            · exact hNow
        | false =>
            have hLost : (after delayTicks events (j + 1)).status.lossEpoch =
                (after delayTicks events i).status.lossEpoch + 1 := by simpa [hNow] using hEpoch
            exact Or.inr ⟨⟨j + 1, Nat.le_succ_of_le hij, le_rfl, hNow⟩, by omega⟩
      · refine Or.inr ⟨⟨k, hik, Nat.le_succ_of_le hkj, hDown⟩, ?_⟩
        split at hEpoch <;> omega

theorem check_observeContinuity (delayTicks : Nat) {events : List HealthEvent}
    (hShort : events.length < 2 ^ 64) {i j : Nat} (hij : i ≤ j) (hj : j ≤ events.length)
    (hHealthy : (after delayTicks events i).isHealthy = true) :
    (after delayTicks events i).status.observeContinuity.check (after delayTicks events j).status = true ↔
      ∀ k, i ≤ k → k ≤ j → (after delayTicks events k).isHealthy = true := by
  have hLosses := (after_tracks delayTicks hShort (hij.trans hj)).losses
  rw [List.length_take] at hLosses
  have hBelow : (after delayTicks events i).status.lossEpoch ≠ Word64.maxWord := by
    rw [Word64.maxWord]
    omega
  simp only [HealthContinuity.check, HealthStatus.observeContinuity, Bool.and_eq_true, beq_iff_eq,
    bne_iff_ne, ne_eq, hBelow, not_false_eq_true, and_true]
  rcases lasted_or_lost delayTicks hShort hij hj hHealthy with ⟨hLasted, hSame⟩ | ⟨⟨k, hik, hkj, hDown⟩, hMore⟩
  · exact ⟨fun _ => hLasted, fun _ => ⟨hLasted j hij le_rfl, hSame⟩⟩
  · refine ⟨fun h => absurd h.2 (by omega), fun hAll => ?_⟩
    rw [hAll k hik hkj] at hDown
    cases hDown

end LocalHealth

/-- Local health is a window over the probe results without a bind fault, and an observation
of it lasts exactly as long as it stays healthy. -/
theorem local_health_window (delayTicks : Nat) (events : List HealthEvent)
    (hShort : events.length < 2 ^ 64) :
    (∀ n ≤ events.length, (LocalHealth.after delayTicks events n).isHealthy = true ↔
        true ∈ (probeResults (events.take n)).rtake (delayTicks + 1) ∧
          ∀ fault, .failBinding fault ∉ events.take n) ∧
      ∀ i j, i ≤ j → j ≤ events.length → (LocalHealth.after delayTicks events i).isHealthy = true →
        ((LocalHealth.after delayTicks events i).status.observeContinuity.check
            (LocalHealth.after delayTicks events j).status = true ↔
          ∀ k, i ≤ k → k ≤ j → (LocalHealth.after delayTicks events k).isHealthy = true) ∧
        ∀ m, j ≤ m → m ≤ events.length →
          (LocalHealth.after delayTicks events i).status.observeContinuity.check
            (LocalHealth.after delayTicks events j).status = false →
          (LocalHealth.after delayTicks events i).status.observeContinuity.check
            (LocalHealth.after delayTicks events m).status = false := by
  refine ⟨fun n hn => ?_, fun i j hij hj hHealthy => ⟨?_, fun m hjm hm hFalse => ?_⟩⟩
  · have hTracks := LocalHealth.after_tracks delayTicks hShort hn
    have hFault : (LocalHealth.after delayTicks events n).status.bindFault.isNone = true ↔
        ∀ fault, .failBinding fault ∉ events.take n := by
      rw [← Option.not_isSome, hTracks.fault, Bool.not_eq_true', List.any_eq_false]
      constructor
      · intro hNone fault hMem
        exact hNone _ hMem rfl
      · intro hNone event hMem
        cases event with
        | probe rawHealthy => simp [isFault]
        | failBinding fault => exact absurd hMem (hNone fault)
    rw [LocalHealth.isHealthy, HealthStatus.healthy, Bool.and_eq_true, hFault, hTracks.probed,
      hTracks.counts.healthy_iff, hTracks.delay, List.rtake_eq_reverse_take_reverse, List.mem_reverse]
  · exact LocalHealth.check_observeContinuity delayTicks hShort hij hj hHealthy
  · rw [Bool.eq_false_iff, ne_eq, LocalHealth.check_observeContinuity delayTicks hShort hij hj hHealthy]
      at hFalse
    rw [Bool.eq_false_iff, ne_eq,
      LocalHealth.check_observeContinuity delayTicks hShort (hij.trans hjm) hm hHealthy]
    exact fun hAll => hFalse fun k hik hkj => hAll k hik (hkj.trans hjm)

/-- With a delay of one, two failures in a row end health, and the observation made before
stays lost when a success brings health back. -/
theorem local_health_window_recovered :
    (LocalHealth.after 1 ([true, false, false, true].map .probe) 4).isHealthy = true ∧
      (LocalHealth.after 1 ([true, false, false, true].map .probe) 2).status.observeContinuity.check
        (LocalHealth.after 1 ([true, false, false, true].map .probe) 4).status = false := by
  obtain ⟨hWindow, hLasts⟩ := local_health_window 1 ([true, false, false, true].map .probe) (by decide)
  refine ⟨(hWindow 4 (by decide)).mpr ⟨by decide, by simp⟩, ?_⟩
  exact (hLasts 2 3 (by decide) (by decide) (by decide)).2 4 (by decide) (by decide) (by decide)

end KeepAfloat
