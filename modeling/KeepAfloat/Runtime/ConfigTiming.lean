import KeepAfloat.Config.Validation
import KeepAfloat.Library.Panics
import KeepAfloat.Vip.Takeover

/-! The lifetimes that a process derives from its configuration. Arithmetic is saturating,
checked or unchecked, as in the source; an unchecked operation that leaves its range is a
panic. No setting reaches one, and the consumer lifetime leaves room for an election and for
several renewals. -/

namespace KeepAfloat

open ConfigFile (HealthConfig RaftTuneConfig AcceptedConfig)
open Panics (Meets unchecked orFail meets_pure meets_unchecked meets_orFail)

/-! ### Unchecked operations -/

/-- The largest 128-bit number. -/
def maxWord128 : Nat := 2 ^ 128 - 1

def nanosPerMilli : Nat := 1000000

/-- The duration of a number of milliseconds. -/
def fromMillis (millis : Nat) : Nat := millis * nanosPerMilli

/-- A multiple of a duration; above the longest one the operator panics. -/
def mulDuration (duration factor : Nat) : Option Nat := checkedDuration (duration * factor)

/-- A part of a duration; the operator panics for a zero divisor. -/
def divDuration (duration divisor : Nat) : Option Nat :=
  if divisor = 0 then none else some (duration / divisor)

/-- A sum of durations that fails above the longest one. -/
def checkedSum (first second : Nat) : Option Nat := checkedDuration (first + second)

/-- A number as a 32-bit one. -/
def toWord32 (value : Nat) : Option Nat := if value < 2 ^ 32 then some value else none

namespace ConfigFile.HealthConfig

/-- The stale window in seconds, with the overflow of its unchecked product. -/
def staleSecs? (health : HealthConfig) : Option Nat :=
  match health.staleSecs with
  | some secs => some secs.toNat
  | none => (Word64.checkedMul health.intervalSecs 3).map (max · 3)

/-- The stale window in probes. The division is by at least one. -/
def staleMissedProbes? (health : HealthConfig) : Option Nat := do
  let secs ← health.staleSecs?
  let staleMs := min (secs * 1000) maxWord128
  pure (max (min (staleMs / max health.intervalMs.toNat 1) Word64.maxWord) 1)

end ConfigFile.HealthConfig

/-! ### Lifetimes -/

/-- How long a proof of freshness lasts: the stale window, and half of a handoff. -/
def forProbeCadence (intervalMs staleMissedProbes : Nat) : Option Nat := do
  let stale := fromMillis (Word64.satMul intervalMs staleMissedProbes)
  let handoff := fromMillis (Word64.satMul intervalMs ownershipActivationHoldoffTicks)
  let half ← divDuration handoff 2
  pure (saturatingDuration (stale + half))

namespace LeaseTiming

/-- The time that an election may take. -/
def electionBudget (raft : RaftTuneConfig) : ExceptT String Option Nat := do
  let overflow := "admission election budget overflow"
  let candidate ← orFail (checkedDuration (fromMillis raft.electionTimeoutMaxMs.toNat * 3)) overflow
  let heartbeats ← unchecked (mulDuration (fromMillis raft.heartbeatIntervalMs.toNat) 3)
  let heartbeats ← unchecked (divDuration heartbeats 2)
  let heard ← orFail (checkedSum candidate heartbeats) overflow
  let waits ← unchecked (mulDuration (fromMillis raft.electionTimeoutMinMs.toNat) 2)
  orFail (checkedSum heard waits) overflow

/-- Address and marker deletion for every VIP, and the tick that notices the need for it. -/
def cleanupBudget (vipCount : Nat) : ExceptT String Option Nat := do
  let count ← orFail (toWord32 vipCount) "too many VIPs for admission cleanup budget"
  orFail ((checkedDuration (shutdownVipBudget * count)).bind (checkedSum · reconcileTick))
    "admission cleanup budget overflow"

/-- The time in which a process that lost its leader has renewed. -/
def recoveryBudget (election roundBudget renewalInterval : Nat) : ExceptT String Option Nat := do
  let overflow := "admission recovery budget overflow"
  let elections ← orFail (checkedDuration (election * clockRateRatio)) overflow
  let rounds ← unchecked (mulDuration roundBudget 4)
  let renewals ← orFail (checkedSum elections rounds) overflow
  let intervals ← unchecked (mulDuration renewalInterval 2)
  orFail (checkedSum renewals intervals) overflow

/-- Lift the checks of the constructor. -/
def checkedNew (consumerUse cleanupBudget : Nat) : ExceptT String Option LeaseTiming :=
  ExceptT.mk (some (new consumerUse cleanupBudget))

def forConfig (cfg : ConfigFile.Config) (vipCount : Nat) : ExceptT String Option LeaseTiming := do
  let cleanup ← cleanupBudget vipCount
  let staleMissedProbes ← unchecked cfg.health.staleMissedProbes?
  let healthWindow ← unchecked (forProbeCadence cfg.health.intervalMs.toNat staleMissedProbes)
  let sixth ← unchecked (divDuration healthWindow 6)
  let rpcBudget := min sixth (fromMillis 500)
  let renewalInterval ← unchecked (divDuration healthWindow 4)
  let election ← electionBudget cfg.raft
  let roundSlots ← orFail ((toWord32 cfg.peers.length).bind fun count => toWord32 (count + 4))
    "admission renewal roster too large"
  let roundBudget ← orFail (checkedDuration (rpcBudget * roundSlots))
    "admission renewal budget overflow"
  let recovery ← recoveryBudget election roundBudget renewalInterval
  let timing ← checkedNew (max healthWindow recovery) cleanup
  pure { timing with
    rpcBudget := rpcBudget
    renewalInterval := renewalInterval
    renewalRoundBudget := roundBudget }

end LeaseTiming

/-! ### No panic -/

theorem checkedDuration_eq_some {nanoseconds value : Nat} :
    checkedDuration nanoseconds = some value ↔ nanoseconds ≤ maxDuration ∧ nanoseconds = value := by
  unfold checkedDuration
  split <;> simp_all

theorem checkedSum_eq_some {first second value : Nat} :
    checkedSum first second = some value ↔ first + second ≤ maxDuration ∧ first + second = value :=
  checkedDuration_eq_some

theorem toWord32_eq_some {value result : Nat} :
    toWord32 value = some result ↔ value < 2 ^ 32 ∧ value = result := by
  unfold toWord32
  split <;> simp_all

/-- Small multiples of a number of milliseconds are durations. -/
theorem mulDuration_fromMillis (millis : UInt64) {factor : Nat} (h : factor ≤ 1000) :
    mulDuration (fromMillis millis.toNat) factor = some (fromMillis millis.toNat * factor) := by
  refine checkedDuration_eq_some.mpr ⟨?_, rfl⟩
  have hMillis : millis.toNat ≤ 2 ^ 64 - 1 := Nat.le_pred_of_lt millis.toNat_lt
  calc fromMillis millis.toNat * factor ≤ (2 ^ 64 - 1) * nanosPerMilli * 1000 :=
        Nat.mul_le_mul (Nat.mul_le_mul_right _ hMillis) h
    _ ≤ maxDuration := by decide

namespace ConfigFile.HealthConfig

theorem staleSecs?_eq (health : HealthConfig) : health.staleSecs? = some health.effectiveStaleSecs := by
  rw [staleSecs?, effectiveStaleSecs]
  cases health.staleSecs with
  | some secs => rfl
  | none =>
      have hInterval := health.intervalMs.toNat_lt
      have hFits : health.intervalSecs * 3 ≤ Word64.maxWord := by
        rw [intervalSecs, Word64.divCeil, Word64.maxWord]
        omega
      simp only [Word64.checkedMul, if_pos hFits, Option.map_some]

theorem effectiveStaleSecs_le (health : HealthConfig) :
    health.effectiveStaleSecs ≤ Word64.maxWord := by
  have hInterval := health.intervalMs.toNat_lt
  rw [effectiveStaleSecs]
  cases health.staleSecs with
  | some secs => exact Nat.le_pred_of_lt secs.toNat_lt
  | none =>
      dsimp only
      rw [intervalSecs, Word64.divCeil, Word64.maxWord]
      omega

theorem staleMissedProbes?_eq (health : HealthConfig) :
    health.staleMissedProbes? = some health.effectiveStaleMissedProbes := by
  have hWide : health.effectiveStaleSecs * 1000 ≤ maxWord128 :=
    (Nat.mul_le_mul_right 1000 health.effectiveStaleSecs_le).trans (by decide)
  rw [staleMissedProbes?, staleSecs?_eq, effectiveStaleMissedProbes]
  simp only [Option.pure_def, Option.bind_eq_bind, Option.bind_some, Nat.min_eq_left hWide]

end ConfigFile.HealthConfig

namespace LeaseTiming

/-- What an election may take: three of its longest timeouts, one and a half heartbeats and
two of its shortest timeouts. -/
def electionTime (raft : RaftTuneConfig) : Nat :=
  fromMillis raft.electionTimeoutMaxMs.toNat * 3 + fromMillis raft.heartbeatIntervalMs.toNat * 3 / 2 +
    fromMillis raft.electionTimeoutMinMs.toNat * 2

def cleanupTime (vipCount : Nat) : Nat := shutdownVipBudget * vipCount + reconcileTick

theorem electionBudget_meets (raft : RaftTuneConfig) :
    Meets (electionBudget raft) (· = electionTime raft) := by
  rw [electionBudget]
  refine (meets_orFail fun candidate h => (checkedDuration_eq_some.mp h).2).bind ?_
  rintro candidate rfl
  refine (meets_unchecked (mulDuration_fromMillis _ (by decide)) rfl).bind ?_
  rintro heartbeats rfl
  refine (meets_unchecked rfl rfl).bind ?_
  rintro heartbeats rfl
  refine (meets_orFail fun heard h => (checkedSum_eq_some.mp h).2).bind ?_
  rintro heard rfl
  refine (meets_unchecked (mulDuration_fromMillis _ (by decide)) rfl).bind ?_
  rintro waits rfl
  exact meets_orFail fun budget h => (checkedSum_eq_some.mp h).2.symm

theorem cleanupBudget_meets (vipCount : Nat) :
    Meets (cleanupBudget vipCount) (· = cleanupTime vipCount) := by
  rw [cleanupBudget]
  refine (meets_orFail fun count h => (toWord32_eq_some.mp h).2).bind ?_
  rintro count rfl
  refine meets_orFail fun budget h => ?_
  obtain ⟨work, hWork, hSum⟩ := Option.bind_eq_some_iff.mp h
  obtain ⟨-, rfl⟩ := checkedDuration_eq_some.mp hWork
  exact (checkedSum_eq_some.mp hSum).2.symm

theorem recoveryBudget_meets {election roundBudget renewalInterval : Nat}
    (hRounds : roundBudget * 4 ≤ maxDuration) (hIntervals : renewalInterval * 2 ≤ maxDuration) :
    Meets (recoveryBudget election roundBudget renewalInterval)
      (· = election * 2 + roundBudget * 4 + renewalInterval * 2) := by
  rw [recoveryBudget]
  refine (meets_orFail fun elections h => (checkedDuration_eq_some.mp h).2).bind ?_
  rintro elections rfl
  refine (meets_unchecked (checkedDuration_eq_some.mpr ⟨hRounds, rfl⟩) rfl).bind ?_
  rintro rounds rfl
  refine (meets_orFail fun renewals h => (checkedSum_eq_some.mp h).2).bind ?_
  rintro renewals rfl
  refine (meets_unchecked (checkedDuration_eq_some.mpr ⟨hIntervals, rfl⟩) rfl).bind ?_
  rintro intervals rfl
  exact meets_orFail fun budget h => (checkedSum_eq_some.mp h).2.symm

theorem new_eq_ok {consumerUse cleanup : Nat} {timing : LeaseTiming}
    (h : new consumerUse cleanup = .ok timing) :
    timing.consumerUse = consumerUse ∧ timing.vipActivationDelay = (consumerUse + cleanup) * 2 := by
  rw [new] at h
  split at h
  · cases h
  · split at h
    · split at h
      · split at h
        · rename_i sum hSum
          split at h
          · rename_i activation hActivation
            obtain ⟨-, rfl⟩ := checkedDuration_eq_some.mp hSum
            obtain ⟨-, rfl⟩ := checkedDuration_eq_some.mp hActivation
            cases h
            exact ⟨rfl, rfl⟩
          · cases h
        · cases h
      · cases h
    · cases h

/-- What the lifetimes of a process guarantee. -/
structure Roomy (cfg : ConfigFile.Config) (vipCount proofLifetime : Nat) (timing : LeaseTiming) :
    Prop where
  proof : proofLifetime ≤ timing.consumerUse
  recovery : 2 * electionTime cfg.raft + 4 * timing.renewalRoundBudget +
    2 * timing.renewalInterval ≤ timing.consumerUse
  activation : 2 * timing.consumerUse + 2 * cleanupTime vipCount ≤ timing.vipActivationDelay

/-- The lifetime of a proof is a duration. -/
theorem forProbeCadence_spec (intervalMs staleMissedProbes : Nat) :
    ∃ lifetime, forProbeCadence intervalMs staleMissedProbes = some lifetime ∧
      lifetime ≤ maxDuration :=
  ⟨_, rfl, min_le_right _ _⟩

/-- Step by step through the derivation: no unchecked operation panics, and what is returned
has room. -/
theorem forConfig_meets (cfg : ConfigFile.Config) (vipCount : Nat) {window : Nat}
    (hCadence : forProbeCadence cfg.health.intervalMs.toNat cfg.health.effectiveStaleMissedProbes =
      some window) (hWindow : window ≤ maxDuration) :
    Meets (forConfig cfg vipCount) (Roomy cfg vipCount window) := by
  rw [forConfig]
  refine (cleanupBudget_meets vipCount).bind ?_
  rintro cleanup rfl
  refine (meets_unchecked cfg.health.staleMissedProbes?_eq rfl).bind ?_
  rintro probes rfl
  refine (meets_unchecked hCadence rfl).bind ?_
  rintro _ rfl
  refine (meets_unchecked rfl rfl).bind ?_
  rintro sixth rfl
  refine (meets_unchecked rfl rfl).bind ?_
  rintro renewalInterval rfl
  refine (electionBudget_meets cfg.raft).bind ?_
  rintro election rfl
  have hSlots : ∀ slots, ((toWord32 cfg.peers.length).bind fun count => toWord32 (count + 4)) =
      some slots → slots < 2 ^ 32 := by
    intro slots h
    obtain ⟨count, -, hCount⟩ := Option.bind_eq_some_iff.mp h
    obtain ⟨hLt, rfl⟩ := toWord32_eq_some.mp hCount
    exact hLt
  refine (meets_orFail hSlots).bind fun slots hSlot => ?_
  refine (meets_orFail fun budget h => (checkedDuration_eq_some.mp h).2).bind ?_
  rintro roundBudget rfl
  have hRounds : min (window / 6) (fromMillis 500) * slots * 4 ≤ maxDuration :=
    calc min (window / 6) (fromMillis 500) * slots * 4 ≤ fromMillis 500 * 2 ^ 32 * 4 :=
          Nat.mul_le_mul_right 4 (Nat.mul_le_mul (min_le_right _ _) hSlot.le)
      _ ≤ maxDuration := by decide
  refine (recoveryBudget_meets hRounds (by omega)).bind ?_
  rintro recovery rfl
  refine Meets.bind ⟨_, rfl, fun timing h => new_eq_ok h⟩ fun timing hTiming => meets_pure ?_
  obtain ⟨hUse, hActivation⟩ := hTiming
  have hHealth := le_max_left window (electionTime cfg.raft * 2 +
    min (window / 6) (fromMillis 500) * slots * 4 + window / 4 * 2)
  have hRecovery := le_max_right window (electionTime cfg.raft * 2 +
    min (window / 6) (fromMillis 500) * slots * 4 + window / 4 * 2)
  rw [← hUse] at hHealth hRecovery
  rw [← hUse] at hActivation
  refine ⟨hHealth, ?_, ?_⟩
  · refine le_trans (le_of_eq ?_) hRecovery
    dsimp only
    ring
  · refine le_of_eq (Eq.trans ?_ hActivation.symm)
    dsimp only
    ring

/-- What the lifetimes depend on. -/
theorem forConfig_congr {first second : ConfigFile.Config}
    (hInterval : first.health.intervalMs = second.health.intervalMs)
    (hStale : first.health.effectiveStaleMissedProbes = second.health.effectiveStaleMissedProbes)
    (hRaft : first.raft = second.raft) (hPeers : first.peers.length = second.peers.length)
    (vipCount : Nat) : forConfig first vipCount = forConfig second vipCount := by
  simp only [forConfig, HealthConfig.staleMissedProbes?_eq, hInterval, hStale, hRaft, hPeers]

/-- A renewal that begins an interval after a round, waits for the lock as long as it may and
runs as long as it may, ends before the lease of that round expires. -/
theorem Roomy.renewal_in_time {cfg : ConfigFile.Config} {vipCount proofLifetime : Nat}
    {timing : LeaseTiming} (h : timing.Roomy cfg vipCount proofLifetime)
    (hElection : 0 < cfg.raft.electionTimeoutMinMs) {fits : ℤ → Bool} {begun completed expiry : ℤ}
    (hRound : completed ≤ begun + timing.renewalRoundBudget)
    (hExpiry : (timing.admissionTiming fits).consumerDeadline begun = .ok expiry) :
    completed + timing.renewalInterval + timing.renewalRoundBudget + timing.renewalRoundBudget <
      expiry := by
  have hRecovery := h.recovery
  have hPositive : 0 < electionTime cfg.raft := by
    have hMin : 0 < cfg.raft.electionTimeoutMinMs.toNat := UInt64.lt_iff_toNat_lt.mp hElection
    rw [electionTime, fromMillis, fromMillis, fromMillis, nanosPerMilli]
    omega
  obtain ⟨rfl, -⟩ := deadline_eq_ok.mp hExpiry
  omega

end LeaseTiming

/-- For every accepted configuration and every number of VIPs the lifetimes are derived
without a panic, and where they are derived they leave room to recover. -/
theorem lease_timing_roomy (config : AcceptedConfig) (vipCount : Nat) :
    ∃ proofLifetime outcome,
      config.cfg.health.staleMissedProbes? = some config.cfg.health.effectiveStaleMissedProbes ∧
      forProbeCadence config.cfg.health.intervalMs.toNat
        config.cfg.health.effectiveStaleMissedProbes = some proofLifetime ∧
      (LeaseTiming.forConfig config.cfg vipCount).run = some outcome ∧
      ∀ timing, outcome = .ok timing →
        proofLifetime ≤ timing.consumerUse ∧
        2 * LeaseTiming.electionTime config.cfg.raft + 4 * timing.renewalRoundBudget +
          2 * timing.renewalInterval ≤ timing.consumerUse ∧
        timing.issuerReservation = 2 * timing.consumerUse ∧
        timing.restartQuarantine = 4 * timing.consumerUse ∧
        2 * timing.consumerUse + 2 * LeaseTiming.cleanupTime vipCount ≤ timing.vipActivationDelay ∧
        ∀ (fits : ℤ → Bool) (begun completed expiry : ℤ),
          completed ≤ begun + timing.renewalRoundBudget →
          (timing.admissionTiming fits).consumerDeadline begun = .ok expiry →
          completed + timing.renewalInterval + timing.renewalRoundBudget +
            timing.renewalRoundBudget < expiry := by
  obtain ⟨proofLifetime, hCadence, hLifetime⟩ := LeaseTiming.forProbeCadence_spec
    config.cfg.health.intervalMs.toNat config.cfg.health.effectiveStaleMissedProbes
  obtain ⟨outcome, hRun, hRoomy⟩ := LeaseTiming.forConfig_meets config.cfg vipCount hCadence hLifetime
  refine ⟨proofLifetime, outcome, HealthConfig.staleMissedProbes?_eq _, hCadence, hRun,
    fun timing hTiming => ?_⟩
  have hTimingRoomy := hRoomy timing hTiming
  have hElection : 0 < config.cfg.raft.electionTimeoutMinMs := by
    rw [config.normalized.settings]
    exact config.normalized.election
  have hReservation := timing.reservation_eq
  have hQuarantine := timing.quarantine_eq
  rw [clockRateRatio] at hReservation hQuarantine
  refine ⟨hTimingRoomy.proof, hTimingRoomy.recovery, by omega, by omega, hTimingRoomy.activation,
    fun fits begun completed expiry hRound hExpiry => ?_⟩
  exact hTimingRoomy.renewal_in_time hElection hRound hExpiry

/-- The lifetimes of three peers with two VIPs. -/
theorem lease_timing_roomy_network :
    ∃ timing, (LeaseTiming.forConfig ConfigFile.acceptedNetwork.cfg 2).run = some (.ok timing) ∧
      timing.consumerUse = 22900000000 ∧ timing.issuerReservation = 45800000000 := by
  have hUse : (LeaseTiming.forConfig ConfigFile.acceptedNetwork.cfg 2).run.map
      (Except.map LeaseTiming.consumerUse) = some (.ok 22900000000) := by decide +kernel
  obtain ⟨_, outcome, -, -, hRun, hRoomy⟩ := lease_timing_roomy ConfigFile.acceptedNetwork 2
  rw [hRun] at hUse
  cases outcome with
  | error reason => cases hUse
  | ok timing =>
      have hConsumer : timing.consumerUse = 22900000000 := Except.ok.inj (Option.some.inj hUse)
      obtain ⟨-, -, hReservation, -⟩ := hRoomy timing rfl
      exact ⟨timing, hRun, hConsumer, hReservation.trans (by rw [hConsumer])⟩

end KeepAfloat
