import KeepAfloat.Admission.Controller

/-! Separate consumer, grantor and restart lifetimes under bounded monotonic clock
rates. Durations are whole nanoseconds. Instants are readings of a clock in any
ordered ring that counts nanoseconds; `fits` says which of them a process can
represent. -/

namespace KeepAfloat

/-- The longest duration: `2^64` seconds less a nanosecond. -/
def maxDuration : Nat := 2 ^ 64 * 1000000000 - 1

/-- A duration, or `none` above the longest one. -/
def checkedDuration (nanoseconds : Nat) : Option Nat :=
  if nanoseconds ≤ maxDuration then some nanoseconds else none

/-- The largest supported ratio between the elapsed times of two runtimes. -/
def clockRateRatio : Nat := 2

/-- The lifetimes of one policy. Both constructors of the source derive the
reservation and the quarantine from a positive consumer lifetime, so the record
carries how. -/
structure LeaseTiming where
  consumerUse : Nat
  issuerReservation : Nat
  restartQuarantine : Nat
  vipActivationDelay : Nat
  rpcBudget : Nat
  renewalInterval : Nat
  renewalRoundBudget : Nat
  use_pos : 0 < consumerUse
  reservation_eq : issuerReservation = consumerUse * clockRateRatio
  quarantine_eq : restartQuarantine = issuerReservation * clockRateRatio

namespace LeaseTiming

def new (consumerUse cleanupBudget : Nat) : Except String LeaseTiming :=
  if hUse : consumerUse = 0 then .error "admission lifetime must be positive"
  else do
    let some _ := checkedDuration (consumerUse * clockRateRatio)
      | .error "admission reservation duration overflow"
    let some _ := checkedDuration (consumerUse * clockRateRatio * clockRateRatio)
      | .error "admission quarantine duration overflow"
    let some cleanup := checkedDuration (consumerUse + cleanupBudget)
      | .error "VIP activation duration overflow"
    let some activation := checkedDuration (cleanup * clockRateRatio)
      | .error "VIP activation duration overflow"
    return {
      consumerUse := consumerUse
      issuerReservation := consumerUse * clockRateRatio
      restartQuarantine := consumerUse * clockRateRatio * clockRateRatio
      vipActivationDelay := activation
      rpcBudget := min (consumerUse / 6) 500000000
      renewalInterval := consumerUse / 4
      renewalRoundBudget := consumerUse
      use_pos := Nat.pos_of_ne_zero hUse
      reservation_eq := rfl
      quarantine_eq := rfl }

variable {Instant : Type} [CommRing Instant] [LinearOrder Instant]

/-- A deadline, or `reason` when it cannot be represented. -/
def deadline (fits : Instant → Bool) (lifetime : Nat) (reason : String) (start : Instant) :
    Except AdmissionDenied Instant :=
  if fits (start + lifetime) then .ok (start + lifetime) else .error ⟨reason⟩

/-- The lifetimes as the controller sees them. -/
def admissionTiming (timing : LeaseTiming) (fits : Instant → Bool) : AdmissionTiming Instant where
  consumerDeadline := deadline fits timing.consumerUse "admission consumer deadline overflow"
  reservationDeadline :=
    deadline fits timing.issuerReservation "admission reservation deadline overflow"
  quarantineDeadline :=
    deadline fits timing.restartQuarantine "admission quarantine deadline overflow"

omit [LinearOrder Instant] in
@[simp] theorem deadline_eq_ok {fits : Instant → Bool} {lifetime : Nat} {reason : String}
    {start finish : Instant} :
    deadline fits lifetime reason start = .ok finish ↔
      finish = start + lifetime ∧ fits (start + lifetime) = true := by
  unfold deadline
  split
  · rename_i hFits
    simp only [Except.ok.injEq, hFits, and_true]
    exact eq_comm
  · rename_i hFits
    simp [hFits]

example : (new 3500000000 36250000000).map
    (fun timing => (timing.issuerReservation, timing.restartQuarantine, timing.vipActivationDelay)) =
      .ok (7000000000, 14000000000, 79500000000) := by rfl

end LeaseTiming

end KeepAfloat
