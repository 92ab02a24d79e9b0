import KeepAfloat.Library.Word64
import KeepAfloat.Runtime.Authority

/-! Process-local lifetime of a quorum proof. A completed health renewal proves
quorum contact for a bounded window that is measured from the start of its request;
whether its runtime is still admitted is asked again at every use. Durations are
whole nanoseconds, instants are clock readings, and `fits` says which instants can
be represented. -/

namespace KeepAfloat

/-- An instant moved by a duration, if it can be represented. -/
def checkedAdd {Instant : Type} [CommRing Instant] (fits : Instant → Bool) (start : Instant)
    (duration : Nat) : Option Instant :=
  if fits (start + duration) then some (start + duration) else none

/-- A completed, locally applied renewal and the admission that accepted it. -/
structure VerifiedProgress (Instant : Type) where
  started : Instant
  applied : AppliedHealthProgress
  acceptedDeadline : Instant
  session : AdmissionSession
  deriving DecidableEq

/-- Why a proof is refused. -/
structure ProofRejected where
  reason : String
  deriving DecidableEq, Repr

/-- The latest proof. The two epochs count what breaks retention and acquisition. -/
structure Proof (Instant : Type) where
  started : Option Instant
  invalidationEpoch : Nat
  acquisitionEpoch : Nat
  available : Bool
  progress : Option (VerifiedProgress Instant)
  deriving DecidableEq

structure ConsensusFreshness (Instant : Type) where
  proof : Proof Instant
  lifetime : Nat
  identity : Nat

section Clocked

variable {Instant : Type} [CommRing Instant] [LinearOrder Instant]
variable (digest : Genesis → BitVec 256) (fits : Instant → Bool)

namespace VerifiedProgress

def logId (progress : VerifiedProgress Instant) : LogId := progress.applied.logId

def healthy (progress : VerifiedProgress Instant) : Option Bool := progress.applied.request.healthy

def context (progress : VerifiedProgress Instant) : AdmissionContext := progress.session.context

/-- The runtime that accepted the proof is still admitted, and the admission that
came with the proof has not run out. -/
def check (progress : VerifiedProgress Instant) (authority : RuntimeAuthority Instant)
    (now : Instant) : Except AdmissionDenied Unit := do
  let deadline ← (authority.check digest progress.context now).1
  ensure (now < deadline) "admission deadline expired"
  ensure (now < progress.acceptedDeadline) "health proof admission deadline expired"

end VerifiedProgress

namespace Proof

def deadline (proof : Proof Instant) (lifetime : Nat) : Option Instant := do
  let started ← proof.started
  let deadline ← checkedAdd fits started lifetime
  return proof.progress.elim deadline fun progress => min deadline progress.acceptedDeadline

def fresh (proof : Proof Instant) (lifetime : Nat) (authority : RuntimeAuthority Instant)
    (now : Instant) : Bool :=
  (proof.deadline fits lifetime).any (fun deadline => now < deadline) &&
    proof.progress.all fun progress => (progress.check digest authority now).isOk

end Proof

namespace ConsensusFreshness

def new (lifetime identity : Nat) : ConsensusFreshness Instant :=
  ⟨⟨none, 0, 0, false, none⟩, lifetime, identity⟩

/-- What a proof has to satisfy by itself. -/
def acceptable (freshness : ConsensusFreshness Instant) (progress : VerifiedProgress Instant)
    (authority : RuntimeAuthority Instant) (now : Instant) : Except ProofRejected Unit :=
  if progress.healthy ≠ some true then
    .error ⟨"only completed healthy progress can renew freshness"⟩
  else if !(progress.check digest authority now).isOk then
    .error ⟨"health proof authority is revoked"⟩
  else match checkedAdd fits progress.started freshness.lifetime with
    | none => .error ⟨"health proof lifetime overflow"⟩
    | some deadline =>
        if now < progress.started ∨ min deadline progress.acceptedDeadline ≤ now then
          .error ⟨"health proof is outside its original lifetime"⟩
        else .ok ()

/-- The proof does not advance the one already recorded. -/
def stalls (proof : Proof Instant) (progress : VerifiedProgress Instant) : Bool :=
  (proof.started.any fun previous => progress.started < previous) ||
    proof.progress.any fun previous => previous.context = progress.context ∧
      (progress.logId.index ≤ previous.logId.index ∨
        progress.logId.orderKey ≤ previous.logId.orderKey)

/-- The recorded proof is continued: it is still fresh and of the same admission. -/
def continues (freshness : ConsensusFreshness Instant) (progress : VerifiedProgress Instant)
    (authority : RuntimeAuthority Instant) (now : Instant) : Bool :=
  freshness.proof.fresh digest fits freshness.lifetime authority now &&
    freshness.proof.progress.any fun previous => previous.context = progress.context

def recordApplied (freshness : ConsensusFreshness Instant) (progress : VerifiedProgress Instant)
    (authority : RuntimeAuthority Instant) (now : Instant) :
    Except ProofRejected Unit × ConsensusFreshness Instant :=
  match freshness.acceptable digest fits progress authority now with
  | .error rejected => (.error rejected, freshness)
  | .ok () =>
      if stalls freshness.proof progress then
        (.error ⟨"health proof does not advance verified progress"⟩, freshness)
      else
        (.ok (), { freshness with
          proof := { freshness.proof with
            started := some progress.started
            invalidationEpoch :=
              if freshness.continues digest fits progress authority now then
                freshness.proof.invalidationEpoch
              else Word64.wrappingAdd freshness.proof.invalidationEpoch 1
            available := true
            progress := some progress } })

def markUnavailable (freshness : ConsensusFreshness Instant) : ConsensusFreshness Instant :=
  if freshness.proof.available then
    { freshness with
      proof := { freshness.proof with
        available := false
        acquisitionEpoch := Word64.wrappingAdd freshness.proof.acquisitionEpoch 1 } }
  else freshness

def invalidate (freshness : ConsensusFreshness Instant) : ConsensusFreshness Instant :=
  { freshness with
    proof := { freshness.proof with
      started := none
      available := false
      invalidationEpoch := Word64.wrappingAdd freshness.proof.invalidationEpoch 1 } }

end ConsensusFreshness

/-- Evidence retained by a completed binding. -/
structure RetentionStamp where
  identity : Nat
  context : AdmissionContext
  epoch : Nat
  deriving DecidableEq

/-- Permission to create bindings, or without an acquisition epoch to keep one. -/
structure Permit (Instant : Type) where
  stamp : RetentionStamp
  acquisitionEpoch : Option Nat
  deadline : Instant
  progress : VerifiedProgress Instant

namespace ConsensusFreshness

def acquire (freshness : ConsensusFreshness Instant) (hasLeader : Bool)
    (authority : RuntimeAuthority Instant) (now : Instant) : Option (Permit Instant) :=
  if hasLeader && freshness.proof.available &&
      freshness.proof.fresh digest fits freshness.lifetime authority now then do
    let progress ← freshness.proof.progress
    let deadline ← freshness.proof.deadline fits freshness.lifetime
    return {
      stamp := ⟨freshness.identity, progress.context, freshness.proof.invalidationEpoch⟩
      acquisitionEpoch := some freshness.proof.acquisitionEpoch
      deadline := deadline
      progress := progress }
  else none

def retain (freshness : ConsensusFreshness Instant) (stamp : RetentionStamp)
    (authority : RuntimeAuthority Instant) (now : Instant) : Option (Permit Instant) := do
  let progress ← freshness.proof.progress
  if freshness.identity = stamp.identity ∧ freshness.proof.invalidationEpoch = stamp.epoch ∧
      progress.context = stamp.context ∧
      freshness.proof.fresh digest fits freshness.lifetime authority now then
    let deadline ← freshness.proof.deadline fits freshness.lifetime
    return {
      stamp := stamp
      acquisitionEpoch := none
      deadline := deadline
      progress := progress }
  else none

end ConsensusFreshness

def Permit.check (permit : Permit Instant) (freshness : ConsensusFreshness Instant)
    (authority : RuntimeAuthority Instant) (now : Instant) : Bool :=
  decide (now < permit.deadline) && (permit.progress.check digest authority now).isOk &&
    decide (freshness.proof.invalidationEpoch = permit.stamp.epoch) &&
    (freshness.proof.progress.any fun progress =>
      decide (progress.context = permit.stamp.context) &&
        (progress.check digest authority now).isOk) &&
    permit.acquisitionEpoch.all fun epoch =>
      freshness.proof.available && decide (freshness.proof.acquisitionEpoch = epoch)

end Clocked

end KeepAfloat
