import KeepAfloat.Library.Leases
import KeepAfloat.Runtime.Authority
import KeepAfloat.Runtime.Timing

/-! The admission protocol among processes that share one configured roster and one
policy. A process lives from its boot to its crash and remembers nothing across
them. The network keeps every signed record, so a record may be delivered late,
repeatedly or never. What a grantor reads of its store is arbitrary at every
reservation. -/

namespace KeepAfloat

/-- One live process. `admitted` is the context of the latest result that moved
the permission. -/
structure AdmissionProcess (Instant : Type) where
  controller : AdmissionController Instant
  authority : RuntimeAuthority Instant
  rounds : List (AdmissionRound Instant)
  verified : List (VerifiedAdmission Instant)
  admitted : Option AdmissionContext

/-- All processes with the readings of their clocks, the boots that ever were, and
the signed records with their roles. -/
structure AdmissionCluster (Instant : Type) where
  live : ReplicaId → Option (AdmissionProcess Instant)
  clock : ReplicaId → Instant
  booted : Set ReplicaId
  records : List (Nat × SignedAdmission AdmissionRequest)

/-- What the processes have in common. -/
structure AdmissionSetting (Instant : Type) where
  roster : Finset Nat
  timing : LeaseTiming
  fits : Instant → Bool
  auth : RecordAuth AdmissionRequest
  planDigest : JoinPlan → BitVec 256
  digest : Genesis → BitVec 256

namespace AdmissionCluster

variable {Instant : Type} [CommRing Instant] [LinearOrder Instant]

/-- Nothing has started. -/
def initial (clock : ReplicaId → Instant) : AdmissionCluster Instant :=
  ⟨fun _ => none, clock, ∅, []⟩

/-- The cluster after one process changed. -/
def set (s : AdmissionCluster Instant) (replica : ReplicaId) (process : AdmissionProcess Instant) :
    AdmissionCluster Instant :=
  { s with live := Function.update s.live replica (some process) }

/-- A record that verifies was signed before in the named role. -/
def Unforged (setting : AdmissionSetting Instant) (s : AdmissionCluster Instant) (role : Nat)
    (record : SignedAdmission AdmissionRequest) (sender recipient : ReplicaId)
    (binding : BitVec 256) : Prop :=
  record.verify setting.auth role sender recipient binding = .ok () → (role, record) ∈ s.records

/-- The records once a reservation was answered. -/
def answered (records : List (Nat × SignedAdmission AdmissionRequest)) :
    Except AdmissionDenied (SignedAdmission AdmissionRequest) →
      List (Nat × SignedAdmission AdmissionRequest)
  | .ok grant => (grantRole, grant) :: records
  | .error _ => records

variable (setting : AdmissionSetting Instant)

inductive Step (s : AdmissionCluster Instant) : AdmissionCluster Instant → Prop where
  /-- A process starts with a fresh boot nonce, where none with its physical id lives. -/
  | boot (replica : ReplicaId) (cfg : Config) (controller : AdmissionController Instant)
      (authority : RuntimeAuthority Instant)
      (hHost : ∀ other process, s.live other = some process →
        other.physicalId ≠ replica.physicalId)
      (hFresh : replica ∉ s.booted) (hRoster : cfg.physicalIds = setting.roster)
      (hController : AdmissionController.new cfg replica (s.clock replica)
        (setting.timing.admissionTiming setting.fits) = .ok controller)
      (hAuthority : RuntimeAuthority.new replica (setting.timing.admissionTiming setting.fits)
        (s.clock replica) = .ok authority) :
      Step s { s.set replica ⟨controller, authority, [], [], none⟩ with
        booted := insert replica s.booted }
  | crash (replica : ReplicaId) : Step s { s with live := Function.update s.live replica none }
  /-- Time passes. The rates of any two live processes differ by at most the ratio. -/
  | advance (elapsed : ReplicaId → Instant)
      (hElapsed : ∀ a b process process', s.live a = some process → s.live b = some process' →
        0 ≤ elapsed a ∧ elapsed a ≤ clockRateRatio * elapsed b) :
      Step s { s with clock := fun replica => s.clock replica + elapsed replica }
  /-- A round is opened with a nonce that this process has not used. -/
  | begin (replica : ReplicaId) (process : AdmissionProcess Instant) (genesis : Genesis)
      (mode : AdmissionMode) (nonce : BitVec 256) (round : AdmissionRound Instant)
      (hLive : s.live replica = some process)
      (hFresh : ∀ other ∈ process.rounds, other.request.requestNonce ≠ nonce)
      (hBegin : process.controller.begin genesis mode (s.clock replica) (some nonce) = .ok round) :
      Step s (s.set replica { process with rounds := round :: process.rounds })
  | bindProgress (replica : ReplicaId) (process : AdmissionProcess Instant)
      (before after : List (AdmissionRound Instant)) (round bound : AdmissionRound Instant)
      (applied : AppliedHealthProgress) (hLive : s.live replica = some process)
      (hRound : process.rounds = before ++ round :: after)
      (hBind : round.bindProgress applied (s.clock replica) = .ok bound) :
      Step s (s.set replica { process with rounds := before ++ bound :: after })
  | bindPrepared (replica : ReplicaId) (process : AdmissionProcess Instant)
      (before after : List (AdmissionRound Instant)) (round bound : AdmissionRound Instant)
      (prepared : PreparedJoin) (hLive : s.live replica = some process)
      (hRound : process.rounds = before ++ round :: after)
      (hBind : round.bindPrepared setting.planDigest prepared (s.clock replica) = .ok bound) :
      Step s (s.set replica { process with rounds := before ++ bound :: after })
  /-- A process signs the request of one of its rounds. -/
  | request (replica : ReplicaId) (process : AdmissionProcess Instant)
      (round : AdmissionRound Instant) (recipient : ReplicaId) (binding : BitVec 256)
      (record : SignedAdmission AdmissionRequest) (hLive : s.live replica = some process)
      (hRound : round ∈ process.rounds)
      (hSign : SignedAdmission.sign setting.auth requestRole replica recipient binding
        round.request = .ok record) :
      Step s { s with records := (requestRole, record) :: s.records }
  /-- A request reaches a process, which grants it or not. -/
  | reserve (replica : ReplicaId) (process : AdmissionProcess Instant)
      (signed : SignedAdmission AdmissionRequest) (binding : BitVec 256)
      (state : Option KafStorageState) (check : Except AdmissionDenied Unit)
      (hLive : s.live replica = some process)
      (hUnforged : Unforged setting s requestRole signed signed.payload.consumer replica binding) :
      Step s
        (let outcome := process.controller.reserve setting.auth setting.planDigest signed binding
          state check (s.clock replica)
        { s.set replica { process with controller := outcome.2 } with
          records := answered s.records outcome.1 })
  /-- A process completes one of its rounds with the grants that reached it. -/
  | complete (replica : ReplicaId) (process : AdmissionProcess Instant)
      (before after : List (AdmissionRound Instant)) (round : AdmissionRound Instant)
      (grants : List ReceivedGrant) (hLive : s.live replica = some process)
      (hRound : process.rounds = before ++ round :: after)
      (hUnforged : ∀ received ∈ grants,
        Unforged setting s grantRole received.record received.issuer replica received.binding) :
      Step s
        (let outcome := process.controller.complete setting.auth round grants (s.clock replica)
        s.set replica { process with
          rounds := before ++ outcome.2 :: after
          verified := match outcome.1 with
            | .ok verified => verified :: process.verified
            | .error _ => process.verified })
  /-- A process accepts one of its verified results, cold, join or renewal. -/
  | accept (replica : ReplicaId) (process : AdmissionProcess Instant)
      (verified : VerifiedAdmission Instant) (hLive : s.live replica = some process)
      (hVerified : verified ∈ process.verified) :
      Step s
        (let outcome := process.authority.transition setting.digest verified (s.clock replica)
        s.set replica { process with
          authority := outcome.2
          admitted := if outcome.1 = .ok () then some verified.context else process.admitted })
  /-- A process asks for its permission, has a learner promoted or seals itself. -/
  | permission (replica : ReplicaId) (process : AdmissionProcess Instant)
      (call : RuntimePermission.Call Instant) (hLive : s.live replica = some process)
      (hCall : call = .current ∨ call = .sealNow ∨
        ∃ context prepared, call = .markPromoted context prepared) :
      Step s (s.set replica { process with
        authority := { process.authority with
          permission := process.authority.permission.call (s.clock replica) call } })

/-- States reached by any interleaving. -/
inductive Reachable (clock : ReplicaId → Instant) : AdmissionCluster Instant → Prop where
  | initial : Reachable clock (initial clock)
  | step {s t : AdmissionCluster Instant} (prior : Reachable clock s) (last : Step setting s t) :
      Reachable clock t

end AdmissionCluster

end KeepAfloat
