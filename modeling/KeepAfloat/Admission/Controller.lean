import KeepAfloat.Network.Authorization

/-! Quarantine, physical-roster reservations and nonce-bound admission
certificates. Instants are the readings of one process's monotonic clock, in any
linear order; every operation takes the reading that it makes as an argument.
The cluster secret stays inside the record authenticator. -/

namespace KeepAfloat

/-- The lifetimes that a controller derives from a clock reading. -/
structure AdmissionTiming (Instant : Type) where
  consumerDeadline : Instant → Except AdmissionDenied Instant
  reservationDeadline : Instant → Except AdmissionDenied Instant
  quarantineDeadline : Instant → Except AdmissionDenied Instant

/-- Quorum-attested binding of an exact join plan. -/
structure JoinBinding where
  logId : LogId
  planDigest : BitVec 256
  deriving DecidableEq

def JoinBinding.fromPrepared (planDigest : JoinPlan → BitVec 256) (prepared : PreparedJoin) :
    JoinBinding :=
  ⟨prepared.prepared, planDigest prepared.plan⟩

inductive AdmissionMode where
  | cold
  | join (prepared : Option JoinBinding)
  | renew (progress : Option LogId)
  deriving DecidableEq

namespace AdmissionMode

/-- The mode already carries committed evidence. -/
def bound : AdmissionMode → Bool
  | .cold => false
  | .join prepared => prepared.isSome
  | .renew progress => progress.isSome

/-- The mode still has to be bound to committed evidence. -/
def unbound : AdmissionMode → Bool
  | .cold => false
  | .join prepared => prepared.isNone
  | .renew progress => progress.isNone

end AdmissionMode

structure AdmissionRequest where
  consumer : ReplicaId
  genesis : Genesis
  requestNonce : BitVec 256
  mode : AdmissionMode
  deriving DecidableEq

/-- Encoding of a bound payload, and its tag under the cluster secret. A missing
tag is a secret that cannot sign. -/
structure RecordAuth (Payload : Type) where
  encode : BitVec 256 → Payload → Option (List (BitVec 8))
  tag : Nat → ReplicaId → ReplicaId → List (BitVec 8) → Option (BitVec 256)

structure SignedAdmission (Payload : Type) where
  sender : ReplicaId
  recipient : ReplicaId
  binding : BitVec 256
  payload : Payload
  tag : BitVec 256
  deriving DecidableEq

namespace SignedAdmission

variable {Payload : Type}

def sign (auth : RecordAuth Payload) (role : Nat) (sender recipient : ReplicaId)
    (binding : BitVec 256) (payload : Payload) :
    Except AdmissionDenied (SignedAdmission Payload) := do
  let bytes ← okOr (auth.encode binding payload) "admission record encoding failed"
  let tag ← okOr (auth.tag role sender recipient bytes) "admission record signing failed"
  return ⟨sender, recipient, binding, payload, tag⟩

def verify (auth : RecordAuth Payload) (record : SignedAdmission Payload) (role : Nat)
    (sender recipient : ReplicaId) (binding : BitVec 256) : Except AdmissionDenied Unit := do
  ensure (record.sender = sender ∧ record.recipient = recipient ∧ record.binding = binding)
    "admission record boot or channel mismatch"
  let bytes ← okOr (auth.encode record.binding record.payload) "admission record encoding failed"
  ensure (auth.tag role sender recipient bytes = some record.tag)
    "admission record signature mismatch"

theorem sign_fields {auth : RecordAuth Payload} {role : Nat} {sender recipient : ReplicaId}
    {binding : BitVec 256} {payload : Payload} {record : SignedAdmission Payload}
    (h : sign auth role sender recipient binding payload = .ok record) :
    record.sender = sender ∧ record.payload = payload := by
  simp only [sign, Checks.bind_eq_ok, Checks.pure_eq_ok] at h
  obtain ⟨_, -, _, -, rfl⟩ := h
  exact ⟨rfl, rfl⟩

end SignedAdmission

/-- The role byte of a request, and of the grant that answers it. -/
def requestRole : Nat := 10

def grantRole : Nat := 11

/-- A response checked against the transport's own metadata. -/
structure ReceivedGrant where
  record : SignedAdmission AdmissionRequest
  issuer : ReplicaId
  binding : BitVec 256

/-- One outstanding challenge of the local boot. -/
structure AdmissionRound (Instant : Type) where
  request : AdmissionRequest
  started : Instant
  deadline : Instant
  completed : Bool
  preparedJoin : Option PreparedJoin

/-- Successful physical-quorum verification. -/
structure VerifiedAdmission (Instant : Type) where
  context : AdmissionContext
  deadline : Instant
  mode : AdmissionMode
  bootstrap : Option VerifiedJoinBootstrap

/-- A physical member's promise to support one genesis only. -/
structure Reservation (Instant : Type) where
  genesis : Genesis
  deadline : Instant

section Clocked

variable {Instant : Type} [LinearOrder Instant]

namespace AdmissionRound

def bindProgress (round : AdmissionRound Instant) (applied : AppliedHealthProgress)
    (now : Instant) : Except AdmissionDenied (AdmissionRound Instant) := do
  ensure (round.request.mode = .renew none ∧
      applied.request.replica = round.request.consumer ∧
      applied.request.genesis = round.request.genesis ∧
      applied.request.requestNonce = round.request.requestNonce ∧
      round.completed = false ∧ now < round.deadline)
    "progress is not for this outstanding renewal"
  return { round with request := { round.request with mode := .renew (some applied.logId) } }

def bindPrepared (planDigest : JoinPlan → BitVec 256) (round : AdmissionRound Instant)
    (prepared : PreparedJoin) (now : Instant) :
    Except AdmissionDenied (AdmissionRound Instant) := do
  prepared.plan.validate
  ensure (round.request.mode = .join none ∧
      prepared.plan.consumer = round.request.consumer ∧
      prepared.plan.genesis = round.request.genesis ∧
      round.completed = false ∧ now < round.deadline)
    "preparation is not for this outstanding join"
  return { round with
    request := { round.request with mode := .join (some (.fromPrepared planDigest prepared)) }
    preparedJoin := some { prepared with learnerApplied := none } }

end AdmissionRound

/-- One boot's side of the admission protocol, as consumer and as issuer. -/
structure AdmissionController (Instant : Type) where
  configured : Finset Nat
  configIdentity : ClusterConfigFingerprint
  localReplica : ReplicaId
  timing : AdmissionTiming Instant
  quarantineUntil : Instant
  reservation : Option (Reservation Instant)

namespace AdmissionController

def new (cfg : Config) (localReplica : ReplicaId) (boot : Instant)
    (timing : AdmissionTiming Instant) :
    Except AdmissionDenied (AdmissionController Instant) := do
  ensure (localReplica.physicalId = cfg.nodeId ∧ localReplica.physicalId ∈ cfg.physicalIds)
    "local boot is not the configured member"
  let identity ← okOr cfg.clusterConfigFingerprint "invalid admission configuration"
  let quarantineUntil ← timing.quarantineDeadline boot
  return {
    configured := cfg.physicalIds
    configIdentity := identity
    localReplica := localReplica
    timing := timing
    quarantineUntil := quarantineUntil
    reservation := none }

def validateGenesis (controller : AdmissionController Instant) (genesis : Genesis) :
    Except AdmissionDenied Unit := do
  genesis.validateRoster controller.configured
  ensure (genesis.config = controller.configIdentity) "admission configuration mismatch"

/-- Open a round. `entropy` is the nonce drawn after the clock was read. -/
def begin (controller : AdmissionController Instant) (genesis : Genesis) (mode : AdmissionMode)
    (now : Instant) (entropy : Option (BitVec 256)) :
    Except AdmissionDenied (AdmissionRound Instant) := do
  ensure (!mode.bound) "new rounds must bind their own committed evidence"
  controller.validateGenesis genesis
  ensure (controller.quarantineUntil ≤ now) "restart quarantine has not elapsed"
  let deadline ← controller.timing.consumerDeadline now
  let requestNonce ← okOr entropy "admission request entropy unavailable"
  return {
    request := ⟨controller.localReplica, genesis, requestNonce, mode⟩
    started := now
    deadline := deadline
    completed := false
    preparedJoin := none }

/-- A cold grant needs the exact boots' consent and no other active cohort.
`check` is the answer of the local session's fence. -/
def coldConsent (controller : AdmissionController Instant) (request : AdmissionRequest)
    (state : Option KafStorageState) (check : Except AdmissionDenied Unit) :
    Except AdmissionDenied Unit := do
  ensure (request.consumer ∈ request.genesis.voters ∧
      controller.localReplica ∈ request.genesis.voters)
    "cold grant requires exact proposed boot consent"
  match state with
  | none => return ()
  | some state =>
      match state.admission with
      | some session => do
          check
          ensure (session.context.localReplica = controller.localReplica ∧
              session.context.genesis = request.genesis ∧
              ∀ genesis ∈ state.genesis, genesis = request.genesis)
            "cold consent differs from active original cohort"
      | none => ensure state.genesis.isNone "stored history alone cannot authorize cold consent"

/-- A join grant needs the locally applied preparation of exactly this plan. -/
def joinConsent (planDigest : JoinPlan → BitVec 256) (controller : AdmissionController Instant)
    (request : AdmissionRequest) (prepared : Option JoinBinding) (state : Option KafStorageState)
    (check : Except AdmissionDenied Unit) : Except AdmissionDenied Unit := do
  let state ← okOr state "join requires locally applied committed preparation"
  let session ← okOr state.admission "issuer has no continuing authority"
  check
  let operation ← okOr state.preparedJoin "join preparation is not applied"
  operation.plan.validate
  ensure (session.context.localReplica = controller.localReplica ∧
      session.context.genesis = request.genesis ∧ state.genesis = some request.genesis ∧
      prepared = some (.fromPrepared planDigest operation) ∧
      operation.plan.consumer = request.consumer ∧ operation.plan.genesis = request.genesis ∧
      state.lastMembership.membership.getJointConfig.length = 1 ∧
      state.lastMembership.membership.voterIds = operation.plan.previousVoters)
    "join does not match continuing committed authority"

/-- A renewal grant needs the consumer's own challenge, locally applied. -/
def renewalConsent (controller : AdmissionController Instant) (request : AdmissionRequest)
    (progress : Option LogId) (state : Option KafStorageState)
    (check : Except AdmissionDenied Unit) : Except AdmissionDenied Unit := do
  let state ← okOr state "renewal requires locally applied progress"
  let session ← okOr state.admission "issuer has no continuing authority"
  check
  let applied ← okOr (state.appliedProgress[request.consumer.physicalId]?)
    "consumer progress has not been applied"
  ensure (session.context.localReplica = controller.localReplica ∧
      session.context.genesis = request.genesis ∧ state.genesis = some request.genesis ∧
      some applied.logId = progress ∧ applied.request.replica = request.consumer ∧
      applied.request.genesis = request.genesis ∧
      applied.request.requestNonce = request.requestNonce)
    "renewal is not this consumer's fresh committed progress"

def consent (planDigest : JoinPlan → BitVec 256) (controller : AdmissionController Instant)
    (request : AdmissionRequest) (state : Option KafStorageState)
    (check : Except AdmissionDenied Unit) : Except AdmissionDenied Unit :=
  match request.mode with
  | .cold => controller.coldConsent request state check
  | .join prepared => controller.joinConsent planDigest request prepared state check
  | .renew progress => controller.renewalConsent request progress state check

/-- The reservation deadline that a request is granted at `now`. -/
def grantDeadline (auth : RecordAuth AdmissionRequest) (planDigest : JoinPlan → BitVec 256)
    (controller : AdmissionController Instant) (signed : SignedAdmission AdmissionRequest)
    (binding : BitVec 256) (state : Option KafStorageState) (check : Except AdmissionDenied Unit)
    (now : Instant) : Except AdmissionDenied Instant := do
  signed.verify auth requestRole signed.payload.consumer controller.localReplica binding
  let request := signed.payload
  controller.validateGenesis request.genesis
  ensure (request.consumer.physicalId ∈ controller.configured)
    "admission consumer is not configured"
  ensure (controller.quarantineUntil ≤ now) "restart quarantine has not elapsed"
  ensure (!controller.reservation.any fun current =>
      now < current.deadline ∧ current.genesis ≠ request.genesis)
    "physical member is reserved for another genesis"
  controller.consent planDigest request state check
  let deadline ← controller.timing.reservationDeadline now
  ensure (now < deadline) "reservation deadline is not in the future"
  -- a renewed reservation is never shortened
  return (controller.reservation.filter fun current => current.genesis = request.genesis).elim
    deadline fun current => max current.deadline deadline

/-- Grant a request. The reservation stands even if the grant cannot be signed. -/
def reserve (auth : RecordAuth AdmissionRequest) (planDigest : JoinPlan → BitVec 256)
    (controller : AdmissionController Instant) (signed : SignedAdmission AdmissionRequest)
    (binding : BitVec 256) (state : Option KafStorageState) (check : Except AdmissionDenied Unit)
    (now : Instant) :
    Except AdmissionDenied (SignedAdmission AdmissionRequest) × AdmissionController Instant :=
  match controller.grantDeadline auth planDigest signed binding state check now with
  | .error denied => (.error denied, controller)
  | .ok deadline =>
      (SignedAdmission.sign auth grantRole controller.localReplica signed.payload.consumer binding
          signed.payload,
        { controller with reservation := some ⟨signed.payload.genesis, deadline⟩ })

/-- Count one grant towards the physical and the exact issuers. -/
def countGrant (auth : RecordAuth AdmissionRequest) (controller : AdmissionController Instant)
    (round : AdmissionRound Instant) (issuers : Finset Nat × Finset ReplicaId)
    (received : ReceivedGrant) : Except AdmissionDenied (Finset Nat × Finset ReplicaId) := do
  let grant := received.record
  grant.verify auth grantRole received.issuer controller.localReplica received.binding
  ensure (grant.payload = round.request ∧ grant.sender.physicalId ∈ controller.configured ∧
      grant.sender.physicalId ∉ issuers.1)
    "grant mismatch or duplicate physical issuer"
  return (insert grant.sender.physicalId issuers.1, insert grant.sender issuers.2)

/-- The result of a round whose grants are a physical majority. -/
def certify (auth : RecordAuth AdmissionRequest) (controller : AdmissionController Instant)
    (round : AdmissionRound Instant) (grants : List ReceivedGrant) :
    Except AdmissionDenied (VerifiedAdmission Instant) := do
  ensure (round.request.consumer = controller.localReplica)
    "admission round belongs to another boot"
  let issuers ← grants.foldlM (controller.countGrant auth round) (∅, ∅)
  ensure (controller.configured.card / 2 < issuers.1.card)
    "admission grants lack a physical majority"
  ensure (round.request.mode = .cold → issuers.2 = round.request.genesis.voters)
    "cold genesis lacks every exact boot's consent"
  return {
    context := ⟨controller.localReplica, round.request.genesis⟩
    deadline := round.deadline
    mode := round.request.mode
    bootstrap := round.preparedJoin.map VerifiedJoinBootstrap.mk }

/-- Complete a round. An expired attempt and a successful one consume it. -/
def complete (auth : RecordAuth AdmissionRequest) (controller : AdmissionController Instant)
    (round : AdmissionRound Instant) (grants : List ReceivedGrant) (now : Instant) :
    Except AdmissionDenied (VerifiedAdmission Instant) × AdmissionRound Instant :=
  if round.request.mode.unbound then
    (.error ⟨"admission round lacks committed evidence"⟩, round)
  else if round.completed ∨ round.deadline ≤ now then
    (.error ⟨"admission round expired or already consumed"⟩, { round with completed := true })
  else
    match controller.certify auth round grants with
    | .error denied => (.error denied, round)
    | .ok verified => (.ok verified, { round with completed := true })

end AdmissionController

end Clocked

end KeepAfloat
