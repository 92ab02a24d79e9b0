import KeepAfloat.Admission.Cluster

/-! Two processes never hold permissions for different geneses. The protocol is
projected to exclusive leases: rounds are challenges, a reservation is held for a
genesis, and the physical id is the host. Every step of the cluster is a step of
the leases or leaves the projection alone. -/

namespace KeepAfloat

namespace AdmissionRound

variable {Instant : Type}

/-- What identifies a round and does not change while it is outstanding. -/
def SameChallenge (round bound : AdmissionRound Instant) : Prop :=
  bound.request.consumer = round.request.consumer ∧
  bound.request.requestNonce = round.request.requestNonce ∧ bound.deadline = round.deadline

variable [LinearOrder Instant]

theorem bindProgress_same {round bound : AdmissionRound Instant} {applied : AppliedHealthProgress}
    {now : Instant} (h : round.bindProgress applied now = .ok bound) :
    round.SameChallenge bound := by
  simp only [bindProgress, Checks.bind_eq_ok, Checks.pure_eq_ok] at h
  obtain ⟨-, -, rfl⟩ := h
  exact ⟨rfl, rfl, rfl⟩

theorem bindPrepared_same {planDigest : JoinPlan → BitVec 256}
    {round bound : AdmissionRound Instant} {prepared : PreparedJoin} {now : Instant}
    (h : round.bindPrepared planDigest prepared now = .ok bound) : round.SameChallenge bound := by
  simp only [bindPrepared, Checks.bind_eq_ok, Checks.pure_eq_ok] at h
  obtain ⟨-, -, -, -, rfl⟩ := h
  exact ⟨rfl, rfl, rfl⟩

end AdmissionRound

namespace AdmissionController

variable {Instant : Type} [LinearOrder Instant]

theorem complete_same (auth : RecordAuth AdmissionRequest)
    (controller : AdmissionController Instant) (round : AdmissionRound Instant)
    (grants : List ReceivedGrant) (now : Instant) :
    round.SameChallenge (controller.complete auth round grants now).2 := by
  unfold complete
  split
  · exact ⟨rfl, rfl, rfl⟩
  · split
    · exact ⟨rfl, rfl, rfl⟩
    · split <;> exact ⟨rfl, rfl, rfl⟩

omit [LinearOrder Instant] in
/-- The majority behind a counted list of grants, in terms of the records. -/
theorem countGrants_backed {auth : RecordAuth AdmissionRequest}
    {controller : AdmissionController Instant} {round : AdmissionRound Instant}
    {grants : List ReceivedGrant} {start result : Finset Nat × Finset ReplicaId}
    (h : grants.foldlM (controller.countGrant auth round) start = .ok result)
    {m : Nat} (hm : m ∈ result.1) :
    m ∈ start.1 ∨ ∃ received ∈ grants, received.record.sender.physicalId = m ∧
      m ∈ controller.configured ∧ received.record.payload = round.request ∧
      received.record.verify auth grantRole received.issuer controller.localReplica
        received.binding = .ok () := by
  induction grants generalizing start with
  | nil =>
      simp only [List.foldlM_nil, Checks.pure_eq_ok] at h
      exact .inl (h ▸ hm)
  | cons received rest ih =>
      simp only [List.foldlM_cons, Checks.bind_eq_ok] at h
      obtain ⟨counted, hCounted, hRest⟩ := h
      simp only [countGrant, Checks.bind_eq_ok, Checks.pure_eq_ok] at hCounted
      obtain ⟨_, hVerify, _, hMatch, rfl⟩ := hCounted
      obtain ⟨hPayload, hConfigured, -⟩ := of_decide_eq_true (ensure_eq_ok.mp hMatch)
      rcases ih hRest with hOld | ⟨other, hOther, hFacts⟩
      · rcases Finset.mem_insert.mp hOld with rfl | hOld
        · exact .inr ⟨received, List.mem_cons_self, rfl, hConfigured, hPayload, hVerify⟩
        · exact .inl hOld
      · exact .inr ⟨other, List.mem_cons_of_mem _ hOther, hFacts⟩

/-- What a completed round certifies. -/
theorem complete_certifies {auth : RecordAuth AdmissionRequest}
    {controller : AdmissionController Instant} {round : AdmissionRound Instant}
    {grants : List ReceivedGrant} {now : Instant} {verified : VerifiedAdmission Instant}
    (h : (controller.complete auth round grants now).1 = .ok verified) :
    verified.context = ⟨controller.localReplica, round.request.genesis⟩ ∧
    verified.deadline = round.deadline ∧
    ∃ issuers ⊆ controller.configured, controller.configured.card / 2 < issuers.card ∧
      ∀ m ∈ issuers, ∃ received ∈ grants, received.record.sender.physicalId = m ∧
        received.record.payload = round.request ∧
        received.record.verify auth grantRole received.issuer controller.localReplica
          received.binding = .ok () := by
  unfold complete at h
  split at h
  · cases h
  split at h
  · cases h
  split at h
  · cases h
  rename_i result hCertify
  cases h
  simp only [certify, Checks.bind_eq_ok, Checks.pure_eq_ok] at hCertify
  obtain ⟨_, -, issuers, hIssuers, _, hMajority, _, -, rfl⟩ := hCertify
  refine ⟨rfl, rfl, issuers.1, ?_, of_decide_eq_true (ensure_eq_ok.mp hMajority), ?_⟩
  · intro m hm
    rcases countGrants_backed hIssuers hm with hNone | ⟨-, -, -, hConfigured, -, -⟩
    · cases hNone
    · exact hConfigured
  · intro m hm
    rcases countGrants_backed hIssuers hm with hNone | ⟨received, hMem, hId, -, hPayload, hVerify⟩
    · cases hNone
    · exact ⟨received, hMem, hId, hPayload, hVerify⟩

/-- The guards that a granted request has passed. -/
theorem grantDeadline_eq_ok {auth : RecordAuth AdmissionRequest}
    {planDigest : JoinPlan → BitVec 256} {controller : AdmissionController Instant}
    {signed : SignedAdmission AdmissionRequest} {binding : BitVec 256}
    {state : Option KafStorageState} {check : Except AdmissionDenied Unit} {now deadline : Instant}
    (h : controller.grantDeadline auth planDigest signed binding state check now = .ok deadline) :
    signed.verify auth requestRole signed.payload.consumer controller.localReplica binding = .ok () ∧
    controller.quarantineUntil ≤ now ∧
    (∀ current ∈ controller.reservation, now < current.deadline →
      current.genesis = signed.payload.genesis ∧ current.deadline ≤ deadline) ∧
    ∃ granted, controller.timing.reservationDeadline now = .ok granted ∧ granted ≤ deadline := by
  simp only [grantDeadline, Checks.bind_eq_ok, Checks.pure_eq_ok] at h
  obtain ⟨_, hVerify, _, -, _, -, _, hQuarantine, _, hReserved, _, -, granted, hGranted, _, -,
    rfl⟩ := h
  refine ⟨hVerify, of_decide_eq_true (ensure_eq_ok.mp hQuarantine), ?_, granted, hGranted, ?_⟩
  · intro current hCurrent hNow
    rw [Option.mem_def.mp hCurrent] at hReserved ⊢
    have hGenesis : current.genesis = signed.payload.genesis := by
      simpa [hNow] using ensure_eq_ok.mp hReserved
    refine ⟨hGenesis, ?_⟩
    simp [Option.filter, hGenesis]
  · cases controller.reservation with
    | none => simp
    | some current =>
        by_cases hGenesis : current.genesis = signed.payload.genesis
        · simp [Option.filter, hGenesis]
        · simp [Option.filter, hGenesis]

end AdmissionController

namespace AdmissionCluster

variable {Instant : Type} [CommRing Instant] [LinearOrder Instant]

/-- The deadline of the process's round with a given nonce. -/
def challenges (rounds : List (AdmissionRound Instant)) (nonce : BitVec 256) : Option Instant :=
  (rounds.find? fun round => round.request.requestNonce = nonce).map AdmissionRound.deadline

/-- A process as a member of the lease protocol. -/
def member (process : AdmissionProcess Instant) : Leases.Member (BitVec 256) Genesis Instant where
  quarantine := process.controller.quarantineUntil
  reservation := process.controller.reservation.map fun reservation =>
    (reservation.genesis, reservation.deadline)
  challenges := challenges process.rounds

/-- A signed grant as a grant of the lease protocol. -/
def grantOf (record : SignedAdmission AdmissionRequest) :
    Leases.Grant ReplicaId (BitVec 256) Genesis :=
  ⟨record.sender, record.payload.consumer, record.payload.requestNonce, record.payload.genesis⟩

/-- All grants among the records. -/
def grantsOf (records : List (Nat × SignedAdmission AdmissionRequest)) :
    Set (Leases.Grant ReplicaId (BitVec 256) Genesis) :=
  { grant | ∃ record, (grantRole, record) ∈ records ∧ grant = grantOf record }

/-- The cluster as a state of the lease protocol. -/
def leases (s : AdmissionCluster Instant) :
    Leases.State ReplicaId (BitVec 256) Genesis Instant where
  live := fun replica => (s.live replica).map member
  clock := s.clock
  booted := s.booted
  grants := grantsOf s.records

omit [CommRing Instant] [LinearOrder Instant] in
theorem challenges_cons {rounds : List (AdmissionRound Instant)} {round : AdmissionRound Instant} :
    challenges (round :: rounds) =
      Function.update (challenges rounds) round.request.requestNonce (some round.deadline) := by
  funext nonce
  by_cases h : nonce = round.request.requestNonce
  · subst h
    simp [challenges]
  · rw [Function.update_of_ne h]
    simp [challenges, Ne.symm h]

omit [CommRing Instant] [LinearOrder Instant] in
theorem challenges_replace {before after : List (AdmissionRound Instant)}
    {round bound : AdmissionRound Instant} (h : round.SameChallenge bound) :
    challenges (before ++ bound :: after) = challenges (before ++ round :: after) := by
  obtain ⟨-, hNonce, hDeadline⟩ := h
  funext nonce
  simp only [challenges, List.find?_append, List.find?_cons, hNonce]
  cases List.find? _ before with
  | some found => rfl
  | none =>
      by_cases hFound : round.request.requestNonce = nonce
      · simp [hFound, hDeadline]
      · simp [hFound]

omit [CommRing Instant] [LinearOrder Instant] in
theorem challenges_isSome {rounds : List (AdmissionRound Instant)} {round : AdmissionRound Instant}
    (h : round ∈ rounds) :
    ∃ deadline, challenges rounds round.request.requestNonce = some deadline := by
  have hFound : (rounds.find? fun other =>
      decide (other.request.requestNonce = round.request.requestNonce)).isSome :=
    List.find?_isSome.mpr ⟨round, h, by simp⟩
  obtain ⟨other, hOther⟩ := Option.isSome_iff_exists.mp hFound
  exact ⟨other.deadline, by simp [challenges, hOther]⟩

omit [CommRing Instant] [LinearOrder Instant] in
theorem challenges_eq_none {rounds : List (AdmissionRound Instant)} {nonce : BitVec 256} :
    challenges rounds nonce = none ↔ ∀ round ∈ rounds, round.request.requestNonce ≠ nonce := by
  simp [challenges]

variable (setting : AdmissionSetting Instant)

/-- The physical members behind a certified round. -/
def Certified (records : List (Nat × SignedAdmission AdmissionRequest)) (replica : ReplicaId)
    (nonce : BitVec 256) (genesis : Genesis) : Prop :=
  ∃ issuers ⊆ setting.roster, setting.roster.card / 2 < issuers.card ∧
    ∀ m ∈ issuers, ∃ record, (grantRole, record) ∈ records ∧ record.sender.physicalId = m ∧
      record.payload.consumer = replica ∧ record.payload.requestNonce = nonce ∧
      record.payload.genesis = genesis

/-- What holds of every live process, given the records signed so far. -/
structure Held (records : List (Nat × SignedAdmission AdmissionRequest)) (replica : ReplicaId)
    (process : AdmissionProcess Instant) : Prop where
  controller_local : process.controller.localReplica = replica
  authority_local : process.authority.localReplica = replica
  configured : process.controller.configured = setting.roster
  timing : process.controller.timing = setting.timing.admissionTiming setting.fits
  consumer : ∀ round ∈ process.rounds, round.request.consumer = replica
  found : ∀ round ∈ process.rounds,
    challenges process.rounds round.request.requestNonce = some round.deadline
  certified : ∀ verified ∈ process.verified, verified.context.localReplica = replica ∧ ∃ nonce,
    challenges process.rounds nonce = some verified.deadline ∧
    Certified setting records replica nonce verified.context.genesis
  active : ∀ context stage deadline,
    process.authority.permission = .active context stage deadline →
      ∃ verified ∈ process.verified, process.admitted = some verified.context ∧
        verified.deadline = deadline ∧
        process.authority.identity setting.digest verified.context = context

/-- What holds of the whole cluster. -/
structure Sound (s : AdmissionCluster Instant) : Prop where
  held : ∀ replica process, s.live replica = some process →
    Held setting s.records replica process
  requested : ∀ record, (requestRole, record) ∈ s.records → record.payload.consumer ∈ s.booted ∧
    ∀ process, s.live record.payload.consumer = some process →
      ∃ round ∈ process.rounds, round.request.requestNonce = record.payload.requestNonce

variable {setting} {records : List (Nat × SignedAdmission AdmissionRequest)} {replica : ReplicaId}
  {process : AdmissionProcess Instant}

omit [CommRing Instant] [LinearOrder Instant] in
theorem Certified.mono {records' : List (Nat × SignedAdmission AdmissionRequest)}
    (hRecords : records ⊆ records') {nonce : BitVec 256} {genesis : Genesis}
    (h : Certified setting records replica nonce genesis) :
    Certified setting records' replica nonce genesis := by
  obtain ⟨issuers, hSubset, hMajority, hGrants⟩ := h
  refine ⟨issuers, hSubset, hMajority, ?_⟩
  intro m hm
  obtain ⟨record, hRecord, hFacts⟩ := hGrants m hm
  exact ⟨record, hRecords hRecord, hFacts⟩

namespace Held

omit [LinearOrder Instant] in
theorem mono {records' : List (Nat × SignedAdmission AdmissionRequest)}
    (hRecords : records ⊆ records') (h : Held setting records replica process) :
    Held setting records' replica process :=
  { h with
    certified := fun verified hVerified => by
      obtain ⟨hLocal, nonce, hNonce, hCertified⟩ := h.certified verified hVerified
      exact ⟨hLocal, nonce, hNonce, hCertified.mono hRecords⟩ }

omit [LinearOrder Instant] in
theorem start {cfg : Config} {now : Instant} {controller : AdmissionController Instant}
    {authority : RuntimeAuthority Instant} (hRoster : cfg.physicalIds = setting.roster)
    (hController : AdmissionController.new cfg replica now
      (setting.timing.admissionTiming setting.fits) = .ok controller)
    (hAuthority : RuntimeAuthority.new replica (setting.timing.admissionTiming setting.fits) now =
      .ok authority) : Held setting records replica ⟨controller, authority, [], [], none⟩ := by
  simp only [AdmissionController.new, Checks.bind_eq_ok, Checks.pure_eq_ok] at hController
  obtain ⟨_, -, identity, -, quarantine, -, rfl⟩ := hController
  simp only [RuntimeAuthority.new, Checks.map_eq_ok] at hAuthority
  obtain ⟨ready, -, rfl⟩ := hAuthority
  constructor
  case controller_local => rfl
  case authority_local => rfl
  case configured => exact hRoster
  case timing => rfl
  case consumer => simp
  case found => simp
  case certified => simp
  case active =>
      intro _ _ _ hActive
      cases hActive

omit [LinearOrder Instant] in
theorem cons {round : AdmissionRound Instant} (h : Held setting records replica process)
    (hConsumer : round.request.consumer = replica)
    (hFresh : ∀ other ∈ process.rounds, other.request.requestNonce ≠ round.request.requestNonce) :
    Held setting records replica { process with rounds := round :: process.rounds } := by
  have hNone := challenges_eq_none.mpr hFresh
  exact { h with
    consumer := by
      intro other hOther
      rcases List.mem_cons.mp hOther with rfl | hOther
      · exact hConsumer
      · exact h.consumer other hOther
    found := by
      intro other hOther
      rw [challenges_cons]
      rcases List.mem_cons.mp hOther with rfl | hOther
      · exact Function.update_self _ _ _
      · rw [Function.update_of_ne (hFresh other hOther)]
        exact h.found other hOther
    certified := by
      intro verified hVerified
      obtain ⟨hLocal, nonce, hNonce, hCertified⟩ := h.certified verified hVerified
      refine ⟨hLocal, nonce, ?_, hCertified⟩
      have hOther : nonce ≠ round.request.requestNonce := by
        rintro rfl
        rw [hNone] at hNonce
        cases hNonce
      rw [challenges_cons, Function.update_of_ne hOther]
      exact hNonce }

omit [LinearOrder Instant] in
theorem replace {before after : List (AdmissionRound Instant)}
    {round bound : AdmissionRound Instant} (h : Held setting records replica process)
    (hRounds : process.rounds = before ++ round :: after) (hSame : round.SameChallenge bound) :
    Held setting records replica { process with rounds := before ++ bound :: after } := by
  have hChallenges : challenges (before ++ bound :: after) = challenges process.rounds := by
    rw [hRounds]
    exact challenges_replace hSame
  have hMem : ∀ other ∈ before ++ bound :: after, ∃ old ∈ process.rounds,
      old.SameChallenge other := by
    intro other hOther
    rw [hRounds]
    rcases List.mem_append.mp hOther with hOther | hOther
    · exact ⟨other, List.mem_append_left _ hOther, rfl, rfl, rfl⟩
    · rcases List.mem_cons.mp hOther with rfl | hOther
      · exact ⟨round, by simp, hSame⟩
      · exact ⟨other, by simp [hOther], rfl, rfl, rfl⟩
  exact { h with
    consumer := by
      intro other hOther
      obtain ⟨old, hOld, hConsumer, -, -⟩ := hMem other hOther
      exact hConsumer.trans (h.consumer old hOld)
    found := by
      intro other hOther
      obtain ⟨old, hOld, -, hNonce, hDeadline⟩ := hMem other hOther
      rw [hChallenges, hNonce, hDeadline]
      exact h.found old hOld
    certified := by
      intro verified hVerified
      rw [hChallenges]
      exact h.certified verified hVerified }

/-- A completed round adds what its grants certify. -/
theorem complete {round : AdmissionRound Instant} {grants : List ReceivedGrant} {now : Instant}
    {verified : VerifiedAdmission Instant} (h : Held setting records replica process)
    (hRound : round ∈ process.rounds)
    (hUnforged : ∀ received ∈ grants,
      received.record.verify setting.auth grantRole received.issuer replica received.binding =
        .ok () → (grantRole, received.record) ∈ records)
    (hComplete : (process.controller.complete setting.auth round grants now).1 = .ok verified) :
    Held setting records replica { process with verified := verified :: process.verified } := by
  obtain ⟨hContext, hDeadline, issuers, hSubset, hMajority, hGrants⟩ :=
    AdmissionController.complete_certifies hComplete
  rw [h.configured] at hSubset hMajority
  rw [h.controller_local] at hGrants hContext
  have hNew : verified.context.localReplica = replica ∧ ∃ nonce,
      challenges process.rounds nonce = some verified.deadline ∧
      Certified setting records replica nonce verified.context.genesis := by
    rw [hContext, hDeadline]
    refine ⟨rfl, round.request.requestNonce, h.found round hRound, issuers, hSubset, hMajority, ?_⟩
    intro m hm
    obtain ⟨received, hReceived, hId, hPayload, hVerify⟩ := hGrants m hm
    refine ⟨received.record, hUnforged received hReceived hVerify, hId, ?_⟩
    rw [hPayload]
    exact ⟨h.consumer round hRound, rfl, rfl⟩
  exact { h with
    certified := by
      intro other hOther
      rcases List.mem_cons.mp hOther with rfl | hOther
      · exact hNew
      · exact h.certified other hOther
    active := by
      intro context stage deadline hActive
      obtain ⟨other, hOther, hFacts⟩ := h.active context stage deadline hActive
      exact ⟨other, List.mem_cons_of_mem _ hOther, hFacts⟩ }

theorem accept {verified : VerifiedAdmission Instant} {now : Instant}
    (h : Held setting records replica process) (hVerified : verified ∈ process.verified) :
    Held setting records replica { process with
      authority := (process.authority.transition setting.digest verified now).2
      admitted :=
        if (process.authority.transition setting.digest verified now).1 = .ok () then
          some verified.context
        else process.admitted } := by
  have hLocal := RuntimeAuthority.transition_local setting.digest process.authority verified now
  exact { h with
    authority_local := hLocal.trans h.authority_local
    active := by
      intro context stage deadline hActive
      have hKept := RuntimeAuthority.transition_active setting.digest hActive
      have hIdentity : ∀ other : AdmissionContext,
          (process.authority.transition setting.digest verified now).2.identity setting.digest
            other = process.authority.identity setting.digest other := by
        intro other
        simp only [RuntimeAuthority.identity, hLocal]
      simp only [hIdentity]
      split at hKept
      · obtain ⟨rfl, rfl⟩ := hKept
        exact ⟨verified, hVerified, by simp [*], rfl, rfl⟩
      · obtain ⟨other, hOther, hAdmitted, hFacts⟩ := h.active context stage deadline hKept
        exact ⟨other, hOther, by simp [*], hFacts⟩ }

theorem permission {call : RuntimePermission.Call Instant} {now : Instant}
    (h : Held setting records replica process)
    (hCall : call = .current ∨ call = .sealNow ∨
      ∃ context prepared, call = .markPromoted context prepared) :
    Held setting records replica { process with
      authority := { process.authority with
        permission := process.authority.permission.call now call } } := by
  have hKept : ∀ context stage deadline,
      process.authority.permission.call now call = .active context stage deadline →
        ∃ before, process.authority.permission = .active context before deadline := by
    intro context stage deadline hActive
    rcases hCall with rfl | rfl | ⟨promoted, prepared, rfl⟩
    · change (process.authority.permission.current now).2 = _ at hActive
      rw [RuntimePermission.current_snd] at hActive
      rcases RuntimePermission.sealExpired_eq now process.authority.permission with hSame | hSealed
      · exact ⟨stage, hSame.symm.trans hActive⟩
      · rw [hSealed] at hActive
        cases hActive
    · cases hActive
    · exact RuntimePermission.markPromoted_active hActive
  exact { h with
    active := by
      intro context stage deadline hActive
      obtain ⟨before, hBefore⟩ := hKept context stage deadline hActive
      exact h.active context before deadline hBefore }

end Held

namespace Sound

variable {s : AdmissionCluster Instant}

omit [LinearOrder Instant] in
theorem held_set {changed : AdmissionProcess Instant} (h : Sound setting s)
    (hHeld : Held setting s.records replica changed) (other : ReplicaId)
    (found : AdmissionProcess Instant) (hFound : (s.set replica changed).live other = some found) :
    Held setting s.records other found := by
  by_cases hOther : other = replica
  · subst hOther
    simp only [AdmissionCluster.set, Function.update_self, Option.some.injEq] at hFound
    exact hFound ▸ hHeld
  · simp only [AdmissionCluster.set, Function.update_of_ne hOther] at hFound
    exact h.held other found hFound

omit [LinearOrder Instant] in
/-- One process changed and remembers at least the rounds it had. -/
theorem set {changed : AdmissionProcess Instant} (h : Sound setting s)
    (hLive : s.live replica = some process) (hHeld : Held setting s.records replica changed)
    (hRounds : ∀ round ∈ process.rounds, ∃ kept ∈ changed.rounds,
      kept.request.requestNonce = round.request.requestNonce) :
    Sound setting (s.set replica changed) where
  held := h.held_set hHeld
  requested := by
    intro record hRecord
    obtain ⟨hBooted, hRequested⟩ := h.requested record hRecord
    refine ⟨hBooted, ?_⟩
    intro found hFound
    by_cases hOther : record.payload.consumer = replica
    · rw [hOther] at hFound hRequested
      simp only [AdmissionCluster.set, Function.update_self, Option.some.injEq] at hFound
      obtain ⟨round, hRound, hNonce⟩ := hRequested process hLive
      obtain ⟨kept, hKept, hSame⟩ := hRounds round hRound
      exact ⟨kept, hFound ▸ hKept, hSame.trans hNonce⟩
    · simp only [AdmissionCluster.set, Function.update_of_ne hOther] at hFound
      exact hRequested found hFound

omit [LinearOrder Instant] in
/-- More records were signed, among them only requests of live rounds. -/
theorem sign (h : Sound setting s) (hRecords : s.records ⊆ records)
    (hRequests : ∀ record, (requestRole, record) ∈ records → (requestRole, record) ∈ s.records ∨
      record.payload.consumer ∈ s.booted ∧
      ∀ process, s.live record.payload.consumer = some process →
        ∃ round ∈ process.rounds, round.request.requestNonce = record.payload.requestNonce) :
    Sound setting { s with records := records } where
  held := fun replica process hLive => (h.held replica process hLive).mono hRecords
  requested := by
    intro record hRecord
    rcases hRequests record hRecord with hOld | hNew
    · exact h.requested record hOld
    · exact hNew

omit [LinearOrder Instant] in
theorem crash (h : Sound setting s) (replica : ReplicaId) :
    Sound setting { s with live := Function.update s.live replica none } := by
  have hLive : ∀ other process, Function.update s.live replica none other = some process →
      s.live other = some process := by
    intro other process hOther
    by_cases hSame : other = replica
    · rw [hSame, Function.update_self] at hOther
      cases hOther
    · rwa [Function.update_of_ne hSame] at hOther
  exact {
    held := fun other process hOther => h.held other process (hLive other process hOther)
    requested := fun record hRecord =>
      ⟨(h.requested record hRecord).1, fun process hProcess =>
        (h.requested record hRecord).2 process (hLive _ process hProcess)⟩ }

omit [LinearOrder Instant] in
theorem boot (h : Sound setting s) (hFresh : replica ∉ s.booted)
    (hHeld : Held setting s.records replica process) :
    Sound setting { s.set replica process with booted := insert replica s.booted } where
  held := h.held_set hHeld
  requested := by
    intro record hRecord
    obtain ⟨hBooted, hRequested⟩ := h.requested record hRecord
    have hOther : record.payload.consumer ≠ replica := by
      rintro hSame
      exact hFresh (hSame ▸ hBooted)
    refine ⟨Set.mem_insert_of_mem _ hBooted, ?_⟩
    intro found hFound
    simp only [AdmissionCluster.set, Function.update_of_ne hOther] at hFound
    exact hRequested found hFound

end Sound

omit [CommRing Instant] [LinearOrder Instant] in
/-- The rounds of a replaced list still carry the nonces. -/
theorem nonce_kept {before after : List (AdmissionRound Instant)}
    {round bound : AdmissionRound Instant} (hSame : round.SameChallenge bound) :
    ∀ old ∈ before ++ round :: after, ∃ kept ∈ before ++ bound :: after,
      kept.request.requestNonce = old.request.requestNonce := by
  intro old hOld
  rcases List.mem_append.mp hOld with hOld | hOld
  · exact ⟨old, List.mem_append_left _ hOld, rfl⟩
  · rcases List.mem_cons.mp hOld with rfl | hOld
    · exact ⟨bound, by simp, hSame.2.1⟩
    · exact ⟨old, by simp [hOld], rfl⟩

omit [CommRing Instant] in
theorem begin_request {controller : AdmissionController Instant} {genesis : Genesis}
    {mode : AdmissionMode} {now : Instant} {nonce : BitVec 256} {round : AdmissionRound Instant}
    (h : controller.begin genesis mode now (some nonce) = .ok round) :
    round.request.consumer = controller.localReplica ∧ round.request.requestNonce = nonce ∧
      controller.timing.consumerDeadline now = .ok round.deadline := by
  simp only [AdmissionController.begin, Checks.bind_eq_ok, Checks.pure_eq_ok] at h
  obtain ⟨_, -, _, -, _, -, deadline, hDeadline, drawn, hDrawn, rfl⟩ := h
  exact ⟨rfl, (Option.some.inj (okOr_eq_ok.mp hDrawn)).symm, hDeadline⟩

omit [CommRing Instant] in
/-- What a reservation does to the controller and to the records. -/
theorem reserve_cases (setting : AdmissionSetting Instant)
    (controller : AdmissionController Instant) (signed : SignedAdmission AdmissionRequest)
    (binding : BitVec 256) (state : Option KafStorageState) (check : Except AdmissionDenied Unit)
    (now : Instant) :
    (∃ denied, controller.reserve setting.auth setting.planDigest signed binding state check now =
      (.error denied, controller)) ∨
    ∃ deadline answer, controller.grantDeadline setting.auth setting.planDigest signed binding state
        check now = .ok deadline ∧
      controller.reserve setting.auth setting.planDigest signed binding state check now =
        (answer, { controller with reservation := some ⟨signed.payload.genesis, deadline⟩ }) ∧
      ∀ grant, answer = .ok grant →
        grant.sender = controller.localReplica ∧ grant.payload = signed.payload := by
  unfold AdmissionController.reserve
  cases hDeadline : controller.grantDeadline setting.auth setting.planDigest signed binding state
    check now with
  | error denied => exact .inl ⟨denied, rfl⟩
  | ok deadline => exact .inr ⟨deadline, _, rfl, rfl, fun grant hGrant => SignedAdmission.sign_fields hGrant⟩

theorem Sound.step {s t : AdmissionCluster Instant} (h : Sound setting s)
    (hStep : Step setting s t) (hBooted : ∀ replica process, s.live replica = some process →
      replica ∈ s.booted) : Sound setting t := by
  cases hStep with
  | boot replica cfg controller authority hHost hFresh hRoster hController hAuthority =>
      exact h.boot hFresh (Held.start hRoster hController hAuthority)
  | crash replica => exact h.crash replica
  | advance elapsed hElapsed => exact ⟨h.held, h.requested⟩
  | begin replica process genesis mode nonce round hLive hFresh hBegin =>
      have hHeld := h.held replica process hLive
      obtain ⟨hConsumer, rfl, -⟩ := begin_request hBegin
      apply h.set hLive (hHeld.cons (hConsumer.trans hHeld.controller_local) hFresh)
      exact fun old hOld => ⟨old, List.mem_cons_of_mem _ hOld, rfl⟩
  | bindProgress replica process before after round bound applied hLive hRound hBind =>
      have hSame := AdmissionRound.bindProgress_same hBind
      apply h.set hLive ((h.held replica process hLive).replace hRound hSame)
      rw [hRound]
      exact nonce_kept hSame
  | bindPrepared replica process before after round bound prepared hLive hRound hBind =>
      have hSame := AdmissionRound.bindPrepared_same hBind
      apply h.set hLive ((h.held replica process hLive).replace hRound hSame)
      rw [hRound]
      exact nonce_kept hSame
  | request replica process round recipient binding record hLive hRound hSign =>
      obtain ⟨-, hPayload⟩ := SignedAdmission.sign_fields hSign
      have hConsumer := (h.held replica process hLive).consumer round hRound
      apply h.sign (List.subset_cons_self _ _)
      intro other hOther
      rcases List.mem_cons.mp hOther with hNew | hOld
      · cases hNew
        rw [hPayload, hConsumer]
        refine .inr ⟨hBooted replica process hLive, ?_⟩
        intro found hFound
        rw [hLive] at hFound
        exact ⟨round, Option.some.inj hFound ▸ hRound, rfl⟩
      · exact .inl hOld
  | reserve replica process signed binding state check hLive hUnforged =>
      have hHeld := h.held replica process hLive
      rcases reserve_cases setting process.controller signed binding state check (s.clock replica)
        with ⟨denied, hOutcome⟩ | ⟨deadline, answer, -, hOutcome, -⟩
      · rw [hOutcome]
        exact h.set hLive hHeld fun old hOld => ⟨old, hOld, rfl⟩
      · rw [hOutcome]
        have hSet : Sound setting (s.set replica { process with
            controller := { process.controller with
              reservation := some ⟨signed.payload.genesis, deadline⟩ } }) :=
          h.set hLive { hHeld with } fun old hOld => ⟨old, hOld, rfl⟩
        cases answer with
        | error denied => exact hSet
        | ok grant =>
            apply hSet.sign (List.subset_cons_self _ _)
            intro other hOther
            rcases List.mem_cons.mp hOther with hNew | hOld
            · cases hNew
            · exact .inl hOld
  | complete replica process before after round grants hLive hRound hUnforged =>
      have hHeld := h.held replica process hLive
      have hSame := AdmissionController.complete_same setting.auth process.controller round grants
        (s.clock replica)
      have hKept : ∀ old ∈ process.rounds, ∃ kept ∈ before ++
          (process.controller.complete setting.auth round grants (s.clock replica)).2 :: after,
          kept.request.requestNonce = old.request.requestNonce := by
        rw [hRound]
        exact nonce_kept hSame
      apply h.set hLive _ hKept
      cases hComplete : (process.controller.complete setting.auth round grants
        (s.clock replica)).1 with
      | error denied => exact hHeld.replace hRound hSame
      | ok verified =>
          have hMem : round ∈ process.rounds := by simp [hRound]
          exact (hHeld.complete hMem hUnforged hComplete).replace hRound hSame
  | accept replica process verified hLive hVerified =>
      exact h.set hLive ((h.held replica process hLive).accept hVerified)
        fun old hOld => ⟨old, hOld, rfl⟩
  | permission replica process call hLive hCall =>
      exact h.set hLive ((h.held replica process hLive).permission hCall)
        fun old hOld => ⟨old, hOld, rfl⟩

omit [CommRing Instant] [LinearOrder Instant] in
theorem leases_set (s : AdmissionCluster Instant) (replica : ReplicaId)
    (process : AdmissionProcess Instant) :
    (s.set replica process).leases =
      { s.leases with live := Function.update s.leases.live replica (some (member process)) } := by
  have hLive : (s.set replica process).leases.live =
      Function.update s.leases.live replica (some (member process)) := by
    funext other
    by_cases hOther : other = replica
    · subst hOther
      simp [leases, set]
    · simp [leases, set, Function.update_of_ne hOther]
  rw [← hLive]
  rfl

/-- A signed grant adds itself, any other record nothing. -/
theorem grantsOf_cons (role : Nat) (record : SignedAdmission AdmissionRequest) :
    grantsOf ((role, record) :: records) =
      if role = grantRole then insert (grantOf record) (grantsOf records) else grantsOf records := by
  ext grant
  split
  · rename_i hRole
    simp [grantsOf, hRole, or_and_right, exists_or]
  · rename_i hRole
    simp [grantsOf, Ne.symm hRole]

omit [CommRing Instant] [LinearOrder Instant] in
/-- A process that changed nothing the leases see. -/
theorem leases_set_same {s : AdmissionCluster Instant} {changed : AdmissionProcess Instant}
    (hLive : s.live replica = some process) (hSame : member changed = member process) :
    (s.set replica changed).leases = s.leases := by
  have hKept : Function.update s.leases.live replica (some (member changed)) = s.leases.live := by
    rw [hSame]
    apply Function.update_eq_self_iff.mpr
    simp [leases, hLive]
  rw [leases_set, hKept]

omit [CommRing Instant] [LinearOrder Instant] in
theorem leases_live {s : AdmissionCluster Instant} (hLive : s.live replica = some process) :
    s.leases.live replica = some (member process) := by
  simp [leases, hLive]

omit [CommRing Instant] [LinearOrder Instant] in
theorem exists_live {s : AdmissionCluster Instant} {found : Leases.Member (BitVec 256) Genesis Instant}
    (h : s.leases.live replica = some found) :
    ∃ process, s.live replica = some process ∧ member process = found :=
  Option.map_eq_some_iff.mp h

variable [IsStrictOrderedRing Instant]

/-- The consumer lifetime as a span of clock readings. -/
def lease (setting : AdmissionSetting Instant) : Instant := setting.timing.consumerUse

omit [LinearOrder Instant] [IsStrictOrderedRing Instant] in
theorem reservation_span (setting : AdmissionSetting Instant) :
    (setting.timing.issuerReservation : Instant) = 2 * lease setting := by
  rw [setting.timing.reservation_eq, lease]
  push_cast [clockRateRatio]
  ring

omit [LinearOrder Instant] [IsStrictOrderedRing Instant] in
theorem quarantine_span (setting : AdmissionSetting Instant) :
    (setting.timing.restartQuarantine : Instant) = 4 * lease setting := by
  rw [setting.timing.quarantine_eq, setting.timing.reservation_eq, lease]
  push_cast [clockRateRatio]
  ring

theorem lease_nonneg (setting : AdmissionSetting Instant) : 0 ≤ lease setting :=
  Nat.cast_nonneg _

omit [IsStrictOrderedRing Instant] in
/-- A reservation of the controller is one of the leases. -/
theorem reserve_leases {s : AdmissionCluster Instant} (h : Sound setting s)
    (hLive : s.live replica = some process) {signed : SignedAdmission AdmissionRequest}
    {binding : BitVec 256} {state : Option KafStorageState} {check : Except AdmissionDenied Unit}
    (hUnforged : Unforged setting s requestRole signed signed.payload.consumer replica binding)
    {deadline : Instant}
    (hDeadline : process.controller.grantDeadline setting.auth setting.planDigest signed binding
      state check (s.clock replica) = .ok deadline)
    {answer : Except AdmissionDenied (SignedAdmission AdmissionRequest)}
    (hAnswer : ∀ grant, answer = .ok grant →
      grant.sender = process.controller.localReplica ∧ grant.payload = signed.payload) :
    Leases.Step ReplicaId.physicalId (lease setting) s.leases
      { s.set replica { process with controller := { process.controller with
          reservation := some ⟨signed.payload.genesis, deadline⟩ } } with
        records := answered s.records answer }.leases := by
  have hHeld := h.held replica process hLive
  obtain ⟨hVerify, hQuarantine, hReserved, granted, hGranted, hLater⟩ :=
    AdmissionController.grantDeadline_eq_ok hDeadline
  rw [hHeld.controller_local] at hVerify hAnswer
  obtain ⟨hBooted, hRequested⟩ := h.requested signed (hUnforged hVerify)
  rw [hHeld.timing] at hGranted
  obtain ⟨rfl, -⟩ := LeaseTiming.deadline_eq_ok.mp hGranted
  rw [reservation_span] at hLater
  let grant : Leases.Grant ReplicaId (BitVec 256) Genesis :=
    ⟨replica, signed.payload.consumer, signed.payload.requestNonce, signed.payload.genesis⟩
  have hGrants : grantsOf (answered s.records answer) = grantsOf s.records ∨
      grantsOf (answered s.records answer) = insert grant (grantsOf s.records) := by
    cases answer with
    | error denied => exact .inl rfl
    | ok signedGrant =>
        obtain ⟨hSender, hPayload⟩ := hAnswer signedGrant rfl
        have hGrant : grantOf signedGrant = grant := by
          simp [grantOf, grant, hSender, hPayload]
        right
        rw [answered, grantsOf_cons, if_pos rfl, hGrant]
  have hLeases := leases_set s replica { process with controller := { process.controller with
    reservation := some ⟨signed.payload.genesis, deadline⟩ } }
  have hSplit : { s.set replica { process with controller := { process.controller with
          reservation := some ⟨signed.payload.genesis, deadline⟩ } } with
        records := answered s.records answer }.leases =
      { s.leases with
        live := Function.update s.leases.live replica (some { member process with
          reservation := some (signed.payload.genesis, deadline) })
        grants := grantsOf (answered s.records answer) } := by
    rw [Leases.State.mk.injEq]
    exact ⟨congrArg Leases.State.live hLeases, rfl, rfl, rfl⟩
  rw [hSplit]
  apply Leases.Step.reserve grant (member process) deadline _ (leases_live hLive) hQuarantine _
    hLater hBooted _ hGrants
  · intro value reserved hValue hNow
    obtain ⟨current, hCurrent, hPair⟩ := Option.map_eq_some_iff.mp hValue
    cases hPair
    exact hReserved current hCurrent hNow
  · intro consumer hConsumer
    obtain ⟨other, hOther, rfl⟩ := exists_live hConsumer
    obtain ⟨round, hRound, hNonce⟩ := hRequested other hOther
    obtain ⟨opened, hOpened⟩ := challenges_isSome hRound
    rw [hNonce] at hOpened
    exact ⟨opened, hOpened⟩

/-- Every step of the cluster is a step of the leases, or invisible to them. -/
theorem step_leases {s t : AdmissionCluster Instant} (h : Sound setting s)
    (hStep : Step setting s t) :
    t.leases = s.leases ∨
      Leases.Step ReplicaId.physicalId (lease setting) s.leases t.leases := by
  cases hStep with
  | boot replica cfg controller authority hHost hFresh hRoster hController hAuthority =>
      simp only [AdmissionController.new, Checks.bind_eq_ok, Checks.pure_eq_ok] at hController
      obtain ⟨_, -, identity, -, quarantine, hQuarantine, rfl⟩ := hController
      obtain ⟨rfl, -⟩ := LeaseTiming.deadline_eq_ok.mp hQuarantine
      right
      have hSplit : ∀ process : AdmissionProcess Instant,
          { s.set replica process with booted := insert replica s.booted }.leases =
            { s.leases with
              live := Function.update s.leases.live replica (some (member process))
              booted := insert replica s.booted } := by
        intro process
        rw [Leases.State.mk.injEq]
        exact ⟨congrArg Leases.State.live (leases_set s replica process), rfl, rfl, rfl⟩
      rw [hSplit]
      apply Leases.Step.boot replica _ _ hFresh
      · have hNonneg := lease_nonneg setting
        change s.clock replica + 2 * lease setting ≤
          s.clock replica + (setting.timing.restartQuarantine : Instant)
        rw [quarantine_span]
        linarith
      · intro other found hFound
        obtain ⟨process, hProcess, -⟩ := exists_live hFound
        exact hHost other process hProcess
  | crash replica =>
      right
      have hSplit : { s with live := Function.update s.live replica none }.leases =
          { s.leases with live := Function.update s.leases.live replica none } := by
        rw [Leases.State.mk.injEq]
        refine ⟨?_, rfl, rfl, rfl⟩
        funext other
        by_cases hOther : other = replica
        · simp [leases, hOther]
        · simp [leases, Function.update_of_ne hOther]
      rw [hSplit]
      exact .crash replica
  | advance elapsed hElapsed =>
      right
      apply Leases.Step.advance elapsed
      intro a b found found' hFound hFound'
      obtain ⟨process, hProcess, -⟩ := exists_live hFound
      obtain ⟨process', hProcess', -⟩ := exists_live hFound'
      have hRate := hElapsed a b process process' hProcess hProcess'
      simpa [clockRateRatio] using hRate
  | begin replica process genesis mode nonce round hLive hFresh hBegin =>
      right
      obtain ⟨-, rfl, hDeadline⟩ := begin_request hBegin
      rw [(h.held replica process hLive).timing] at hDeadline
      obtain ⟨hDeadline, -⟩ := LeaseTiming.deadline_eq_ok.mp hDeadline
      rw [leases_set]
      have hMember : member { process with rounds := round :: process.rounds } =
          { member process with
            challenges := Function.update (member process).challenges round.request.requestNonce
              (some (s.clock replica + lease setting)) } := by
        simp only [member, Leases.Member.mk.injEq, true_and]
        rw [challenges_cons, hDeadline]
        rfl
      rw [hMember]
      exact .challenge replica (member process) round.request.requestNonce (leases_live hLive)
        (challenges_eq_none.mpr hFresh)
  | bindProgress replica process before after round bound applied hLive hRound hBind =>
      left
      apply leases_set_same hLive
      simp only [member, hRound]
      rw [challenges_replace (AdmissionRound.bindProgress_same hBind)]
  | bindPrepared replica process before after round bound prepared hLive hRound hBind =>
      left
      apply leases_set_same hLive
      simp only [member, hRound]
      rw [challenges_replace (AdmissionRound.bindPrepared_same hBind)]
  | request replica process round recipient binding record hLive hRound hSign =>
      left
      rw [Leases.State.mk.injEq]
      refine ⟨rfl, rfl, rfl, ?_⟩
      change grantsOf ((requestRole, record) :: s.records) = grantsOf s.records
      rw [grantsOf_cons, if_neg (by decide)]
  | reserve replica process signed binding state check hLive hUnforged =>
      rcases reserve_cases setting process.controller signed binding state check (s.clock replica)
        with ⟨denied, hOutcome⟩ | ⟨deadline, answer, hDeadline, hOutcome, hAnswer⟩
      · rw [hOutcome]
        exact .inl (leases_set_same hLive rfl)
      · rw [hOutcome]
        exact .inr (reserve_leases h hLive hUnforged hDeadline hAnswer)
  | complete replica process before after round grants hLive hRound hUnforged =>
      left
      apply leases_set_same hLive
      simp only [member, hRound]
      rw [challenges_replace (AdmissionController.complete_same setting.auth process.controller
        round grants (s.clock replica))]
  | accept replica process verified hLive hVerified => exact .inl (leases_set_same hLive rfl)
  | permission replica process call hLive hCall => exact .inl (leases_set_same hLive rfl)

theorem Reachable.sound {clock : ReplicaId → Instant} {s : AdmissionCluster Instant}
    (h : Reachable setting clock s) :
    Sound setting s ∧ Leases.Inv ReplicaId.physicalId (lease setting) s.leases := by
  induction h with
  | initial =>
      refine ⟨⟨by simp [AdmissionCluster.initial], by simp [AdmissionCluster.initial]⟩, ?_⟩
      have hStart : (AdmissionCluster.initial clock).leases = Leases.initial clock := by
        simp [leases, AdmissionCluster.initial, Leases.initial, grantsOf]
      rw [hStart]
      exact Leases.inv_initial _ _ clock
  | step prior last ih =>
      obtain ⟨hSound, hInv⟩ := ih
      refine ⟨hSound.step last ?_, ?_⟩
      · intro replica process hLive
        exact hInv.booted replica _ (leases_live hLive)
      · rcases step_leases hSound last with hSame | hStep
        · rw [hSame]
          exact hInv
        · exact hInv.step hStep

/-- What stands behind a permission in force: a genesis and a majority of grants to
a round that is still open. -/
theorem backed_of_current {s : AdmissionCluster Instant} (h : Sound setting s)
    (hLive : s.live replica = some process) {context : AuthorityContext} {deadline : Instant}
    (hCurrent : (process.authority.permission.current (s.clock replica)).1 =
      some (context, deadline)) :
    ∃ genesis nonce issuers, process.admitted = some ⟨replica, genesis⟩ ∧
      context = process.authority.identity setting.digest ⟨replica, genesis⟩ ∧
      issuers ⊆ setting.roster ∧ setting.roster.card / 2 < issuers.card ∧
      Leases.Backed ReplicaId.physicalId s.leases issuers replica nonce genesis ∧
      ∀ grant : Leases.Grant ReplicaId (BitVec 256) Genesis, grant.consumer = replica →
        grant.nonce = nonce → Leases.Open s.leases grant (deadline - s.clock replica) := by
  obtain ⟨stage, hActive, hNow⟩ := RuntimePermission.current_eq_some.mp hCurrent
  have hHeld := h.held replica process hLive
  obtain ⟨verified, hVerified, hAdmitted, rfl, rfl⟩ := hHeld.active context stage deadline hActive
  obtain ⟨hLocal, nonce, hNonce, issuers, hSubset, hMajority, hGrants⟩ :=
    hHeld.certified verified hVerified
  have hContext : verified.context = ⟨replica, verified.context.genesis⟩ := by
    rw [← hLocal]
  refine ⟨verified.context.genesis, nonce, issuers, by rw [hAdmitted, ← hContext],
    by rw [← hContext], hSubset, hMajority, ?_, ?_⟩
  · intro m hm
    obtain ⟨record, hRecord, hId, rfl, rfl, hGenesis⟩ := hGrants m hm
    exact ⟨record.sender, hId, record, hRecord, by rw [← hGenesis]; rfl⟩
  · rintro grant rfl rfl
    exact ⟨member process, verified.deadline, leases_live hLive, hNonce, rfl, sub_pos.mpr hNow⟩

/-- At every moment of every interleaving, any two permissions in force are held for
the same genesis. -/
theorem genesis_exclusive (setting : AdmissionSetting Instant) (clock : ReplicaId → Instant)
    (s : AdmissionCluster Instant) (hReachable : Reachable setting clock s)
    (first second : ReplicaId) (firstProcess secondProcess : AdmissionProcess Instant)
    (firstContext secondContext : AuthorityContext) (firstDeadline secondDeadline : Instant)
    (hFirst : s.live first = some firstProcess) (hSecond : s.live second = some secondProcess)
    (hCurrent : (firstProcess.authority.permission.current (s.clock first)).1 =
      some (firstContext, firstDeadline))
    (hCurrent' : (secondProcess.authority.permission.current (s.clock second)).1 =
      some (secondContext, secondDeadline)) :
    ∃ genesis, firstProcess.admitted = some ⟨first, genesis⟩ ∧
      secondProcess.admitted = some ⟨second, genesis⟩ ∧
      firstContext = firstProcess.authority.identity setting.digest ⟨first, genesis⟩ ∧
      secondContext = secondProcess.authority.identity setting.digest ⟨second, genesis⟩ := by
  obtain ⟨hSound, hInv⟩ := hReachable.sound
  obtain ⟨genesis, nonce, issuers, hAdmitted, hContext, hSubset, hMajority, hBacked, hOpen⟩ :=
    backed_of_current hSound hFirst hCurrent
  obtain ⟨genesis', nonce', issuers', hAdmitted', hContext', hSubset', hMajority', hBacked',
    hOpen'⟩ := backed_of_current hSound hSecond hCurrent'
  obtain rfl : genesis = genesis' :=
    hInv.majorities_agree hSubset hSubset' hMajority hMajority' hBacked hBacked' hOpen hOpen'
  exact ⟨genesis, hAdmitted, hAdmitted', hContext, hContext'⟩

/-- Three configured members of which two form a cluster. -/
def pairTiming : LeaseTiming where
  consumerUse := 10
  issuerReservation := 20
  restartQuarantine := 40
  vipActivationDelay := 20
  rpcBudget := 1
  renewalInterval := 2
  renewalRoundBudget := 10
  use_pos := by decide
  reservation_eq := rfl
  quarantine_eq := rfl

def pairSetting : AdmissionSetting ℤ where
  roster := {1, 2, 3}
  timing := pairTiming
  fits := fun _ => true
  auth := ⟨fun _ _ => some [], fun role _ _ _ => some (BitVec.ofNat 256 role)⟩
  planDigest := fun _ => 0
  digest := fun _ => 7

def pairConfig (id : Nat) : Config where
  nodeId := id
  peers := [⟨1, "a"⟩, ⟨2, "b"⟩, ⟨3, "c"⟩]
  ids_nodup := by decide
  clusterConfigFingerprint := some ⟨1, 0⟩

def pairGenesis : Genesis := ⟨⟨1, 0⟩, 9, {⟨1, 1⟩, ⟨2, 1⟩}⟩

/-- Member `id` asks for admission with its own number as nonce. -/
def pairRequest (id : Nat) : AdmissionRequest := ⟨⟨id, 1⟩, pairGenesis, id, .cold⟩

def pairRound (id : Nat) (completed : Bool) : AdmissionRound ℤ :=
  ⟨pairRequest id, 40, 50, completed, none⟩

def pairRecord (role sender recipient consumer : Nat) : Nat × SignedAdmission AdmissionRequest :=
  (role, ⟨⟨sender, 1⟩, ⟨recipient, 1⟩, 0, pairRequest consumer, BitVec.ofNat 256 role⟩)

def pairGrants (id : Nat) : List ReceivedGrant :=
  [⟨(pairRecord grantRole 1 id id).2, ⟨1, 1⟩, 0⟩, ⟨(pairRecord grantRole 2 id id).2, ⟨2, 1⟩, 0⟩]

def pairVerified (id : Nat) : VerifiedAdmission ℤ := ⟨⟨⟨id, 1⟩, pairGenesis⟩, 50, .cold, none⟩

/-- Member `id` at one point of its admission. -/
def pairProcess (id : Nat) (reservation : Option (Reservation ℤ))
    (rounds : List (AdmissionRound ℤ)) (verified : List (VerifiedAdmission ℤ))
    (permission : RuntimePermission ℤ) (admitted : Option AdmissionContext) :
    AdmissionProcess ℤ where
  controller := ⟨{1, 2, 3}, ⟨1, 0⟩, ⟨id, 1⟩, pairTiming.admissionTiming fun _ => true, 40,
    reservation⟩
  authority := ⟨⟨id, 1⟩, permission, none⟩
  rounds := rounds
  verified := verified
  admitted := admitted

/-- Both members are live, at one reading of their clocks. -/
structure PairAt (s : AdmissionCluster ℤ) (first second : AdmissionProcess ℤ) (now : ℤ)
    (records : List (Nat × SignedAdmission AdmissionRequest)) : Prop where
  reachable : Reachable pairSetting (fun _ => 0) s
  first_live : s.live ⟨1, 1⟩ = some first
  second_live : s.live ⟨2, 1⟩ = some second
  clock : ∀ replica, s.clock replica = now
  records : s.records = records

/-- A step of one member, which may sign records. -/
theorem PairAt.step {s t : AdmissionCluster ℤ} {first second first' second' : AdmissionProcess ℤ}
    {now : ℤ} {records added : List (Nat × SignedAdmission AdmissionRequest)}
    (h : PairAt s first second now records) (hStep : Step pairSetting s t)
    (hFirst : t.live ⟨1, 1⟩ = some first') (hSecond : t.live ⟨2, 1⟩ = some second')
    (hClock : t.clock = s.clock) (hRecords : t.records = added ++ s.records) :
    ∃ t, PairAt t first' second' now (added ++ records) :=
  ⟨t, h.reachable.step hStep, hFirst, hSecond, hClock ▸ h.clock, h.records ▸ hRecords⟩

theorem pair_booted : ∃ s, PairAt s (pairProcess 1 none [] [] (.quarantined 40) none)
    (pairProcess 2 none [] [] (.quarantined 40) none) 40 [] := by
  have hFirst := (Reachable.initial : Reachable pairSetting (fun _ => 0) _).step
    (.boot ⟨1, 1⟩ (pairConfig 1) _ _ (by simp [initial]) (by simp [initial]) (by decide) rfl rfl)
  have hSecond := hFirst.step (.boot ⟨2, 1⟩ (pairConfig 2) _ _ (by
    intro other process hOther
    simp only [initial, set, Function.update_apply] at hOther
    split at hOther
    · rename_i hSame
      subst hSame
      decide
    · cases hOther) (by simp [initial]) (by decide) rfl rfl)
  have hLater := hSecond.step (.advance (fun _ => 40) (by intros; decide))
  exact ⟨_, hLater, rfl, rfl, fun _ => rfl, rfl⟩

/-- Both members ask both for a grant. -/
def pairRequests : List (Nat × SignedAdmission AdmissionRequest) :=
  [pairRecord requestRole 1 1 1, pairRecord requestRole 1 2 1, pairRecord requestRole 2 1 2,
    pairRecord requestRole 2 2 2]

theorem pair_requested : ∃ s,
    PairAt s (pairProcess 1 none [pairRound 1 false] [] (.quarantined 40) none)
      (pairProcess 2 none [pairRound 2 false] [] (.quarantined 40) none) 40 pairRequests := by
  obtain ⟨_, h⟩ := pair_booted
  obtain ⟨_, h⟩ : ∃ t, PairAt t (pairProcess 1 none [pairRound 1 false] [] (.quarantined 40) none)
      _ 40 ([] ++ []) :=
    h.step (.begin ⟨1, 1⟩ _ pairGenesis .cold 1 (pairRound 1 false) h.first_live (by decide)
      (by rw [h.clock]; rfl)) rfl h.second_live rfl rfl
  obtain ⟨_, h⟩ : ∃ t, PairAt t _
      (pairProcess 2 none [pairRound 2 false] [] (.quarantined 40) none) 40 ([] ++ []) :=
    h.step (.begin ⟨2, 1⟩ _ pairGenesis .cold 2 (pairRound 2 false) h.second_live (by decide)
      (by rw [h.clock]; rfl)) h.first_live rfl rfl rfl
  obtain ⟨_, h⟩ := h.step (.request ⟨2, 1⟩ _ _ ⟨2, 1⟩ 0 (pairRecord requestRole 2 2 2).2
    h.second_live (.head _) rfl) h.first_live h.second_live rfl (List.singleton_append).symm
  obtain ⟨_, h⟩ := h.step (.request ⟨2, 1⟩ _ _ ⟨1, 1⟩ 0 (pairRecord requestRole 2 1 2).2
    h.second_live (.head _) rfl) h.first_live h.second_live rfl (List.singleton_append).symm
  obtain ⟨_, h⟩ := h.step (.request ⟨1, 1⟩ _ _ ⟨2, 1⟩ 0 (pairRecord requestRole 1 2 1).2
    h.first_live (.head _) rfl) h.first_live h.second_live rfl (List.singleton_append).symm
  obtain ⟨_, h⟩ := h.step (.request ⟨1, 1⟩ _ _ ⟨1, 1⟩ 0 (pairRecord requestRole 1 1 1).2
    h.first_live (.head _) rfl) h.first_live h.second_live rfl (List.singleton_append).symm
  exact ⟨_, h⟩

def pairReserved : Option (Reservation ℤ) := some ⟨pairGenesis, 60⟩

/-- Both members grant both requests. -/
def pairAnswers : List (Nat × SignedAdmission AdmissionRequest) :=
  [pairRecord grantRole 1 1 1, pairRecord grantRole 1 2 2, pairRecord grantRole 2 1 1,
    pairRecord grantRole 2 2 2] ++ pairRequests

theorem pair_granted : ∃ s,
    PairAt s (pairProcess 1 pairReserved [pairRound 1 false] [] (.quarantined 40) none)
      (pairProcess 2 pairReserved [pairRound 2 false] [] (.quarantined 40) none) 40 pairAnswers := by
  obtain ⟨_, h⟩ := pair_requested
  obtain ⟨_, h⟩ : ∃ t, PairAt t _
      (pairProcess 2 pairReserved [pairRound 2 false] [] (.quarantined 40) none) 40
      ([pairRecord grantRole 2 2 2] ++ pairRequests) :=
    h.step (.reserve ⟨2, 1⟩ _ (pairRecord requestRole 2 2 2).2 0 none (.ok ()) h.second_live
      fun _ => by rw [h.records]; decide) h.first_live (by simp only [h.clock]; rfl) rfl
      (by simp only [h.clock]; rfl)
  obtain ⟨_, h⟩ : ∃ t, PairAt t _
      (pairProcess 2 pairReserved [pairRound 2 false] [] (.quarantined 40) none) 40
      ([pairRecord grantRole 2 1 1] ++ ([pairRecord grantRole 2 2 2] ++ pairRequests)) :=
    h.step (.reserve ⟨2, 1⟩ _ (pairRecord requestRole 1 2 1).2 0 none (.ok ()) h.second_live
      fun _ => by rw [h.records]; decide) h.first_live (by simp only [h.clock]; rfl) rfl
      (by simp only [h.clock]; rfl)
  obtain ⟨_, h⟩ : ∃ t, PairAt t
      (pairProcess 1 pairReserved [pairRound 1 false] [] (.quarantined 40) none) _ 40
      ([pairRecord grantRole 1 2 2] ++ _) :=
    h.step (.reserve ⟨1, 1⟩ _ (pairRecord requestRole 2 1 2).2 0 none (.ok ()) h.first_live
      fun _ => by rw [h.records]; decide) (by simp only [h.clock]; rfl) h.second_live rfl
      (by simp only [h.clock]; rfl)
  obtain ⟨_, h⟩ : ∃ t, PairAt t
      (pairProcess 1 pairReserved [pairRound 1 false] [] (.quarantined 40) none) _ 40
      ([pairRecord grantRole 1 1 1] ++ _) :=
    h.step (.reserve ⟨1, 1⟩ _ (pairRecord requestRole 1 1 1).2 0 none (.ok ()) h.first_live
      fun _ => by rw [h.records]; decide) (by simp only [h.clock]; rfl) h.second_live rfl
      (by simp only [h.clock]; rfl)
  exact ⟨_, h⟩

/-- Member `id` once it was admitted. -/
def pairAdmitted (id : Nat) : AdmissionProcess ℤ :=
  pairProcess id pairReserved [pairRound id true] [pairVerified id]
    (.active ⟨1, 9, 7, 1⟩ .voting 50) (some ⟨⟨id, 1⟩, pairGenesis⟩)

theorem pair_admitted : ∃ s, PairAt s (pairAdmitted 1) (pairAdmitted 2) 40 pairAnswers := by
  obtain ⟨_, h⟩ := pair_granted
  have hGrants : ∀ id, id = 1 ∨ id = 2 → ∀ received ∈ pairGrants id,
      (grantRole, received.record) ∈ pairAnswers := by
    rintro id (rfl | rfl) <;> decide
  obtain ⟨_, h⟩ : ∃ t, PairAt t (pairProcess 1 pairReserved [pairRound 1 true] [pairVerified 1]
      (.quarantined 40) none) _ 40 ([] ++ _) :=
    h.step (.complete ⟨1, 1⟩ _ [] [] (pairRound 1 false) (pairGrants 1) h.first_live rfl
      fun received hReceived _ => by rw [h.records]; exact hGrants 1 (.inl rfl) received hReceived)
      (by simp only [h.clock]; rfl) h.second_live rfl rfl
  obtain ⟨_, h⟩ : ∃ t, PairAt t (pairAdmitted 1) _ 40 ([] ++ _) :=
    h.step (.accept ⟨1, 1⟩ _ (pairVerified 1) h.first_live (.head _))
      (by simp only [h.clock]; rfl) h.second_live rfl rfl
  obtain ⟨_, h⟩ : ∃ t, PairAt t _ (pairProcess 2 pairReserved [pairRound 2 true] [pairVerified 2]
      (.quarantined 40) none) 40 ([] ++ _) :=
    h.step (.complete ⟨2, 1⟩ _ [] [] (pairRound 2 false) (pairGrants 2) h.second_live rfl
      fun received hReceived _ => by rw [h.records]; exact hGrants 2 (.inr rfl) received hReceived)
      h.first_live (by simp only [h.clock]; rfl) rfl rfl
  obtain ⟨_, h⟩ : ∃ t, PairAt t _ (pairAdmitted 2) 40 ([] ++ _) :=
    h.step (.accept ⟨2, 1⟩ _ (pairVerified 2) h.second_live (.head _))
      h.first_live (by simp only [h.clock]; rfl) rfl rfl
  exact ⟨_, h⟩

/-- Two members that are admitted at the same time. -/
theorem genesis_exclusive_pair : ∃ s : AdmissionCluster ℤ,
    Reachable pairSetting (fun _ => 0) s ∧ s.live ⟨1, 1⟩ = some (pairAdmitted 1) ∧
    s.live ⟨2, 1⟩ = some (pairAdmitted 2) ∧
    ∃ genesis, (pairAdmitted 1).admitted = some ⟨⟨1, 1⟩, genesis⟩ ∧
      (pairAdmitted 2).admitted = some ⟨⟨2, 1⟩, genesis⟩ ∧
      ⟨1, 9, 7, 1⟩ = (pairAdmitted 1).authority.identity pairSetting.digest ⟨⟨1, 1⟩, genesis⟩ ∧
      ⟨1, 9, 7, 1⟩ = (pairAdmitted 2).authority.identity pairSetting.digest ⟨⟨2, 1⟩, genesis⟩ := by
  obtain ⟨s, h⟩ := pair_admitted
  refine ⟨s, h.reachable, h.first_live, h.second_live, ?_⟩
  exact genesis_exclusive pairSetting (fun _ => 0) s h.reachable ⟨1, 1⟩ ⟨2, 1⟩ _ _ _ _ 50 50
    h.first_live h.second_live (by rw [h.clock]; rfl) (by rw [h.clock]; rfl)

end AdmissionCluster

end KeepAfloat
