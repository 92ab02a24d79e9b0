import KeepAfloat.Auth.Handshake
import KeepAfloat.Library.Ascending
import KeepAfloat.Library.Framing

/-! The byte strings that are hashed or authenticated. Six builders share the cluster secret
and the hash function. Each of them writes a domain text, a zero byte and its arguments. -/

namespace KeepAfloat

open Bytes (ascii ofWord encode)
open Framing (Framed)

/-- The physical id and the boot nonce. -/
def ReplicaId.bytes (replica : ReplicaId) : List UInt8 :=
  encode 8 replica.physicalId ++ ofWord replica.bootNonce

/-- The version and the digest. -/
def ClusterConfigFingerprint.bytes (config : ClusterConfigFingerprint) : List UInt8 :=
  ofWord config.version ++ ofWord config.digest

/-- The voters in ascending order. -/
def voterBytes (voters : Finset ReplicaId) : List UInt8 :=
  (Ascending.members voters).flatMap ReplicaId.bytes

/-- The input of the genesis digest. -/
def Genesis.digestInput (genesis : Genesis) : List UInt8 :=
  ascii "keepafloatd-admission-genesis" ++ [0] ++ [3, 1] ++ genesis.config.bytes ++
    ofWord genesis.epoch ++ encode 8 genesis.voters.card ++ voterBytes genesis.voters

/-- The input of the join plan digest; the genesis is represented by its digest. -/
def planInput (genesisDigest : BitVec 256) (consumer : ReplicaId) (requestNonce : BitVec 256)
    (previousVoters nextVoters : Finset ReplicaId) : List UInt8 :=
  ascii "keepafloatd-admission-join-plan-v1" ++ [0] ++ ofWord genesisDigest ++ consumer.bytes ++
    ofWord requestNonce ++ encode 8 previousVoters.card ++ voterBytes previousVoters ++
    encode 8 nextVoters.card ++ voterBytes nextVoters

/-- The input of the epoch of a cold cohort. The voters are not counted. -/
def cohortInput (config : ClusterConfigFingerprint) (voters : Finset ReplicaId) : List UInt8 :=
  ascii "keepafloatd-cold-cohort-epoch-v1" ++ [0] ++ config.bytes ++ voterBytes voters

/-- The input of the tag of an admission record. -/
def recordInput (role : UInt8) (sender recipient : ReplicaId) (body : List UInt8) : List UInt8 :=
  recordDomain ++ [authVersion, 1, role] ++ sender.bytes ++ recipient.bytes ++
    encode 8 body.length ++ body

inductive HashedKind where
  | genesis
  | joinPlan
  | cohort
  | handshake
  | record
  | channel
  deriving DecidableEq, Repr

/-- The domain text, without the zero byte behind it. -/
def HashedKind.domain : HashedKind → List UInt8
  | genesis => ascii "keepafloatd-admission-genesis"
  | joinPlan => ascii "keepafloatd-admission-join-plan-v1"
  | cohort => ascii "keepafloatd-cold-cohort-epoch-v1"
  | handshake => ascii "keepafloatd-mutual-auth"
  | record => ascii "keepafloatd-admission-record"
  | channel => ascii "keepafloatd-admission-channel"

theorem HashedKind.domain_plain (kind : HashedKind) : 0 ∉ kind.domain := by
  cases kind <;> decide

theorem HashedKind.domain_injective : Function.Injective HashedKind.domain := by
  intro first second h
  cases first <;> cases second <;> first | rfl | exact absurd h (by decide)

/-- The arguments of one of the builders. -/
inductive HashedInput where
  | genesis (cold : Genesis)
  | joinPlan (genesisDigest : BitVec 256) (consumer : ReplicaId) (requestNonce : BitVec 256)
      (previousVoters nextVoters : Finset ReplicaId)
  | cohort (config : ClusterConfigFingerprint) (voters : Finset ReplicaId)
  | handshake (role : UInt8) (pair : HelloPair)
  | record (role : UInt8) (sender recipient : ReplicaId) (body : List UInt8)
  | channel (pair : HelloPair)

namespace HashedInput

def bytes : HashedInput → List UInt8
  | genesis cold => cold.digestInput
  | joinPlan genesisDigest consumer requestNonce previousVoters nextVoters =>
      planInput genesisDigest consumer requestNonce previousVoters nextVoters
  | cohort config voters => cohortInput config voters
  | handshake role pair => macInput role pair
  | record role sender recipient body => recordInput role sender recipient body
  | channel pair => channelInput pair

/-- Physical ids are 64-bit words. -/
def VotersFit (voters : Finset ReplicaId) : Prop := ∀ voter ∈ voters, voter.physicalId < 256 ^ 8

/-- Both hellos have their fixed length. -/
def HellosFit (pair : HelloPair) : Prop := pair.1.length = helloBytes ∧ pair.2.length = helloBytes

/-- The arguments are values of the source's types: physical ids and the size of a set are
64-bit words, and a hello has its fixed length. -/
def Fits : HashedInput → Prop
  | genesis cold => VotersFit cold.voters
  | joinPlan _ consumer _ previousVoters nextVoters =>
      consumer.physicalId < 256 ^ 8 ∧ VotersFit previousVoters ∧ VotersFit nextVoters ∧
        previousVoters.card < 256 ^ 8
  | cohort _ voters => VotersFit voters
  | handshake _ pair => HellosFit pair
  | record _ sender recipient _ => sender.physicalId < 256 ^ 8 ∧ recipient.physicalId < 256 ^ 8
  | channel pair => HellosFit pair

def kind : HashedInput → HashedKind
  | genesis _ => .genesis
  | joinPlan .. => .joinPlan
  | cohort .. => .cohort
  | handshake .. => .handshake
  | record .. => .record
  | channel _ => .channel

/-- What follows the zero byte. -/
def payload : HashedInput → List UInt8
  | genesis cold =>
      [3, 1] ++ (cold.config.bytes ++ (ofWord cold.epoch ++
        (encode 8 cold.voters.card ++ voterBytes cold.voters)))
  | joinPlan genesisDigest consumer requestNonce previousVoters nextVoters =>
      ofWord genesisDigest ++ (consumer.bytes ++ (ofWord requestNonce ++
        (encode 8 previousVoters.card ++ (voterBytes previousVoters ++
          (encode 8 nextVoters.card ++ voterBytes nextVoters)))))
  | cohort config voters => config.bytes ++ voterBytes voters
  | handshake role pair => [authVersion, role] ++ (pair.1 ++ pair.2)
  | record role sender recipient body =>
      [authVersion, 1, role] ++ (sender.bytes ++ (recipient.bytes ++ (encode 8 body.length ++ body)))
  | channel pair => [authVersion] ++ (pair.1 ++ pair.2)

theorem bytes_eq (input : HashedInput) : input.bytes = input.kind.domain ++ 0 :: input.payload := by
  cases input with
  | genesis cold => simp [bytes, kind, HashedKind.domain, payload, Genesis.digestInput]
  | joinPlan genesisDigest consumer requestNonce previousVoters nextVoters =>
      simp [bytes, kind, HashedKind.domain, payload, planInput]
  | cohort config voters => simp [bytes, kind, HashedKind.domain, payload, cohortInput]
  | handshake role pair => simp [bytes, kind, HashedKind.domain, payload, macInput, macDomain]
  | record role sender recipient body =>
      simp [bytes, kind, HashedKind.domain, payload, recordInput, recordDomain]
  | channel pair => simp [bytes, kind, HashedKind.domain, payload, channelInput, channelDomain]

/-- The zero byte ends the domain text, which tells the builders apart. -/
theorem kind_payload_inj {first second : HashedInput} (h : first.bytes = second.bytes) :
    first.kind = second.kind ∧ first.payload = second.payload := by
  rw [bytes_eq, bytes_eq] at h
  obtain ⟨hDomain, hPayload⟩ := Framing.framed_terminated first.kind.domain_plain
    second.kind.domain_plain (by simpa using h)
  exact ⟨HashedKind.domain_injective hDomain, hPayload⟩

/-! ### Payloads -/

theorem framed_replica : Framed (fun replica => replica.physicalId < 256 ^ 8) ReplicaId.bytes := by
  intro first second hFirst hSecond rest rest' h
  rw [ReplicaId.bytes, ReplicaId.bytes, List.append_assoc, List.append_assoc] at h
  obtain ⟨hPhysical, h⟩ := Framing.framed_number 8 hFirst hSecond h
  obtain ⟨hNonce, hRest⟩ := Framing.framed_word (by decide) trivial trivial h
  refine ⟨?_, hRest⟩
  cases first
  cases second
  exact congrArg₂ ReplicaId.mk hPhysical hNonce

theorem length_replica (replica : ReplicaId) : 0 < replica.bytes.length := by
  simp [ReplicaId.bytes]

theorem fits_members {voters : Finset ReplicaId} (h : VotersFit voters) :
    ∀ voter ∈ Ascending.members voters, voter.physicalId < 256 ^ 8 :=
  fun voter hVoter => h voter (Ascending.mem_members.mp hVoter)

theorem eq_of_members {first second : Finset ReplicaId}
    (h : Ascending.members first = Ascending.members second) : first = second := by
  ext voter
  rw [← Ascending.mem_members, h, Ascending.mem_members]

/-- Voters at the end of the input need no count. -/
theorem voters_inj {first second : Finset ReplicaId} (hFirst : VotersFit first)
    (hSecond : VotersFit second) (h : voterBytes first = voterBytes second) : first = second := by
  refine eq_of_members (framed_replica.items_before length_replica (fits_members hFirst)
    (fits_members hSecond) rfl (congrArg (· ++ []) h)).1

/-- Voters behind their count end where the count says. -/
theorem counted_voters_inj {first second : Finset ReplicaId} (hFirst : VotersFit first)
    (hSecond : VotersFit second) (hCard : first.card < 256 ^ 8) (hCard' : second.card < 256 ^ 8)
    {rest rest' : List UInt8}
    (h : encode 8 first.card ++ (voterBytes first ++ rest) =
      encode 8 second.card ++ (voterBytes second ++ rest')) : first = second ∧ rest = rest' := by
  obtain ⟨hCount, h⟩ := Framing.framed_number 8 hCard hCard' h
  rw [← Ascending.length_members, ← Ascending.length_members] at hCount
  obtain ⟨hMembers, hRest⟩ := framed_replica.items hCount (fits_members hFirst) (fits_members hSecond) h
  exact ⟨eq_of_members hMembers, hRest⟩

theorem hellos_inj {first second : HelloPair} (hFirst : HellosFit first) (hSecond : HellosFit second)
    (h : first.1 ++ first.2 = second.1 ++ second.2) : first = second := by
  obtain ⟨hClient, hServer⟩ := List.append_inj h (hFirst.1.trans hSecond.1.symm)
  exact Prod.ext hClient hServer

theorem framed_config : Framed (fun _ => True) ClusterConfigFingerprint.bytes := by
  intro first second _ _ rest rest' h
  rw [ClusterConfigFingerprint.bytes, ClusterConfigFingerprint.bytes, List.append_assoc,
    List.append_assoc] at h
  obtain ⟨hVersion, h⟩ := Framing.framed_word (by decide) trivial trivial h
  obtain ⟨hDigest, hRest⟩ := Framing.framed_word (by decide) trivial trivial h
  refine ⟨?_, hRest⟩
  cases first
  cases second
  exact congrArg₂ ClusterConfigFingerprint.mk hVersion hDigest

end HashedInput

/-- Authenticated and hashed byte strings are unambiguous: each builder is injective in its
arguments, and no input of one builder is an input of another. -/
theorem HashedInput.bytes_inj {first second : HashedInput} (hFirst : first.Fits)
    (hSecond : second.Fits) (h : first.bytes = second.bytes) : first = second := by
  obtain ⟨hKind, hPayload⟩ := kind_payload_inj h
  clear h
  cases first <;> cases second <;> cases hKind
  case genesis.genesis cold cold' =>
    obtain ⟨-, h⟩ := List.append_inj hPayload rfl
    obtain ⟨hConfig, h⟩ := framed_config trivial trivial h
    obtain ⟨hEpoch, h⟩ := Framing.framed_word (by decide) trivial trivial h
    obtain ⟨-, h⟩ := List.append_inj h (by simp)
    have hVoters := voters_inj hFirst hSecond h
    obtain ⟨config, epoch, voters⟩ := cold
    obtain ⟨config', epoch', voters'⟩ := cold'
    obtain rfl : config = config' := hConfig
    obtain rfl : epoch = epoch' := hEpoch
    obtain rfl : voters = voters' := hVoters
    rfl
  case joinPlan.joinPlan digest consumer nonce previous next digest' consumer' nonce' previous' next' =>
    obtain ⟨hDigest, h⟩ := Framing.framed_word (by decide) trivial trivial hPayload
    obtain ⟨hConsumer, h⟩ := framed_replica hFirst.1 hSecond.1 h
    obtain ⟨hNonce, h⟩ := Framing.framed_word (by decide) trivial trivial h
    obtain ⟨hPrevious, h⟩ := counted_voters_inj hFirst.2.1 hSecond.2.1 hFirst.2.2.2 hSecond.2.2.2 h
    obtain ⟨-, h⟩ := List.append_inj h (by simp)
    rw [hDigest, hConsumer, hNonce, hPrevious, voters_inj hFirst.2.2.1 hSecond.2.2.1 h]
  case cohort.cohort config voters config' voters' =>
    obtain ⟨hConfig, h⟩ := framed_config trivial trivial hPayload
    rw [hConfig, voters_inj hFirst hSecond h]
  case handshake.handshake role pair role' pair' =>
    obtain ⟨hRole, h⟩ := List.append_inj hPayload rfl
    rw [hellos_inj hFirst hSecond h]
    simpa using hRole
  case record.record role sender recipient body role' sender' recipient' body' =>
    obtain ⟨hRole, h⟩ := List.append_inj hPayload rfl
    obtain ⟨hSender, h⟩ := framed_replica hFirst.1 hSecond.1 h
    obtain ⟨hRecipient, h⟩ := framed_replica hFirst.2 hSecond.2 h
    obtain ⟨-, hBody⟩ := List.append_inj h (by simp)
    rw [hSender, hRecipient, hBody]
    simpa using hRole
  case channel.channel pair pair' =>
    obtain ⟨-, h⟩ := List.append_inj hPayload rfl
    rw [hellos_inj hFirst hSecond h]

/-- One voter more, or the same arguments under another builder, is another input. -/
theorem HashedInput.bytes_inj_sample :
    (cohort ⟨1, 0⟩ {⟨1, 7⟩}).bytes ≠ (cohort ⟨1, 0⟩ {⟨1, 7⟩, ⟨2, 7⟩}).bytes ∧
      (cohort ⟨1, 0⟩ {⟨1, 7⟩}).bytes ≠ (genesis ⟨⟨1, 0⟩, 0, {⟨1, 7⟩}⟩).bytes := by
  have hOne : VotersFit {⟨1, 7⟩} := by simp [VotersFit]
  have hTwo : VotersFit {⟨1, 7⟩, ⟨2, 7⟩} := by simp [VotersFit]
  constructor
  · intro h
    have hSame := bytes_inj (show Fits (cohort ⟨1, 0⟩ {⟨1, 7⟩}) from hOne)
      (show Fits (cohort ⟨1, 0⟩ {⟨1, 7⟩, ⟨2, 7⟩}) from hTwo) h
    obtain ⟨-, hVoters⟩ := HashedInput.cohort.inj hSame
    exact absurd hVoters (by decide)
  · intro h
    have hSame := bytes_inj (show Fits (cohort ⟨1, 0⟩ {⟨1, 7⟩}) from hOne)
      (show Fits (genesis ⟨⟨1, 0⟩, 0, {⟨1, 7⟩}⟩) from hOne) h
    cases hSame

end KeepAfloat
