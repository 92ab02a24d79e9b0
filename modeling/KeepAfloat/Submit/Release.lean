import KeepAfloat.Admission.Controller
import KeepAfloat.Config.Validation
import KeepAfloat.Library.Ascending
import KeepAfloat.Library.Json
import KeepAfloat.Raft.ReplicaText
import KeepAfloat.Store.StateMachine

/-! The frames of a forwarded release: a signed record with the genesis and the release, and
the signed answer of the leader. Both are compact JSON behind a length of four bytes, and both
sides refuse frames above one fixed limit. The genesis names every voter, so the record grows
with the roster. -/

namespace KeepAfloat

open Checks (require bind_eq_ok pure_eq_ok mapError_eq_ok require_eq_ok)

/-! ### Texts -/

namespace IpAddr

def ipv4Text (bits : BitVec 32) : List Char :=
  ['.'].intercalate (((Bytes.ofWord bits).map UInt8.toNat).map (Nat.toDigits 10))

/-- The eight groups of an IPv6 address. -/
def segments (bits : BitVec 128) : List Nat :=
  (List.range 8).map fun index => bits.toNat / 2 ^ (16 * (7 - index)) % 2 ^ 16

/-- Start and length of the first longest run of zero groups. -/
def zeroes (segments : List Nat) : Nat × Nat :=
  (segments.zipIdx.foldl (fun (state : (Nat × Nat) × (Nat × Nat)) entry =>
    if entry.1 = 0 then
      let start := if state.2.2 = 0 then entry.2 else state.2.1
      let current := (start, state.2.2 + 1)
      (if state.1.2 < current.2 then current else state.1, current)
    else (state.1, (0, 0))) ((0, 0), (0, 0))).1

def subslice (segments : List Nat) : List Char :=
  [':'].intercalate (segments.map (Nat.toDigits 16))

def ipv6Text (bits : BitVec 128) : List Char :=
  match toIpv4Mapped bits with
  | some ipv4 => "::ffff:".toList ++ ipv4Text ipv4
  | none =>
      let segments := segments bits
      let zeroes := zeroes segments
      if 1 < zeroes.2 then
        subslice (segments.take zeroes.1) ++ "::".toList ++
          subslice (segments.drop (zeroes.1 + zeroes.2))
      else subslice segments

def display : IpAddr → String
  | v4 bits => .ofList (ipv4Text bits)
  | v6 bits => .ofList (ipv6Text bits)

example : display (.v6 0x20010db8000000000000000000000001) = "2001:db8::1" := by decide +kernel

end IpAddr

/-! ### Records -/

/-- An array of bytes is written as an array of numbers. -/
def wordJson (word : BitVec 256) : List UInt8 :=
  Json.array ((Bytes.ofWord word).map fun byte => Json.number byte.toNat)

def ReplicaId.json (replica : ReplicaId) : List UInt8 := Json.text replica.display

def ClusterConfigFingerprint.json (fingerprint : ClusterConfigFingerprint) : List UInt8 :=
  Json.object [("version", Json.number fingerprint.version.toNat),
    ("digest", wordJson fingerprint.digest)]

def Genesis.json (genesis : Genesis) : List UInt8 :=
  Json.object [("config", genesis.config.json), ("epoch", Json.number genesis.epoch.toNat),
    ("voters", Json.array ((Ascending.members genesis.voters).map ReplicaId.json))]

def LogId.json (log : LogId) : List UInt8 :=
  Json.object [("leader_id", Json.object [("term", Json.number log.leaderId.term),
      ("node_id", log.leaderId.nodeId.json)]), ("index", Json.number log.index)]

/-- The fields of a release. -/
structure VipReleased where
  nodeId : UInt64
  vip : IpAddr
  generation : UInt64

namespace VipReleased

def request (release : VipReleased) : KafRequest :=
  .vipReleased release.nodeId.toNat release.vip release.generation.toNat

def json (release : VipReleased) : List UInt8 :=
  Json.object [("VipReleased", Json.object [("node_id", Json.number release.nodeId.toNat),
    ("vip", Json.text release.vip.display),
    ("generation", Json.number release.generation.toNat)])]

end VipReleased

/-- The payload of a forwarded release. -/
structure ReleaseEnvelope where
  genesis : Genesis
  request : VipReleased

def ReleaseEnvelope.json (envelope : ReleaseEnvelope) : List UInt8 :=
  Json.object [("genesis", envelope.genesis.json), ("request", envelope.request.json)]

def SignedAdmission.json {Payload : Type} (payloadJson : Payload → List UInt8)
    (record : SignedAdmission Payload) : List UInt8 :=
  Json.object [("sender", record.sender.json), ("recipient", record.recipient.json),
    ("binding", wordJson record.binding), ("payload", payloadJson record.payload),
    ("tag", wordJson record.tag)]

structure SubmitResponse where
  ok : Bool
  message : String
  logId : Option LogId

namespace SubmitResponse

def fromApplied (logId : LogId) : KafResponse → SubmitResponse
  | .ok => ⟨true, "", some logId⟩
  | .rejected message => ⟨false, message, none⟩

def json (response : SubmitResponse) : List UInt8 :=
  Json.object ([("ok", Json.boolean response.ok), ("message", Json.text response.message)] ++
    response.logId.toList.map fun log => ("log_id", log.json))

end SubmitResponse

/-! ### Frames -/

def submitFrameMaxBytes : Nat := 4 * 1024

inductive SubmitRejected where
  | denied (reason : AdmissionDenied)
  | frameLimit (length : Nat)
  deriving DecidableEq

inductive FrameReadError where
  | io
  | tooLarge (length maxFrameBytes : Nat)
  deriving DecidableEq

def writeSubmitFrame (body : List UInt8) : Except SubmitRejected (List UInt8) := do
  require (body.length ≤ submitFrameMaxBytes) (.frameLimit body.length)
  pure (Bytes.encode 4 body.length ++ body)

/-- Read one frame; the rest of the stream is kept. -/
def readFramedBounded (stream : List UInt8) (maxFrameBytes : Nat) :
    Except FrameReadError (List UInt8 × List UInt8) := do
  require (4 ≤ stream.length) .io
  let length := Bytes.decode (stream.take 4)
  require (length ≤ maxFrameBytes) (.tooLarge length maxFrameBytes)
  let body := stream.drop 4
  require (length ≤ body.length) .io
  pure (body.take length, body.drop length)

def releaseRequestRole : Nat := 14

def releaseResponseRole : Nat := 15

/-- What the follower writes. -/
def forwardRelease (auth : RecordAuth ReleaseEnvelope) (sender leader : ReplicaId)
    (binding : BitVec 256) (genesis : Genesis) (request : VipReleased) :
    Except SubmitRejected (List UInt8) := do
  let record ← (SignedAdmission.sign auth releaseRequestRole sender leader binding
    ⟨genesis, request⟩).mapError .denied
  writeSubmitFrame (record.json ReleaseEnvelope.json)

/-- What the leader answers once the release is applied. -/
def acknowledgeRelease (auth : RecordAuth SubmitResponse) (leader peer : ReplicaId)
    (binding : BitVec 256) (logId : LogId) (response : KafResponse) :
    Except SubmitRejected (List UInt8) := do
  let record ← (SignedAdmission.sign auth releaseResponseRole leader peer binding
    (.fromApplied logId response)).mapError .denied
  writeSubmitFrame (record.json SubmitResponse.json)

/-! ### Sizes -/

theorem ReplicaId.length_json (replica : ReplicaId) : replica.json.length = 83 := by
  have hCanonical := replica.canonical_display
  rw [json, Json.length_text, hCanonical.length]
  intro byte hByte
  obtain ⟨index, hIndex⟩ := List.mem_iff_getElem?.mp hByte
  by_cases hSeparator : index = 16
  · subst hSeparator
    obtain rfl := Option.some.inj (hCanonical.separator.symm.trans hIndex)
    exact ⟨by decide, by decide, by decide⟩
  · exact Json.plain_of_isLower (hCanonical.digits index byte hIndex hSeparator)

/-- The decimal digits of the bytes of a word. -/
def wordDigits (word : BitVec 256) : Nat :=
  ((Bytes.ofWord word).map fun byte => Json.digits byte.toNat).sum

theorem wordDigits_bounds (word : BitVec 256) : 32 ≤ wordDigits word ∧ wordDigits word ≤ 96 := by
  have hLength : ((Bytes.ofWord word).map fun byte => Json.digits byte.toNat).length = 32 := by
    rw [List.length_map, Bytes.length_ofWord]
  have hLeast := List.card_nsmul_le_sum _ 1 (List.forall_mem_map.mpr fun byte _ =>
    Json.digits_pos byte.toNat : ∀ count ∈ (Bytes.ofWord word).map _, 1 ≤ count)
  have hMost := List.sum_le_card_nsmul _ 3 (List.forall_mem_map.mpr fun byte _ =>
    Json.digits_le (by decide) (byte.toNat_lt.trans (by decide)) :
      ∀ count ∈ (Bytes.ofWord word).map fun byte => Json.digits byte.toNat, count ≤ 3)
  rw [hLength] at hLeast hMost
  exact ⟨hLeast, hMost⟩

theorem length_wordJson (word : BitVec 256) : (wordJson word).length = wordDigits word + 33 := by
  have hLength : (Bytes.ofWord word).length = 32 := Bytes.length_ofWord word
  have hSome : (Bytes.ofWord word).map (fun byte => Json.number byte.toNat) ≠ [] := by
    rw [Ne, List.map_eq_nil_iff]
    exact List.ne_nil_of_length_pos (by rw [hLength]; decide)
  rw [wordJson, Json.length_array hSome, List.map_map, wordDigits]
  simp only [Function.comp_def, Json.length_number, List.sum_map_add, List.map_const',
    List.sum_replicate, hLength, smul_eq_mul]

namespace IpAddr

/-- A character that a text holds as one byte. -/
def Written (char : Char) : Prop := char.val ≤ 127 ∧ Json.Plain (Hex.byteOf char)

theorem written_intercalate {base : Nat} (hBase : 1 < base) (hSmall : base ≤ 16) {separator : Char}
    (hSeparator : Written separator) {values : List Nat} :
    ∀ char ∈ [separator].intercalate (values.map (Nat.toDigits base)), Written char := by
  intro char hChar
  obtain hSep | ⟨item, hItem, hDigit⟩ := Json.mem_intercalate hChar
  · obtain rfl := List.mem_singleton.mp hSep
    exact hSeparator
  · obtain ⟨value, -, rfl⟩ := List.mem_map.mp hItem
    obtain ⟨hPlain, hLower⟩ := Hex.mem_toDigits hBase hSmall hDigit
    exact ⟨hPlain, Json.plain_of_isLower hLower⟩

theorem written_dot : Written '.' := ⟨by decide, by decide, by decide, by decide⟩

theorem written_colon : Written ':' := ⟨by decide, by decide, by decide, by decide⟩

theorem ipv4Text_spec (bits : BitVec 32) :
    (∀ char ∈ ipv4Text bits, Written char) ∧ (ipv4Text bits).length ≤ 16 := by
  refine ⟨written_intercalate (by decide) (by decide) written_dot, ?_⟩
  refine (Json.length_intercalate_le 3 ?_).trans_eq ?_
  · rw [List.map_map]
    exact List.forall_mem_map.mpr fun octet _ =>
      (Nat.length_toDigits_le_iff (by decide) (by decide)).mpr (octet.toNat_lt.trans (by decide))
  · rw [List.length_map, List.length_map, Bytes.length_ofWord]
    rfl

theorem subslice_spec {segments : List Nat} (h : ∀ segment ∈ segments, segment < 16 ^ 4) :
    (∀ char ∈ subslice segments, Written char) ∧
      (subslice segments).length ≤ segments.length * 5 := by
  refine ⟨written_intercalate (by decide) (by decide) written_colon, ?_⟩
  refine (Json.length_intercalate_le 4 ?_).trans_eq (by rw [List.length_map]; rfl)
  exact List.forall_mem_map.mpr fun segment hSegment =>
    (Nat.length_toDigits_le_iff (by decide) (by decide)).mpr (h segment hSegment)

theorem segments_spec (bits : BitVec 128) :
    (segments bits).length = 8 ∧ ∀ segment ∈ segments bits, segment < 16 ^ 4 := by
  refine ⟨by rw [segments, List.length_map, List.length_range], ?_⟩
  exact List.forall_mem_map.mpr fun index _ => Nat.mod_lt _ (by decide)

theorem ipv6Text_spec (bits : BitVec 128) :
    (∀ char ∈ ipv6Text bits, Written char) ∧ (ipv6Text bits).length ≤ 42 := by
  obtain ⟨hLength, hSegments⟩ := segments_spec bits
  rw [ipv6Text]
  split
  · rename_i ipv4 hMapped
    obtain ⟨hWritten, hShort⟩ := ipv4Text_spec ipv4
    constructor
    · refine List.forall_mem_append.mpr ⟨?_, hWritten⟩
      have hF : Written 'f' := ⟨by decide, by decide, by decide, by decide⟩
      simp [written_colon, hF]
    · rw [List.length_append]
      exact (Nat.add_le_add_left hShort _).trans (by decide)
  · dsimp only
    generalize zeroes (segments bits) = run
    split
    · rename_i hRun
      have hTake : ∀ segment ∈ (segments bits).take run.1, segment < 16 ^ 4 := fun segment h =>
        hSegments segment (List.mem_of_mem_take h)
      have hDrop : ∀ segment ∈ (segments bits).drop (run.1 + run.2), segment < 16 ^ 4 :=
        fun segment h => hSegments segment (List.mem_of_mem_drop h)
      obtain ⟨hBefore, hShort⟩ := subslice_spec hTake
      obtain ⟨hBehind, hShort'⟩ := subslice_spec hDrop
      constructor
      · exact List.forall_mem_append.mpr ⟨List.forall_mem_append.mpr ⟨hBefore, by
          simp [written_colon]⟩, hBehind⟩
      · rw [List.length_take] at hShort
        rw [List.length_drop] at hShort'
        have hColons : "::".toList.length = 2 := by decide
        rw [List.length_append, List.length_append, hColons]
        omega
    · obtain ⟨hWritten, hShort⟩ := subslice_spec hSegments
      rw [hLength] at hShort
      exact ⟨hWritten, hShort.trans (by decide)⟩

theorem display_spec (address : IpAddr) :
    (Json.text address.display).length = address.display.length + 2 ∧
      address.display.length ≤ 42 := by
  cases address with
  | v4 bits =>
      obtain ⟨hWritten, hShort⟩ := ipv4Text_spec bits
      rw [display, Json.length_text_ofList hWritten, String.length_ofList]
      exact ⟨rfl, hShort.trans (by decide)⟩
  | v6 bits =>
      obtain ⟨hWritten, hShort⟩ := ipv6Text_spec bits
      rw [display, Json.length_text_ofList hWritten, String.length_ofList]
      exact ⟨rfl, hShort⟩

end IpAddr

theorem VipReleased.length_json (release : VipReleased) :
    release.json.length = Json.digits release.nodeId.toNat + release.vip.display.length +
      Json.digits release.generation.toNat + 51 := by
  have hVip := release.vip.display_spec.1
  simp only [json, Json.length_object (List.cons_ne_nil _ _), List.map_cons, List.map_nil,
    List.sum_cons, List.sum_nil, String.reduceToList, List.length_cons, List.length_nil,
    Json.length_number]
  omega

/-- The genesis grows by eighty-four bytes a voter. -/
theorem Genesis.length_json {genesis : Genesis} (h : genesis.voters.Nonempty) :
    genesis.json.length = 84 * genesis.voters.card + Json.digits genesis.config.version.toNat +
      wordDigits genesis.config.digest + Json.digits genesis.epoch.toNat + 86 := by
  have hCount := Ascending.length_members genesis.voters
  have hSome : (Ascending.members genesis.voters).map ReplicaId.json ≠ [] := by
    rw [Ne, List.map_eq_nil_iff]
    exact List.ne_nil_of_length_pos (hCount ▸ Finset.card_pos.mpr h)
  have hVoters : (Json.array ((Ascending.members genesis.voters).map ReplicaId.json)).length =
      84 * genesis.voters.card + 1 := by
    rw [Json.length_array hSome, List.map_map]
    simp only [Function.comp_def, ReplicaId.length_json, List.map_const', List.sum_replicate, hCount,
      smul_eq_mul]
    omega
  simp only [json, ClusterConfigFingerprint.json, Json.length_object (List.cons_ne_nil _ _),
    List.map_cons, List.map_nil, List.sum_cons, List.sum_nil, String.reduceToList, List.length_cons,
    List.length_nil, Json.length_number, length_wordJson, hVoters]
  omega

theorem LogId.length_json {log : LogId} (hTerm : log.leaderId.term < 2 ^ 64)
    (hIndex : log.index < 2 ^ 64) : log.json.length ≤ 180 := by
  have hTermShort : Json.digits log.leaderId.term ≤ 20 :=
    Json.digits_le (by decide) (hTerm.trans (by decide))
  have hIndexShort : Json.digits log.index ≤ 20 :=
    Json.digits_le (by decide) (hIndex.trans (by decide))
  have hNode := log.leaderId.nodeId.length_json
  simp only [json, Json.length_object (List.cons_ne_nil _ _), List.map_cons, List.map_nil,
    List.sum_cons, List.sum_nil, String.reduceToList, List.length_cons, List.length_nil,
    Json.length_number]
  omega

theorem SubmitResponse.length_json_applied {log : LogId} (hTerm : log.leaderId.term < 2 ^ 64)
    (hIndex : log.index < 2 ^ 64) : (fromApplied log .ok).json.length ≤ 300 := by
  have hLog := log.length_json hTerm hIndex
  have hOk : (Json.boolean true).length = 4 := by decide
  have hMessage : (Json.text "").length = 2 := by decide
  simp only [fromApplied, json, Option.toList_some, List.map_cons, List.map_nil,
    List.cons_append, List.nil_append, Json.length_object (List.cons_ne_nil _ _),
    List.sum_cons, List.sum_nil, String.reduceToList, List.length_cons, List.length_nil]
  omega

/-- What a signed record adds to its payload. -/
theorem SignedAdmission.length_json {Payload : Type} (payloadJson : Payload → List UInt8)
    (record : SignedAdmission Payload) :
    (record.json payloadJson).length = (payloadJson record.payload).length +
      wordDigits record.binding + wordDigits record.tag + 285 := by
  have hSender := record.sender.length_json
  have hRecipient := record.recipient.length_json
  simp only [json, Json.length_object (List.cons_ne_nil _ _), List.map_cons, List.map_nil,
    List.sum_cons, List.sum_nil, String.reduceToList, List.length_cons, List.length_nil,
    length_wordJson]
  omega

theorem ReleaseEnvelope.length_json (envelope : ReleaseEnvelope) :
    envelope.json.length = envelope.genesis.json.length + envelope.request.json.length + 23 := by
  simp only [json, Json.length_object (List.cons_ne_nil _ _), List.map_cons, List.map_nil,
    List.sum_cons, List.sum_nil, String.reduceToList, List.length_cons, List.length_nil]
  omega

/-! ### Frames of a release -/

/-- A body that both ends of a submit connection take. -/
structure Carried (body : List UInt8) : Prop where
  fits : body.length ≤ submitFrameMaxBytes
  written : writeSubmitFrame body = .ok (Bytes.encode 4 body.length ++ body)
  read : ∀ rest, readFramedBounded (Bytes.encode 4 body.length ++ body ++ rest)
    submitFrameMaxBytes = .ok (body, rest)

theorem Carried.of_length {body : List UInt8} (h : body.length ≤ submitFrameMaxBytes) :
    Carried body := by
  have hLength : Bytes.decode (Bytes.encode 4 body.length) = body.length := by
    rw [Bytes.decode_encode, Nat.mod_eq_of_lt (h.trans_lt (by decide))]
  refine ⟨h, by simp [writeSubmitFrame, require, h], fun rest => ?_⟩
  have hPrefix : (Bytes.encode 4 body.length ++ body ++ rest).take 4 =
      Bytes.encode 4 body.length := by
    rw [List.append_assoc, List.take_left' (Bytes.length_encode 4 _)]
  have hBody : (Bytes.encode 4 body.length ++ body ++ rest).drop 4 = body ++ rest := by
    rw [List.append_assoc, List.drop_left' (Bytes.length_encode 4 _)]
  simp only [readFramedBounded, bind_eq_ok, require_eq_ok, exists_const, pure_eq_ok, hPrefix, hBody,
    hLength, List.take_left, List.drop_left, List.length_append, Bytes.length_encode,
    decide_eq_true_eq]
  exact ⟨by omega, h, by omega, trivial⟩

/-- The size of a forwarded release: eighty-four bytes a voter, the digits of its numbers and
bytes, and the text of the address. -/
def releaseBytes (genesis : Genesis) (request : VipReleased) (binding tag : BitVec 256) : Nat :=
  84 * genesis.voters.card + Json.digits genesis.config.version.toNat +
    wordDigits genesis.config.digest + Json.digits genesis.epoch.toNat +
    Json.digits request.nodeId.toNat + request.vip.display.length +
    Json.digits request.generation.toNat + wordDigits binding + wordDigits tag + 445

theorem length_release {record : SignedAdmission ReleaseEnvelope}
    (h : record.payload.genesis.voters.Nonempty) :
    (record.json ReleaseEnvelope.json).length =
      releaseBytes record.payload.genesis record.payload.request record.binding record.tag := by
  rw [record.length_json, ReleaseEnvelope.length_json, Genesis.length_json h,
    VipReleased.length_json, releaseBytes]
  omega

/-- All but the voters is between 545 and 857 bytes. -/
theorem releaseBytes_bounds (genesis : Genesis) (request : VipReleased) (binding tag : BitVec 256) :
    84 * genesis.voters.card + 545 ≤ releaseBytes genesis request binding tag ∧
      releaseBytes genesis request binding tag ≤ 84 * genesis.voters.card + 857 := by
  have hWord : ∀ value : UInt64, 1 ≤ Json.digits value.toNat ∧ Json.digits value.toNat ≤ 20 :=
    fun value => ⟨Json.digits_pos _,
      Json.digits_le (by decide) (value.toNat_lt.trans (by decide))⟩
  have hVersion := Json.digits_pos genesis.config.version.toNat
  have hVersionShort : Json.digits genesis.config.version.toNat ≤ 3 :=
    Json.digits_le (by decide) (genesis.config.version.isLt.trans (by decide))
  have hEpoch := Json.digits_pos genesis.epoch.toNat
  have hEpochShort : Json.digits genesis.epoch.toNat ≤ 39 :=
    Json.digits_le (by decide) (genesis.epoch.isLt.trans (by decide))
  have hNode := hWord request.nodeId
  have hGeneration := hWord request.generation
  have hDigest := wordDigits_bounds genesis.config.digest
  have hBinding := wordDigits_bounds binding
  have hTag := wordDigits_bounds tag
  have hVip := request.vip.display_spec.2
  rw [releaseBytes]
  omega

section Forwarding

variable {auth : RecordAuth ReleaseEnvelope} {sender leader : ReplicaId} {binding : BitVec 256}
  {genesis : Genesis} {request : VipReleased} {record : SignedAdmission ReleaseEnvelope}

theorem forwardRelease_of_sign
    (h : SignedAdmission.sign auth releaseRequestRole sender leader binding ⟨genesis, request⟩ =
      .ok record) :
    forwardRelease auth sender leader binding genesis request =
      writeSubmitFrame (record.json ReleaseEnvelope.json) := by
  simp only [forwardRelease, h, Checks.mapError_ok, bind, Except.bind]

theorem length_signed
    (h : SignedAdmission.sign auth releaseRequestRole sender leader binding ⟨genesis, request⟩ =
      .ok record) (hSome : genesis.voters.Nonempty) :
    (record.json ReleaseEnvelope.json).length =
      releaseBytes genesis request binding record.tag := by
  simp only [SignedAdmission.sign, bind_eq_ok, pure_eq_ok] at h
  obtain ⟨_, -, _, -, rfl⟩ := h
  exact length_release hSome

/-- A release that names forty-three voters or more is refused where it is written. -/
theorem forwardRelease_too_large
    (h : SignedAdmission.sign auth releaseRequestRole sender leader binding ⟨genesis, request⟩ =
      .ok record) (hLarge : 43 ≤ genesis.voters.card) :
    forwardRelease auth sender leader binding genesis request =
      .error (.frameLimit (record.json ReleaseEnvelope.json).length) := by
  have hLength := length_signed h (Finset.card_pos.mp (by omega))
  have hLong := (releaseBytes_bounds genesis request binding record.tag).1
  rw [forwardRelease_of_sign h, writeSubmitFrame, require, if_neg]
  · rfl
  · rw [decide_eq_true_eq, hLength, submitFrameMaxBytes]
    omega

end Forwarding

theorem acknowledgeRelease_of_sign {auth : RecordAuth SubmitResponse} {leader peer : ReplicaId}
    {binding : BitVec 256} {log : LogId} {response : KafResponse}
    {record : SignedAdmission SubmitResponse}
    (h : SignedAdmission.sign auth releaseResponseRole leader peer binding
      (.fromApplied log response) = .ok record) :
    acknowledgeRelease auth leader peer binding log response =
      writeSubmitFrame (record.json SubmitResponse.json) := by
  simp only [acknowledgeRelease, h, Checks.mapError_ok, bind, Except.bind]

/-- A genesis over the roster has no more voters than the file has peers. -/
theorem card_voters_le {file cfg : ConfigFile.Config} (hAccepted : file.normalize = .ok cfg)
    {genesis : Genesis} (hRoster : genesis.validateRoster cfg.physicalIds = .ok ()) :
    genesis.voters.card ≤ file.peers.length := by
  obtain ⟨hDistinct, hConfigured, -⟩ := of_decide_eq_true (ensure_eq_ok.mp hRoster)
  have hPeers : cfg.peers.length = file.peers.length := by
    rw [(ConfigFile.Config.normalize_normalized hAccepted).peers, List.length_map]
  calc genesis.voters.card = genesis.physicalIds.card := hDistinct.symm
    _ ≤ cfg.physicalIds.card := Finset.card_le_card hConfigured
    _ ≤ (cfg.peers.map (·.id.toNat)).length := List.toFinset_card_le _
    _ = file.peers.length := by rw [List.length_map, hPeers]

theorem voters_nonempty {genesis : Genesis} {configured : Finset Nat}
    (hRoster : genesis.validateRoster configured = .ok ()) : genesis.voters.Nonempty := by
  obtain ⟨hDistinct, -, hMajority⟩ := of_decide_eq_true (ensure_eq_ok.mp hRoster)
  exact Finset.card_pos.mp (hDistinct ▸ Nat.zero_lt_of_lt hMajority)

/-- A forwarded release is written and read exactly if its size is within the limit, and the
acknowledgement of it always is. In a cluster of at most thirty-eight peers the size is within the
limit whatever the release holds. -/
theorem release_carried {file cfg : ConfigFile.Config} (hAccepted : file.normalize = .ok cfg)
    {genesis : Genesis} (hRoster : genesis.validateRoster cfg.physicalIds = .ok ())
    (request : VipReleased) (auth : RecordAuth ReleaseEnvelope) (sender leader : ReplicaId)
    (binding : BitVec 256) {record : SignedAdmission ReleaseEnvelope}
    (hRecord : SignedAdmission.sign auth releaseRequestRole sender leader binding
      ⟨genesis, request⟩ = .ok record)
    (state : KafStorageState) (log : LogId) (hTerm : log.leaderId.term < 2 ^ 64)
    (hIndex : log.index < 2 ^ 64) (answerAuth : RecordAuth SubmitResponse)
    {answer : SignedAdmission SubmitResponse}
    (hAnswer : SignedAdmission.sign answerAuth releaseResponseRole leader sender binding
      (.fromApplied log (state.applyOne ⟨log, .normal request.request⟩).2) = .ok answer) :
    ((Carried (record.json ReleaseEnvelope.json) ↔
        releaseBytes genesis request binding record.tag ≤ submitFrameMaxBytes) ∧
      forwardRelease auth sender leader binding genesis request =
        writeSubmitFrame (record.json ReleaseEnvelope.json)) ∧
    (Carried (answer.json SubmitResponse.json) ∧
      acknowledgeRelease answerAuth leader sender binding log
        (state.applyOne ⟨log, .normal request.request⟩).2 =
        writeSubmitFrame (answer.json SubmitResponse.json)) ∧
    (file.peers.length ≤ 38 →
      releaseBytes genesis request binding record.tag ≤ submitFrameMaxBytes) := by
  have hLength := length_signed hRecord (voters_nonempty hRoster)
  refine ⟨⟨⟨fun hCarried => hLength ▸ hCarried.fits, fun hFits => .of_length (hLength ▸ hFits)⟩,
    forwardRelease_of_sign hRecord⟩, ⟨.of_length ?_, acknowledgeRelease_of_sign hAnswer⟩,
    fun hSmall => ?_⟩
  · have hPayload : answer.payload = .fromApplied log .ok :=
      (SignedAdmission.sign_fields hAnswer).2
    have hResponse := SubmitResponse.length_json_applied hTerm hIndex
    have hBinding := wordDigits_bounds answer.binding
    have hTag := wordDigits_bounds answer.tag
    rw [answer.length_json, hPayload, submitFrameMaxBytes]
    omega
  · have hVoters := card_voters_le hAccepted hRoster
    have hMost := (releaseBytes_bounds genesis request binding record.tag).2
    rw [submitFrameMaxBytes]
    omega

/-- The genesis of a cluster on one network, with every peer a voter. -/
def networkGenesis (count : Nat) : Genesis where
  config := ⟨1, 0⟩
  epoch := 7
  voters := ((List.range count).map fun index => (⟨index + 1, 5⟩ : ReplicaId)).toFinset

/-- An authenticator that signs everything. -/
def openAuth {Payload : Type} : RecordAuth Payload := ⟨fun _ _ => some [], fun _ _ _ _ => some 3⟩

theorem release_too_large : (ConfigFile.networkConfig 43).normalize = .ok (ConfigFile.networkConfig 43) ∧
    (networkGenesis 43).validateRoster (ConfigFile.networkConfig 43).physicalIds = .ok () ∧
    forwardRelease openAuth ⟨1, 5⟩ ⟨2, 5⟩ 9 (networkGenesis 43) ⟨1, .v4 0x0A000101, 4⟩ =
      .error (.frameLimit (SignedAdmission.json ReleaseEnvelope.json ⟨⟨1, 5⟩, ⟨2, 5⟩, 9,
        ⟨networkGenesis 43, ⟨1, .v4 0x0A000101, 4⟩⟩, 3⟩).length) := by
  refine ⟨by decide +kernel, by decide +kernel, forwardRelease_too_large rfl ?_⟩
  decide +kernel

theorem release_carried_three :
    (ConfigFile.networkConfig 3).normalize = .ok (ConfigFile.networkConfig 3) ∧
    (networkGenesis 3).validateRoster (ConfigFile.networkConfig 3).physicalIds = .ok () ∧
    Carried (SignedAdmission.json ReleaseEnvelope.json ⟨⟨1, 5⟩, ⟨2, 5⟩, 9,
      ⟨networkGenesis 3, ⟨1, .v4 0x0A000101, 4⟩⟩, 3⟩) := by
  have hAccepted := ConfigFile.networkConfig_accepted
  have hRoster : (networkGenesis 3).validateRoster (ConfigFile.networkConfig 3).physicalIds = .ok () := by
    decide +kernel
  obtain ⟨⟨hExact, -⟩, -, hSmall⟩ := release_carried hAccepted hRoster ⟨1, .v4 0x0A000101, 4⟩
    openAuth ⟨1, 5⟩ ⟨2, 5⟩ 9 rfl (StoreConfig.start ⟨⟨[], by decide⟩, 3, true, 10⟩)
    ⟨⟨1, ⟨2, 5⟩⟩, 8⟩ (by decide) (by decide) openAuth rfl
  exact ⟨hAccepted, hRoster, hExact.mpr (hSmall (by decide))⟩

end KeepAfloat
