import KeepAfloat.Library.Bytes
import KeepAfloat.Library.Checks
import KeepAfloat.Raft.Admission

/-! The hello of the mutual authentication: 110 bytes with every field at a fixed
offset. Optional fields are a flag and padding, and only zero padding is accepted. -/

namespace KeepAfloat

open Bytes (ofWord toWord slice)

inductive Listener where
  | raft
  | submit
  deriving DecidableEq, Repr

def Listener.byte : Listener → UInt8
  | .raft => 1
  | .submit => 2

/-- The identity that a hello announces. -/
structure Peer where
  id : BitVec 64
  epoch : Option (BitVec 128)
  supportsV2 : Bool
  bootNonce : Option (BitVec 256)
  deriving DecidableEq

/-- The bytes of "KAFDAUTH". -/
def magic : List UInt8 := [75, 65, 70, 68, 65, 85, 84, 72]

def authVersion : UInt8 := 3

def helloBytes : Nat := 110

/-- Every supported binary understands the two capabilities of the fixed bits. -/
def capabilities (supportsV2 : Bool) : UInt8 := 6 ||| (if supportsV2 then 1 else 0)

def presence {α : Type} (value : Option α) : UInt8 := if value.isSome then 1 else 0

def hello (peer : Peer) (target : BitVec 64) (listener : Listener) (role : UInt8)
    (nonce : BitVec 256) : List UInt8 :=
  [magic, [authVersion], [listener.byte], [role], [capabilities peer.supportsV2], ofWord peer.id,
    ofWord target, ofWord nonce, [presence peer.epoch], ofWord (peer.epoch.getD 0),
    [presence peer.bootNonce], ofWord (peer.bootNonce.getD 0)].flatten

/-- Take exactly `count` bytes of a stream. -/
def readExact (count : Nat) (stream : List UInt8) :
    Except AdmissionDenied (List UInt8 × List UInt8) :=
  if count ≤ stream.length then .ok (stream.take count, stream.drop count)
  else .error ⟨"early eof"⟩

/-- The identity in a hello behind magic and version. -/
def parseHello (listener : Listener) (role : UInt8) (target : BitVec 64) (bytes : List UInt8) :
    Except AdmissionDenied Peer := do
  ensure (bytes.getD 9 0 = listener.byte ∧ bytes.getD 10 0 = role ∧
      (bytes.getD 11 0 = 6 ∨ bytes.getD 11 0 = 7) ∧ bytes.getD 60 0 ≤ 1 ∧ bytes.getD 77 0 ≤ 1)
    "invalid authentication version, listener, role or capabilities"
  ensure (toWord 64 (slice bytes 20 28) = target) "authentication destination mismatch"
  let epoch := slice bytes 61 77
  ensure (¬(bytes.getD 60 0 = 0 ∧ epoch ≠ List.replicate 16 0)) "noncanonical authentication epoch"
  let bootNonce := slice bytes 78 helloBytes
  ensure (¬(bytes.getD 77 0 = 0 ∧ bootNonce ≠ List.replicate 32 0))
    "noncanonical authentication boot nonce"
  return {
    id := toWord 64 (slice bytes 12 20)
    epoch := if bytes.getD 60 0 = 1 then some (toWord 128 epoch) else none
    supportsV2 := bytes.getD 11 0 &&& 1 ≠ 0
    bootNonce := if bytes.getD 77 0 = 1 then some (toWord 256 bootNonce) else none }

/-- Read a hello from a stream: its bytes, the identity it announces and what follows. -/
def readHello (listener : Listener) (role : UInt8) (target : BitVec 64) (stream : List UInt8) :
    Except AdmissionDenied ((List UInt8 × Peer) × List UInt8) := do
  let (first, stream) ← readExact 8 stream
  ensure (first = magic) "unsupported authentication protocol; full-cluster upgrade required"
  let (second, stream) ← readExact 1 stream
  ensure (second = [authVersion]) "invalid authentication version; full-cluster upgrade required"
  let (body, stream) ← readExact (helloBytes - 9) stream
  let bytes := first ++ second ++ body
  let peer ← parseHello listener role target bytes
  return ((bytes, peer), stream)

/-! ### Layout -/

theorem length_hello (peer : Peer) (target : BitVec 64) (listener : Listener) (role : UInt8)
    (nonce : BitVec 256) : (hello peer target listener role nonce).length = helloBytes := by
  simp [hello, magic, helloBytes]

/-- The fields of a hello, one behind the other. -/
theorem hello_fields {bytes : List UInt8} (h : bytes.length = helloBytes) :
    [slice bytes 0 8, slice bytes 8 9, slice bytes 9 10, slice bytes 10 11, slice bytes 11 12,
      slice bytes 12 20, slice bytes 20 28, slice bytes 28 60, slice bytes 60 61, slice bytes 61 77,
      slice bytes 77 78, slice bytes 78 110].flatten = bytes := by
  simp only [List.flatten_cons, List.flatten_nil, List.append_nil]
  simp (disch := decide) only [Bytes.slice_append_slice]
  exact Bytes.slice_all h.le

/-- What stands at each offset of an encoded hello. -/
structure HelloLayout (bytes : List UInt8) (peer : Peer) (target : BitVec 64) (listener : Listener)
    (role : UInt8) (nonce : BitVec 256) : Prop where
  magic : slice bytes 0 8 = magic
  version : slice bytes 8 9 = [authVersion]
  listener : bytes.getD 9 0 = listener.byte
  role : bytes.getD 10 0 = role
  capabilities : bytes.getD 11 0 = capabilities peer.supportsV2
  id : slice bytes 12 20 = ofWord peer.id
  target : slice bytes 20 28 = ofWord target
  nonce : slice bytes 28 60 = ofWord nonce
  epochFlag : bytes.getD 60 0 = presence peer.epoch
  epoch : slice bytes 61 77 = ofWord (peer.epoch.getD 0)
  bootFlag : bytes.getD 77 0 = presence peer.bootNonce
  bootNonce : slice bytes 78 110 = ofWord (peer.bootNonce.getD 0)

theorem helloLayout_hello (peer : Peer) (target : BitVec 64) (listener : Listener) (role : UInt8)
    (nonce : BitVec 256) :
    HelloLayout (hello peer target listener role nonce) peer target listener role nonce := by
  constructor <;>
    simp [hello, magic, slice, List.drop_append, List.drop_of_length_le,
      List.take_of_length_le]

theorem listenerByte_injective : Function.Injective Listener.byte := by
  intro first second h
  cases first <;> cases second <;> first | rfl | cases h

theorem capabilities_injective : Function.Injective capabilities := by decide

/-- A flag and padding determine the optional value. -/
theorem eq_of_presence {α : Type} {first second : Option α} {padding : α}
    (hFlag : presence first = presence second) (hValue : first.getD padding = second.getD padding) :
    first = second := by
  cases first with
  | none =>
      cases second with
      | none => rfl
      | some value => cases hFlag
  | some value =>
      cases second with
      | none => cases hFlag
      | some other => exact congrArg some hValue

/-- The layout determines the bytes. -/
theorem HelloLayout.eq_hello {bytes : List UInt8} (hLength : bytes.length = helloBytes) {peer : Peer}
    {target : BitVec 64} {listener : Listener} {role : UInt8} {nonce : BitVec 256}
    (h : HelloLayout bytes peer target listener role nonce) :
    bytes = hello peer target listener role nonce := by
  have hByte : ∀ index, index < 110 → slice bytes index (index + 1) = [bytes.getD index 0] :=
    fun index hIndex => Bytes.slice_byte (hLength ▸ hIndex)
  conv_lhs => rw [← hello_fields hLength]
  rw [hello, h.magic, h.version, hByte 9 (by decide), h.listener, hByte 10 (by decide), h.role,
    hByte 11 (by decide), h.capabilities, h.id, h.target, h.nonce, hByte 60 (by decide), h.epochFlag,
    h.epoch, hByte 77 (by decide), h.bootFlag, h.bootNonce]

/-- The layout determines identity and nonce. -/
theorem HelloLayout.unique {bytes : List UInt8} {peer other : Peer} {target target' : BitVec 64}
    {listener listener' : Listener} {role role' : UInt8} {nonce nonce' : BitVec 256}
    (h : HelloLayout bytes peer target listener role nonce)
    (h' : HelloLayout bytes other target' listener' role' nonce') :
    peer = other ∧ target = target' ∧ listener = listener' ∧ role = role' ∧ nonce = nonce' := by
  have hId := Bytes.ofWord_injective (by decide) (h.id.symm.trans h'.id)
  have hTarget := Bytes.ofWord_injective (by decide) (h.target.symm.trans h'.target)
  have hNonce := Bytes.ofWord_injective (by decide) (h.nonce.symm.trans h'.nonce)
  have hEpoch := Bytes.ofWord_injective (by decide) (h.epoch.symm.trans h'.epoch)
  have hBoot := Bytes.ofWord_injective (by decide) (h.bootNonce.symm.trans h'.bootNonce)
  have hListener := listenerByte_injective (h.listener.symm.trans h'.listener)
  have hSupports := capabilities_injective (h.capabilities.symm.trans h'.capabilities)
  refine ⟨?_, hTarget, hListener, h.role.symm.trans h'.role, hNonce⟩
  obtain ⟨id, epoch, supportsV2, bootNonce⟩ := peer
  obtain ⟨id', epoch', supportsV2', bootNonce'⟩ := other
  rw [Peer.mk.injEq]
  exact ⟨hId, eq_of_presence (h.epochFlag.symm.trans h'.epochFlag) hEpoch, hSupports,
    eq_of_presence (h.bootFlag.symm.trans h'.bootFlag) hBoot⟩

/-- The optional value that a flag and its field stand for. -/
def optionalField (w : Nat) (flag : UInt8) (field : List UInt8) : Option (BitVec w) :=
  if flag = 1 then some (toWord w field) else none

/-- A flag with a canonical field is the encoding of the value it stands for. -/
theorem presence_optionalField {w : Nat} {flag : UInt8} {field : List UInt8}
    (hField : 8 * field.length = w) (hFlag : flag ≤ 1)
    (hCanonical : ¬(flag = 0 ∧ field ≠ ofWord (0 : BitVec w))) :
    flag = presence (optionalField w flag field) ∧
      field = ofWord ((optionalField w flag field).getD 0) := by
  rw [optionalField]
  by_cases hOne : flag = 1
  · rw [if_pos hOne]
    exact ⟨hOne, (Bytes.ofWord_toWord hField).symm⟩
  · have hZero : flag = 0 := by
      have hLe : flag.toNat ≤ 1 := hFlag
      have hNe : flag.toNat ≠ 1 := fun h => hOne (UInt8.toNat_inj.mp h)
      exact UInt8.toNat_inj.mp (show flag.toNat = 0 by omega)
    rw [if_neg hOne]
    refine ⟨hZero, ?_⟩
    by_contra hOther
    exact hCanonical ⟨hZero, hOther⟩

/-- The encoding of an optional value is canonical and stands for that value. -/
theorem optionalField_presence {w : Nat} (h : 8 ∣ w) (value : Option (BitVec w)) :
    optionalField w (presence value) (ofWord (value.getD 0)) = value ∧ presence value ≤ 1 ∧
      ¬(presence value = 0 ∧ ofWord (value.getD 0) ≠ ofWord (0 : BitVec w)) := by
  cases value with
  | none => exact ⟨rfl, by simp [presence], fun hOther => hOther.2 rfl⟩
  | some word =>
      refine ⟨?_, by simp [presence], fun hOther => by cases hOther.1⟩
      rw [optionalField, presence, Option.isSome_some, if_pos rfl, if_pos rfl, Option.getD_some,
        Bytes.toWord_ofWord h]

theorem capabilities_of_byte {byte : UInt8} (h : byte = 6 ∨ byte = 7) :
    byte = capabilities (byte &&& 1 ≠ 0) := by
  rcases h with rfl | rfl <;> decide

theorem byte_of_capabilities (supportsV2 : Bool) :
    (capabilities supportsV2 = 6 ∨ capabilities supportsV2 = 7) ∧
      decide (capabilities supportsV2 &&& 1 ≠ 0) = supportsV2 := by
  cases supportsV2 <;> decide

/-- The parser accepts exactly what has the layout, and returns its identity. -/
theorem parseHello_eq_ok {bytes : List UInt8} (hLength : bytes.length = helloBytes)
    (hMagic : slice bytes 0 8 = magic) (hVersion : slice bytes 8 9 = [authVersion])
    {listener : Listener} {role : UInt8} {target : BitVec 64} {peer : Peer} :
    parseHello listener role target bytes = .ok peer ↔
      ∃ nonce, HelloLayout bytes peer target listener role nonce := by
  have hBits : ∀ {start stop : Nat}, stop ≤ 110 →
      8 * (slice bytes start stop).length = 8 * (stop - start) :=
    fun hStop => by rw [Bytes.length_slice (hLength ▸ hStop)]
  constructor
  · intro h
    simp only [parseHello, Checks.bind_eq_ok, Checks.pure_eq_ok] at h
    obtain ⟨_, hHeader, _, hTarget, _, hEpoch, _, hBoot, rfl⟩ := h
    obtain ⟨hListener, hRole, hCapabilities, hEpochFlag, hBootFlag⟩ :=
      of_decide_eq_true (ensure_eq_ok.mp hHeader)
    obtain ⟨hEpochFlag, hEpoch⟩ := presence_optionalField (hBits (by decide)) hEpochFlag
      (of_decide_eq_true (ensure_eq_ok.mp hEpoch))
    obtain ⟨hBootFlag, hBoot⟩ := presence_optionalField (hBits (by decide)) hBootFlag
      (of_decide_eq_true (ensure_eq_ok.mp hBoot))
    refine ⟨toWord 256 (slice bytes 28 60), hMagic, hVersion, hListener, hRole,
      capabilities_of_byte hCapabilities, ?_, ?_, ?_, hEpochFlag, hEpoch, hBootFlag, hBoot⟩
    · exact (Bytes.ofWord_toWord (hBits (by decide))).symm
    · rw [← of_decide_eq_true (ensure_eq_ok.mp hTarget)]
      exact (Bytes.ofWord_toWord (hBits (by decide))).symm
    · exact (Bytes.ofWord_toWord (hBits (by decide))).symm
  · rintro ⟨nonce, h⟩
    obtain ⟨hKnown, hSupports⟩ := byte_of_capabilities peer.supportsV2
    obtain ⟨hEpoch, hEpochFlag, hEpochPadding⟩ := optionalField_presence (by decide) peer.epoch
    obtain ⟨hBoot, hBootFlag, hBootPadding⟩ := optionalField_presence (by decide) peer.bootNonce
    simp only [parseHello, Checks.bind_eq_ok, Checks.pure_eq_ok]
    refine ⟨(), ?_, (), ?_, (), ?_, (), ?_, ?_⟩
    · rw [ensure_eq_ok, decide_eq_true_eq, h.capabilities, h.epochFlag, h.bootFlag]
      exact ⟨h.listener, h.role, hKnown, hEpochFlag, hBootFlag⟩
    · rw [ensure_eq_ok, decide_eq_true_eq, h.target, Bytes.toWord_ofWord (by decide)]
    · rw [ensure_eq_ok, decide_eq_true_eq, h.epochFlag, h.epoch]
      exact hEpochPadding
    · rw [ensure_eq_ok, decide_eq_true_eq, h.bootFlag, helloBytes, h.bootNonce]
      exact hBootPadding
    · rw [h.id, Bytes.toWord_ofWord (by decide), h.capabilities, hSupports, h.epochFlag, h.epoch,
        h.bootFlag, helloBytes, h.bootNonce]
      exact congrArg₂ (fun epoch boot => Peer.mk peer.id epoch peer.supportsV2 boot) hEpoch hBoot

theorem readExact_eq_ok {count : Nat} {stream first rest : List UInt8} :
    readExact count stream = .ok (first, rest) ↔ stream = first ++ rest ∧ first.length = count := by
  rw [readExact]
  constructor
  · intro h
    split at h
    · next hEnough =>
        obtain ⟨rfl, rfl⟩ := Prod.mk.inj (Except.ok.inj h)
        exact ⟨(List.take_append_drop count stream).symm, List.length_take_of_le hEnough⟩
    · cases h
  · rintro ⟨rfl, rfl⟩
    rw [if_pos (by rw [List.length_append]; omega), List.take_left, List.drop_left]

/-- What the reader takes from a stream has the layout of a hello. -/
theorem readHello_eq_ok {stream bytes rest : List UInt8} {listener : Listener} {role : UInt8}
    {target : BitVec 64} {peer : Peer} :
    readHello listener role target stream = .ok ((bytes, peer), rest) ↔
      stream = bytes ++ rest ∧ bytes.length = helloBytes ∧
        ∃ nonce, HelloLayout bytes peer target listener role nonce := by
  simp only [readHello, Checks.bind_eq_ok, Checks.pure_eq_ok, Prod.exists, readExact_eq_ok]
  constructor
  · rintro ⟨first, _, ⟨rfl, hFirst⟩, _, hMagic, second, _, ⟨rfl, hSecond⟩, _, hVersion, body, _,
      ⟨rfl, hBody⟩, _, hPeer, hResult⟩
    obtain ⟨hBytes, rfl⟩ := Prod.mk.inj hResult
    obtain ⟨rfl, rfl⟩ := Prod.mk.inj hBytes
    have hLength : (first ++ second ++ body).length = helloBytes := by
      rw [List.length_append, List.length_append, hFirst, hSecond, hBody]
      rfl
    have hHead : slice (first ++ second ++ body) 0 8 = first := by
      rw [List.append_assoc, Bytes.slice_append_left hFirst]
    have hNext : slice (first ++ second ++ body) 8 9 = second := by
      rw [List.append_assoc, Bytes.slice_append_right hFirst.le, hFirst]
      exact Bytes.slice_append_left hSecond
    refine ⟨by simp, hLength, (parseHello_eq_ok hLength ?_ ?_).mp hPeer⟩
    · exact hHead.trans (of_decide_eq_true (ensure_eq_ok.mp hMagic))
    · exact hNext.trans (of_decide_eq_true (ensure_eq_ok.mp hVersion))
  · rintro ⟨rfl, hLength, nonce, hLayout⟩
    have hAll : slice bytes 0 8 ++ slice bytes 8 9 ++ slice bytes 9 110 = bytes := by
      rw [Bytes.slice_append_slice (by decide) (by decide),
        Bytes.slice_append_slice (by decide) (by decide)]
      exact Bytes.slice_all hLength.le
    have hWidth : ∀ start stop, stop ≤ 110 → (slice bytes start stop).length = stop - start :=
      fun _ _ hStop => Bytes.length_slice (hLength ▸ hStop)
    refine ⟨slice bytes 0 8, _, ⟨?_, hWidth 0 8 (by decide)⟩, (), by simp [hLayout.magic],
      slice bytes 8 9, _, ⟨rfl, hWidth 8 9 (by decide)⟩, (), by simp [hLayout.version],
      slice bytes 9 110, rest, ⟨rfl, hWidth 9 110 (by decide)⟩, peer, ?_, ?_⟩
    · conv_lhs => rw [← hAll]
      simp
    · rw [hAll]
      exact (parseHello_eq_ok hLength hLayout.magic hLayout.version).mpr ⟨nonce, hLayout⟩
    · rw [hAll]

/-- Reading back a hello gives the identity that was written. -/
theorem readHello_hello (peer : Peer) (target : BitVec 64) (listener : Listener) (role : UInt8)
    (nonce : BitVec 256) (rest : List UInt8) :
    readHello listener role target (hello peer target listener role nonce ++ rest) =
      .ok ((hello peer target listener role nonce, peer), rest) :=
  readHello_eq_ok.mpr ⟨rfl, length_hello .., nonce, helloLayout_hello ..⟩

/-- An accepted hello was written for this listener, role and target. -/
theorem eq_hello_of_readHello {stream bytes rest : List UInt8} {listener : Listener} {role : UInt8}
    {target : BitVec 64} {peer : Peer}
    (h : readHello listener role target stream = .ok ((bytes, peer), rest)) :
    ∃ nonce, bytes = hello peer target listener role nonce := by
  obtain ⟨-, hLength, nonce, hLayout⟩ := readHello_eq_ok.mp h
  exact ⟨nonce, hLayout.eq_hello hLength⟩

/-- A hello determines everything it was written from. -/
theorem hello_injective {peer other : Peer} {target target' : BitVec 64}
    {listener listener' : Listener} {role role' : UInt8} {nonce nonce' : BitVec 256}
    (h : hello peer target listener role nonce = hello other target' listener' role' nonce') :
    peer = other ∧ target = target' ∧ listener = listener' ∧ role = role' ∧ nonce = nonce' := by
  have hLayout := helloLayout_hello peer target listener role nonce
  rw [h] at hLayout
  exact hLayout.unique (helloLayout_hello ..)

/-- The hello codec is exact: on 110 bytes the reader succeeds exactly on the hellos for
this listener, role and target, returns the announced identity, and identity and nonce
are determined by the bytes. -/
theorem readHello_exact (listener : Listener) (role : UInt8) (target : BitVec 64)
    (bytes : List UInt8) (hLength : bytes.length = helloBytes) :
    ((∃ result, readHello listener role target bytes = .ok result) ↔
        ∃ peer nonce, bytes = hello peer target listener role nonce) ∧
      (∀ peer nonce, bytes = hello peer target listener role nonce →
        readHello listener role target bytes = .ok ((bytes, peer), []) ∧
          ∀ other nonce', bytes = hello other target listener role nonce' →
            other = peer ∧ nonce' = nonce) := by
  have hRead : ∀ peer nonce, bytes = hello peer target listener role nonce →
      readHello listener role target bytes = .ok ((bytes, peer), []) := by
    rintro peer nonce rfl
    have h := readHello_hello peer target listener role nonce []
    rwa [List.append_nil] at h
  refine ⟨⟨?_, ?_⟩, fun peer nonce hBytes => ⟨hRead peer nonce hBytes, ?_⟩⟩
  · rintro ⟨⟨⟨taken, peer⟩, rest⟩, hOk⟩
    obtain ⟨hStream, hTaken, -⟩ := readHello_eq_ok.mp hOk
    have hRest : rest = [] := by
      have hSum := congrArg List.length hStream
      rw [List.length_append, hLength, hTaken] at hSum
      exact List.length_eq_zero_iff.mp (by omega)
    rw [hRest, List.append_nil] at hStream
    obtain ⟨nonce, hHello⟩ := eq_hello_of_readHello hOk
    exact ⟨peer, nonce, hStream.trans hHello⟩
  · rintro ⟨peer, nonce, hBytes⟩
    exact ⟨_, hRead peer nonce hBytes⟩
  · intro other nonce' hOther
    obtain ⟨hPeer, -, -, -, hNonce⟩ := hello_injective (hOther.symm.trans hBytes)
    exact ⟨hPeer, hNonce⟩

/-- A peer that announces an epoch and no boot nonce. -/
theorem readHello_exact_sample :
    readHello .raft 1 2 (hello ⟨1, some 7, true, none⟩ 2 .raft 1 5) =
      .ok ((hello ⟨1, some 7, true, none⟩ 2 .raft 1 5, ⟨1, some 7, true, none⟩), []) :=
  ((readHello_exact .raft 1 2 _ (length_hello ..)).2 ⟨1, some 7, true, none⟩ 5 rfl).1

end KeepAfloat
