import KeepAfloat.Library.Bytes
import KeepAfloat.Library.Hex
import KeepAfloat.Raft.Admission

/-! The text form of a replica id: sixteen digits of the physical id, a colon, and sixty-four
digits of the boot nonce. A string is cut at byte offsets, which panics inside a character. -/

namespace KeepAfloat

/-- A byte offset at which a string may be cut: an end of it, or a byte that does not continue
a character. -/
def isCharBoundary (bytes : List UInt8) (index : Nat) : Bool :=
  index = 0 || index = bytes.length ||
    bytes[index]?.any fun byte => !(128 ≤ byte.toNat && byte.toNat < 192)

/-- The part of a string between two byte offsets; `none` is a panic. -/
def strSlice (bytes : List UInt8) (start stop : Nat) : Option (List UInt8) :=
  if start ≤ stop && isCharBoundary bytes start && isCharBoundary bytes stop then
    some (Bytes.slice bytes start stop)
  else none

namespace ReplicaId

def display (replica : ReplicaId) : String :=
  .ofList (Hex.encode 16 replica.physicalId ++
    ':' :: (Bytes.ofWord replica.bootNonce).flatMap fun byte => Hex.encode 2 byte.toNat)

/-- Every byte but the separator is a lower-case digit. -/
def digitsOnly (bytes : List UInt8) : Bool :=
  !bytes.zipIdx.any fun entry => entry.2 ≠ 16 && !Hex.isLower entry.1

/-- One byte of the boot nonce. The outer layer is a panic. -/
def readNonceByte (bytes : List UInt8) (index : Nat) : ExceptT AdmissionDenied Option UInt8 := do
  let offset := 17 + index * 2
  let digits ← ExceptT.lift (strSlice bytes offset (offset + 2))
  match Hex.fromStrRadix 8 digits with
  | some byte => pure (UInt8.ofNat byte)
  | none => throw ⟨"invalid boot identity"⟩

/-- Parse a replica id. The outer layer is a panic. -/
def fromStr (value : String) : ExceptT AdmissionDenied Option ReplicaId :=
  let bytes := Hex.utf8 value
  if bytes.length ≠ 81 then throw ⟨"noncanonical replica identity"⟩
  else do
    let separator ← ExceptT.lift bytes[16]?
    if separator ≠ 58 || !digitsOnly bytes then throw ⟨"noncanonical replica identity"⟩
    else
      let physical ← ExceptT.lift (strSlice bytes 0 16)
      match Hex.fromStrRadix 64 physical with
      | none => throw ⟨"invalid physical identity"⟩
      | some physicalId =>
          let bootNonce ← (List.range 32).mapM (readNonceByte bytes)
          pure ⟨physicalId, Bytes.toWord 256 bootNonce⟩

end ReplicaId

/-- The bytes of a printed replica id. -/
theorem ReplicaId.utf8_display (replica : ReplicaId) : Hex.utf8 replica.display =
    (Hex.encode 16 replica.physicalId).map Hex.byteOf ++
      58 :: ((Bytes.ofWord replica.bootNonce).flatMap fun byte =>
        Hex.encode 2 byte.toNat).map Hex.byteOf := by
  rw [display, Hex.utf8_ofList, List.map_append, List.map_cons]
  · rfl
  · intro char hChar
    simp only [List.mem_append, List.mem_cons, List.mem_flatMap] at hChar
    rcases hChar with hPhysical | rfl | ⟨byte, -, hNonce⟩
    · exact (Hex.mem_encode hPhysical).1
    · decide
    · exact (Hex.mem_encode hNonce).1

/-- A cut that does not panic. -/
theorem lift_some_bind {α β : Type} (value : α) (next : α → ExceptT AdmissionDenied Option β) :
    (ExceptT.lift (some value) >>= next) = next value := rfl

/-- The bytes of a text that has the form of a printed replica id. -/
structure Canonical (bytes : List UInt8) : Prop where
  length : bytes.length = 81
  separator : bytes[16]? = some 58
  digits : ∀ index byte, bytes[index]? = some byte → index ≠ 16 → Hex.isLower byte = true

namespace Canonical

variable {bytes : List UInt8}

theorem digitsOnly_iff : ReplicaId.digitsOnly bytes = true ↔
    ∀ index byte, bytes[index]? = some byte → index ≠ 16 → Hex.isLower byte = true := by
  rw [ReplicaId.digitsOnly, Bool.not_eq_true', List.any_eq_false]
  constructor
  · intro h index byte hByte hIndex
    have hEntry := h (byte, index) (List.mk_mem_zipIdx_iff_getElem?.mpr hByte)
    simpa [hIndex] using hEntry
  · rintro h ⟨byte, index⟩ hMem
    have hByte := List.mk_mem_zipIdx_iff_getElem?.mp hMem
    by_cases hIndex : index = 16
    · simp [hIndex]
    · simp [h index byte hByte hIndex]

/-- Every byte of a canonical text is plain. -/
theorem plain (h : Canonical bytes) {index : Nat} {byte : UInt8} (hByte : bytes[index]? = some byte) :
    byte.toNat < 128 := by
  by_cases hIndex : index = 16
  · subst hIndex
    obtain rfl := Option.some.inj (h.separator.symm.trans hByte)
    decide
  · have hLower := h.digits index byte hByte hIndex
    simp only [Hex.isLower, Bool.or_eq_true, Bool.and_eq_true, decide_eq_true_eq] at hLower
    omega

/-- So it can be cut anywhere. -/
theorem isCharBoundary (h : Canonical bytes) {index : Nat} (hIndex : index ≤ bytes.length) :
    KeepAfloat.isCharBoundary bytes index = true := by
  rcases Nat.lt_or_eq_of_le hIndex with hInside | rfl
  · have hByte := List.getElem?_eq_getElem hInside
    have hPlain := h.plain hByte
    simp [KeepAfloat.isCharBoundary, hInside, Nat.not_le.mpr hPlain]
  · simp [KeepAfloat.isCharBoundary]

theorem strSlice (h : Canonical bytes) {start stop : Nat} (hOrder : start ≤ stop) (hStop : stop ≤ 81) :
    KeepAfloat.strSlice bytes start stop = some (Bytes.slice bytes start stop) := by
  have hLength := h.length
  rw [KeepAfloat.strSlice, h.isCharBoundary (show start ≤ bytes.length by omega),
    h.isCharBoundary (show stop ≤ bytes.length by omega)]
  simp [hOrder]

/-- Any part of the text on one side of the separator is made of digits. -/
theorem slice_lower (h : Canonical bytes) {start stop : Nat} (hSide : stop ≤ 16 ∨ 16 < start) :
    ∀ byte ∈ Bytes.slice bytes start stop, Hex.isLower byte = true := by
  intro byte hByte
  obtain ⟨index, hIndex⟩ := List.mem_iff_getElem?.mp hByte
  rw [Bytes.slice, List.getElem?_take] at hIndex
  split at hIndex
  · rw [List.getElem?_drop] at hIndex
    exact h.digits _ byte hIndex (by omega)
  · cases hIndex

/-- The bytes of the nonce are read one after the other. -/
theorem readNonce (h : Canonical bytes) {count : Nat} (hCount : count ≤ 32) :
    ∃ nonce : List UInt8, (List.range count).mapM (ReplicaId.readNonceByte bytes) = some (.ok nonce) ∧
      nonce.length = count ∧
      (nonce.flatMap fun byte => Hex.encode 2 byte.toNat).map Hex.byteOf =
        Bytes.slice bytes 17 (17 + count * 2) := by
  induction count with
  | zero => exact ⟨[], rfl, rfl, by simp [Bytes.slice]⟩
  | succ count ih =>
      obtain ⟨nonce, hRead, hLength, hText⟩ := ih (by omega)
      have hStop : 17 + count * 2 + 2 ≤ bytes.length := by
        rw [h.length]
        omega
      have hWidth : (Bytes.slice bytes (17 + count * 2) (17 + count * 2 + 2)).length = 2 := by
        rw [Bytes.length_slice hStop]
        omega
      have hLower : ∀ byte ∈ Bytes.slice bytes (17 + count * 2) (17 + count * 2 + 2),
          Hex.isLower byte = true := h.slice_lower (by omega)
      obtain ⟨value, hValue, hParsed, hDigits⟩ := Hex.fromStrRadix_lower
        (List.ne_nil_of_length_pos (by omega)) hLower (show 4 * _ = 8 by rw [hWidth])
      rw [hWidth] at hDigits
      have hByte : ReplicaId.readNonceByte bytes count = some (.ok (UInt8.ofNat value)) := by
        rw [ReplicaId.readNonceByte, h.strSlice (by omega) (by omega), lift_some_bind, hParsed]
        rfl
      have hRound : (UInt8.ofNat value).toNat = value := by
        rw [UInt8.toNat_ofNat']
        omega
      refine ⟨nonce ++ [UInt8.ofNat value], ?_, by simp [hLength], ?_⟩
      · rw [List.range_succ, List.mapM_append, hRead]
        simp only [List.mapM_cons, List.mapM_nil, hByte]
        rfl
      · rw [List.flatMap_append, List.flatMap_singleton, List.map_append, hText, hRound, hDigits,
          Bytes.slice_append_slice (by omega) (by omega), Nat.succ_mul, ← Nat.add_assoc]

/-- A canonical text is the text of the replica that it is read as. -/
theorem fromStr {text : String} (h : Canonical (Hex.utf8 text)) :
    ∃ replica : ReplicaId, ReplicaId.fromStr text = some (.ok replica) ∧ replica.display = text ∧
      replica.physicalId < 2 ^ 64 := by
  set bytes := Hex.utf8 text with hBytes
  have hLength := h.length
  have hWidth : (Bytes.slice bytes 0 16).length = 16 := Bytes.length_slice (by omega)
  have hLower : ∀ byte ∈ Bytes.slice bytes 0 16, Hex.isLower byte = true := h.slice_lower (by omega)
  obtain ⟨physicalId, hPhysical, hParsed, hDigits⟩ := Hex.fromStrRadix_lower
    (List.ne_nil_of_length_pos (by omega)) hLower (show 4 * _ = 64 by rw [hWidth])
  rw [hWidth] at hDigits
  obtain ⟨nonce, hRead, hCount, hText⟩ := h.readNonce (le_refl 32)
  refine ⟨⟨physicalId, Bytes.toWord 256 nonce⟩, ?_, ?_, hPhysical⟩
  · have hOnly : ReplicaId.digitsOnly bytes = true := digitsOnly_iff.mpr h.digits
    have hCut : KeepAfloat.strSlice bytes 0 16 = _ := h.strSlice (by omega) (by omega)
    rw [ReplicaId.fromStr, if_neg (by simpa using hLength), h.separator, lift_some_bind,
      if_neg (by simpa using hOnly), hCut, lift_some_bind, hParsed]
    change ((List.range 32).mapM (ReplicaId.readNonceByte bytes) >>= _) = _
    rw [hRead]
    rfl
  · apply Hex.utf8_injective
    have hHead : Bytes.slice bytes 16 17 = [58] := by
      rw [Bytes.slice_byte (by omega), List.getD_eq_getElem?_getD, h.separator]
      rfl
    rw [ReplicaId.utf8_display, Bytes.ofWord_toWord (by rw [hCount]), hDigits, hText, ← hBytes,
      ← List.singleton_append, ← hHead, Bytes.slice_append_slice (by decide) (by decide),
      Bytes.slice_append_slice (by decide) (by decide), Bytes.slice_all (by omega)]

end Canonical

/-- Only canonical texts are read, and the others are refused. -/
theorem ReplicaId.fromStr_of_not_canonical {text : String} (h : ¬Canonical (Hex.utf8 text)) :
    fromStr text = some (.error ⟨"noncanonical replica identity"⟩) := by
  rw [fromStr]
  split
  · rfl
  · next hLength =>
      rw [not_not] at hLength
      have hInside : 16 < (Hex.utf8 text).length := by omega
      rw [List.getElem?_eq_getElem hInside, lift_some_bind, if_pos]
      · rfl
      · by_contra hOther
        simp only [Bool.or_eq_true, not_or, decide_eq_true_eq, not_not, Bool.not_eq_true',
          Bool.not_eq_false] at hOther
        exact h ⟨hLength, (List.getElem?_eq_getElem hInside).trans (congrArg some hOther.1),
          Canonical.digitsOnly_iff.mp hOther.2⟩

theorem length_flatMap_encode (bytes : List UInt8) :
    (bytes.flatMap fun byte => Hex.encode 2 byte.toNat).length = 2 * bytes.length := by
  induction bytes with
  | nil => rfl
  | cons byte rest ih =>
      rw [List.flatMap_cons, List.length_append, Hex.length_encode, ih, List.length_cons]
      omega

/-- What is printed is canonical. -/
theorem ReplicaId.canonical_display (replica : ReplicaId) : Canonical (Hex.utf8 replica.display) := by
  rw [utf8_display]
  refine ⟨?_, ?_, fun index byte hByte hIndex => ?_⟩
  · rw [List.length_append, List.length_cons, List.length_map, List.length_map, Hex.length_encode,
      length_flatMap_encode, Bytes.length_ofWord]
  · rw [List.getElem?_append_right (by simp)]
    simp
  · rcases Nat.lt_or_ge index 16 with hPhysical | hNonce
    · rw [List.getElem?_append_left (by simpa using hPhysical)] at hByte
      obtain ⟨char, hChar, rfl⟩ := List.mem_map.mp (List.mem_of_getElem? hByte)
      exact (Hex.mem_encode hChar).2
    · rw [List.getElem?_append_right (by simpa using hNonce), List.length_map, Hex.length_encode,
        List.getElem?_cons, if_neg (by omega)] at hByte
      obtain ⟨char, hChar, rfl⟩ := List.mem_map.mp (List.mem_of_getElem? hByte)
      obtain ⟨octet, -, hDigit⟩ := List.mem_flatMap.mp hChar
      exact (Hex.mem_encode hDigit).2

/-- Printed bytes determine what was printed. -/
theorem map_byteOf_flatMap_inj {first second : List UInt8}
    (h : (first.flatMap fun byte => Hex.encode 2 byte.toNat).map Hex.byteOf =
      (second.flatMap fun byte => Hex.encode 2 byte.toNat).map Hex.byteOf) : first = second := by
  induction first generalizing second with
  | nil =>
      have hLength := congrArg List.length h
      simp only [List.length_map, length_flatMap_encode, List.length_nil] at hLength
      exact (List.eq_nil_of_length_eq_zero (by omega)).symm
  | cons byte rest ih =>
      cases second with
      | nil =>
          have hLength := congrArg List.length h
          simp at hLength
      | cons other others =>
          simp only [List.flatMap_cons, List.map_append] at h
          obtain ⟨hByte, hRest⟩ := List.append_inj h (by simp)
          have hSame : byte.toNat = other.toNat := Hex.encode_inj byte.toNat_lt other.toNat_lt hByte
          rw [UInt8.toNat_inj.mp hSame, ih hRest]

theorem ReplicaId.display_inj {first second : ReplicaId} (hFirst : first.physicalId < 2 ^ 64)
    (hSecond : second.physicalId < 2 ^ 64) (h : first.display = second.display) : first = second := by
  have hBytes := congrArg Hex.utf8 h
  rw [utf8_display, utf8_display] at hBytes
  obtain ⟨hPhysical, hRest⟩ := List.append_inj hBytes (by simp)
  have hSame : first.physicalId = second.physicalId := Hex.encode_inj hFirst hSecond hPhysical
  have hNonce := map_byteOf_flatMap_inj (List.cons.inj hRest).2
  cases first
  cases second
  exact congrArg₂ ReplicaId.mk hSame (Bytes.ofWord_injective (by decide) hNonce)

/-- Replica ids have exactly one text form. -/
theorem ReplicaId.text_unique :
    (∀ replica : ReplicaId, replica.physicalId < 2 ^ 64 → fromStr replica.display = some (.ok replica)) ∧
      (∀ text, (fromStr text : Option (Except AdmissionDenied ReplicaId)).isSome = true) ∧
      (∀ text replica, fromStr text = some (.ok replica) → replica.display = text) ∧
      ∀ first second replica, fromStr first = some (.ok replica) →
        fromStr second = some (.ok replica) → first = second := by
  have hPrinted : ∀ text replica, fromStr text = some (.ok replica) → replica.display = text := by
    intro text replica hText
    by_cases hCanonical : Canonical (Hex.utf8 text)
    · obtain ⟨other, hOther, hDisplay, -⟩ := hCanonical.fromStr
      rw [hOther] at hText
      cases hText
      exact hDisplay
    · rw [fromStr_of_not_canonical hCanonical] at hText
      cases hText
  refine ⟨fun replica hPhysical => ?_, fun text => ?_, hPrinted, ?_⟩
  · obtain ⟨other, hOther, hDisplay, hSmall⟩ := replica.canonical_display.fromStr
    rw [hOther, display_inj hSmall hPhysical hDisplay]
  · by_cases hCanonical : Canonical (Hex.utf8 text)
    · obtain ⟨other, hOther, -⟩ := hCanonical.fromStr
      rw [hOther]
      rfl
    · rw [fromStr_of_not_canonical hCanonical]
      rfl
  · intro first second replica hFirst hSecond
    rw [← hPrinted first replica hFirst, ← hPrinted second replica hSecond]

theorem ReplicaId.text_unique_sample :
    fromStr (display ⟨10, 0xAB⟩) = some (.ok ⟨10, 0xAB⟩) ∧
      ∀ text, fromStr text = some (.ok ⟨10, 0xAB⟩) → text = display ⟨10, 0xAB⟩ :=
  ⟨text_unique.1 ⟨10, 0xAB⟩ (by decide), fun text hText => (text_unique.2.2.1 text _ hText).symm⟩

end KeepAfloat
