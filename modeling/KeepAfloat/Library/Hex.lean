import Mathlib

/-! Lower-case hexadecimal texts of fixed width. Texts are written as characters and read as
bytes, where a reader takes digits of either case and a signed number. -/

namespace Hex

/-- The `count` low digits of a number, most significant first. -/
def encode : Nat → Nat → List Char
  | 0, _ => []
  | count + 1, value => encode count (value / 16) ++ [Nat.digitChar (value % 16)]

/-- The byte of a plain character. -/
def byteOf (char : Char) : UInt8 := UInt8.ofNat char.toNat

/-- The bytes of a text. -/
def utf8 (text : String) : List UInt8 := text.toUTF8.data.toList

/-- A digit in the form in which `encode` writes it. -/
def isLower (byte : UInt8) : Bool :=
  (48 ≤ byte.toNat && byte.toNat ≤ 57) || (97 ≤ byte.toNat && byte.toNat ≤ 102)

/-- The value of a digit of either case. -/
def digitValue (byte : UInt8) : Option Nat :=
  if 48 ≤ byte.toNat ∧ byte.toNat ≤ 57 then some (byte.toNat - 48)
  else if 97 ≤ byte.toNat ∧ byte.toNat ≤ 102 then some (byte.toNat - 87)
  else if 65 ≤ byte.toNat ∧ byte.toNat ≤ 70 then some (byte.toNat - 55)
  else none

/-- The number that a sequence of digits denotes. -/
def decode (digits : List UInt8) : Option Nat :=
  digits.foldlM (fun value byte => (digitValue byte).map (value * 16 + ·)) 0

/-- Parse an unsigned number of the given width: an optional plus sign, then at least one
digit. -/
def fromStrRadix (bits : Nat) (text : List UInt8) : Option Nat :=
  let digits := if text.head? = some 43 then text.tail else text
  if digits = [] then none else (decode digits).filter (· < 2 ^ bits)

theorem utf8_injective : Function.Injective utf8 := by
  intro first second h
  rw [utf8, utf8, Array.toList_inj] at h
  exact String.toByteArray_inj.mp (ByteArray.ext h)

theorem length_utf8 (text : String) : (utf8 text).length = text.utf8ByteSize := rfl

theorem utf8_ofList {chars : List Char} (h : ∀ char ∈ chars, char.val ≤ 127) :
    utf8 (String.ofList chars) = chars.map byteOf := by
  have hBytes : chars.flatMap String.utf8EncodeChar = chars.map byteOf := by
    induction chars with
    | nil => rfl
    | cons char rest ih =>
        rw [List.flatMap_cons, ih fun other hOther => h other (List.mem_cons_of_mem _ hOther),
          String.utf8EncodeChar_eq_singleton (Char.utf8Size_eq_one_iff.mpr (h char (by simp)))]
        rfl
  rw [utf8, String.toUTF8, String.toByteArray_ofList, List.utf8Encode, List.data_toByteArray, hBytes]

@[simp] theorem length_encode (count value : Nat) : (encode count value).length = count := by
  induction count generalizing value with
  | zero => rfl
  | succ count ih => simp [encode, ih]

/-- The sixteen digits. -/
theorem digitChar_spec {value : Nat} (h : value < 16) :
    (Nat.digitChar value).val ≤ 127 ∧ isLower (byteOf (Nat.digitChar value)) = true ∧
      digitValue (byteOf (Nat.digitChar value)) = some value := by
  interval_cases value <;> decide

theorem exists_digitChar {byte : UInt8} (h : isLower byte = true) :
    ∃ value < 16, byteOf (Nat.digitChar value) = byte := by
  have hByte : UInt8.ofNat byte.toNat = byte := UInt8.ofNat_toNat
  simp only [isLower, Bool.or_eq_true, Bool.and_eq_true, decide_eq_true_eq] at h
  rw [← hByte]
  generalize byte.toNat = code at h
  rcases h with ⟨hFrom, hTo⟩ | ⟨hFrom, hTo⟩
  · refine ⟨code - 48, by omega, ?_⟩
    interval_cases code <;> rfl
  · refine ⟨code - 87, by omega, ?_⟩
    interval_cases code <;> rfl

theorem mem_encode {count value : Nat} {char : Char} (h : char ∈ encode count value) :
    char.val ≤ 127 ∧ isLower (byteOf char) = true := by
  induction count generalizing value with
  | zero => cases h
  | succ count ih =>
      rcases List.mem_append.mp h with hHigh | hLow
      · exact ih hHigh
      · obtain rfl := List.mem_singleton.mp hLow
        obtain ⟨hPlain, hLower, -⟩ := digitChar_spec (Nat.mod_lt value (by decide : 0 < 16))
        exact ⟨hPlain, hLower⟩

theorem mem_toDigits {base value : Nat} (hBase : 1 < base) (hSmall : base ≤ 16) {char : Char}
    (h : char ∈ Nat.toDigits base value) : char.val ≤ 127 ∧ isLower (byteOf char) = true := by
  have hDigit : ∀ digit < base, char = Nat.digitChar digit →
      char.val ≤ 127 ∧ isLower (byteOf char) = true := by
    rintro digit hDigit rfl
    obtain ⟨hPlain, hLower, -⟩ := digitChar_spec (hDigit.trans_le hSmall)
    exact ⟨hPlain, hLower⟩
  induction value using Nat.strongRecOn with
  | ind value ih =>
      rw [Nat.toDigits_eq_if hBase] at h
      split at h
      · rename_i hLast
        exact hDigit value hLast (List.mem_singleton.mp h)
      · rcases List.mem_append.mp h with hHigh | hLow
        · exact ih (value / base) (Nat.div_lt_self (by omega) hBase) hHigh
        · exact hDigit (value % base) (Nat.mod_lt _ (by omega)) (List.mem_singleton.mp hLow)

theorem decode_concat (digits : List UInt8) (byte : UInt8) :
    decode (digits ++ [byte]) =
      (decode digits).bind fun value => (digitValue byte).map (value * 16 + ·) := by
  rw [decode, List.foldlM_append]
  simp [decode]

theorem decode_encode (count value : Nat) :
    decode ((encode count value).map byteOf) = some (value % 16 ^ count) := by
  induction count generalizing value with
  | zero => simp [encode, decode, Nat.mod_one]
  | succ count ih =>
      have hDigit := (digitChar_spec (Nat.mod_lt value (by decide : 0 < 16))).2.2
      rw [encode, List.map_append, List.map_singleton, decode_concat, ih, hDigit, pow_succ' 16 count,
        Nat.mod_mul]
      simp only [Option.bind_some, Option.map_some, Option.some.injEq]
      omega

theorem encode_inj {count first second : Nat} (hFirst : first < 16 ^ count)
    (hSecond : second < 16 ^ count)
    (h : (encode count first).map byteOf = (encode count second).map byteOf) : first = second := by
  have hDecoded := congrArg decode h
  rwa [decode_encode, decode_encode, Option.some.injEq, Nat.mod_eq_of_lt hFirst,
    Nat.mod_eq_of_lt hSecond] at hDecoded

/-- Lower-case digits denote a number, and are the text of it. -/
theorem decode_lower {digits : List UInt8} (h : ∀ byte ∈ digits, isLower byte = true) :
    ∃ value < 16 ^ digits.length, decode digits = some value ∧
      (encode digits.length value).map byteOf = digits := by
  induction digits using List.reverseRecOn with
  | nil => exact ⟨0, by simp, rfl, rfl⟩
  | append_singleton digits byte ih =>
      obtain ⟨high, hHigh, hDecode, hEncode⟩ := ih fun other hOther => h other (by simp [hOther])
      obtain ⟨low, hLow, rfl⟩ := exists_digitChar (h byte (by simp))
      have hDiv : (high * 16 + low) / 16 = high := by omega
      have hMod : (high * 16 + low) % 16 = low := by omega
      refine ⟨high * 16 + low, ?_, ?_, ?_⟩
      · rw [List.length_append, List.length_singleton, pow_succ]
        omega
      · rw [decode_concat, hDecode, (digitChar_spec hLow).2.2]
        rfl
      · rw [List.length_append, List.length_singleton, encode, hDiv, hMod, List.map_append, hEncode]
        rfl

/-- The parser of signed numbers reads a lower-case text as its digits. -/
theorem fromStrRadix_lower {bits : Nat} {digits : List UInt8} (hSome : digits ≠ [])
    (h : ∀ byte ∈ digits, isLower byte = true) (hBits : 4 * digits.length = bits) :
    ∃ value < 2 ^ bits, fromStrRadix bits digits = some value ∧
      (encode digits.length value).map byteOf = digits := by
  obtain ⟨value, hValue, hDecode, hEncode⟩ := decode_lower h
  have hSmall : value < 2 ^ bits := by
    rw [← hBits, pow_mul]
    exact hValue
  have hSign : digits.head? ≠ some 43 := by
    intro hHead
    have hPlus := h 43 (List.mem_of_mem_head? hHead)
    cases hPlus
  refine ⟨value, hSmall, ?_, hEncode⟩
  rw [fromStrRadix, if_neg hSign]
  simp [hSome, hDecode, hSmall]

end Hex
