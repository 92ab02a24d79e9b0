import Mathlib

/-! Byte strings of fixed layout: big-endian numbers and the fields between two
offsets. -/

namespace Bytes

/-! ### Big-endian numbers -/

/-- The `count` low bytes of a number, most significant first. -/
def encode : Nat → Nat → List UInt8
  | 0, _ => []
  | count + 1, value => encode count (value / 256) ++ [UInt8.ofNat value]

def decode (bytes : List UInt8) : Nat :=
  bytes.foldl (fun value byte => value * 256 + byte.toNat) 0

theorem decode_concat (bytes : List UInt8) (byte : UInt8) :
    decode (bytes ++ [byte]) = decode bytes * 256 + byte.toNat := by
  rw [decode, List.foldl_append]
  rfl

@[simp] theorem length_encode (count value : Nat) : (encode count value).length = count := by
  induction count generalizing value with
  | zero => rfl
  | succ count ih => simp [encode, ih]

theorem decode_encode (count value : Nat) : decode (encode count value) = value % 256 ^ count := by
  induction count generalizing value with
  | zero =>
      rw [pow_zero, Nat.mod_one]
      rfl
  | succ count ih =>
      rw [encode, decode_concat, ih, UInt8.toNat_ofNat', pow_succ' 256 count, Nat.mod_mul]
      omega

theorem decode_lt (bytes : List UInt8) : decode bytes < 256 ^ bytes.length := by
  induction bytes using List.reverseRecOn with
  | nil => simp [decode]
  | append_singleton bytes byte ih =>
      have hByte : byte.toNat < 256 := byte.toNat_lt
      rw [decode_concat, List.length_append, List.length_singleton, pow_succ]
      omega

theorem encode_decode (bytes : List UInt8) : encode bytes.length (decode bytes) = bytes := by
  induction bytes using List.reverseRecOn with
  | nil => rfl
  | append_singleton bytes byte ih =>
      have hByte : byte.toNat < 256 := byte.toNat_lt
      have hHigh : (decode bytes * 256 + byte.toNat) / 256 = decode bytes := by omega
      have hLow : UInt8.ofNat (decode bytes * 256 + byte.toNat) = byte := by
        apply UInt8.toNat_inj.mp
        rw [UInt8.toNat_ofNat']
        omega
      rw [decode_concat, List.length_append, List.length_singleton, encode, hHigh, hLow, ih]

/-- The bytes of a word, most significant first. -/
def ofWord {w : Nat} (word : BitVec w) : List UInt8 := encode (w / 8) word.toNat

/-- The word with these bytes. -/
def toWord (w : Nat) (bytes : List UInt8) : BitVec w := BitVec.ofNat w (decode bytes)

@[simp] theorem length_ofWord {w : Nat} (word : BitVec w) : (ofWord word).length = w / 8 :=
  length_encode _ _

theorem pow_bytes {w : Nat} (h : 8 ∣ w) : 256 ^ (w / 8) = 2 ^ w := by
  obtain ⟨count, rfl⟩ := h
  rw [Nat.mul_div_cancel_left count (by decide), pow_mul]
  rfl

theorem toWord_ofWord {w : Nat} (h : 8 ∣ w) (word : BitVec w) : toWord w (ofWord word) = word := by
  have hLt : word.toNat < 256 ^ (w / 8) := pow_bytes h ▸ word.isLt
  rw [toWord, ofWord, decode_encode, Nat.mod_eq_of_lt hLt, BitVec.ofNat_toNat, BitVec.setWidth_eq]

theorem ofWord_toWord {w : Nat} {bytes : List UInt8} (h : 8 * bytes.length = w) :
    ofWord (toWord w bytes) = bytes := by
  have hCount : w / 8 = bytes.length := by omega
  have hLt : decode bytes < 2 ^ w := by
    rw [← pow_bytes ⟨bytes.length, h.symm⟩, hCount]
    exact decode_lt bytes
  rw [ofWord, toWord, BitVec.toNat_ofNat, Nat.mod_eq_of_lt hLt, hCount, encode_decode]

theorem ofWord_injective {w : Nat} (h : 8 ∣ w) : Function.Injective (ofWord : BitVec w → List UInt8) :=
  Function.LeftInverse.injective (toWord_ofWord h)

/-- The bytes of a plain text. -/
def ascii (text : String) : List UInt8 := text.toList.map fun char => UInt8.ofNat char.toNat

/-! ### Fields -/

/-- The bytes from `start` up to `stop`. -/
def slice (bytes : List UInt8) (start stop : Nat) : List UInt8 :=
  (bytes.drop start).take (stop - start)

theorem length_slice {bytes : List UInt8} {start stop : Nat} (h : stop ≤ bytes.length) :
    (slice bytes start stop).length = stop - start := by
  rw [slice, List.length_take, List.length_drop]
  omega

/-- The first field. -/
theorem slice_append_left {first rest : List UInt8} {stop : Nat} (h : first.length = stop) :
    slice (first ++ rest) 0 stop = first := by
  rw [slice, List.drop_zero, Nat.sub_zero, List.take_left' h]

/-- A field behind the first one. -/
theorem slice_append_right {first rest : List UInt8} {start stop : Nat} (h : first.length ≤ start) :
    slice (first ++ rest) start stop = slice rest (start - first.length) (stop - first.length) := by
  have hWidth : stop - start = stop - first.length - (start - first.length) := by omega
  rw [slice, slice, List.drop_append, List.drop_eq_nil_of_le h, List.nil_append, hWidth]

/-- Neighbouring fields. -/
theorem slice_append_slice {bytes : List UInt8} {start middle stop : Nat} (h : start ≤ middle)
    (hStop : middle ≤ stop) :
    slice bytes start middle ++ slice bytes middle stop = slice bytes start stop := by
  have hWidth : stop - start = middle - start + (stop - middle) := by omega
  have hDrop : start + (middle - start) = middle := by omega
  rw [slice, slice, slice, hWidth, List.take_add, List.drop_drop, hDrop]

theorem slice_all {bytes : List UInt8} {stop : Nat} (h : bytes.length ≤ stop) :
    slice bytes 0 stop = bytes := by
  rw [slice, List.drop_zero, Nat.sub_zero, List.take_of_length_le h]

theorem slice_byte {bytes : List UInt8} {index : Nat} (h : index < bytes.length) :
    slice bytes index (index + 1) = [bytes.getD index 0] := by
  rw [slice, Nat.add_sub_cancel_left, List.take_one, List.head?_drop,
    List.getElem?_eq_getElem h, List.getD_eq_getElem _ _ h]
  rfl

end Bytes
