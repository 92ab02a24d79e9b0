import KeepAfloat.Library.Bytes

/-! Byte strings that end where the value does. Values are written one behind the other,
and the bytes determine each of them whatever follows. -/

namespace Framing

variable {α β : Type*}

/-- The bytes of a valid value determine it and what follows it. -/
def Framed (valid : α → Prop) (bytes : α → List UInt8) : Prop :=
  ∀ ⦃x y : α⦄, valid x → valid y → ∀ ⦃rest rest' : List UInt8⦄,
    bytes x ++ rest = bytes y ++ rest' → x = y ∧ rest = rest'

theorem Framed.injective {valid : α → Prop} {bytes : α → List UInt8} (h : Framed valid bytes)
    {x y : α} (hx : valid x) (hy : valid y) (hBytes : bytes x = bytes y) : x = y :=
  (h hx hy (congrArg (· ++ []) hBytes)).1

/-- Values of one length. -/
theorem framed_of_length {valid : α → Prop} {bytes : α → List UInt8} {length : Nat}
    (hLength : ∀ x, (bytes x).length = length)
    (hInjective : ∀ x y, valid x → valid y → bytes x = bytes y → x = y) : Framed valid bytes := by
  intro x y hx hy rest rest' h
  obtain ⟨hBytes, hRest⟩ := List.append_inj h ((hLength x).trans (hLength y).symm)
  exact ⟨hInjective x y hx hy hBytes, hRest⟩

theorem framed_word {w : Nat} (h : 8 ∣ w) :
    Framed (fun _ => True) (Bytes.ofWord : BitVec w → List UInt8) :=
  framed_of_length Bytes.length_ofWord fun _ _ _ _ hBytes => Bytes.ofWord_injective h hBytes

theorem framed_number (count : Nat) : Framed (· < 256 ^ count) (Bytes.encode count) := by
  refine framed_of_length (Bytes.length_encode count) fun x y hx hy hBytes => ?_
  have hDecoded := congrArg Bytes.decode hBytes
  rwa [Bytes.decode_encode, Bytes.decode_encode, Nat.mod_eq_of_lt hx, Nat.mod_eq_of_lt hy]
    at hDecoded

theorem Framed.pair {valid : α → Prop} {bytes : α → List UInt8} {valid' : β → Prop}
    {bytes' : β → List UInt8} (h : Framed valid bytes) (h' : Framed valid' bytes') :
    Framed (fun both : α × β => valid both.1 ∧ valid' both.2)
      (fun both => bytes both.1 ++ bytes' both.2) := by
  intro x y hx hy rest rest' hBytes
  rw [List.append_assoc, List.append_assoc] at hBytes
  obtain ⟨hFirst, hBytes⟩ := h hx.1 hy.1 hBytes
  obtain ⟨hSecond, hRest⟩ := h' hx.2 hy.2 hBytes
  exact ⟨Prod.ext hFirst hSecond, hRest⟩

/-- Values that are written as others. -/
theorem Framed.comap {valid : β → Prop} {bytes : β → List UInt8} (h : Framed valid bytes)
    {view : α → β} (hView : Function.Injective view) :
    Framed (fun x => valid (view x)) fun x => bytes (view x) := by
  intro x y hx hy rest rest' hBytes
  obtain ⟨hSame, hRest⟩ := h hx hy hBytes
  exact ⟨hView hSame, hRest⟩

/-- A text without a zero byte, ended by one. -/
theorem framed_terminated : Framed (fun text => (0 : UInt8) ∉ text) fun text => text ++ [0] := by
  intro x y hx hy rest rest' hBytes
  rw [List.append_assoc, List.append_assoc, List.singleton_append, List.singleton_append] at hBytes
  induction x generalizing y with
  | nil =>
      cases y with
      | nil => exact ⟨rfl, (List.cons.inj hBytes).2⟩
      | cons byte y =>
          obtain ⟨rfl, -⟩ := List.cons.inj hBytes
          exact absurd List.mem_cons_self hy
  | cons byte x ih =>
      cases y with
      | nil =>
          obtain ⟨rfl, -⟩ := List.cons.inj hBytes
          exact absurd List.mem_cons_self hx
      | cons byte' y =>
          obtain ⟨rfl, hTail⟩ := List.cons.inj hBytes
          obtain ⟨rfl, hRest⟩ := ih (mt (List.mem_cons_of_mem _) hx) (mt (List.mem_cons_of_mem _) hy) hTail
          exact ⟨rfl, hRest⟩

/-- Bytes behind their number. -/
def counted (count : Nat) (bytes : List UInt8) : List UInt8 := Bytes.encode count bytes.length ++ bytes

theorem framed_counted (count : Nat) :
    Framed (fun bytes => bytes.length < 256 ^ count) (counted count) := by
  intro x y hx hy rest rest' hBytes
  rw [counted, counted, List.append_assoc, List.append_assoc] at hBytes
  obtain ⟨hLength, hBytes⟩ := framed_number count hx hy hBytes
  exact List.append_inj hBytes hLength

/-- As many items on both sides. -/
theorem Framed.items {valid : α → Prop} {bytes : α → List UInt8} (h : Framed valid bytes)
    {xs ys : List α} (hLength : xs.length = ys.length) (hx : ∀ x ∈ xs, valid x)
    (hy : ∀ y ∈ ys, valid y) {rest rest' : List UInt8}
    (hBytes : xs.flatMap bytes ++ rest = ys.flatMap bytes ++ rest') : xs = ys ∧ rest = rest' := by
  induction xs generalizing ys with
  | nil =>
      obtain rfl := List.length_eq_zero_iff.mp hLength.symm
      exact ⟨rfl, hBytes⟩
  | cons x xs ih =>
      cases ys with
      | nil => cases hLength
      | cons y ys =>
          rw [List.flatMap_cons, List.flatMap_cons, List.append_assoc, List.append_assoc] at hBytes
          rw [List.forall_mem_cons] at hx hy
          obtain ⟨rfl, hTail⟩ := h hx.1 hy.1 hBytes
          obtain ⟨rfl, hRest⟩ := ih (Nat.succ.inj hLength) hx.2 hy.2 hTail
          exact ⟨rfl, hRest⟩

/-- Items of at least a byte before an end of known length: nothing has to count them. -/
theorem Framed.items_before {valid : α → Prop} {bytes : α → List UInt8} (h : Framed valid bytes)
    (hNonempty : ∀ x, 0 < (bytes x).length) {xs ys : List α} (hx : ∀ x ∈ xs, valid x)
    (hy : ∀ y ∈ ys, valid y) {rest rest' : List UInt8} (hRest : rest.length = rest'.length)
    (hBytes : xs.flatMap bytes ++ rest = ys.flatMap bytes ++ rest') : xs = ys ∧ rest = rest' := by
  have hTooLong : ∀ (x : α) (xs : List α) {rest rest' : List UInt8}, rest.length = rest'.length →
      (x :: xs).flatMap bytes ++ rest ≠ rest' := by
    intro x xs rest rest' hRest hBytes
    have hSum := congrArg List.length hBytes
    have hByte := hNonempty x
    rw [List.flatMap_cons, List.length_append, List.length_append] at hSum
    omega
  induction xs generalizing ys with
  | nil =>
      cases ys with
      | nil => exact ⟨rfl, hBytes⟩
      | cons y ys => exact absurd hBytes.symm (hTooLong y ys hRest.symm)
  | cons x xs ih =>
      cases ys with
      | nil => exact absurd hBytes (hTooLong x xs hRest)
      | cons y ys =>
          rw [List.flatMap_cons, List.flatMap_cons, List.append_assoc, List.append_assoc] at hBytes
          rw [List.forall_mem_cons] at hx hy
          obtain ⟨rfl, hTail⟩ := h hx.1 hy.1 hBytes
          obtain ⟨rfl, hEnd⟩ := ih hx.2 hy.2 hTail
          exact ⟨rfl, hEnd⟩

end Framing
