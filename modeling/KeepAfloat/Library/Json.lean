import KeepAfloat.Library.Hex

/-! Compact JSON texts as bytes, and how long they are. -/

namespace Json

/-- Items with a comma between them. -/
def separated (items : List (List UInt8)) : List UInt8 := [44].intercalate items

def number (value : Nat) : List UInt8 := (Nat.toDigits 10 value).map Hex.byteOf

def boolean (value : Bool) : List UInt8 := Hex.utf8 (if value then "true" else "false")

/-- One byte of a text: quotes, backslashes and control characters are escaped. -/
def escape (byte : UInt8) : List UInt8 :=
  if byte = 34 ∨ byte = 92 then [92, byte]
  else if byte = 8 then [92, 98]
  else if byte = 9 then [92, 116]
  else if byte = 10 then [92, 110]
  else if byte = 12 then [92, 102]
  else if byte = 13 then [92, 114]
  else if byte < 32 then
    [92, 117, 48, 48] ++ (Hex.encode 2 byte.toNat).map Hex.byteOf
  else [byte]

def text (value : String) : List UInt8 := 34 :: (Hex.utf8 value).flatMap escape ++ [34]

def array (items : List (List UInt8)) : List UInt8 := 91 :: separated items ++ [93]

/-- A name and its value. Names are plain. -/
def entry (field : String × List UInt8) : List UInt8 :=
  34 :: field.1.toList.map Hex.byteOf ++ [34, 58] ++ field.2

def object (fields : List (String × List UInt8)) : List UInt8 :=
  123 :: separated (fields.map entry) ++ [125]

/-! ### Lengths -/

section Intercalate

variable {α : Type*} {separator : List α} {items : List (List α)}

theorem length_intercalate (h : items ≠ []) :
    (separator.intercalate items).length + separator.length =
      (items.map (·.length + separator.length)).sum := by
  induction items with
  | nil => exact absurd rfl h
  | cons item rest ih =>
      cases rest with
      | nil => simp
      | cons next rest =>
          rw [List.map_cons, List.sum_cons, ← ih (List.cons_ne_nil _ _),
            List.intercalate_cons_cons, List.length_append, List.length_append]
          omega

theorem mem_intercalate {element : α} (h : element ∈ separator.intercalate items) :
    element ∈ separator ∨ ∃ item ∈ items, element ∈ item := by
  induction items with
  | nil => cases h
  | cons item rest ih =>
      cases rest with
      | nil =>
          rw [List.intercalate_singleton] at h
          exact .inr ⟨item, List.mem_cons_self, h⟩
      | cons next rest =>
          rw [List.intercalate_cons_cons, List.mem_append, List.mem_append] at h
          rcases h with (hItem | hSeparator) | hRest
          · exact .inr ⟨item, List.mem_cons_self, hItem⟩
          · exact .inl hSeparator
          · obtain hSeparator | ⟨other, hOther, hElement⟩ := ih hRest
            · exact .inl hSeparator
            · exact .inr ⟨other, List.mem_cons_of_mem _ hOther, hElement⟩

theorem length_intercalate_le (most : Nat) (hMost : ∀ item ∈ items, item.length ≤ most) :
    (separator.intercalate items).length ≤ items.length * (most + separator.length) := by
  by_cases h : items = []
  · simp [h]
  · have hSum : (items.map (·.length + separator.length)).sum ≤
        items.length * (most + separator.length) := by
      refine (List.sum_le_card_nsmul _ (most + separator.length) ?_).trans_eq ?_
      · exact List.forall_mem_map.mpr fun item hItem => Nat.add_le_add_right (hMost item hItem) _
      · rw [List.length_map, smul_eq_mul]
    have hLength := @length_intercalate _ separator _ h
    omega

end Intercalate

theorem length_array {items : List (List UInt8)} (h : items ≠ []) :
    (array items).length = (items.map (·.length + 1)).sum + 1 := by
  rw [array, List.length_append, List.length_cons, List.length_singleton]
  exact congrArg (· + 1) (@length_intercalate _ [44] _ h)

theorem length_object {fields : List (String × List UInt8)} (h : fields ≠ []) :
    (object fields).length =
      (fields.map fun field => field.1.toList.length + field.2.length + 4).sum + 1 := by
  have hEntries : (fields.map fun field => (entry field).length + 1) =
      fields.map fun field => field.1.toList.length + field.2.length + 4 := by
    refine List.map_congr_left fun field _ => ?_
    simp only [entry, List.cons_append, List.append_assoc, List.length_cons, List.length_append,
      List.length_map, List.length_nil]
    omega
  have hSeparated := @length_intercalate _ [44] _
    (mt List.map_eq_nil_iff.mp h : fields.map entry ≠ [])
  rw [List.map_map] at hSeparated
  rw [← hEntries, object, List.length_append, List.length_cons, List.length_singleton]
  exact congrArg (· + 1) hSeparated

/-- The decimal digits of a number. -/
def digits (value : Nat) : Nat := (Nat.toDigits 10 value).length

theorem length_number (value : Nat) : (number value).length = digits value :=
  List.length_map _

theorem digits_le {value count : Nat} (hPos : 0 < count) (h : value < 10 ^ count) :
    digits value ≤ count :=
  (Nat.length_toDigits_le_iff (by decide) hPos).mpr h

theorem digits_pos (value : Nat) : 0 < digits value := Nat.length_toDigits_pos

/-- A byte that is written as it is. -/
def Plain (byte : UInt8) : Prop := 32 ≤ byte ∧ byte ≠ 34 ∧ byte ≠ 92

theorem plain_of_isLower {byte : UInt8} (h : Hex.isLower byte = true) : Plain byte := by
  obtain ⟨value, hValue, rfl⟩ := Hex.exists_digitChar h
  unfold Plain
  interval_cases value <;> decide

theorem escape_of_plain {byte : UInt8} (h : Plain byte) : escape byte = [byte] := by
  obtain ⟨hPrintable, hQuote, hBackslash⟩ := h
  have hSmall : ∀ other : UInt8, other < 32 → byte ≠ other := by
    rintro other hOther rfl
    exact UInt8.not_le.mpr hOther hPrintable
  rw [escape, if_neg (not_or.mpr ⟨hQuote, hBackslash⟩), if_neg (hSmall 8 (by decide)),
    if_neg (hSmall 9 (by decide)), if_neg (hSmall 10 (by decide)), if_neg (hSmall 12 (by decide)),
    if_neg (hSmall 13 (by decide)), if_neg (UInt8.not_lt.mpr hPrintable)]

theorem length_text {value : String} (h : ∀ byte ∈ Hex.utf8 value, Plain byte) :
    (text value).length = (Hex.utf8 value).length + 2 := by
  have hEscaped : (Hex.utf8 value).flatMap escape = Hex.utf8 value := by
    rw [List.flatMap_congr fun byte hByte => escape_of_plain (h byte hByte)]
    exact List.flatMap_singleton' _
  rw [text, hEscaped, List.length_append, List.length_cons, List.length_singleton]

/-- A text of plain characters is as long as they are many, with its quotes. -/
theorem length_text_ofList {chars : List Char}
    (h : ∀ char ∈ chars, char.val ≤ 127 ∧ Plain (Hex.byteOf char)) :
    (text (.ofList chars)).length = chars.length + 2 := by
  have hBytes := Hex.utf8_ofList fun char hChar => (h char hChar).1
  rw [length_text, hBytes, List.length_map]
  rw [hBytes]
  exact List.forall_mem_map.mpr fun char hChar => (h char hChar).2

end Json
