import Mathlib

/-! Extensional tree maps and finite sets, read at one key: the values of a map, what is
found once a list has been stored, and what is left once its keys are erased. -/

namespace Maps

open Std (ExtTreeMap)

universe u v

variable {Key : Type u} {Value : Type v}

section Values

variable {cmp : Key → Key → Ordering} [Std.TransCmp cmp]

theorem values_eq (map : ExtTreeMap Key Value cmp) : map.values = map.toList.map Prod.snd := by
  have hFold : map.values = map.foldr (fun _ value rest => value :: rest) [] := rfl
  rw [hFold, ExtTreeMap.foldr_eq_foldr_toList]
  induction map.toList with
  | nil => rfl
  | cons pair rest ih => simp [ih]

theorem mem_values [Std.LawfulEqCmp cmp] {map : ExtTreeMap Key Value cmp} {value : Value} :
    value ∈ map.values ↔ ∃ key : Key, map[key]? = some value := by
  rw [values_eq, List.mem_map]
  simp [Prod.exists, ExtTreeMap.mem_toList_iff_getElem?_eq_some]

variable [Std.LawfulEqCmp cmp] [DecidableEq Key]

theorem getElem?_foldl_erase (keys : List Key) (map : ExtTreeMap Key Value cmp) (key : Key) :
    (keys.foldl (fun map key => map.erase key) map)[key]? =
      if key ∈ keys then none else map[key]? := by
  induction keys generalizing map with
  | nil => simp
  | cons first rest ih =>
      rw [List.foldl_cons, ih, ExtTreeMap.getElem?_erase]
      by_cases hRest : key ∈ rest
      · simp [hRest]
      · by_cases hFirst : first = key
        · simp [hFirst]
        · simp [hRest, hFirst, Ne.symm hFirst]

/-- Of the items stored under one key the last is found. -/
theorem getElem?_foldl_insert {Item : Type*} (keyOf : Item → Key) (valueOf : Item → Value)
    (items : List Item) (map : ExtTreeMap Key Value cmp) (key : Key) :
    (items.foldl (fun map item => map.insert (keyOf item) (valueOf item)) map)[key]? =
      ((items.reverse.find? fun item => keyOf item = key).map valueOf).or map[key]? := by
  induction items generalizing map with
  | nil => rfl
  | cons first rest ih =>
      rw [List.foldl_cons, ih, ExtTreeMap.getElem?_insert, List.reverse_cons, List.find?_append]
      cases hLater : rest.reverse.find? fun item => keyOf item = key with
      | some item => rfl
      | none => by_cases hFirst : keyOf first = key <;> simp [hFirst]

end Values

theorem mem_foldl_erase [DecidableEq Key] (keys : List Key) (set : Finset Key) (key : Key) :
    key ∈ keys.foldl (fun set key => set.erase key) set ↔ key ∈ set ∧ key ∉ keys := by
  induction keys generalizing set with
  | nil => simp
  | cons first rest ih =>
      rw [List.foldl_cons, ih, Finset.mem_erase, List.mem_cons]
      tauto

end Maps
