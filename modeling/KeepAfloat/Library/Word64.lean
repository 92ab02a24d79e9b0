import Mathlib

/-! Unsigned 64-bit arithmetic on natural numbers. A machine word is a natural
number; the operations below are the only places at which the upper bound of
the word is visible, so that proofs about runs too short to reach it can leave
the bound behind. -/

namespace Word64

/-- The largest 64-bit word. -/
def maxWord : Nat := 2 ^ 64 - 1

/-- Addition that stops at the largest word. -/
def satAdd (a b : Nat) : Nat := min (a + b) maxWord

/-- Multiplication that stops at the largest word. -/
def satMul (a b : Nat) : Nat := min (a * b) maxWord

/-- Multiplication that fails above the largest word. -/
def checkedMul (a b : Nat) : Option Nat := if a * b ≤ maxWord then some (a * b) else none

/-- Division that rounds up. -/
def divCeil (a b : Nat) : Nat := (a + b - 1) / b

/-- Addition that fails above the largest word. -/
def checkedAdd (a b : Nat) : Option Nat := if a + b ≤ maxWord then some (a + b) else none

theorem satAdd_of_le {a b : Nat} (h : a + b ≤ maxWord) : satAdd a b = a + b :=
  min_eq_left h

theorem le_satAdd {a : Nat} (b : Nat) (h : a ≤ maxWord) : a ≤ satAdd a b :=
  le_min (Nat.le_add_right a b) h

theorem satAdd_le_max (a b : Nat) : satAdd a b ≤ maxWord := min_le_right _ _

theorem checkedAdd_eq_some {a b c : Nat} :
    checkedAdd a b = some c ↔ c = a + b ∧ a + b ≤ maxWord := by
  unfold checkedAdd
  split <;> simp_all [eq_comm]

/-- Addition modulo the word size. -/
def wrappingAdd (a b : Nat) : Nat := (a + b) % 2 ^ 64

theorem wrappingAdd_of_le {a b : Nat} (h : a + b ≤ maxWord) : wrappingAdd a b = a + b :=
  Nat.mod_eq_of_lt (Nat.lt_of_le_pred (by decide) h)

theorem wrappingAdd_le (a b : Nat) : wrappingAdd a b ≤ a + b := Nat.mod_le _ _

theorem wrappingAdd_one_ne (a : Nat) : wrappingAdd a 1 ≠ a := by
  unfold wrappingAdd
  omega

/-- How often a sequence of words changed in its first `n` steps. -/
def changes (word : Nat → Nat) : Nat → Nat
  | 0 => 0
  | n + 1 => changes word n + if word (n + 1) = word n then 0 else 1

theorem changes_mono (word : Nat → Nat) : Monotone (changes word) :=
  monotone_nat_of_le_succ fun _ => Nat.le_add_right _ _

/-- A counter that only counts up, wrapping, has one value between two moments at
which it has the same, unless it goes all the way round. -/
theorem steady_of_eq {word : Nat → Nat} {n : Nat} (hStart : word 0 ≤ maxWord)
    (hStep : ∀ k, k < n → word (k + 1) = word k ∨ word (k + 1) = wrappingAdd (word k) 1)
    (hFew : changes word n < 2 ^ 64) {i j : Nat} (hj : j ≤ n)
    (hEq : word i = word j) {k : Nat} (hik : i ≤ k) (hkj : k ≤ j) : word k = word i := by
  have hCount : ∀ m, m ≤ n → word m = (word 0 + changes word m) % 2 ^ 64 := by
    intro m
    induction m with
    | zero =>
        intro _
        unfold maxWord at hStart
        simp only [changes]
        omega
    | succ m ih =>
        intro hm
        have hPrior := ih (by omega)
        simp only [changes]
        rcases hStep m (by omega) with hSame | hNext
        · rw [if_pos hSame, hSame]
          simpa using hPrior
        · split
          · rename_i hSame
            rw [hSame]
            simpa using hPrior
          · rw [hNext, wrappingAdd]
            omega
  have hBelow := changes_mono word hik
  have hAbove := changes_mono word hkj
  have hLast := changes_mono word hj
  have hi := hCount i (by omega)
  have hk := hCount k (by omega)
  have hj' := hCount j hj
  omega

end Word64
