import Mathlib.Logic.Basic

/-! Computations that may fail with a reason or panic, and a rule for each way of building
one. A postcondition of a computation says that it does not panic, and what holds of a value
that it returns. -/

namespace Panics

universe u

variable {ε α β : Type u}

/-- A value whose absence is a panic. -/
def unchecked (value : Option α) : ExceptT ε Option α := ExceptT.lift value

/-- A value whose absence is a failure. -/
def orFail (value : Option α) (reason : ε) : ExceptT ε Option α :=
  match value with
  | some result => pure result
  | none => throw reason

/-- No panic, and `post` holds of what is returned. -/
def Meets (computation : ExceptT ε Option α) (post : α → Prop) : Prop :=
  ∃ outcome, computation.run = some outcome ∧ ∀ value, outcome = .ok value → post value

theorem meets_pure {value : α} {post : α → Prop} (h : post value) :
    Meets (pure value : ExceptT ε Option α) post := by
  refine ⟨.ok value, rfl, fun other hOther => ?_⟩
  cases hOther
  exact h

theorem meets_unchecked {source : Option α} {value : α} {post : α → Prop} (hSource : source = some value)
    (h : post value) : Meets (unchecked source : ExceptT ε Option α) post := by
  subst hSource
  exact meets_pure h

theorem meets_orFail {source : Option α} {reason : ε} {post : α → Prop}
    (h : ∀ value, source = some value → post value) : Meets (orFail source reason) post := by
  cases source with
  | some value => exact meets_pure (h value rfl)
  | none => exact ⟨.error reason, rfl, fun _ hOk => nomatch hOk⟩

theorem Meets.bind {computation : ExceptT ε Option α} {next : α → ExceptT ε Option β}
    {middle : α → Prop} {post : β → Prop} (h : Meets computation middle)
    (hNext : ∀ value, middle value → Meets (next value) post) :
    Meets (computation >>= next) post := by
  obtain ⟨outcome, hRun, hMiddle⟩ := h
  have hBind : (computation >>= next).run =
      computation.run.bind (ExceptT.bindCont next) := rfl
  cases outcome with
  | error reason =>
      refine ⟨.error reason, ?_, fun _ hOk => nomatch hOk⟩
      rw [hBind, hRun]
      rfl
  | ok value =>
      obtain ⟨result, hResult, hPost⟩ := hNext value (hMiddle value rfl)
      refine ⟨result, ?_, hPost⟩
      rw [hBind, hRun]
      exact hResult

end Panics
