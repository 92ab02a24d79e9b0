import Mathlib.Logic.Basic

/-! Sequences of checks that stop at the first failure. -/

namespace Checks

universe u

variable {ε α β : Type u}

@[simp] theorem bind_eq_ok {check : Except ε α} {next : α → Except ε β} {result : β} :
    (check >>= next) = .ok result ↔ ∃ value, check = .ok value ∧ next value = .ok result := by
  cases check with
  | error reason => simp [bind, Except.bind]
  | ok value => simp [bind, Except.bind]

theorem bind_eq_error {check : Except ε α} {next : α → Except ε β} {reason : ε} :
    (check >>= next) = .error reason ↔
      check = .error reason ∨ ∃ value, check = .ok value ∧ next value = .error reason := by
  cases check with
  | error other => simp [bind, Except.bind]
  | ok value => simp [bind, Except.bind]

@[simp] theorem map_eq_ok {check : Except ε α} {next : α → β} {result : β} :
    (next <$> check) = .ok result ↔ ∃ value, check = .ok value ∧ next value = result := by
  cases check with
  | error reason => simp [Functor.map, Except.map]
  | ok value => simp [Functor.map, Except.map]

theorem map_eq_error {check : Except ε α} {next : α → β} {reason : ε} :
    check.map next = .error reason ↔ check = .error reason := by
  cases check <;> simp [Except.map]

@[simp] theorem pure_eq_ok {value result : α} :
    (pure value : Except ε α) = .ok result ↔ value = result := by
  simp [pure, Except.pure]

theorem mapError_ok {δ : Type u} {relabel : ε → δ} (value : α) :
    (Except.ok value : Except ε α).mapError relabel = .ok value := rfl

theorem mapError_error {δ : Type u} {relabel : ε → δ} (reason : ε) :
    (Except.error reason : Except ε α).mapError relabel = .error (relabel reason) := rfl

@[simp] theorem mapError_eq_ok {δ : Type u} {check : Except ε α} {relabel : ε → δ} {result : α} :
    check.mapError relabel = .ok result ↔ check = .ok result := by
  cases check with
  | error reason => simp [mapError_error]
  | ok value => simp [mapError_ok]

@[simp] theorem exists_eq_ok_unit {check : Except ε PUnit} :
    (∃ value, check = .ok value) ↔ check = .ok ⟨⟩ :=
  ⟨fun ⟨_, h⟩ => h, fun h => ⟨_, h⟩⟩

theorem exists_of_toBool {check : Except ε α} (h : check.toBool = true) :
    ∃ value, check = .ok value := by
  cases check with
  | error reason => cases h
  | ok value => exact ⟨value, rfl⟩

/-- Fail with `reason` unless `accepted`. -/
def require (accepted : Bool) (reason : ε) : Except ε PUnit :=
  if accepted then .ok ⟨⟩ else .error reason

@[simp] theorem require_eq_ok {accepted : Bool} {reason : ε} {value : PUnit} :
    require accepted reason = .ok value ↔ accepted = true := by
  cases accepted <;> simp [require]

/-- Fail with `reason` without a value. -/
def demand (value : Option α) (reason : ε) : Except ε α :=
  match value with
  | some value => .ok value
  | none => .error reason

@[simp] theorem demand_eq_ok {value : Option α} {reason : ε} {result : α} :
    demand value reason = .ok result ↔ value = some result := by
  cases value <;> simp [demand]

/-- The check does not fail for this reason. -/
def Avoids (reason : ε) (check : Except ε α) : Prop := check ≠ .error reason

theorem Avoids.ok (reason : ε) (value : α) : Avoids reason (.ok value) :=
  fun hError => by cases hError

theorem Avoids.error {reason other : ε} (h : other ≠ reason) :
    Avoids reason (.error other : Except ε α) :=
  fun hError => h (Except.error.inj hError)

theorem Avoids.bind {reason : ε} {check : Except ε α} {next : α → Except ε β}
    (hCheck : Avoids reason check) (hNext : ∀ value, check = .ok value → Avoids reason (next value)) :
    Avoids reason (check >>= next) := by
  intro hError
  rcases bind_eq_error.mp hError with hFirst | ⟨value, hValue, hRest⟩
  · exact hCheck hFirst
  · exact hNext value hValue hRest

/-- A sequence of checks passes if each of them does. -/
theorem forM_eq_ok {check : α → Except ε PUnit.{u + 1}} {list : List α} :
    forM list check = .ok ⟨⟩ ↔ ∀ item ∈ list, check item = .ok ⟨⟩ := by
  induction list with
  | nil => exact iff_of_true rfl (by simp)
  | cons item rest ih =>
      rw [List.forM_cons, bind_eq_ok, List.forall_mem_cons, ← ih]
      exact ⟨fun ⟨_, hItem, hRest⟩ => ⟨hItem, hRest⟩, fun ⟨hItem, hRest⟩ => ⟨_, hItem, hRest⟩⟩

/-- Fallible steps that all succeed. -/
theorem mapM_eq_ok {step : α → Except ε β} {list : List α} {value : α → β}
    (h : ∀ item ∈ list, step item = .ok (value item)) : list.mapM step = .ok (list.map value) := by
  induction list with
  | nil => rfl
  | cons item rest ih =>
      rw [List.forall_mem_cons] at h
      rw [List.mapM_cons, h.1, ih h.2]
      rfl

/-- A loop whose steps all succeed. -/
theorem foldlM_eq_ok {step : β → α → Except ε β} {value : β → α → β} {list : List α}
    (h : ∀ state, ∀ item ∈ list, step state item = .ok (value state item)) (state : β) :
    list.foldlM step state = .ok (list.foldl value state) := by
  induction list generalizing state with
  | nil => rfl
  | cons item rest ih =>
      rw [List.foldlM_cons, h state item List.mem_cons_self, List.foldl_cons]
      exact ih (fun state item hItem => h state item (List.mem_cons_of_mem _ hItem)) _

theorem exists_foldlM_eq_ok {step : β → α → Except ε β} {list : List α}
    (h : ∀ item ∈ list, ∀ state, ∃ after, step state item = .ok after) (state : β) :
    ∃ last, list.foldlM step state = .ok last := by
  induction list generalizing state with
  | nil => exact ⟨state, rfl⟩
  | cons item rest ih =>
      obtain ⟨after, hAfter⟩ := h item List.mem_cons_self state
      obtain ⟨last, hLast⟩ := ih (fun item hItem => h item (List.mem_cons_of_mem _ hItem)) after
      exact ⟨last, by rw [List.foldlM_cons, hAfter]; exact hLast⟩

/-- A loop that fails does so at one of its items. -/
theorem foldlM_eq_error {step : β → α → Except ε β} {list : List α} {first : β} {reason : ε}
    (h : list.foldlM step first = .error reason) :
    ∃ before item rest middle, list = before ++ item :: rest ∧
      before.foldlM step first = .ok middle ∧ step middle item = .error reason := by
  induction list generalizing first with
  | nil => cases h
  | cons item rest ih =>
      rw [List.foldlM_cons, bind_eq_error] at h
      rcases h with hItem | ⟨next, hNext, hRest⟩
      · exact ⟨[], item, rest, first, rfl, rfl, hItem⟩
      · obtain ⟨before, other, after, middle, rfl, hBefore, hOther⟩ := ih hRest
        exact ⟨item :: before, other, after, middle, rfl,
          by rw [List.foldlM_cons, hNext]; exact hBefore, hOther⟩

/-- A loop that succeeds took each item at a state between its first and its last. -/
theorem foldlM_visits {step : β → α → Except ε β} {Reaches : β → β → Prop}
    (hRefl : ∀ state, Reaches state state)
    (hTrans : ∀ {first second third}, Reaches first second → Reaches second third →
      Reaches first third)
    {list : List α} (hStep : ∀ {before item after}, item ∈ list → step before item = .ok after →
      Reaches before after)
    {first last : β} (h : list.foldlM step first = .ok last) :
    Reaches first last ∧ ∀ item ∈ list, ∃ before after,
      step before item = .ok after ∧ Reaches first before ∧ Reaches after last := by
  induction list generalizing first with
  | nil =>
      rw [List.foldlM_nil, pure_eq_ok] at h
      subst h
      exact ⟨hRefl first, by simp⟩
  | cons item rest ih =>
      rw [List.foldlM_cons, bind_eq_ok] at h
      obtain ⟨next, hItem, hRest⟩ := h
      have hFirst := hStep List.mem_cons_self hItem
      obtain ⟨hLast, hVisits⟩ := ih (fun hMem => hStep (List.mem_cons_of_mem _ hMem)) hRest
      refine ⟨hTrans hFirst hLast, ?_⟩
      rw [List.forall_mem_cons]
      refine ⟨⟨first, next, hItem, hRefl first, hLast⟩, ?_⟩
      intro later hLater
      obtain ⟨before, after, hAt, hBefore, hAfter⟩ := hVisits later hLater
      exact ⟨before, after, hAt, hTrans hFirst hBefore, hAfter⟩

end Checks
