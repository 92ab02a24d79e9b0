import KeepAfloat.Library.Runs
import KeepAfloat.Vip.Worker

/-! What the rest of the process can do to one VIP. Only the worker of a VIP changes its
tracking, spawns its commands or stops waiting for them; everybody else can at most see
its children take effect and finish. -/

namespace KeepAfloat

namespace Child

/-- Counted by the tracker: left behind, or finished without being reaped. -/
def counted (child : Child) : Bool :=
  decide (child.phase = .abandoned ∨ child.phase = .finished ∧ child.reaped = false)

structure Sound (child : Child) : Prop where
  reaped : child.reaped = true → child.phase = .finished
  succeeded : child.phase = .finished → child.result = .exited true → child.effect = true
  exited : child.phase = .finished → child.result ≠ .failed → child.reaped = true

/-- What becomes of a child while its caller does nothing. -/
structure Later (child after : Child) : Prop where
  command : after.command = child.command
  effect : child.effect = true → after.effect = true
  settled : child.reaped = true → after = child
  finished : child.phase = .finished →
    after.phase = .finished ∧ after.reaped = child.reaped ∧ after.result = child.result
  waited : child.phase ≠ .waitedFor → after.phase ≠ .waitedFor
  kept : child.phase ≠ .abandoned → after.phase ≠ .abandoned

theorem Later.refl (child : Child) : Later child child where
  command := rfl
  effect h := h
  settled _ := rfl
  finished h := ⟨h, rfl, rfl⟩
  waited h := h
  kept h := h

end Child

namespace VipState

/-- The invariant of the process: its children are sound and the tracker counts them. -/
structure Good (state : VipState) : Prop where
  sound : ∀ child ∈ state.children, child.Sound
  counted : state.tracker.unsettled = state.children.countP Child.counted

/-- A command of the VIP was lost. -/
def Lost (ip : IpAddr) (state : VipState) : Prop :=
  ∃ (index : Nat) (child : Child), state.children[index]? = some child ∧
    child.command.address = ip ∧ child.phase = .finished ∧ child.reaped = false

/-- Every such command is reaped, but for one child. -/
def Reaped (command : VipCommand) (exempt : Option Nat) (state : VipState) : Prop :=
  ∀ index child, state.children[index]? = some child → some index ≠ exempt →
    child.command = command → child.reaped = true

/-- No such command can take effect any more: each is reaped or has taken effect. -/
def Spent (command : VipCommand) (state : VipState) : Prop :=
  ∀ child ∈ state.children, child.command = command → child.reaped = true ∨ child.effect = true

/-- No command of the VIP is waited for, but for one child. -/
def Quiet (ip : IpAddr) (exempt : Option Nat) (state : VipState) : Prop :=
  ∀ index child, state.children[index]? = some child → some index ≠ exempt →
    child.command.address = ip → child.phase ≠ .waitedFor

/-- Not attached, and nothing is left that could attach it. -/
def Absent (ip : IpAddr) (state : VipState) : Prop :=
  state.attached ip = false ∧ state.Reaped (.replaceAddress ip) none

/-- Not attached, and no command can attach it any more. -/
def Gone (ip : IpAddr) (state : VipState) : Prop :=
  state.attached ip = false ∧ state.Spent (.replaceAddress ip)

/-- Marked, and nothing is left that could remove the marker. -/
def Marked (ip : IpAddr) (state : VipState) : Prop :=
  state.marker ip = true ∧ state.Reaped (.deleteMarker ip) none

/-- The child runs this command, and once it took effect the property holds. -/
def Running (command : VipCommand) (index : Nat) (property : VipState → Prop) (state : VipState) :
    Prop :=
  ∃ child, state.children[index]? = some child ∧ child.command = command ∧
    (child.effect = true → property state)

/-! ### Changes of one child -/

theorem childEffect_cases (state : VipState) (index : Nat) :
    state.childEffect index = state ∨
      ∃ child, state.children[index]? = some child ∧ child.reaped = false ∧
        child.effect = false ∧
        state.childEffect index =
          { state.takeEffect child.command with
            children := state.children.set index { child with effect := true } } := by
  unfold childEffect
  cases hChild : state.children[index]? with
  | none => exact .inl rfl
  | some child =>
      by_cases hLive : (child.reaped || child.effect) = true
      · exact .inl (by simp only [hLive, if_true])
      · right
        have hBoth := hLive
        simp only [Bool.or_eq_true, not_or, Bool.not_eq_true] at hBoth
        exact ⟨child, rfl, hBoth.1, hBoth.2, by simp only [hLive, Bool.false_eq_true, if_false]⟩

theorem abandon_cases (state : VipState) (index : Nat) :
    (state.abandon index = state ∧
        ∀ child, state.children[index]? = some child → child.phase ≠ .waitedFor) ∨
      ∃ child, state.children[index]? = some child ∧ child.phase = .waitedFor ∧
        state.abandon index =
          { state with
            tracker := state.tracker.begin
            children := state.children.set index { child with phase := .abandoned } } := by
  unfold abandon
  cases hChild : state.children[index]? with
  | none => exact .inl ⟨rfl, fun child h => by cases h⟩
  | some child =>
      by_cases hPhase : child.phase = .waitedFor
      · exact .inr ⟨child, rfl, hPhase, by simp only [hPhase, if_true]⟩
      · refine .inl ⟨by simp only [hPhase, if_false], fun other hOther => ?_⟩
        rwa [← Option.some.inj hOther]

theorem finish_cases (state : VipState) (index : Nat) (result : CommandResult) (reaped : Bool) :
    state.finish index result reaped = state ∨
      ∃ child, state.children[index]? = some child ∧ child.phase ≠ .finished ∧
        (result ≠ .failed → reaped = true) ∧ (result = .exited true → child.effect = true) ∧
        state.finish index result reaped =
          { state with
            tracker := finishedTracker state.tracker child.phase reaped
            children := state.children.set index
              { child with phase := .finished, reaped := reaped, result := result } } := by
  unfold finish
  cases hChild : state.children[index]? with
  | none => exact .inl rfl
  | some child =>
      by_cases hBlocked : child.phase = .finished ∨ (result ≠ .failed ∧ reaped = false) ∨
          (result = .exited true ∧ child.effect = false)
      · exact .inl (by simp only [hBlocked, if_true])
      · right
        have hAll := hBlocked
        simp only [not_or, not_and, Bool.not_eq_false] at hAll
        exact ⟨child, rfl, hAll.1, hAll.2.1, hAll.2.2, by simp only [hBlocked, if_false]⟩

/-! ### The invariant -/

theorem Good.replace {state after : VipState} {index : Nat} {child next : Child}
    (h : state.Good) (hChild : state.children[index]? = some child)
    (hChildren : after.children = state.children.set index next) (hSound : next.Sound)
    (hCount : after.tracker.unsettled + child.counted.toNat =
      state.tracker.unsettled + next.counted.toNat) : after.Good := by
  obtain ⟨hIndex, rfl⟩ := List.getElem?_eq_some_iff.mp hChild
  have hBelow := List.boole_getElem_le_countP (p := Child.counted) hIndex
  constructor
  · intro other hOther
    rw [hChildren] at hOther
    rcases List.mem_or_eq_of_mem_set hOther with hOld | rfl
    · exact h.sound other hOld
    · exact hSound
  · rw [hChildren, List.countP_set hIndex, ← h.counted]
    rw [← h.counted] at hBelow
    cases hBefore : (state.children[index]).counted <;> cases hAfter : next.counted <;>
      simp only [hBefore, hAfter, Bool.toNat_true, Bool.toNat_false, if_true, Bool.false_eq_true,
        if_false] at hCount hBelow ⊢ <;> omega

theorem Good.childEffect {state : VipState} (h : state.Good) (index : Nat) :
    (state.childEffect index).Good := by
  rcases state.childEffect_cases index with hSame | ⟨child, hChild, hReaped, hEffect, hAfter⟩
  · rwa [hSame]
  · rw [hAfter]
    have hSound := h.sound child (List.mem_of_getElem? hChild)
    refine h.replace hChild rfl ⟨hSound.reaped, fun _ _ => rfl, hSound.exited⟩ ?_
    cases child.command <;> rfl

theorem Good.abandon {state : VipState} (h : state.Good) (index : Nat) :
    (state.abandon index).Good := by
  rcases state.abandon_cases index with ⟨hSame, -⟩ | ⟨child, hChild, hPhase, hAfter⟩
  · rwa [hSame]
  · rw [hAfter]
    have hSound := h.sound child (List.mem_of_getElem? hChild)
    have hReaped : child.reaped = false := by
      rw [← Bool.not_eq_true]
      intro hReaped
      rw [hSound.reaped hReaped] at hPhase
      cases hPhase
    refine h.replace hChild rfl ⟨?_, fun hFinished => ?_, fun hFinished => ?_⟩ ?_
    · intro hNow
      exact absurd (hReaped.symm.trans hNow) (by simp)
    · cases hFinished
    · cases hFinished
    · simp [Child.counted, hPhase, TrackedChildren.begin]

theorem Good.finish {state : VipState} (h : state.Good) (index : Nat) (result : CommandResult)
    (reaped : Bool) : (state.finish index result reaped).Good := by
  rcases state.finish_cases index result reaped with
    hSame | ⟨child, hChild, hPhase, hExited, hSuccess, hAfter⟩
  · rwa [hSame]
  · rw [hAfter]
    refine h.replace hChild rfl ⟨fun _ => rfl, fun _ => hSuccess, fun _ => hExited⟩ ?_
    have hPositive : child.phase = .abandoned → 0 < state.tracker.unsettled := by
      intro hAbandoned
      rw [h.counted, List.countP_pos_iff]
      exact ⟨child, List.mem_of_getElem? hChild, by simp [Child.counted, hAbandoned]⟩
    cases hCase : child.phase with
    | waitedFor => cases reaped <;> simp [Child.counted, hCase, finishedTracker,
        TrackedChildren.begin, TrackedChildren.lose]
    | abandoned =>
        have hOne := hPositive hCase
        cases reaped <;> simp [Child.counted, hCase, finishedTracker, TrackedChildren.settle,
          TrackedChildren.lose]
        omega
    | finished => exact absurd hCase hPhase

theorem Good.drop {state : VipState} (h : state.Good) (op : VipOp) : (state.drop op).Good := by
  cases op with
  | wait command index =>
      simp only [VipState.drop]
      split
      · exact h.abandon index
      · exact h
  | _ => exact h

theorem Good.perform {state after : VipState} (h : state.Good) {op : VipOp} {choice : Nat}
    {answer : op.Answer} (hPerform : state.perform op choice = some (answer, after)) :
    after.Good := by
  have hSame : after.children = state.children → after.tracker = state.tracker → after.Good := by
    intro hChildren hTracker
    exact ⟨hChildren ▸ h.sound, by rw [hTracker, hChildren, h.counted]⟩
  cases op with
  | spawn command =>
      simp only [VipState.perform] at hPerform
      split at hPerform
      · obtain ⟨-, rfl⟩ := Prod.mk.inj (Option.some.inj hPerform)
        exact h
      · obtain ⟨-, rfl⟩ := Prod.mk.inj (Option.some.inj hPerform)
        constructor
        · intro child hChild
          rcases List.mem_append.mp hChild with hOld | hNew
          · exact h.sound child hOld
          · obtain rfl := List.mem_singleton.mp hNew
            exact ⟨by simp, by simp, by simp⟩
        · simp [h.counted, List.countP_append, Child.counted]
  | wait command index =>
      simp only [VipState.perform] at hPerform
      split at hPerform
      · split at hPerform
        · obtain ⟨-, rfl⟩ := Prod.mk.inj (Option.some.inj hPerform)
          exact h
        · cases hPerform
      · cases hPerform
  | waitSettled =>
      simp only [VipState.perform] at hPerform
      split at hPerform
      · obtain ⟨-, rfl⟩ := Prod.mk.inj (Option.some.inj hPerform)
        exact h
      · split at hPerform
        · obtain ⟨-, rfl⟩ := Prod.mk.inj (Option.some.inj hPerform)
          exact h
        · cases hPerform
  | _ =>
      obtain ⟨-, rfl⟩ := Prod.mk.inj (Option.some.inj hPerform)
      exact hSame rfl rfl

/-! ### Everybody else -/

/-- What everybody but the worker of a VIP can do to it. -/
structure Others (ip : IpAddr) (state after : VipState) : Prop where
  tracked : ∀ set, ip ∈ after.tracked set ↔ ip ∈ state.tracked set
  kept : ∀ (index : Nat) (child : Child), state.children[index]? = some child → child.command.address = ip →
    ∃ next : Child, after.children[index]? = some next ∧ child.Later next
  known : ∀ (index : Nat) (next : Child), after.children[index]? = some next → next.command.address = ip →
    ∃ child : Child, state.children[index]? = some child ∧ child.Later next
  attaches : after.attached ip = true → state.attached ip = true ∨
    ¬state.Spent (.replaceAddress ip)
  detaches : ∀ (index : Nat) (child next : Child), state.children[index]? = some child →
    after.children[index]? = some next → child.command = .deleteAddress ip →
    child.effect = false → next.effect = true → after.attached ip = false
  erases : after.marker ip = false → state.marker ip = false ∨
    ¬state.Reaped (.deleteMarker ip) none
  marks : ∀ (index : Nat) (child next : Child), state.children[index]? = some child →
    after.children[index]? = some next → child.command = .replaceMarker ip →
    child.effect = false → next.effect = true → after.marker ip = true

/-- A look at the children after one of them changed. -/
theorem children_replace {state after : VipState} {index : Nat} {child next : Child}
    (hChild : state.children[index]? = some child)
    (hChildren : after.children = state.children.set index next) (other : Nat) :
    after.children[other]? = if index = other then some next else state.children[other]? := by
  have hIndex := (List.getElem?_eq_some_iff.mp hChild).1
  rw [hChildren, List.getElem?_set]
  simp only [hIndex, if_true]

/-- A change of one child: what it does to the kernel is left to show. -/
theorem Others.of_replace {ip : IpAddr} {state after : VipState} {index : Nat} {child next : Child}
    (hChild : state.children[index]? = some child)
    (hChildren : after.children = state.children.set index next)
    (hCommand : next.command = child.command)
    (hLater : child.command.address = ip → child.Later next)
    (hTracked : after.tracked = state.tracked)
    (hAttaches : after.attached ip = true → state.attached ip = true ∨
      ¬state.Spent (.replaceAddress ip))
    (hErases : after.marker ip = false → state.marker ip = false ∨
      ¬state.Reaped (.deleteMarker ip) none)
    (hDetaches : child.command = .deleteAddress ip → child.effect = false → next.effect = true →
      after.attached ip = false)
    (hMarks : child.command = .replaceMarker ip → child.effect = false → next.effect = true →
      after.marker ip = true) :
    Others ip state after := by
  have hAt := children_replace hChild hChildren
  have hOnly : ∀ (other : Nat) (before later : Child), state.children[other]? = some before →
      after.children[other]? = some later → before.effect = false → later.effect = true →
      before = child ∧ later = next := by
    intro other before later hBefore hAfter hNot hNow
    rw [hAt] at hAfter
    split at hAfter
    · rename_i hSame
      subst hSame
      exact ⟨Option.some.inj (hBefore.symm.trans hChild), (Option.some.inj hAfter).symm⟩
    · obtain rfl := Option.some.inj (hAfter.symm.trans hBefore)
      exact absurd (hNot.symm.trans hNow) (by simp)
  refine ⟨fun set => by rw [hTracked], ?_, ?_, hAttaches, ?_, hErases, ?_⟩
  · intro other before hBefore hAddress
    rw [hAt]
    split
    · rename_i hSame
      subst hSame
      obtain rfl := Option.some.inj (hChild.symm.trans hBefore)
      exact ⟨next, rfl, hLater hAddress⟩
    · exact ⟨before, hBefore, .refl before⟩
  · intro other later hAfter hAddress
    rw [hAt] at hAfter
    split at hAfter
    · rename_i hSame
      subst hSame
      obtain rfl := Option.some.inj hAfter
      exact ⟨child, hChild, hLater (hCommand ▸ hAddress)⟩
    · exact ⟨later, hAfter, .refl later⟩
  · intro other before later hBefore hAfter hDelete hNot hNow
    obtain ⟨rfl, rfl⟩ := hOnly other before later hBefore hAfter hNot hNow
    exact hDetaches hDelete hNot hNow
  · intro other before later hBefore hAfter hReplace hNot hNow
    obtain ⟨rfl, rfl⟩ := hOnly other before later hBefore hAfter hNot hNow
    exact hMarks hReplace hNot hNow

theorem Others.refl (ip : IpAddr) (state : VipState) : Others ip state state where
  tracked _ := Iff.rfl
  kept _ child h _ := ⟨child, h, .refl child⟩
  known _ child h _ := ⟨child, h, .refl child⟩
  attaches := .inl
  detaches _ child next h h' _ hNot hNow := by
    obtain rfl := Option.some.inj (h.symm.trans h')
    exact absurd (hNot.symm.trans hNow) (by simp)
  erases := .inl
  marks _ child next h h' _ hNot hNow := by
    obtain rfl := Option.some.inj (h.symm.trans h')
    exact absurd (hNot.symm.trans hNow) (by simp)

theorem not_reaped {state : VipState} {index : Nat} {child : Child}
    (hChild : state.children[index]? = some child) (hReaped : child.reaped = false) :
    ¬state.Reaped child.command none := by
  intro hAll
  exact absurd (hReaped.symm.trans (hAll index child hChild (by simp) rfl)) (by simp)

theorem not_spent {state : VipState} {index : Nat} {child : Child}
    (hChild : state.children[index]? = some child) (hReaped : child.reaped = false)
    (hEffect : child.effect = false) : ¬state.Spent child.command := by
  intro hAll
  rcases hAll child (List.mem_of_getElem? hChild) rfl with hNow | hNow
  · exact absurd (hReaped.symm.trans hNow) (by simp)
  · exact absurd (hEffect.symm.trans hNow) (by simp)

theorem childEffect_others (ip : IpAddr) {state : VipState} (hGood : state.Good) (index : Nat) :
    Others ip state (state.childEffect index) := by
  rcases state.childEffect_cases index with hSame | ⟨child, hChild, hReaped, hEffect, hAfter⟩
  · rw [hSame]
    exact .refl ip state
  · rw [hAfter]
    have hUnreaped := not_reaped hChild hReaped
    have hUnspent := not_spent hChild hReaped hEffect
    have hSound := hGood.sound child (List.mem_of_getElem? hChild)
    apply Others.of_replace hChild rfl
    · rfl
    · intro _
      exact ⟨rfl, fun _ => rfl, fun h => absurd (hReaped.symm.trans h) (by simp),
        fun h => ⟨h, rfl, rfl⟩, fun h => h, fun h => h⟩
    · cases child.command <;> rfl
    · cases hCommand : child.command with
      | replaceAddress other =>
          rw [hCommand] at hUnspent
          by_cases hIp : ip = other
          · subst hIp
            exact fun _ => .inr hUnspent
          · simp only [takeEffect, Function.update_of_ne hIp]
            exact .inl
      | deleteAddress other =>
          by_cases hIp : ip = other
          · subst hIp
            simp [takeEffect]
          · simp only [takeEffect, Function.update_of_ne hIp]
            exact .inl
      | _ => exact .inl
    · cases hCommand : child.command with
      | deleteMarker other =>
          rw [hCommand] at hUnreaped
          by_cases hIp : ip = other
          · subst hIp
            exact fun _ => .inr hUnreaped
          · simp only [takeEffect, Function.update_of_ne hIp]
            exact .inl
      | replaceMarker other =>
          by_cases hIp : ip = other
          · subst hIp
            simp [takeEffect]
          · simp only [takeEffect, Function.update_of_ne hIp]
            exact .inl
      | _ => exact .inl
    · intro hCommand _ _
      simp [hCommand, takeEffect]
    · intro hCommand _ _
      simp [hCommand, takeEffect]

theorem finish_others (ip : IpAddr) {state : VipState} (hGood : state.Good) (index : Nat)
    (result : CommandResult) (reaped : Bool) :
    Others ip state (state.finish index result reaped) := by
  rcases state.finish_cases index result reaped with hSame | ⟨child, hChild, hPhase, -, -, hAfter⟩
  · rw [hSame]
    exact .refl ip state
  · rw [hAfter]
    have hSound := hGood.sound child (List.mem_of_getElem? hChild)
    apply Others.of_replace hChild rfl
    · rfl
    · intro _
      exact ⟨rfl, fun h => h, fun h => absurd (hSound.reaped h) hPhase,
        fun h => absurd h hPhase, fun _ => by simp, fun _ => by simp⟩
    · rfl
    · exact .inl
    · exact .inl
    · exact fun _ hNot hNow => absurd (hNot.symm.trans hNow) (by simp)
    · exact fun _ hNot hNow => absurd (hNot.symm.trans hNow) (by simp)

/-- Another worker stops waiting for its command. -/
theorem drop_others {ip : IpAddr} (state : VipState) {op : VipOp} (hOp : op.address ≠ some ip) :
    Others ip state (state.drop op) := by
  cases op with
  | wait command index =>
      simp only [drop]
      split
      · rename_i hCommand
        rcases state.abandon_cases index with ⟨hSame, -⟩ | ⟨child, hChild, hPhase, hAfter⟩
        · rw [hSame]
          exact .refl ip state
        · rw [hAfter]
          rw [hChild, Option.map_some] at hCommand
          obtain rfl := Option.some.inj hCommand
          apply Others.of_replace hChild rfl
          · rfl
          · exact fun hAddress => absurd (congrArg some hAddress) hOp
          · rfl
          · exact .inl
          · exact .inl
          · exact fun _ hNot hNow => absurd (hNot.symm.trans hNow) (by simp)
          · exact fun _ hNot hNow => absurd (hNot.symm.trans hNow) (by simp)
      · exact .refl ip state
  | _ => exact .refl ip state

theorem getElem?_append_some {children : List Child} {index : Nat} {child new : Child}
    (h : children[index]? = some child) : (children ++ [new])[index]? = some child := by
  rw [List.getElem?_append_left (List.getElem?_eq_some_iff.mp h).1, h]

/-- Another worker performs an operation. -/
theorem perform_others {ip : IpAddr} {state after : VipState} {op : VipOp} {choice : Nat}
    {answer : op.Answer} (hOp : op.address ≠ some ip)
    (h : state.perform op choice = some (answer, after)) : Others ip state after := by
  have hTracked : ∀ tracked : TrackedSet → Finset IpAddr,
      (∀ set, ip ∈ tracked set ↔ ip ∈ state.tracked set) →
      Others ip state { state with tracked := tracked } := by
    intro tracked hSame
    exact { Others.refl ip state with tracked := hSame }
  cases op with
  | insert set other =>
      obtain ⟨-, rfl⟩ := Prod.mk.inj (Option.some.inj h)
      apply hTracked
      intro kind
      have hNe : ip ≠ other := fun hSame => hOp (by rw [hSame]; rfl)
      by_cases hKind : kind = set
      · subst hKind
        simp [hNe]
      · simp [hKind]
  | remove set other =>
      obtain ⟨-, rfl⟩ := Prod.mk.inj (Option.some.inj h)
      apply hTracked
      intro kind
      have hNe : ip ≠ other := fun hSame => hOp (by rw [hSame]; rfl)
      by_cases hKind : kind = set
      · subst hKind
        simp [hNe]
      · simp [hKind]
  | spawn command =>
      simp only [perform] at h
      split at h
      · obtain ⟨-, rfl⟩ := Prod.mk.inj (Option.some.inj h)
        exact .refl ip state
      · obtain ⟨-, rfl⟩ := Prod.mk.inj (Option.some.inj h)
        have hNe : command.address ≠ ip := fun hSame => hOp (congrArg some hSame)
        refine { Others.refl ip state with kept := ?_, known := ?_, detaches := ?_, marks := ?_ }
        · intro index child hChild _
          exact ⟨child, getElem?_append_some hChild, .refl child⟩
        · intro index child hChild hAddress
          rcases Runs.getElem?_concat hChild with hOld | ⟨-, rfl⟩
          · exact ⟨child, hOld, .refl child⟩
          · exact absurd hAddress hNe
        · intro index child next hChild hNext _ hNot hNow
          obtain rfl := Option.some.inj ((getElem?_append_some hChild).symm.trans hNext)
          exact absurd (hNot.symm.trans hNow) (by simp)
        · intro index child next hChild hNext _ hNot hNow
          obtain rfl := Option.some.inj ((getElem?_append_some hChild).symm.trans hNext)
          exact absurd (hNot.symm.trans hNow) (by simp)
  | wait command index =>
      simp only [perform] at h
      split at h
      · split at h
        · obtain ⟨-, rfl⟩ := Prod.mk.inj (Option.some.inj h)
          exact .refl ip state
        · cases h
      · cases h
  | waitSettled =>
      simp only [perform] at h
      split at h
      · obtain ⟨-, rfl⟩ := Prod.mk.inj (Option.some.inj h)
        exact .refl ip state
      · split at h
        · obtain ⟨-, rfl⟩ := Prod.mk.inj (Option.some.inj h)
          exact .refl ip state
        · cases h
  | _ =>
      obtain ⟨-, rfl⟩ := Prod.mk.inj (Option.some.inj h)
      exact .refl ip state

/-! ### What they leave alone -/

section

variable {ip : IpAddr} {state after : VipState} {exempt : Option Nat} {command : VipCommand}

theorem Others.untracked {set : TrackedSet} (h : Others ip state after)
    (hOut : ip ∉ state.tracked set) : ip ∉ after.tracked set :=
  fun hIn => hOut ((h.tracked set).mp hIn)

theorem Others.reaped (h : Others ip state after) (hAddress : command.address = ip)
    (hReaped : state.Reaped command exempt) : after.Reaped command exempt := by
  intro index next hNext hExempt hCommand
  obtain ⟨child, hChild, hLater⟩ := h.known index next hNext (hCommand ▸ hAddress)
  have hChildReaped := hReaped index child hChild hExempt (hLater.command.symm.trans hCommand)
  rw [hLater.settled hChildReaped]
  exact hChildReaped

theorem Others.quiet (h : Others ip state after) (hQuiet : state.Quiet ip exempt) :
    after.Quiet ip exempt := by
  intro index next hNext hExempt hAddress
  obtain ⟨child, hChild, hLater⟩ := h.known index next hNext hAddress
  exact hLater.waited (hQuiet index child hChild hExempt (hLater.command ▸ hAddress))

theorem Reaped.spent (h : state.Reaped command none) : state.Spent command := by
  intro child hChild hCommand
  obtain ⟨index, hIndex⟩ := List.mem_iff_getElem?.mp hChild
  exact .inl (h index child hIndex (by simp) hCommand)

theorem Others.spent (h : Others ip state after) (hAddress : command.address = ip)
    (hSpent : state.Spent command) : after.Spent command := by
  intro next hNext hCommand
  obtain ⟨index, hIndex⟩ := List.mem_iff_getElem?.mp hNext
  obtain ⟨child, hChild, hLater⟩ := h.known index next hIndex (hCommand ▸ hAddress)
  rcases hSpent child (List.mem_of_getElem? hChild) (hLater.command.symm.trans hCommand) with
    hReaped | hEffect
  · rw [hLater.settled hReaped]
    exact .inl hReaped
  · exact .inr (hLater.effect hEffect)

theorem Others.detached (h : Others ip state after) (hAttached : state.attached ip = false)
    (hWriters : state.Spent (.replaceAddress ip)) : after.attached ip = false := by
  rw [← Bool.not_eq_true] at hAttached ⊢
  intro hNow
  rcases h.attaches hNow with hBefore | hWriter
  · exact hAttached hBefore
  · exact hWriter hWriters

theorem Others.absent (h : Others ip state after) (hAbsent : state.Absent ip) : after.Absent ip :=
  ⟨h.detached hAbsent.1 hAbsent.2.spent, h.reaped rfl hAbsent.2⟩

theorem Others.gone (h : Others ip state after) (hGone : state.Gone ip) : after.Gone ip :=
  ⟨h.detached hGone.1 hGone.2, h.spent rfl hGone.2⟩

/-- Nothing that is left can attach an absent VIP. -/
theorem Absent.no_writer (h : state.Absent ip) :
    ∀ child ∈ state.children, child.reaped = false → child.command ≠ .replaceAddress ip := by
  intro child hChild hReaped hCommand
  obtain ⟨index, hIndex⟩ := List.mem_iff_getElem?.mp hChild
  exact absurd (hReaped.symm.trans (h.2 index child hIndex (by simp) hCommand)) (by simp)

theorem Others.marked (h : Others ip state after) (hMarked : state.Marked ip) :
    after.Marked ip := by
  refine ⟨?_, h.reaped rfl hMarked.2⟩
  rw [← Bool.not_eq_false]
  intro hNow
  rcases h.erases hNow with hBefore | hEraser
  · exact absurd (hBefore.symm.trans hMarked.1) (by simp)
  · exact hEraser hMarked.2

theorem Others.lost (h : Others ip state after) (hLost : state.Lost ip) : after.Lost ip := by
  obtain ⟨index, child, hChild, hAddress, hFinished, hReaped⟩ := hLost
  obtain ⟨next, hNext, hLater⟩ := h.kept index child hChild hAddress
  obtain ⟨hFinished', hReaped', -⟩ := hLater.finished hFinished
  exact ⟨index, next, hNext, hLater.command ▸ hAddress, hFinished', hReaped'.trans hReaped⟩

theorem Others.running {index : Nat} {property : VipState → Prop} (h : Others ip state after)
    (hAddress : command.address = ip) (hKeeps : property state → property after)
    (hReaches : ∀ child next : Child, state.children[index]? = some child →
      after.children[index]? = some next → child.command = command → child.effect = false →
      next.effect = true → property after)
    (hRunning : state.Running command index property) : after.Running command index property := by
  obtain ⟨child, hChild, hCommand, hEffect⟩ := hRunning
  obtain ⟨next, hNext, hLater⟩ := h.kept index child hChild (hCommand ▸ hAddress)
  refine ⟨next, hNext, hLater.command.trans hCommand, fun hNow => ?_⟩
  cases hBefore : child.effect with
  | true => exact hKeeps (hEffect hBefore)
  | false => exact hReaches child next hChild hNext hCommand hBefore hNow

/-! ### What its own worker does -/

/-- A settled tracker leaves no command of a quiet VIP. -/
theorem Good.all_reaped (h : state.Good) (hSettled : state.tracker.isSettled = true)
    (hQuiet : state.Quiet ip none) (hAddress : command.address = ip) :
    state.Reaped command none := by
  intro index child hChild hExempt hCommand
  have hIn := List.mem_of_getElem? hChild
  have hZero : state.children.countP Child.counted = 0 := by
    rw [← h.counted]
    exact beq_iff_eq.mp hSettled
  have hCounted := List.countP_eq_zero.mp hZero child hIn
  have hPhase := hQuiet index child hChild hExempt (hCommand ▸ hAddress)
  simp only [Child.counted, decide_eq_true_eq, not_or, not_and, Bool.not_eq_false] at hCounted
  apply hCounted.2
  cases hCase : child.phase with
  | waitedFor => exact absurd hCase hPhase
  | abandoned => exact absurd hCase hCounted.1
  | finished => rfl

/-- A lost command keeps the tracker unsettled. -/
theorem Good.not_lost (h : state.Good) (hSettled : state.tracker.isSettled = true) :
    ¬state.Lost ip := by
  rintro ⟨index, child, hChild, -, hFinished, hReaped⟩
  have hZero : state.children.countP Child.counted = 0 := by
    rw [← h.counted]
    exact beq_iff_eq.mp hSettled
  apply List.countP_eq_zero.mp hZero child (List.mem_of_getElem? hChild)
  simp [Child.counted, hFinished, hReaped]

/-- The state after a spawn. -/
def spawned (state : VipState) (command : VipCommand) : VipState :=
  { state with children := state.children ++ [⟨command, .waitedFor, false, false, .failed⟩] }

theorem Reaped.spawned (h : state.Reaped command none) (other : VipCommand) :
    (state.spawned other).Reaped command (some state.children.length) := by
  intro index child hChild hExempt hCommand
  rcases Runs.getElem?_concat hChild with hOld | ⟨rfl, -⟩
  · exact h index child hOld (by simp) hCommand
  · exact absurd rfl hExempt

theorem Reaped.spawned_of_ne {other : VipCommand} (h : state.Reaped command exempt)
    (hNe : other ≠ command) : (state.spawned other).Reaped command exempt := by
  intro index child hChild hExempt hCommand
  rcases Runs.getElem?_concat hChild with hOld | ⟨-, rfl⟩
  · exact h index child hOld hExempt hCommand
  · exact absurd hCommand hNe

theorem Absent.spawned_of_ne {other : VipCommand} (h : state.Absent ip)
    (hNe : other ≠ .replaceAddress ip) : (state.spawned other).Absent ip :=
  ⟨h.1, h.2.spawned_of_ne hNe⟩

theorem Spent.spawned_of_ne {other : VipCommand} (h : state.Spent command)
    (hNe : other ≠ command) : (state.spawned other).Spent command := by
  intro child hChild hCommand
  rcases List.mem_append.mp hChild with hOld | hNew
  · exact h child hOld hCommand
  · rw [List.mem_singleton.mp hNew] at hCommand
    exact absurd hCommand hNe

theorem Gone.spawned_of_ne {other : VipCommand} (h : state.Gone ip)
    (hNe : other ≠ .replaceAddress ip) : (state.spawned other).Gone ip :=
  ⟨h.1, h.2.spawned_of_ne hNe⟩

theorem Quiet.spawned (h : state.Quiet ip none) (command : VipCommand) :
    (state.spawned command).Quiet ip (some state.children.length) := by
  intro index child hChild hExempt hAddress
  rcases Runs.getElem?_concat hChild with hOld | ⟨rfl, -⟩
  · exact h index child hOld (by simp) hAddress
  · exact absurd rfl hExempt

theorem running_spawned (state : VipState) (command : VipCommand) (property : VipState → Prop) :
    (state.spawned command).Running command state.children.length property :=
  ⟨_, List.getElem?_concat_length, rfl, fun h => absurd h (by simp)⟩

theorem Quiet.finished {index : Nat} {child : Child} (h : state.Quiet ip (some index))
    (hChild : state.children[index]? = some child) (hFinished : child.phase = .finished) :
    state.Quiet ip none := by
  intro other next hNext _ hAddress
  by_cases hSame : other = index
  · subst hSame
    obtain rfl := Option.some.inj (hChild.symm.trans hNext)
    rw [hFinished]
    simp
  · exact h other next hNext (fun hSome => hSame (Option.some.inj hSome)) hAddress

theorem Reaped.finished {index : Nat} {child : Child} (h : state.Reaped command (some index))
    (hChild : state.children[index]? = some child) (hReaped : child.reaped = true) :
    state.Reaped command none := by
  intro other next hNext _ hCommand
  by_cases hSame : other = index
  · subst hSame
    obtain rfl := Option.some.inj (hChild.symm.trans hNext)
    exact hReaped
  · exact h other next hNext (fun hSome => hSame (Option.some.inj hSome)) hCommand

theorem reaped_of_not_lost {index : Nat} {child : Child} (h : ¬state.Lost child.command.address)
    (hChild : state.children[index]? = some child) (hFinished : child.phase = .finished) :
    child.reaped = true := by
  rw [← Bool.not_eq_false]
  intro hReaped
  exact h ⟨index, child, hChild, rfl, hFinished, hReaped⟩

/-- A child after the waiter of some child was dropped. -/
theorem abandon_children {index other : Nat} {child : Child}
    (h : (state.abandon index).children[other]? = some child) :
    ∃ before, state.children[other]? = some before ∧ child.command = before.command ∧
      child.reaped = before.reaped ∧ child.effect = before.effect ∧
      (index = other ∨ before.phase ≠ .waitedFor → child.phase ≠ .waitedFor) := by
  rcases state.abandon_cases index with ⟨hSame, hPhase⟩ | ⟨dropped, hDropped, hPhase, hAfter⟩
  · rw [hSame] at h
    refine ⟨child, h, rfl, rfl, rfl, ?_⟩
    rintro (rfl | hWaited)
    · exact hPhase child h
    · exact hWaited
  · rw [hAfter, children_replace hDropped rfl] at h
    split at h
    · rename_i hIndex
      subst hIndex
      obtain rfl := Option.some.inj h
      exact ⟨dropped, hDropped, rfl, rfl, rfl, fun _ => by simp⟩
    · exact ⟨child, h, rfl, rfl, rfl, fun hOr => hOr.resolve_left ‹_›⟩

@[simp] theorem drop_attached (state : VipState) (op : VipOp) :
    (state.drop op).attached = state.attached := by
  cases op <;> simp only [drop]
  unfold abandon
  split <;> (try split) <;> (try split) <;> rfl

@[simp] theorem drop_marker (state : VipState) (op : VipOp) :
    (state.drop op).marker = state.marker := by
  cases op <;> simp only [drop]
  unfold abandon
  split <;> (try split) <;> (try split) <;> rfl

@[simp] theorem drop_tracked (state : VipState) (op : VipOp) :
    (state.drop op).tracked = state.tracked := by
  cases op <;> simp only [drop]
  unfold abandon
  split <;> (try split) <;> (try split) <;> rfl

/-- Dropping reaps nothing and spawns nothing. -/
theorem Reaped.drop (h : state.Reaped command exempt) (op : VipOp) :
    (state.drop op).Reaped command exempt := by
  cases op with
  | wait other index =>
      simp only [VipState.drop]
      split
      · intro position child hChild hExempt hCommand
        obtain ⟨before, hBefore, hSame, hReaped, -⟩ := abandon_children hChild
        rw [hReaped]
        exact h position before hBefore hExempt (hSame.symm.trans hCommand)
      · exact h
  | _ => exact h

theorem Absent.drop (h : state.Absent ip) (op : VipOp) : (state.drop op).Absent ip :=
  ⟨by rw [drop_attached]; exact h.1, h.2.drop op⟩

theorem Gone.drop (h : state.Gone ip) (op : VipOp) : (state.drop op).Gone ip := by
  refine ⟨by rw [drop_attached]; exact h.1, ?_⟩
  cases op with
  | wait other index =>
      simp only [VipState.drop]
      split
      · intro child hChild hCommand
        obtain ⟨position, hPosition⟩ := List.mem_iff_getElem?.mp hChild
        obtain ⟨before, hBefore, hSame, hReaped, hEffect, -⟩ := abandon_children hPosition
        rw [hReaped, hEffect]
        exact h.2 before (List.mem_of_getElem? hBefore) (hSame.symm.trans hCommand)
      · exact h.2
  | _ => exact h.2

/-- A worker that is dropped waits for nothing. -/
theorem Quiet.drop {index : Nat} {property : VipState → Prop} (h : state.Quiet ip (some index))
    (hRunning : state.Running command index property) :
    (state.drop (.wait command index)).Quiet ip none := by
  obtain ⟨child, hChild, hCommand, -⟩ := hRunning
  simp only [VipState.drop, hChild, Option.map_some, hCommand, if_true]
  intro position after hAfter _ hAddress
  obtain ⟨before, hBefore, hSame, -, -, hPhase⟩ := abandon_children hAfter
  apply hPhase
  by_cases hIndex : index = position
  · exact .inl hIndex
  · right
    exact h position before hBefore (fun hSome => hIndex (Option.some.inj hSome).symm)
      (hSame ▸ hAddress)

end

end VipState

end KeepAfloat
