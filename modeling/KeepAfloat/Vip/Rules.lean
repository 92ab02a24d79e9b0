import KeepAfloat.Vip.Interference

/-! Rules for the operations of the worker of one VIP, under any contract that lets
everybody else do no more than `Others`. -/

namespace KeepAfloat

open Async

/-- The operation publishes a release. -/
def VipOp.submits : VipOp → Bool
  | submitRelease _ => true
  | _ => false

/-- Whether a bind answers that it is completed. -/
def LocalVip.completed : Except EffectError (Option Bool) → Bool
  | .ok (some _) => true
  | _ => false

/-- A contract of programs that work on one VIP. -/
structure WorksOn (ip : IpAddr) {machine : Machine VipOp VipOp.Answer VipState}
    (contract : Contract machine) : Prop where
  does : ∀ {state : VipState} {op : VipOp} {answer : op.Answer} {after : VipState},
    machine.does state op answer after → ∃ choice, state.perform op choice = some (answer, after)
  drop : machine.drop = VipState.drop
  rely : ∀ {state after : VipState}, contract.rely state after → VipState.Others ip state after
  good : ∀ {state : VipState}, contract.good state → state.Good
  demand : ∀ {state : VipState} {op : VipOp}, op.submits = false → contract.demand state op

namespace WorksOn

variable {ip : IpAddr} {machine : Machine VipOp VipOp.Answer VipState} {contract : Contract machine}

/-- What `Others` leave alone is stable. -/
theorem stable (works : WorksOn ip contract) {property : VipState → Prop}
    (h : ∀ {state after : VipState}, VipState.Others ip state after → property state →
      property after) : contract.Stable property :=
  fun _ _ _ _ hRely => h (works.rely hRely)

theorem running_stable (works : WorksOn ip contract) {command : VipCommand} {index : Nat}
    (hAddress : command.address = ip) :
    contract.Stable (VipState.Running command index fun _ => True) :=
  works.stable fun hOthers => hOthers.running hAddress (fun _ => trivial)
    fun _ _ _ _ _ _ _ => trivial

theorem reaped_stable (works : WorksOn ip contract) : contract.Stable fun state =>
    ∀ command : VipCommand, command.address = ip → state.Reaped command none :=
  works.stable fun hOthers hAll command hAddress => hOthers.reaped hAddress (hAll command hAddress)

variable {pre : VipState → Prop}

section

variable (works : WorksOn ip contract) (hPre : contract.Stable pre)
  (hLeave : ∀ state, contract.good state → pre state → contract.leave state)

include works hPre hLeave

/-- An operation that dropping does not disturb. -/
theorem operation {op : VipOp} (hSubmits : op.submits = false)
    (hDrop : ∀ state : VipState, state.drop op = state)
    {post : op.Answer → VipState → Prop} (hPost : ∀ answer, contract.Stable (post answer))
    (hDoes : ∀ (state : VipState) (choice : Nat) (answer : op.Answer) (after : VipState),
      contract.good state → pre state → machine.does state op answer after →
      state.perform op choice = some (answer, after) → post answer after) :
    contract.Triple pre (Vip.perform op) post := by
  apply Contract.Triple.perform hPre hPost
  · intro state hGood hState
    refine ⟨works.demand hSubmits, ?_⟩
    rw [works.drop, hDrop]
    exact hLeave state hGood hState
  · intro state answer after hGood _ hState hStep
    obtain ⟨choice, hPerform⟩ := works.does hStep
    exact hDoes state choice answer after hGood hState hStep hPerform

/-- An operation that changes nothing, whatever the environment chooses. -/
theorem look {op : VipOp} (hSubmits : op.submits = false)
    (hDrop : ∀ state : VipState, state.drop op = state) (found : VipState → Nat → op.Answer)
    (hLook : ∀ (state : VipState) (choice : Nat),
      state.perform op choice = some (found state choice, state)) :
    contract.Triple pre (Vip.perform op) fun _ => pre := by
  apply works.operation hPre hLeave hSubmits hDrop (fun _ => hPre)
  intro state choice answer after _ hState _ hPerform
  rw [hLook] at hPerform
  obtain ⟨-, rfl⟩ := Prod.mk.inj (Option.some.inj hPerform)
  exact hState

theorem authorized : contract.Triple pre Vip.authorized fun _ => pre :=
  works.look hPre hLeave rfl (fun _ => rfl) _ fun _ _ => rfl

theorem contention : contract.Triple pre (Vip.perform .contention) fun _ => pre :=
  works.look hPre hLeave rfl (fun _ => rfl) _ fun _ _ => rfl

theorem contains (set : TrackedSet) :
    contract.Triple pre (Vip.contains set ip) fun found state =>
      pre state ∧ (found = true ↔ ip ∈ state.tracked set) := by
  apply works.operation hPre hLeave rfl (fun _ => rfl)
  · intro found
    refine hPre.and (works.stable ?_)
    intro state after hOthers hFound
    exact hFound.trans (hOthers.tracked set).symm
  · intro state choice answer after _ hState _ hPerform
    obtain ⟨rfl, rfl⟩ := Prod.mk.inj (Option.some.inj hPerform)
    exact ⟨hState, decide_eq_true_iff⟩

theorem insert (set : TrackedSet) {post : VipState → Prop} (hPost : contract.Stable post)
    (h : ∀ state, contract.good state → pre state → post { state with
      tracked := Function.update state.tracked set (Insert.insert ip (state.tracked set)) }) :
    contract.Triple pre (Vip.insert set ip) fun _ => post := by
  apply works.operation hPre hLeave rfl (fun _ => rfl) (fun _ => hPost)
  intro state choice answer after hGood hState _ hPerform
  obtain ⟨-, rfl⟩ := Prod.mk.inj (Option.some.inj hPerform)
  exact h state hGood hState

theorem remove (set : TrackedSet) {post : VipState → Prop} (hPost : contract.Stable post)
    (h : ∀ state, contract.good state → pre state → post { state with
      tracked := Function.update state.tracked set ((state.tracked set).erase ip) }) :
    contract.Triple pre (Vip.remove set ip) fun _ => post := by
  apply works.operation hPre hLeave rfl (fun _ => rfl) (fun _ => hPost)
  intro state choice answer after hGood hState _ hPerform
  obtain ⟨-, rfl⟩ := Prod.mk.inj (Option.some.inj hPerform)
  exact h state hGood hState

/-- A settled tracker proves every command of the VIP reaped. -/
theorem settled (hQuiet : ∀ state, pre state → state.Quiet ip none) :
    contract.Triple pre Vip.settled fun settled state =>
      pre state ∧ (settled = true →
        ∀ command : VipCommand, command.address = ip → state.Reaped command none) := by
  apply works.operation hPre hLeave rfl (fun _ => rfl) fun _ => hPre.and (.imp _ works.reaped_stable)
  intro state choice answer after hGood hState _ hPerform
  obtain ⟨rfl, rfl⟩ := Prod.mk.inj (Option.some.inj hPerform)
  exact ⟨hState, fun hSettled _ => (works.good hGood).all_reaped hSettled (hQuiet _ hState)⟩

theorem waitSettled (hQuiet : ∀ state, pre state → state.Quiet ip none) :
    contract.Triple pre (Vip.perform .waitSettled) fun settled state =>
      pre state ∧ (settled = true →
        ∀ command : VipCommand, command.address = ip → state.Reaped command none) := by
  apply works.operation hPre hLeave rfl (fun _ => rfl) fun _ => hPre.and (.imp _ works.reaped_stable)
  intro state choice answer after hGood hState _ hPerform
  simp only [VipState.perform] at hPerform
  split at hPerform
  · obtain ⟨rfl, rfl⟩ := Prod.mk.inj (Option.some.inj hPerform)
    exact ⟨hState, fun hFalse => absurd hFalse Bool.false_ne_true⟩
  · split at hPerform
    · rename_i hSettled
      obtain ⟨rfl, rfl⟩ := Prod.mk.inj (Option.some.inj hPerform)
      exact ⟨hState, fun _ _ => (works.good hGood).all_reaped hSettled (hQuiet _ hState)⟩
    · cases hPerform

theorem probeMarker : contract.Triple pre (Vip.perform (.probeMarker ip)) fun _ => pre :=
  works.look hPre hLeave rfl (fun _ => rfl) _ fun _ _ => rfl

/-- A probe that finds nothing tells what an address shows that is not attached. -/
theorem probeAddress {post : VipState → Prop} (hPost : contract.Stable post)
    (hFound : ∀ state after, contract.good state → pre state →
      machine.does state (.probeAddress ip) (some false) after → state.attached ip = false →
      post state) :
    contract.Triple pre (Vip.perform (.probeAddress ip)) fun found state =>
      pre state ∧ (found = some false → post state) := by
  apply works.operation hPre hLeave rfl (fun _ => rfl) fun _ => hPre.and (.imp _ hPost)
  intro state choice answer after hGood hState hStep hPerform
  obtain ⟨rfl, rfl⟩ := Prod.mk.inj (Option.some.inj hPerform)
  refine ⟨hState, fun hNone => ?_⟩
  rw [hNone] at hStep
  split at hNone
  · cases hNone
  · exact hFound state state hGood hState hStep (Option.some.inj hNone)

end

/-- A command is spawned and waited for. -/
theorem status (works : WorksOn ip contract) {command : VipCommand}
    (running : Nat → VipState → Prop) {post : CommandResult → VipState → Prop}
    (hPre : contract.Stable pre) (hRunning : ∀ index, contract.Stable (running index))
    (hPost : ∀ result, contract.Stable (post result))
    (hLeave : ∀ state, contract.good state → pre state → contract.leave state)
    (hSpawn : ∀ state : VipState, contract.good state → pre state →
      machine.does state (.spawn command) (some state.children.length) (state.spawned command) →
      running state.children.length (state.spawned command))
    (hDrop : ∀ (index : Nat) (state : VipState), contract.good state → running index state →
      contract.leave (state.drop (.wait command index)))
    (hFailed : ∀ state, contract.good state → pre state → post .failed state)
    (hDone : ∀ (index : Nat) (state : VipState) (child : Child), contract.good state →
      running index state → state.children[index]? = some child → child.command = command →
      child.phase = .finished → post child.result state) :
    contract.Triple pre (Vip.status command) post := by
  have hEither : ∀ child : Option Nat, contract.Stable
      (child.elim (post .failed) running) := by
    intro child
    cases child with
    | none => exact hPost .failed
    | some index => exact hRunning index
  apply Contract.Triple.bind
    (works.operation hPre hLeave rfl (fun _ => rfl) hEither ?_) ?_
  · intro state choice answer after hGood hState hStep hPerform
    simp only [VipState.perform] at hPerform
    split at hPerform
    · obtain ⟨rfl, rfl⟩ := Prod.mk.inj (Option.some.inj hPerform)
      exact hFailed state hGood hState
    · obtain ⟨rfl, rfl⟩ := Prod.mk.inj (Option.some.inj hPerform)
      exact hSpawn state hGood hState hStep
  · intro child
    cases child with
    | none =>
        exact Contract.Triple.keep (hPost .failed)
    | some index =>
        apply Contract.Triple.perform (hRunning index) hPost
        · intro state hGood hState
          refine ⟨works.demand rfl, ?_⟩
          rw [works.drop]
          exact hDrop index state hGood hState
        · intro state result after hGood _ hState hStep
          obtain ⟨choice, hPerform⟩ := works.does hStep
          simp only [VipState.perform] at hPerform
          split at hPerform
          · rename_i child hChild
            split at hPerform
            · rename_i hFinished
              obtain ⟨rfl, rfl⟩ := Prod.mk.inj (Option.some.inj hPerform)
              exact hDone index state child hGood hState hChild hFinished.1 hFinished.2
            · cases hPerform
          · cases hPerform

end WorksOn

end KeepAfloat
