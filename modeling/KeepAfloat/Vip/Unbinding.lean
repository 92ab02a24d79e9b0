import KeepAfloat.Vip.Binding
import KeepAfloat.Vip.Footprint

/-! Cleanup of the VIP, as long as none of its commands is lost: what it reports as
removed is absent, provided that no killed writer was left when it began; otherwise
the address stays tracked for another cleanup. -/

namespace KeepAfloat

open Async

namespace VipState

/-- A cleanup runs. `settled` says that it began without writers, `gone` that the
address is known to be absent by now. -/
structure Unbinding (dryRun settled gone : Bool) (ip : IpAddr) (waiting : Option Nat)
    (state : VipState) : Prop where
  quiet : state.Quiet ip waiting
  covered : state.Covered ip
  dry : dryRun = true → state.Absent ip
  writers : settled = true → state.Reaped (.replaceAddress ip) none
  absent : gone = true → state.Absent ip

/-- What a successful cleanup proves. -/
structure Unbound (settled : Bool) (ip : IpAddr) (state : VipState) : Prop where
  clean : ip ∉ state.tracked .needsRecleanup → state.Absent ip
  settled : settled = true → state.Absent ip

section

variable {dryRun settled gone : Bool} {ip : IpAddr} {waiting : Option Nat}
variable {state after : VipState}

theorem Others.unbinding (h : Others ip state after)
    (hState : state.Unbinding dryRun settled gone ip waiting) :
    after.Unbinding dryRun settled gone ip waiting where
  quiet := h.quiet hState.quiet
  covered := h.covered hState.covered
  dry hDry := h.absent (hState.dry hDry)
  writers hSettled := h.reaped rfl (hState.writers hSettled)
  absent hGone := h.absent (hState.absent hGone)

theorem Others.unbound (h : Others ip state after) (hState : state.Unbound settled ip) :
    after.Unbound settled ip where
  clean hOut := h.absent (hState.clean fun hIn => hOut ((h.tracked _).mpr hIn))
  settled hSettled := h.absent (hState.settled hSettled)

theorem Unbinding.left (h : state.Unbinding dryRun settled gone ip none) :
    state.Left dryRun ip :=
  ⟨h.quiet, h.covered, h.dry⟩

theorem Unbinding.weaken {less : Bool} (h : state.Unbinding dryRun settled gone ip waiting)
    (hLess : less = true → gone = true) : state.Unbinding dryRun settled less ip waiting :=
  { h with absent := fun hGone => h.absent (hLess hGone) }

theorem Unbinding.ask {asked : Bool} (h : state.Unbinding dryRun (settled || asked) gone ip waiting) :
    state.Unbinding dryRun settled gone ip waiting :=
  { h with writers := fun hSettled => h.writers (by simp [hSettled]) }

theorem Unbound.ask {asked : Bool} (h : state.Unbound (settled || asked) ip) :
    state.Unbound settled ip :=
  { h with settled := fun hSettled => h.settled (by simp [hSettled]) }

theorem Unbinding.drop {command : VipCommand} {index : Nat} {property : VipState → Prop}
    (h : state.Unbinding dryRun settled gone ip (some index))
    (hRunning : state.Running command index property) :
    (state.drop (.wait command index)).Left dryRun ip := by
  refine ⟨h.quiet.drop hRunning, ?_, fun hDry => (h.dry hDry).drop _⟩
  simp only [Covered, drop_tracked]
  exact h.covered.imp_left fun hAbsent => hAbsent.drop _

theorem Unbinding.spawned {command : VipCommand}
    (h : state.Unbinding dryRun settled gone ip none) (hOther : command ≠ .replaceAddress ip) :
    (state.spawned command).Unbinding dryRun settled gone ip (some state.children.length) where
  quiet := h.quiet.spawned command
  covered := h.covered.imp_left fun hAbsent => hAbsent.spawned_of_ne hOther
  dry hDry := (h.dry hDry).spawned_of_ne hOther
  writers hSettled := (h.writers hSettled).spawned_of_ne hOther
  absent hGone := (h.absent hGone).spawned_of_ne hOther

theorem Unbinding.finished {index : Nat} {child : Child}
    (h : state.Unbinding dryRun settled gone ip (some index))
    (hChild : state.children[index]? = some child) (hFinished : child.phase = .finished) :
    state.Unbinding dryRun settled gone ip none :=
  { h with quiet := h.quiet.finished hChild hFinished }

end

end VipState

namespace LocalVip

open VipState

section

variable {machine : Machine VipOp VipOp.Answer VipState} {contract : Contract machine} {ip : IpAddr}
variable {dryRun settled gone : Bool}
variable (works : WorksOn ip contract)
  (hLeave : ∀ state, state.Left dryRun ip → contract.leave state)

theorem unbinding_stable {waiting : Option Nat} (works : WorksOn ip contract) :
    contract.Stable (Unbinding dryRun settled gone ip waiting) :=
  works.stable Others.unbinding

include works hLeave

/-- A command that attaches nothing. -/
theorem status_unbinding {command : VipCommand} (hAddress : command.address = ip)
    (hOther : command ≠ .replaceAddress ip) :
    contract.Triple (Unbinding dryRun settled gone ip none) (Vip.status command)
      fun _ => Unbinding dryRun settled gone ip none := by
  apply works.status fun index state =>
    state.Unbinding dryRun settled gone ip (some index) ∧ state.Running command index fun _ => True
  · exact unbinding_stable works
  · exact fun index => (unbinding_stable works).and (works.running_stable hAddress)
  · exact fun _ => unbinding_stable works
  · exact fun state _ hState => hLeave state hState.left
  · exact fun state _ hState _ => ⟨hState.spawned hOther, running_spawned state command _⟩
  · exact fun index state _ hState => hLeave _ (hState.1.drop hState.2)
  · exact fun _ _ hState => hState
  · exact fun index state child _ hState hChild _ hFinished => hState.1.finished hChild hFinished

/-- A delete that reports success has removed the address for good, unless a writer
was left. -/
theorem status_deleteAddress :
    contract.Triple (Unbinding dryRun settled gone ip none) (Vip.status (.deleteAddress ip))
      fun result =>
        Unbinding dryRun settled (gone || settled && decide (result = .exited true)) ip none := by
  apply works.status fun index state =>
    state.Unbinding dryRun settled gone ip (some index) ∧
      state.Running (.deleteAddress ip) index fun state =>
        settled = true → state.attached ip = false
  · exact unbinding_stable works
  · refine fun index => works.stable fun hOthers hState => ⟨hOthers.unbinding hState.1, ?_⟩
    apply hOthers.running rfl _ _ hState.2
    · exact fun hDetached hSettled =>
        hOthers.detached (hDetached hSettled) (hState.1.writers hSettled).spent
    · exact fun child next hChild hNext hCommand hNot hNow _ =>
        hOthers.detaches index child next hChild hNext hCommand hNot hNow
  · exact fun _ => unbinding_stable works
  · exact fun state _ hState => hLeave state hState.left
  · exact fun state _ hState _ => ⟨hState.spawned (by simp), running_spawned state _ _⟩
  · exact fun index state _ hState => hLeave _ (hState.1.drop hState.2)
  · exact fun _ _ hState => by simpa using hState
  · intro index state child hGood hState hChild hCommand hFinished
    obtain ⟨hUnbinding, other, hOther, -, hEffect⟩ := hState
    obtain rfl := Option.some.inj (hChild.symm.trans hOther)
    refine { hUnbinding.finished hChild hFinished with absent := fun hGone => ?_ }
    rcases (Bool.or_eq_true _ _).mp hGone with hBefore | hNow
    · exact hUnbinding.absent hBefore
    · obtain ⟨hSettled, hSuccess⟩ := (Bool.and_eq_true _ _).mp hNow
      have hSound := (works.good hGood).sound child (List.mem_of_getElem? hChild)
      exact ⟨hEffect (hSound.succeeded hFinished (of_decide_eq_true hSuccess)) hSettled,
        hUnbinding.writers hSettled⟩

theorem deleteMarker_unbinding :
    contract.Triple (Unbinding dryRun settled gone ip none) (OwnershipMarker.delete ip)
      fun _ => Unbinding dryRun settled gone ip none := by
  apply Contract.Triple.bind (status_unbinding works hLeave rfl (by simp))
  intro result
  rcases result with ⟨_ | _⟩ | _
  · apply Contract.Triple.bind (works.probeMarker (unbinding_stable works)
      fun state _ hState => hLeave state hState.left)
    intro found
    rcases found with _ | _ | _
    · exact .keep (unbinding_stable works)
    · exact .keep (unbinding_stable works)
    · exact .keep (unbinding_stable works)
  · exact .keep (unbinding_stable works)
  · exact .keep (unbinding_stable works)

theorem verifyDeleteResult_unbinding (success : Bool) :
    contract.Triple (Unbinding dryRun settled (gone || settled && success) ip none)
      (verifyDeleteResult ip success)
      fun outcome => Unbinding dryRun settled (gone || settled && outcome.toBool) ip none := by
  cases success with
  | true => exact .keep (unbinding_stable works)
  | false =>
      have hProbe : contract.Triple (Unbinding dryRun settled (gone || settled && false) ip none)
          (Vip.perform (.probeAddress ip)) fun found =>
            Unbinding dryRun settled (gone || settled && (found == some false)) ip none := by
        apply (works.probeAddress (unbinding_stable works)
          (fun state _ (hState : state.Unbinding dryRun settled (gone || settled && false) ip none) =>
            hLeave state hState.left)
          (.imp _ (works.stable Others.absent))
          (fun _ _ _ hState _ hAttached hSettled => ⟨hAttached, hState.writers hSettled⟩)).mono
        · exact fun _ _ hState => hState
        · intro found state hState
          refine { hState.1 with absent := fun hGone => ?_ }
          rcases (Bool.or_eq_true _ _).mp hGone with hBefore | hNow
          · exact hState.1.absent (by simp [hBefore])
          · obtain ⟨hSettled, hFound⟩ := (Bool.and_eq_true _ _).mp hNow
            exact hState.2 (beq_iff_eq.mp hFound) hSettled
      apply Contract.Triple.bind hProbe
      intro found
      rcases found with _ | _ | _
      · exact .keep (unbinding_stable works)
      · exact .keep (unbinding_stable works)
      · exact .keep (unbinding_stable works)

theorem deleteKernel_unbinding :
    contract.Triple (Unbinding dryRun settled gone ip none) (deleteKernel ip)
      fun outcome => Unbinding dryRun settled (gone || settled && outcome.toBool) ip none := by
  apply Contract.Triple.bind (status_deleteAddress works hLeave)
  intro result
  cases result with
  | failed =>
      exact .done (unbinding_stable works) fun _ _ hState =>
        hState.weaken fun hGone => by simpa [Except.toBool] using hGone
  | exited success =>
      have hVerify : contract.Triple
          (Unbinding dryRun settled (gone || settled && success) ip none) _ _ :=
        verifyDeleteResult_unbinding works hLeave success
      apply Contract.Triple.bind (hVerify.mono (fun state _ hState => ?_) fun _ _ hState => hState)
      · intro verified
        cases verified with
        | error error => exact .keep (unbinding_stable works)
        | ok _ =>
            apply (deleteMarker_unbinding works hLeave).mono
            · exact fun _ _ hState => hState
            · intro outcome state hState
              apply hState.weaken
              cases outcome <;> simp +contextual [Except.toBool]
      · cases success <;> simpa using hState

/-- The tracking goes, unless a killed writer may still bring the address back. -/
theorem forget_unbound (recorded : Bool) (hSettled : settled = true → gone = true)
    (hRecorded : recorded = true → gone = true) :
    contract.Triple (Unbinding dryRun settled gone ip none) (forget ip recorded)
      fun _ state => state.Unbinding dryRun settled gone ip none ∧ state.Unbound settled ip := by
  have hStable : contract.Stable fun state => state.Unbinding dryRun settled gone ip none ∧
      (recorded = false → ip ∈ state.tracked .needsRecleanup) :=
    (unbinding_stable works).and (works.stable fun hOthers hIn hRecord =>
      (hOthers.tracked _).mpr (hIn hRecord))
  have hInsert : contract.Triple (Unbinding dryRun settled gone ip none)
      (Vip.insertIf (!recorded) .needsRecleanup ip) fun _ state =>
        state.Unbinding dryRun settled gone ip none ∧
          (recorded = false → ip ∈ state.tracked .needsRecleanup) := by
    cases recorded with
    | true => exact .done (unbinding_stable works) fun _ _ hState => ⟨hState, fun h => by cases h⟩
    | false =>
        apply works.insert (unbinding_stable works) (fun state _ hState => hLeave state hState.left)
          _ hStable
        intro state _ hState
        exact ⟨{ hState with covered := .inr (.inr (by simp)) }, fun _ => by simp⟩
  have hRemove : ∀ set, set ≠ .needsRecleanup → contract.Triple
      (fun state => state.Unbinding dryRun settled gone ip none ∧
        (recorded = false → ip ∈ state.tracked .needsRecleanup))
      (Vip.remove set ip) fun _ state => state.Unbinding dryRun settled gone ip none ∧
        (recorded = false → ip ∈ state.tracked .needsRecleanup) := by
    intro set hSet
    apply works.remove hStable (fun state _ hState => hLeave state hState.1.left) _ hStable
    intro state _ hState
    have hNeeds : recorded = false → ip ∈ Function.update state.tracked set
        ((state.tracked set).erase ip) .needsRecleanup := by
      rw [Function.update_of_ne hSet.symm]
      exact hState.2
    refine ⟨{ hState.1 with covered := ?_ }, hNeeds⟩
    cases hCase : recorded with
    | true => exact .inl (hState.1.absent (hRecorded hCase))
    | false => exact .inr (.inr (hNeeds hCase))
  have hFinal : contract.Triple
      (fun state => state.Unbinding dryRun settled gone ip none ∧
        (recorded = false → ip ∈ state.tracked .needsRecleanup))
      (Vip.removeIf recorded .needsRecleanup ip) fun _ state =>
        state.Unbinding dryRun settled gone ip none ∧ state.Unbound settled ip := by
    cases recorded with
    | false =>
        refine .done hStable fun _ _ hState => ⟨hState.1, ?_, ?_⟩
        · exact fun hOut => absurd (hState.2 rfl) hOut
        · exact fun h => hState.1.absent (hSettled h)
    | true =>
        apply works.remove hStable (fun state _ hState => hLeave state hState.1.left) _
          ((unbinding_stable works).and (works.stable Others.unbound))
        intro state _ hState
        have hAbsent := hState.1.absent (hRecorded rfl)
        exact ⟨{ hState.1 with covered := .inl hAbsent }, fun _ => hAbsent, fun _ => hAbsent⟩
  exact .bind hInsert fun _ => .bind (hRemove .bound (by simp)) fun _ =>
    .bind (hRemove .pendingFirstBind (by simp)) fun _ => .bind hFinal fun _ =>
      .done ((unbinding_stable works).and (works.stable Others.unbound)) fun _ _ hState => hState

theorem isTracked_unbinding :
    contract.Triple (Unbinding dryRun settled gone ip none) (isTracked ip)
      fun tracked state => state.Unbinding dryRun settled gone ip none ∧
        (tracked = false → state.Absent ip) := by
  have hStable : contract.Stable fun state => state.Unbinding dryRun settled gone ip none ∧
      ip ∉ state.tracked .bound :=
    (unbinding_stable works).and (works.stable Others.untracked)
  apply Contract.Triple.bind (works.contains (unbinding_stable works)
    (fun state _ hState => hLeave state hState.left) .bound)
  intro bound
  cases bound with
  | true =>
      refine .done ((unbinding_stable works).and (works.stable fun hOthers hIff =>
        hIff.trans (hOthers.tracked _).symm)) fun _ _ hState => ⟨hState.1, fun h => by cases h⟩
  | false =>
      apply (works.contains hStable (fun state _ hState => hLeave state hState.1.left)
        .needsRecleanup).mono
      · exact fun _ _ hState => ⟨hState.1, fun hIn => by simpa using hState.2.mpr hIn⟩
      · rintro found state ⟨⟨hState, hBound⟩, hNeeds⟩
        refine ⟨hState, fun hFound => hState.covered.resolve_right ?_⟩
        rintro (hIn | hIn)
        · exact hBound hIn
        · exact absurd (hFound.symm.trans (hNeeds.mpr hIn)) (by simp)

/-- One cleanup. -/
theorem unbind_unbound :
    contract.Triple (Unbinding dryRun settled gone ip none) (unbind dryRun ip)
      fun outcome state => state.Unbinding dryRun settled gone ip none ∧
        (outcome.toBool = true → state.Unbound settled ip) := by
  have hStable : contract.Stable fun state => state.Unbinding dryRun settled gone ip none ∧
      state.Unbound settled ip :=
    (unbinding_stable works).and (works.stable Others.unbound)
  have hAsk : contract.Triple (Unbinding dryRun settled gone ip none) Vip.settled
      fun asked => Unbinding dryRun (settled || asked) gone ip none := by
    apply (works.settled (unbinding_stable works) (fun state _ hState => hLeave state hState.left)
      fun _ hState => hState.quiet).mono
    · exact fun _ _ hState => hState
    · rintro asked state ⟨hState, hAll⟩
      refine { hState with writers := fun hEither => ?_ }
      rcases (Bool.or_eq_true _ _).mp hEither with hSettled | hAsked
      · exact hState.writers hSettled
      · exact hAll hAsked _ rfl
  apply Contract.Triple.bind hAsk
  intro asked
  have hForget : ∀ now : Bool, ((settled || asked) = true → now = true) → contract.Triple
      (Unbinding dryRun (settled || asked) now ip none) (forget ip asked)
      fun outcome state => state.Unbinding dryRun settled now ip none ∧
        (outcome.toBool = true → state.Unbound settled ip) := by
    intro now hNow
    apply (forget_unbound works hLeave asked hNow fun hAsked => hNow (by simp [hAsked])).mono
    · exact fun _ _ hState => hState
    · exact fun _ _ hState => ⟨hState.1.ask, fun _ => hState.2.ask⟩
  apply Contract.Triple.bind (isTracked_unbinding works hLeave)
  intro tracked
  cases tracked with
  | false =>
      refine .done ((unbinding_stable works).and (works.stable fun hOthers hAbsent hUntracked =>
        hOthers.absent (hAbsent hUntracked))) fun _ _ hState => ⟨hState.1.ask, fun _ => ?_⟩
      exact ⟨fun _ => hState.2 rfl, fun _ => hState.2 rfl⟩
  | true =>
      cases hDry : dryRun with
      | true =>
          subst hDry
          apply (hForget true fun _ => rfl).mono
          · exact fun _ _ hState => { hState.1 with absent := fun _ => hState.1.dry rfl }
          · exact fun _ _ hState => ⟨{ hState.1 with absent := fun _ => hState.1.dry rfl }, hState.2⟩
      | false =>
          subst hDry
          apply Contract.Triple.bind ((deleteKernel_unbinding works hLeave).mono
            (fun _ _ hState => hState.1) fun _ _ hState => hState)
          intro outcome
          cases outcome with
          | error _ =>
              refine .done (unbinding_stable works) fun _ _ hState => ⟨?_, fun h => by cases h⟩
              exact (hState.weaken fun hGone => by simp [hGone]).ask
          | ok _ =>
              apply (hForget (gone || (settled || asked) && true) fun h => by simp [h]).mono
              · exact fun _ _ hState => hState
              · exact fun _ _ hState => ⟨hState.1.weaken fun hGone => by simp [hGone], hState.2⟩

theorem unbindRetrying_unbound (retries : Nat) :
    contract.Triple (Unbinding dryRun settled gone ip none) (unbindRetrying dryRun ip retries)
      fun outcome state => state.Unbinding dryRun settled gone ip none ∧
        (outcome.toBool = true → state.Unbound settled ip) := by
  have hStable : ∀ outcome : Except EffectError Unit, contract.Stable fun state =>
      state.Unbinding dryRun settled gone ip none ∧
        (outcome.toBool = true → state.Unbound settled ip) :=
    fun outcome => (unbinding_stable works).and (Contract.Stable.imp _ (works.stable Others.unbound))
  induction retries with
  | zero => exact unbind_unbound works hLeave
  | succ retries ih =>
      apply Contract.Triple.bind (unbind_unbound works hLeave)
      intro outcome
      cases outcome with
      | ok _ => exact .done (hStable _) fun _ _ hState => hState
      | error _ => exact ih.mono (fun _ _ hState => hState.1) fun _ _ hState => hState

/-- Cleanup of a whole table, seen from one of its addresses. -/
theorem unbindAll_unbound (table : List IpAddr) :
    contract.Triple (Unbinding dryRun settled gone ip none) (unbindAll dryRun table)
      fun failures state => state.Unbinding dryRun settled gone ip none ∧
        (failures = [] → ip ∈ table → state.Unbound settled ip) := by
  induction table with
  | nil =>
      exact .done (unbinding_stable works) fun _ _ hState => ⟨hState, fun _ hIn => by cases hIn⟩
  | cons head rest ih =>
      have hRest : contract.Triple
          (fun state => state.Unbinding dryRun settled gone ip none ∧
            (ip = head → state.Unbound settled ip)) (unbindAll dryRun rest)
          fun failures state => state.Unbinding dryRun settled gone ip none ∧
            (failures = [] → ip ∈ head :: rest → state.Unbound settled ip) := by
        by_cases hRest : ip ∈ rest
        · apply ih.mono
          · exact fun _ _ hState => hState.1
          · exact fun _ _ hState => ⟨hState.1, fun hNil _ => hState.2 hNil hRest⟩
        · have hKeeps : ∀ {state after : VipState}, Others ip state after →
              state.Unbinding dryRun settled gone ip none ∧ (ip = head → state.Unbound settled ip) →
              after.Unbinding dryRun settled gone ip none ∧ (ip = head → after.Unbound settled ip) :=
            fun hOthers hState =>
              ⟨hOthers.unbinding hState.1, fun hHead => hOthers.unbound (hState.2 hHead)⟩
          apply (works.frame hKeeps (fun state hState => hLeave state hState.1.left) hRest
            (unbindAll_within dryRun rest)).mono
          · exact fun _ _ hState => hState
          · rintro failures state ⟨hState, hUnbound⟩
            exact ⟨hState, fun _ hIn => hUnbound ((List.mem_cons.mp hIn).resolve_right hRest)⟩
      have hHead : contract.Triple (Unbinding dryRun settled gone ip none)
          (unbindRetrying dryRun head (shutdownUnbindAttempts - 1))
          fun outcome state => state.Unbinding dryRun settled gone ip none ∧
            (outcome.toBool = true → ip = head → state.Unbound settled ip) := by
        by_cases hSame : ip = head
        · subst hSame
          apply (unbindRetrying_unbound works hLeave _).mono
          · exact fun _ _ hState => hState
          · exact fun _ _ hState => ⟨hState.1, fun hOk _ => hState.2 hOk⟩
        · apply (works.frame Others.unbinding (fun state hState => hLeave state hState.left)
            (by simpa using hSame) (unbindRetrying_within dryRun _)).mono
          · exact fun _ _ hState => hState
          · exact fun _ _ hState => ⟨hState, fun _ hHead => absurd hHead hSame⟩
      apply Contract.Triple.bind hHead
      intro outcome
      cases outcome with
      | ok _ => exact hRest.mono (fun _ _ hState => ⟨hState.1, hState.2 rfl⟩) fun _ _ hState => hState
      | error _ =>
          apply Contract.Triple.bind (ih.mono (fun _ _ hState => hState.1) fun _ _ hState => hState)
          intro failures
          exact .done ((unbinding_stable works).and (.imp _ (.imp _ (works.stable Others.unbound))))
            fun _ _ hState => ⟨hState.1, fun hNil => by cases hNil⟩

end

end LocalVip

end KeepAfloat
