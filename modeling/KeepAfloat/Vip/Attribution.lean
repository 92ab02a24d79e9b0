import KeepAfloat.Vip.Marking
import KeepAfloat.Vip.Release

/-! Crash attribution: as long as the worker takes care, an attached VIP is marked at
every moment. -/

namespace KeepAfloat

open Async VipState

namespace LocalVip

section

variable {ip : IpAddr} {leave : VipState → Prop} {dryRun : Bool}

/-- A tracked VIP is cleaned up. `settled` says that the cleanup began without commands,
`gone` that the address is absent by now. -/
structure Clearing (dryRun settled gone : Bool) (ip : IpAddr) (waiting : Option Nat)
    (state : VipState) : Prop where
  quiet : state.Quiet ip waiting
  attributed : state.Attributed ip
  tracked : ip ∈ state.tracked .bound ∨ ip ∈ state.tracked .needsRecleanup
  unerased : settled = true → state.Unerased ip
  absent : gone = true → state.Gone ip
  dry : dryRun = true → state.Gone ip ∧ state.Unerased ip

theorem Clearing.others {settled gone : Bool} {waiting : Option Nat} {state after : VipState}
    (h : Others ip state after) (hState : Clearing dryRun settled gone ip waiting state) :
    Clearing dryRun settled gone ip waiting after where
  quiet := h.quiet hState.quiet
  attributed := h.attributed hState.attributed
  tracked := hState.tracked.imp (h.tracked _).mpr (h.tracked _).mpr
  unerased hSettled := h.unerased (hState.unerased hSettled)
  absent hGone := h.gone (hState.absent hGone)
  dry hDry := ⟨h.gone (hState.dry hDry).1, h.unerased (hState.dry hDry).2⟩

theorem clearing_stable {settled gone : Bool} {waiting : Option Nat} :
    (markingContract ip leave).Stable (Clearing dryRun settled gone ip waiting) :=
  markingContract_works.stable Clearing.others

theorem unattended_stable : (markingContract ip leave).Stable (Unattended dryRun ip) :=
  markingContract_works.stable Others.unattended

theorem Clearing.unattended {settled gone : Bool} {state : VipState}
    (h : Clearing dryRun settled gone ip none state) : state.Unattended dryRun ip :=
  ⟨h.quiet, h.attributed, .inr h.tracked, h.dry⟩

/-- The tracking goes; what it covered is recorded or proven done. -/
structure Forgetting (dryRun recorded : Bool) (ip : IpAddr) (state : VipState) : Prop where
  quiet : state.Quiet ip none
  absent : state.Gone ip
  unerased : recorded = true → state.Unerased ip
  needs : recorded = false → ip ∈ state.tracked .needsRecleanup
  dry : dryRun = true → state.Unerased ip

theorem forgetting_stable {recorded : Bool} :
    (markingContract ip leave).Stable (Forgetting dryRun recorded ip) :=
  markingContract_works.stable fun hOthers hState =>
    ⟨hOthers.quiet hState.quiet, hOthers.gone hState.absent,
      fun hYes => hOthers.unerased (hState.unerased hYes),
      fun hNo => (hOthers.tracked _).mpr (hState.needs hNo),
      fun hDry => hOthers.unerased (hState.dry hDry)⟩

theorem Forgetting.unattended {recorded : Bool} {state : VipState}
    (h : Forgetting dryRun recorded ip state) : state.Unattended dryRun ip := by
  refine ⟨h.quiet, .inl h.absent, ?_, fun hDry => ⟨h.absent, h.dry hDry⟩⟩
  cases hCase : recorded with
  | true => exact .inl (h.unerased hCase)
  | false => exact .inr (.inr (h.needs hCase))

/-- After a successful cleanup the VIP is cleaned up again, or nothing is left of it. -/
structure Cleared (dryRun : Bool) (ip : IpAddr) (state : VipState) : Prop
    extends state.Unattended dryRun ip where
  unerased : ip ∉ state.tracked .needsRecleanup → state.Unerased ip

theorem cleared_stable : (markingContract ip leave).Stable (Cleared dryRun ip) :=
  markingContract_works.stable fun hOthers hState => ⟨hOthers.unattended hState.toUnattended,
    fun hOut => hOthers.unerased (hState.unerased fun hIn => hOut ((hOthers.tracked _).mpr hIn))⟩

variable (hLeave : ∀ state, state.Unattended dryRun ip → leave state)

include hLeave

/-- The address is deleted while no writer is left. -/
theorem deleteAddress_clearing {settled : Bool} (hDry : dryRun = false) :
    (markingContract ip leave).Triple (Clearing dryRun settled false ip none)
      (Vip.status (.deleteAddress ip)) fun result =>
        Clearing dryRun settled (decide (result = .exited true)) ip none := by
  apply markingContract_works.status fun index state =>
    Clearing dryRun settled false ip (some index) state ∧
      state.Spent (.replaceAddress ip) ∧
        state.Running (.deleteAddress ip) index fun state => state.attached ip = false
  · exact clearing_stable
  · refine fun index => markingContract_works.stable fun hOthers hState =>
      ⟨Clearing.others hOthers hState.1, hOthers.spent rfl hState.2.1, ?_⟩
    apply hOthers.running rfl _ _ hState.2.2
    · exact fun hDetached => hOthers.detached hDetached hState.2.1
    · exact fun child next hChild hNext hCommand hNot hNow =>
        hOthers.detaches index child next hChild hNext hCommand hNot hNow
  · exact fun _ => clearing_stable
  · exact fun state _ hState => hLeave state hState.unattended
  · intro state _ hState hStep
    refine ⟨⟨hState.quiet.spawned _, ?_, hState.tracked, ?_, nofun, ?_⟩, ?_,
      running_spawned state _ _⟩
    · exact hState.attributed.imp (fun hAbsent => hAbsent.spawned_of_ne (by simp))
        fun hMarked => ⟨hMarked.1, hMarked.2.spawned_of_ne (by simp)⟩
    · exact fun hSettled => (hState.unerased hSettled).spawned_of_ne (by simp)
    · exact fun hYes => absurd (hDry.symm.trans hYes) (by simp)
    · exact (hStep.1 (.inl rfl)).spawned_of_ne (by simp)
  · intro index state _ hState
    apply hLeave
    refine ⟨hState.1.quiet.drop hState.2.2, ?_, .inr ?_, ?_⟩
    · exact hState.1.attributed.imp (fun hAbsent => hAbsent.drop _) fun hMarked => hMarked.drop _
    · rw [drop_tracked]
      exact hState.1.tracked
    · exact fun hYes => absurd (hDry.symm.trans hYes) (by simp)
  · exact fun _ _ hState => { hState with absent := fun h => by simp at h }
  · intro index state child hGood hState hChild _ hFinished
    obtain ⟨hClearing, hWriters, other, hOther, -, hEffect⟩ := hState
    obtain rfl := Option.some.inj (hChild.symm.trans hOther)
    refine { hClearing with
      quiet := hClearing.quiet.finished hChild hFinished, absent := fun hSuccess => ?_ }
    have hSound := hGood.sound child (List.mem_of_getElem? hChild)
    exact ⟨hEffect (hSound.succeeded hFinished (of_decide_eq_true hSuccess)), hWriters⟩

theorem verifyDeleteResult_clearing {settled : Bool} (success : Bool) :
    (markingContract ip leave).Triple (Clearing dryRun settled success ip none)
      (verifyDeleteResult ip success)
      fun outcome => Clearing dryRun settled outcome.toBool ip none := by
  cases success with
  | true => exact .keep clearing_stable
  | false =>
      have hProbe : (markingContract ip leave).Triple (Clearing dryRun settled false ip none)
          (Vip.perform (.probeAddress ip))
          fun found => Clearing dryRun settled (found == some false) ip none := by
        apply (markingContract_works.probeAddress clearing_stable
          (fun state _ (hState : Clearing dryRun settled false ip none state) =>
            hLeave state hState.unattended)
          (markingContract_works.stable Others.gone)
          (fun _ _ _ _ hStep hAttached => ⟨hAttached, hStep.1 (.inr ⟨rfl, hAttached⟩)⟩)).mono
        · exact fun _ _ hState => hState
        · rintro found state ⟨hState, hAbsent⟩
          exact { hState with absent := fun hFound => hAbsent (beq_iff_eq.mp hFound) }
      apply Contract.Triple.bind hProbe
      rintro (_ | _ | _)
      · exact .keep clearing_stable
      · exact .keep clearing_stable
      · exact .keep clearing_stable

/-- The marker goes after the address; with a settled start no command is left that
removes it. -/
theorem deleteKernel_clearing {settled : Bool} (hDry : dryRun = false) :
    (markingContract ip leave).Triple (Clearing dryRun settled false ip none) (deleteKernel ip)
      fun outcome => Clearing dryRun (settled && outcome.toBool) outcome.toBool ip none := by
  have hWeaken : ∀ (known gone : Bool) (state : VipState), Clearing dryRun known gone ip none state →
      Clearing dryRun (settled && false) false ip none state :=
    fun known gone state hState =>
      { hState with unerased := fun h => by simp at h, absent := nofun }
  apply Contract.Triple.bind (deleteAddress_clearing hLeave hDry)
  rintro (success | _)
  · have hVerify : (markingContract ip leave).Triple (Clearing dryRun settled success ip none) _ _ :=
      verifyDeleteResult_clearing hLeave success
    apply Contract.Triple.bind (hVerify.mono (fun state _ hState => by simpa using hState)
      fun _ _ hState => hState)
    rintro (_ | _)
    · exact .done clearing_stable fun state _ hState => hWeaken _ _ state hState
    · have hSets : Tracking ip fun state => ip ∈ state.tracked .bound ∨
          ip ∈ state.tracked .needsRecleanup :=
        fun state after hSame hState => hState.imp (hSame _).mpr (hSame _).mpr
      have hDelete := @deleteMarker_erasing ip leave _ settled hSets
        fun state hQuiet hAbsent hIn => hLeave state ⟨hQuiet, .inl hAbsent, .inr hIn,
          fun hYes => absurd (hDry.symm.trans hYes) (by simp)⟩
      apply hDelete.mono
      · exact fun _ _ hState => ⟨hState.quiet, hState.absent rfl, hState.tracked, hState.unerased⟩
      · exact fun _ _ hState => ⟨hState.quiet, .inl hState.absent, hState.sets, hState.erasers,
          fun _ => hState.absent, fun hYes => absurd (hDry.symm.trans hYes) (by simp)⟩
  · exact .done clearing_stable fun state _ hState => hWeaken _ _ state hState

theorem forget_clears (recorded : Bool) :
    (markingContract ip leave).Triple
      (fun state => state.Unattended dryRun ip ∧ state.Gone ip ∧
        (recorded = true → state.Unerased ip))
      (forget ip recorded) fun _ => Cleared dryRun ip := by
  have hInsert : (markingContract ip leave).Triple
      (fun state => state.Unattended dryRun ip ∧ state.Gone ip ∧
        (recorded = true → state.Unerased ip))
      (Vip.insertIf (!recorded) .needsRecleanup ip) fun _ => Forgetting dryRun recorded ip := by
    have hStable : (markingContract ip leave).Stable fun state => state.Unattended dryRun ip ∧
        state.Gone ip ∧ (recorded = true → state.Unerased ip) :=
      unattended_stable.and ((markingContract_works.stable Others.gone).and
        (.imp _ (markingContract_works.stable Others.unerased)))
    cases recorded with
    | true =>
        exact .done hStable fun _ _ hState => ⟨hState.1.quiet, hState.2.1, hState.2.2, nofun,
          fun hDry => (hState.1.dry hDry).2⟩
    | false =>
        apply markingContract_works.insert hStable (fun state _ hState => hLeave state hState.1) _
          forgetting_stable
        exact fun _ _ hState => ⟨hState.1.quiet, hState.2.1, nofun, fun _ => by simp,
          fun hDry => (hState.1.dry hDry).2⟩
  have hRemove : ∀ set, set ≠ .needsRecleanup → (markingContract ip leave).Triple
      (Forgetting dryRun recorded ip) (Vip.remove set ip)
      fun _ => Forgetting dryRun recorded ip := by
    intro set hSet
    apply markingContract_works.remove forgetting_stable
      (fun state _ hState => hLeave state hState.unattended) _ forgetting_stable
    intro state _ hState
    refine { hState with needs := fun hNo => ?_ }
    simpa only [Function.update_of_ne hSet.symm] using hState.needs hNo
  have hFinal : (markingContract ip leave).Triple (Forgetting dryRun recorded ip)
      (Vip.removeIf recorded .needsRecleanup ip) fun _ => Cleared dryRun ip := by
    cases recorded with
    | false =>
        exact .done forgetting_stable fun _ _ hState => ⟨hState.unattended,
          fun hOut => absurd (hState.needs rfl) hOut⟩
    | true =>
        apply markingContract_works.remove forgetting_stable
          (fun state _ hState => hLeave state hState.unattended) _ cleared_stable
        exact fun _ _ hState => ⟨⟨hState.quiet, .inl hState.absent, .inl (hState.unerased rfl),
          fun hDry => ⟨hState.absent, hState.dry hDry⟩⟩, fun _ => hState.unerased rfl⟩
  exact .bind hInsert fun _ => .bind (hRemove .bound (by simp)) fun _ =>
    .bind (hRemove .pendingFirstBind (by simp)) fun _ => .bind hFinal fun _ =>
      .keep cleared_stable

theorem isTracked_unattended (asked : Bool) :
    (markingContract ip leave).Triple
      (fun state => state.Unattended dryRun ip ∧ (asked = true → state.Unerased ip))
      (isTracked ip) fun tracked state => (state.Unattended dryRun ip ∧
        (asked = true → state.Unerased ip)) ∧
          (tracked = true → ip ∈ state.tracked .bound ∨ ip ∈ state.tracked .needsRecleanup) ∧
          (tracked = false → state.Unerased ip) := by
  have hStable : (markingContract ip leave).Stable fun state =>
      state.Unattended dryRun ip ∧ (asked = true → state.Unerased ip) :=
    unattended_stable.and (.imp _ (markingContract_works.stable Others.unerased))
  apply Contract.Triple.bind (markingContract_works.contains hStable
    (fun state _ hState => hLeave state hState.1) .bound)
  rintro (_ | _)
  · apply (markingContract_works.contains (hStable.and (markingContract_works.stable
      Others.untracked)) (fun state _ hState => hLeave state hState.1.1) .needsRecleanup).mono
    · exact fun _ _ hState => ⟨hState.1, fun hIn => by simpa using hState.2.mpr hIn⟩
    · rintro found state ⟨⟨hState, hBound⟩, hNeeds⟩
      refine ⟨hState, fun hFound => .inr (hNeeds.mp hFound), fun hFound => ?_⟩
      apply hState.1.tracked.resolve_right
      rintro (hIn | hIn)
      · exact hBound hIn
      · exact absurd (hFound.symm.trans (hNeeds.mpr hIn)) (by simp)
  · exact .done (hStable.and (markingContract_works.stable fun hOthers hIff =>
      hIff.trans (hOthers.tracked _).symm)) fun _ _ hState =>
        ⟨hState.1, fun _ => .inl (hState.2.mp rfl), nofun⟩

/-- One cleanup. -/
theorem unbind_clears :
    (markingContract ip leave).Triple (Unattended dryRun ip) (unbind dryRun ip)
      fun outcome state => state.Unattended dryRun ip ∧
        (outcome.toBool = true → Cleared dryRun ip state) := by
  have hAsk : (markingContract ip leave).Triple (Unattended dryRun ip) Vip.settled
      fun asked state => state.Unattended dryRun ip ∧ (asked = true → state.Unerased ip) := by
    apply (markingContract_works.settled unattended_stable (fun state _ hState => hLeave state hState)
      fun _ hState => hState.quiet).mono
    · exact fun _ _ hState => hState
    · exact fun _ _ hState => ⟨hState.1, fun hAsked => hState.2 hAsked _ rfl⟩
  apply Contract.Triple.bind hAsk
  intro asked
  have hForget : (markingContract ip leave).Triple
      (fun state => state.Unattended dryRun ip ∧ state.Gone ip ∧
        (asked = true → state.Unerased ip)) (forget ip asked)
      fun outcome state => state.Unattended dryRun ip ∧
        (outcome.toBool = true → Cleared dryRun ip state) :=
    (forget_clears hLeave asked).mono (fun _ _ hState => hState)
      fun _ _ hState => ⟨hState.toUnattended, fun _ => hState⟩
  apply Contract.Triple.bind (isTracked_unattended hLeave asked)
  have hStable : ∀ tracked, (markingContract ip leave).Stable fun state =>
      (state.Unattended dryRun ip ∧ (asked = true → state.Unerased ip)) ∧
        (tracked = true → ip ∈ state.tracked .bound ∨ ip ∈ state.tracked .needsRecleanup) ∧
        (tracked = false → state.Unerased ip) :=
    fun tracked => (unattended_stable.and (.imp _ (markingContract_works.stable Others.unerased))).and
      ((Contract.Stable.imp _ (markingContract_works.stable fun hOthers hIn =>
        hIn.imp (hOthers.tracked _).mpr (hOthers.tracked _).mpr)).and
          (.imp _ (markingContract_works.stable Others.unerased)))
  rintro (_ | _)
  · exact .done (hStable false) fun _ _ hState =>
      ⟨hState.1.1, fun _ => ⟨hState.1.1, fun _ => hState.2.2 rfl⟩⟩
  · cases hDry : dryRun with
    | true =>
        subst hDry
        exact hForget.mono (fun _ _ hState => ⟨hState.1.1, (hState.1.1.dry rfl).1, hState.1.2⟩)
          fun _ _ hState => hState
    | false =>
        subst hDry
        apply Contract.Triple.bind ((deleteKernel_clearing hLeave rfl).mono
          (fun _ _ hState => ⟨hState.1.1.quiet, hState.1.1.attributed, hState.2.1 rfl, hState.1.2,
            nofun, nofun⟩) fun _ _ hState => hState)
        rintro (_ | _)
        · exact .done clearing_stable fun _ _ hState => ⟨hState.unattended, nofun⟩
        · exact hForget.mono (fun _ _ hState => ⟨hState.unattended, hState.absent rfl,
            fun hAsked => hState.unerased (by simp [hAsked, Except.toBool])⟩) fun _ _ hState => hState

theorem unbindRetrying_clears (retries : Nat) :
    (markingContract ip leave).Triple (Unattended dryRun ip) (unbindRetrying dryRun ip retries)
      fun outcome state => state.Unattended dryRun ip ∧
        (outcome.toBool = true → Cleared dryRun ip state) := by
  induction retries with
  | zero => exact unbind_clears hLeave
  | succ retries ih =>
      apply Contract.Triple.bind (unbind_clears hLeave)
      rintro (_ | _)
      · exact ih.mono (fun _ _ hState => hState.1) fun _ _ hState => hState
      · exact .done (unattended_stable.and (.imp _ cleared_stable)) fun _ _ hState => hState

theorem unbindAll_clears :
    (markingContract ip leave).Triple (Unattended dryRun ip) (unbindAll dryRun [ip])
      fun failures state => state.Unattended dryRun ip ∧ (failures = [] → Cleared dryRun ip state) := by
  have hStable : ∀ condition : Prop, (markingContract ip leave).Stable fun state =>
      state.Unattended dryRun ip ∧ (condition → Cleared dryRun ip state) :=
    fun condition => unattended_stable.and (.imp condition cleared_stable)
  apply Contract.Triple.bind (unbindRetrying_clears hLeave _)
  rintro (_ | _)
  · exact .done (hStable _) fun _ _ hState => ⟨hState.1, nofun⟩
  · exact .done (hStable _) fun _ _ hState => ⟨hState.1, fun _ => hState.2 rfl⟩

end

end LocalVip

/-- The contract of a worker whose address is attributed at every await. -/
def attributionContract (dryRun : Bool) (ip : IpAddr) : Contract (carefulMachine ip).await :=
  (markingContract ip (Unattended dryRun ip)).await markingContract_runs.drop_good

/-- What holds between two rounds. -/
structure WorkerMemory.Resting (dryRun : Bool) (ip : IpAddr) (memory : WorkerMemory)
    (state : VipState) : Prop extends state.Unattended dryRun ip where
  kept : memory.witness = true → ip ∈ state.tracked .bound ∧
    ip ∉ state.tracked .pendingFirstBind ∧ state.Unerased ip
  clean : memory.cleanupNeeded = false → ip ∉ state.tracked .needsRecleanup ∧ state.Unerased ip

namespace Worker

variable {dryRun : Bool} {ip : IpAddr}

theorem attribution_stable {property : VipState → Prop}
    (h : ∀ {state after : VipState}, Others ip state after → property state → property after) :
    (attributionContract dryRun ip).Stable property :=
  fun _ _ _ _ hRely => h hRely

theorem attribution_lift {Value : Type} {prog : Vip Value} {pre : VipState → Prop}
    {post : Value → VipState → Prop}
    (h : (markingContract ip (Unattended dryRun ip)).Triple pre prog post) :
    (attributionContract dryRun ip).Triple pre prog.lift post :=
  fun state hGood hState => (h state hGood hState).lift

theorem resting_others {memory : WorkerMemory} {state after : VipState} (h : Others ip state after)
    (hState : memory.Resting dryRun ip state) : memory.Resting dryRun ip after where
  toUnattended := h.unattended hState.toUnattended
  kept hWitness := ⟨(h.tracked _).mpr (hState.kept hWitness).1,
    h.untracked (hState.kept hWitness).2.1, h.unerased (hState.kept hWitness).2.2⟩
  clean hCleanup := ⟨h.untracked (hState.clean hCleanup).1, h.unerased (hState.clean hCleanup).2⟩

theorem observeIf_attributed {property : VipState → Prop}
    (hKeeps : ∀ {state after : VipState}, Others ip state after → property state → property after)
    (hLeft : ∀ state, property state → state.Unattended dryRun ip) (condition : Bool) :
    (attributionContract dryRun ip).Triple property (observeIf condition) fun answer state =>
      property state ∧ (answer = true → condition = true) := by
  cases condition with
  | false => exact .done (attribution_stable hKeeps) fun _ _ hState => ⟨hState, id⟩
  | true =>
      apply attribution_lift
      apply markingContract_works.operation (markingContract_works.stable hKeeps)
        (fun state _ hState => hLeft state hState) rfl (fun _ => rfl)
      · exact fun _ => (markingContract_works.stable hKeeps).and (.const _)
      · intro state choice answer after _ hState _ hPerform
        obtain ⟨-, rfl⟩ := Prod.mk.inj (Option.some.inj hPerform)
        exact ⟨hState, fun _ => rfl⟩

/-- What looks at the state only, or publishes a release, keeps it. -/
theorem maybePublishRelease_attributed {property : VipState → Prop}
    (hKeeps : ∀ {state after : VipState}, Others ip state after → property state → property after)
    (hLeft : ∀ state, property state → state.Unattended dryRun ip) :
    (attributionContract dryRun ip).Triple property (maybePublishRelease ip) fun _ => property := by
  have hStable : (attributionContract dryRun ip).Stable property := attribution_stable hKeeps
  have hSettled : (markingContract ip (Unattended dryRun ip)).Triple property Vip.settled
      fun _ => property :=
    (markingContract_works.settled (markingContract_works.stable hKeeps)
      (fun state _ hState => hLeft state hState) fun state hState => (hLeft state hState).quiet).mono
        (fun _ _ hState => hState) fun _ _ hState => hState.1
  have hSubmit : (markingContract ip (Unattended dryRun ip)).Triple property
      (Vip.perform (.submitRelease ip)) fun _ => property := by
    apply Contract.Triple.perform (markingContract_works.stable hKeeps)
      (fun _ => markingContract_works.stable hKeeps)
    · exact fun state _ hState => ⟨trivial, hLeft state hState⟩
    · rintro state answer after - - hState ⟨-, choice, hPerform⟩
      obtain ⟨-, rfl⟩ := Prod.mk.inj (Option.some.inj hPerform)
      exact hState
  apply Contract.Triple.bind (attribution_lift hSettled)
  rintro (_ | _)
  · exact .done hStable fun _ _ hState => hState
  · apply Contract.Triple.bind (observeIf_attributed hKeeps hLeft true)
    rintro (_ | _)
    · exact .done (hStable.and (.const _)) fun _ _ hState => hState.1
    · exact .bind ((attribution_lift hSubmit).mono (fun _ _ hState => hState.1)
        fun _ _ hState => hState) fun _ => .done hStable fun _ _ hState => hState

theorem cleanUp_attributed (armed assignment : Bool) :
    (attributionContract dryRun ip).Triple (Unattended dryRun ip)
      (cleanUp dryRun ip armed assignment) fun memory => memory.Resting dryRun ip := by
  have hLeave : ∀ state : VipState, state.Unattended dryRun ip → state.Unattended dryRun ip :=
    fun _ h => h
  have hSettled : (markingContract ip (Unattended dryRun ip)).Triple (Unattended dryRun ip)
      Vip.settled fun _ => Unattended dryRun ip :=
    (markingContract_works.settled LocalVip.unattended_stable (fun state _ hState => hState)
      fun _ hState => hState.quiet).mono (fun _ _ hState => hState) fun _ _ hState => hState.1
  apply Contract.Triple.bind (attribution_lift hSettled)
  intro settledBefore
  apply Contract.Triple.bind (attribution_lift (LocalVip.unbindAll_clears hLeave))
  rintro (_ | ⟨head, rest⟩)
  · have hAgain : (markingContract ip (Unattended dryRun ip)).Triple
        (fun state => state.Unattended dryRun ip ∧
          (([] : List IpAddr) = [] → LocalVip.Cleared dryRun ip state))
        (Vip.contains .needsRecleanup ip)
        fun again => (WorkerMemory.mk armed false again assignment).Resting dryRun ip := by
      apply (markingContract_works.contains (LocalVip.unattended_stable.and
        (.imp _ LocalVip.cleared_stable)) (fun state _ hState => hState.1) .needsRecleanup).mono
      · exact fun _ _ hState => hState
      · rintro again state ⟨⟨hState, hCleared⟩, hNeeds⟩
        have hOut : again = false → ip ∉ state.tracked .needsRecleanup :=
          fun hNot hIn => absurd (hNot.symm.trans (hNeeds.mpr hIn)) (by simp)
        exact ⟨hState, nofun, fun hNot => ⟨hOut hNot, (hCleared rfl).unerased (hOut hNot)⟩⟩
    apply Contract.Triple.bind (attribution_lift hAgain)
    intro again
    split
    · exact .bind (maybePublishRelease_attributed resting_others fun _ hState => hState.toUnattended)
        fun _ => .keep (attribution_stable resting_others)
    · exact .keep (attribution_stable resting_others)
  · refine .done (attribution_stable fun hOthers hState => ?_) fun _ _ hState =>
      ⟨hState.1, nofun, nofun⟩
    exact ⟨hOthers.unattended hState.1, nofun⟩

theorem attribution_weaker (witness : Bool) :
    ((markingContract ip (Retained dryRun witness ip)).await markingContract_runs.drop_good).Weaker
      (attributionContract dryRun ip) where
  rely h := h
  good h := h
  demand h := h
  leave h := h.toUnattended

theorem bindKernel_attributed (witness : Bool) :
    (attributionContract dryRun ip).Triple (Steady dryRun witness ip)
      (LocalVip.bindKernel dryRun ip).cancellable fun result =>
        Retained dryRun (result.elim false LocalVip.completed || witness) ip := by
  have hBind : (markingContract ip (Retained dryRun witness ip)).Triple (Steady dryRun witness ip)
      (LocalVip.bindKernel dryRun ip)
      fun outcome => Retained dryRun (LocalVip.completed outcome || witness) ip :=
    LocalVip.bindKernel_retains fun _ h => h
  intro state hGood hState
  have hStable : (markingContract ip (Retained dryRun witness ip)).Stable
      (Retained dryRun witness ip) := markingContract_works.stable Others.retained
  apply (Contract.Safe.weaken (attribution_weaker witness)
    ((hBind state hGood hState).cancellable hStable hGood)).mono
  intro result after hAfter
  cases result with
  | none => exact hAfter
  | some outcome => exact hAfter

theorem keep_attributed (armed witness assignment : Bool) :
    (attributionContract dryRun ip).Triple (Retained dryRun witness ip)
      (keep armed witness assignment) fun memory => memory.Resting dryRun ip := by
  apply Contract.Triple.bind (observeIf_attributed Others.retained
    (fun _ hState => hState.toUnattended) witness)
  intro retained
  refine .done ((attribution_stable Others.retained).and (.const _)) fun state _ hState => ?_
  refine ⟨hState.1.toUnattended, hState.1.kept, fun hRetained => ⟨hState.1.clean, ?_⟩⟩
  exact (hState.1.kept (hState.2 (by simpa using hRetained))).2.2

theorem bind_attributed (armed witness assignment : Bool) :
    (attributionContract dryRun ip).Triple (Steady dryRun witness ip)
      (bind dryRun ip armed witness assignment) fun memory => memory.Resting dryRun ip := by
  apply Contract.Triple.bind (bindKernel_attributed witness)
  rintro (_ | _ | _ | _)
  · exact keep_attributed armed witness assignment
  · exact .done (attribution_stable Others.retained) fun _ _ hState =>
      ⟨hState.toUnattended, hState.kept, nofun⟩
  · exact keep_attributed armed witness assignment
  · apply Contract.Triple.bind (observeIf_attributed Others.retained
      (fun _ hState => hState.toUnattended) true)
    rintro (_ | _)
    · apply (keep_attributed armed witness assignment).mono
      · exact fun _ _ hState => { hState.1 with kept := fun _ => hState.1.kept rfl }
      · exact fun _ _ hState => hState
    · exact .done ((attribution_stable Others.retained).and (.const _)) fun _ _ hState =>
        ⟨hState.1.toUnattended, hState.1.kept, fun _ => ⟨hState.1.clean, (hState.1.kept rfl).2.2⟩⟩

theorem acquire_attributed (armed witness assignment : Bool) :
    (attributionContract dryRun ip).Triple (Steady dryRun witness ip)
      (acquire dryRun ip armed witness assignment) fun memory => memory.Resting dryRun ip := by
  have hLeft : ∀ state : VipState, state.Steady dryRun witness ip → state.Unattended dryRun ip :=
    fun _ hState => hState.toUnattended
  have hDone : ∀ owed fact, (attributionContract dryRun ip).Triple
      (fun state => state.Steady dryRun witness ip ∧ fact)
      (pure (WorkerMemory.mk armed witness owed assignment))
      fun memory => memory.Resting dryRun ip :=
    fun owed fact => .done ((attribution_stable Others.steady).and (.const _)) fun _ _ hState =>
      ⟨hState.1.toUnattended, hState.1.kept, fun _ => ⟨hState.1.clean, hState.1.unerased⟩⟩
  apply Contract.Triple.bind (observeIf_attributed Others.steady hLeft true)
  rintro (_ | _)
  · exact hDone false _
  · apply Contract.Triple.bind ((observeIf_attributed Others.steady hLeft true).mono
      (fun _ _ hState => hState.1) fun _ _ hState => hState)
    rintro (_ | _)
    · apply Contract.Triple.bind ((observeIf_attributed Others.steady hLeft _).mono
        (fun _ _ hState => hState.1) fun _ _ hState => hState)
      exact fun owed => hDone owed _
    · exact (bind_attributed armed witness assignment).mono (fun _ _ hState => hState.1)
        fun _ _ hState => hState

/-- A careful round keeps the address attributed. -/
theorem run_attributed (memory : WorkerMemory) :
    (attributionContract dryRun ip).Triple (memory.Resting dryRun ip) (run dryRun ip memory)
      fun after => after.Resting dryRun ip := by
  have hGate : ∀ condition, (attributionContract dryRun ip).Triple (memory.Resting dryRun ip)
      (observeIf condition) fun _ => memory.Resting dryRun ip :=
    fun condition => (observeIf_attributed resting_others
      (fun _ hState => hState.toUnattended) condition).mono (fun _ _ hState => hState)
        fun _ _ hState => hState.1
  refine .bind (hGate _) fun arms => .bind (hGate _) fun retained => .bind (hGate _) fun readable =>
    .bind (hGate _) fun assigned => .bind (hGate _) fun shown => .bind (hGate _) fun owed => ?_
  split
  · exact (cleanUp_attributed _ _).mono (fun _ _ hState => hState.toUnattended)
      fun _ _ hState => hState
  · rename_i hQuiet
    have hCleanup : memory.cleanupNeeded = false := by
      simp only [Bool.or_eq_true, not_or, Bool.not_eq_true] at hQuiet
      exact hQuiet.1.1.1
    apply (acquire_attributed _ _ _).mono
    · exact fun _ _ hState => ⟨⟨hState.toUnattended, (hState.clean hCleanup).1, hState.kept⟩,
        (hState.clean hCleanup).2⟩
    · exact fun _ _ hState => hState

end Worker

namespace VipProcess

/-- In a run whose worker takes care, an attached VIP is marked at every moment. -/
theorem crash_attribution (dryRun : Bool) (table : VipTable) (start : VipProcess)
    (hStart : start.Starts table) (ip : IpAddr) (hIp : ip ∈ table.addrs)
    (hAbsent : start.state.attached ip = false) (events : List VipEvent)
    (hCareful : ∀ i (hi : i < events.length), (Runs.stateAt (step dryRun table) start events i).Careful
      (VipOp.TakesCare ip) ip events[i]) (i : Nat) (hi : i ≤ events.length) :
    let process := Runs.stateAt (step dryRun table) start events i
    process.state.attached ip = true → process.state.marker ip = true := by
  intro process hAttached
  have hNone : ∀ command, start.state.Reaped command none :=
    fun command index child hChild => by simp [hStart.childless] at hChild
  have hFirst : start.Watched table ip (attributionContract dryRun ip)
      fun memory => memory.Resting dryRun ip := by
    apply hStart.watched hIp
    · exact ⟨by simp [hStart.childless], by simp [hStart.childless, hStart.settled]⟩
    · exact fun _ => Worker.attribution_stable Worker.resting_others
    · refine fun locked => ⟨⟨?_, .inl ⟨hAbsent, (hNone _).spent⟩, .inl (hNone _),
        fun _ => ⟨⟨hAbsent, (hNone _).spent⟩, hNone _⟩⟩, nofun, fun _ => ⟨?_, hNone _⟩⟩
      · intro index child hChild
        simp [hStart.childless] at hChild
      · simp [hStart.untracked]
  have hSafe := (hFirst.run markingContract_runs Worker.run_attributed hCareful hi).safe
  have hMarked : ∀ state : VipState, state.Unattended dryRun ip → state.attached ip = true →
      state.marker ip = true := by
    intro state hState hNow
    rcases hState.attributed with hAbsent | hMarked
    · exact absurd (hAbsent.1.symm.trans hNow) (by simp)
    · exact hMarked.1
  cases hWorker : process.workers ip with
  | done memory =>
      rw [hWorker] at hSafe
      exact hMarked _ (hSafe process.state .refl).toUnattended hAttached
  | call await next =>
      rw [hWorker] at hSafe
      have hLeft : (process.state.drop await.op).Unattended dryRun ip :=
        (hSafe process.state .refl).2.1
      rw [← drop_marker process.state await.op]
      apply hMarked _ hLeft
      rw [drop_attached]
      exact hAttached

theorem crash_attribution_revoked :
    (Runs.stateAt (step false soleTable) soleStart revokedBind 21).state.attached soleVip = true ∧
      (Runs.stateAt (step false soleTable) soleStart revokedBind 21).state.marker soleVip = true :=
  ⟨by decide +kernel, crash_attribution false soleTable soleStart soleStart_starts soleVip (by decide)
    rfl revokedBind (by decide +kernel) 21 (by decide) (by decide +kernel)⟩

/-- A bind is dropped while its address command is in flight. The cleanup finds the
address absent and removes the marker; then the killed command takes effect. -/
def lateWriter : List VipEvent :=
  goesOn 4 ++ [.work soleVip 0] ++ goesOn 10 ++ succeeds 0 ++ goesOn 3 ++ [.cancel soleVip] ++
    goesOn 8 ++ [.finish 2 (.exited false) true] ++ goesOn 3 ++ succeeds 3 ++ goesOn 1 ++ [.effect 1]

theorem late_writer_unattributed :
    soleStart.Starts soleTable ∧ soleStart.state.attached soleVip = false ∧
      (lateWriter.foldl (step false soleTable) soleStart).state.attached soleVip = true ∧
      (lateWriter.foldl (step false soleTable) soleStart).state.marker soleVip = false :=
  ⟨soleStart_starts, rfl, by decide +kernel, by decide +kernel⟩

end VipProcess

end KeepAfloat
