import KeepAfloat.Vip.Unbinding
import KeepAfloat.Vip.Watch

/-! A release is acknowledged only for an absent VIP. A lost command excuses the worker
from its tracking, since it keeps the shared tracker unsettled for good; the second look
at the tracker therefore stops every release that a lost command could spoil. -/

namespace KeepAfloat

open Async

/-- What the worker of a VIP owes: to be absent before it says so. -/
def vipContract (ip : IpAddr) (leave : VipState → Prop) : Contract vipMachine where
  rely := VipState.Others ip
  good := VipState.Good
  demand state op := op = .submitRelease ip → state.Absent ip
  leave := leave
  does_good := fun hGood ⟨_, hPerform⟩ => hGood.perform hPerform

namespace VipState

theorem perform_children {state after : VipState} {op : VipOp} {choice index : Nat}
    {answer : op.Answer} {child : Child} (h : state.perform op choice = some (answer, after))
    (hChild : state.children[index]? = some child) : after.children[index]? = some child := by
  cases op with
  | spawn command =>
      simp only [perform] at h
      split at h
      · obtain ⟨-, rfl⟩ := Prod.mk.inj (Option.some.inj h)
        exact hChild
      · obtain ⟨-, rfl⟩ := Prod.mk.inj (Option.some.inj h)
        exact getElem?_append_some hChild
  | wait command position =>
      simp only [perform] at h
      split at h
      · split at h
        · obtain ⟨-, rfl⟩ := Prod.mk.inj (Option.some.inj h)
          exact hChild
        · cases h
      · cases h
  | waitSettled =>
      simp only [perform] at h
      split at h
      · obtain ⟨-, rfl⟩ := Prod.mk.inj (Option.some.inj h)
        exact hChild
      · split at h
        · obtain ⟨-, rfl⟩ := Prod.mk.inj (Option.some.inj h)
          exact hChild
        · cases h
  | _ =>
      obtain ⟨-, rfl⟩ := Prod.mk.inj (Option.some.inj h)
      exact hChild

theorem Lost.perform {ip : IpAddr} {state after : VipState} {op : VipOp} {choice : Nat}
    {answer : op.Answer} (h : state.Lost ip)
    (hPerform : state.perform op choice = some (answer, after)) : after.Lost ip := by
  obtain ⟨index, child, hChild, hLost⟩ := h
  exact ⟨index, child, perform_children hPerform hChild, hLost⟩

theorem Lost.drop {ip : IpAddr} {state : VipState} (h : state.Lost ip) (op : VipOp) :
    (state.drop op).Lost ip := by
  obtain ⟨index, child, hChild, hAddress, hFinished, hReaped⟩ := h
  cases op with
  | wait command position =>
      simp only [VipState.drop]
      split
      · rcases state.abandon_cases position with ⟨hSame, -⟩ | ⟨dropped, hDropped, hPhase, hAfter⟩
        · rw [hSame]
          exact ⟨index, child, hChild, hAddress, hFinished, hReaped⟩
        · rw [hAfter]
          refine ⟨index, child, ?_, hAddress, hFinished, hReaped⟩
          rw [children_replace hDropped rfl, if_neg, hChild]
          rintro rfl
          obtain rfl := Option.some.inj (hDropped.symm.trans hChild)
          exact absurd (hPhase.symm.trans hFinished) (by simp)
      · exact ⟨index, child, hChild, hAddress, hFinished, hReaped⟩
  | _ => exact ⟨index, child, hChild, hAddress, hFinished, hReaped⟩

/-- The property, unless a command of the VIP was lost. -/
def OrLost (ip : IpAddr) (property : VipState → Prop) (state : VipState) : Prop :=
  state.Lost ip ∨ property state

end VipState

open VipState

section

variable {ip : IpAddr} {leave : VipState → Prop}

theorem vipContract_works : WorksOn ip (vipContract ip leave) where
  does h := h
  drop := rfl
  rely h := h
  good h := h
  demand hSubmits h := by
    subst h
    cases hSubmits

theorem barring_works : WorksOn ip ((vipContract ip leave).barring (Lost ip)) where
  does h := h.1
  drop := rfl
  rely h := h
  good h := h.1
  demand hSubmits h := by
    subst h
    cases hSubmits

theorem vipContract_excuse (hLost : ∀ state : VipState, state.Lost ip → leave state) :
    (vipContract ip leave).Excuse (Lost ip) (fun op => op.submits = false) where
  rely h := h.lost
  does := fun ⟨_, hPerform⟩ hState => hState.perform hPerform
  demand := by
    intro state op hOp _ hSubmit
    subst hSubmit
    cases hOp
  leave hState := hLost _ (hState.drop _)

/-- A program of the VIP is proven as long as nothing is lost. -/
theorem orLost_triple (hLost : ∀ state : VipState, state.Lost ip → leave state) {Value : Type}
    {prog : Vip Value} {addresses : Set IpAddr} (hOnly : prog.Only (VipOp.Within addresses))
    {pre : VipState → Prop} {post : Value → VipState → Prop}
    (h : ((vipContract ip leave).barring (Lost ip)).Triple pre prog post) :
    (vipContract ip leave).Triple (OrLost ip pre) prog fun value => OrLost ip (post value) :=
  h.of_barring (vipContract_excuse hLost) (hOnly.mono fun _ hOp => hOp.1)

end

/-- The contract of a worker that can be dropped at every await. -/
def workerContract (dryRun : Bool) (ip : IpAddr) : Contract vipMachine.await :=
  (vipContract ip (OrLost ip (Left dryRun ip))).await fun _ op hGood => hGood.drop op

/-- What holds between two rounds. -/
structure WorkerMemory.Idle (dryRun : Bool) (ip : IpAddr) (memory : WorkerMemory)
    (state : VipState) : Prop extends state.Left dryRun ip where
  kept : memory.witness = true →
    ip ∈ state.tracked .bound ∧ ip ∉ state.tracked .pendingFirstBind
  clean : memory.cleanupNeeded = false → ip ∉ state.tracked .needsRecleanup
  writers : memory.cleanupNeeded = false → memory.witness = false →
    state.Reaped (.replaceAddress ip) none

namespace Worker

variable {dryRun : Bool} {ip : IpAddr}

theorem lift_triple {Value : Type} {prog : Vip Value} {pre : VipState → Prop}
    {post : Value → VipState → Prop}
    (h : (vipContract ip (OrLost ip (Left dryRun ip))).Triple pre prog post) :
    (workerContract dryRun ip).Triple pre prog.lift post :=
  fun state hGood hState => (h state hGood hState).lift

/-- What others leave alone is stable for the worker. -/
theorem worker_stable {property : VipState → Prop}
    (h : ∀ {state after : VipState}, Others ip state after → property state → property after) :
    (workerContract dryRun ip).Stable property :=
  fun _ _ _ _ hRely => h hRely

theorem orLost_others {property : VipState → Prop}
    (h : ∀ {state after : VipState}, Others ip state after → property state → property after)
    {state after : VipState} (hOthers : Others ip state after) (hState : OrLost ip property state) :
    OrLost ip property after :=
  hState.imp hOthers.lost (h hOthers)

theorem idle_others {memory : WorkerMemory} {state after : VipState} (h : Others ip state after)
    (hIdle : memory.Idle dryRun ip state) : memory.Idle dryRun ip after where
  toLeft := h.left hIdle.toLeft
  kept hWitness := ⟨(h.tracked _).mpr (hIdle.kept hWitness).1, h.untracked (hIdle.kept hWitness).2⟩
  clean hCleanup := h.untracked (hIdle.clean hCleanup)
  writers hCleanup hWitness := h.reaped rfl (hIdle.writers hCleanup hWitness)

/-- A gate changes nothing. -/
theorem observeIf_keeps {property : VipState → Prop}
    (hKeeps : ∀ {state after : VipState}, Others ip state after → property state → property after)
    (hLeft : ∀ state, property state → OrLost ip (Left dryRun ip) state) (condition : Bool) :
    (workerContract dryRun ip).Triple property (observeIf condition) fun answer state =>
      property state ∧ (answer = true → condition = true) := by
  cases condition with
  | false => exact .done (worker_stable hKeeps) fun _ _ hState => ⟨hState, id⟩
  | true =>
      apply lift_triple
      apply vipContract_works.operation (vipContract_works.stable hKeeps)
        (fun state _ hState => hLeft state hState) rfl (fun _ => rfl)
      · exact fun _ => (vipContract_works.stable hKeeps).and (.const _)
      · intro state choice answer after _ hState _ hPerform
        obtain ⟨-, rfl⟩ := Prod.mk.inj (Option.some.inj hPerform)
        exact ⟨hState, fun _ => rfl⟩

/-- A release passes two looks at the tracker; after the second one the VIP is absent. -/
theorem maybePublishRelease_keeps (memory : WorkerMemory) :
    (workerContract dryRun ip).Triple
      (OrLost ip fun state => memory.Idle dryRun ip state ∧ state.Absent ip)
      (maybePublishRelease ip) fun _ => OrLost ip (memory.Idle dryRun ip) := by
  have hIdle : ∀ {state after : VipState}, Others ip state after →
      OrLost ip (memory.Idle dryRun ip) state → OrLost ip (memory.Idle dryRun ip) after :=
    orLost_others idle_others
  have hBoth : ∀ {state after : VipState}, Others ip state after →
      OrLost ip (memory.Idle dryRun ip) state ∧ state.Absent ip →
      OrLost ip (memory.Idle dryRun ip) after ∧ after.Absent ip :=
    fun hOthers hState => ⟨hIdle hOthers hState.1, hOthers.absent hState.2⟩
  have hEither : ∀ {state after : VipState}, Others ip state after →
      OrLost ip (fun state => memory.Idle dryRun ip state ∧ state.Absent ip) state →
      OrLost ip (fun state => memory.Idle dryRun ip state ∧ state.Absent ip) after :=
    orLost_others fun hOthers hState => ⟨idle_others hOthers hState.1, hOthers.absent hState.2⟩
  have hLeft : ∀ state, OrLost ip (memory.Idle dryRun ip) state →
      OrLost ip (Left dryRun ip) state :=
    fun state hState => hState.imp_right fun hIdle => hIdle.toLeft
  have hSettled : (vipContract ip (OrLost ip (Left dryRun ip))).Triple
      (OrLost ip fun state => memory.Idle dryRun ip state ∧ state.Absent ip) Vip.settled
      fun settled state => OrLost ip (memory.Idle dryRun ip) state ∧
        (settled = true → state.Absent ip) := by
    apply vipContract_works.operation (vipContract_works.stable hEither)
      (fun state _ hState => hState.imp_right fun h => h.1.toLeft) rfl (fun _ => rfl)
    · intro settled
      exact (vipContract_works.stable hIdle).and (.imp _ (vipContract_works.stable Others.absent))
    · intro state choice settled after hGood hState _ hPerform
      obtain ⟨rfl, rfl⟩ := Prod.mk.inj (Option.some.inj hPerform)
      refine ⟨hState.imp_right And.left, fun hSettled => ?_⟩
      exact (hState.resolve_left (hGood.not_lost hSettled)).2
  have hSubmit : (vipContract ip (OrLost ip (Left dryRun ip))).Triple
      (fun state => OrLost ip (memory.Idle dryRun ip) state ∧ state.Absent ip)
      (Vip.perform (.submitRelease ip)) fun _ => OrLost ip (memory.Idle dryRun ip) := by
    apply Contract.Triple.perform (vipContract_works.stable hBoth)
      (fun _ => vipContract_works.stable hIdle)
    · exact fun state _ hState => ⟨fun _ => hState.2, hLeft state hState.1⟩
    · rintro state answer after - - hState ⟨choice, hPerform⟩
      obtain ⟨-, rfl⟩ := Prod.mk.inj (Option.some.inj hPerform)
      exact hState.1
  apply Contract.Triple.bind (lift_triple hSettled)
  intro settled
  cases settled with
  | false =>
      exact .done ((worker_stable hIdle).and (.imp _ (worker_stable Others.absent)))
        fun _ _ hState => hState.1
  | true =>
      apply Contract.Triple.bind ((observeIf_keeps hBoth (fun state hState => hLeft state hState.1)
        true).mono (fun _ _ hState => ⟨hState.1, hState.2 rfl⟩) fun _ _ hState => hState.1)
      intro wanted
      cases wanted with
      | false => exact .done (worker_stable hBoth) fun _ _ hState => hState.1
      | true => exact .bind (lift_triple hSubmit) fun _ => .keep (worker_stable hIdle)

/-- Cleanup removes the VIP, or remembers to try again. -/
theorem cleanUp_keeps (armed assignment : Bool) :
    (workerContract dryRun ip).Triple (OrLost ip (Left dryRun ip))
      (cleanUp dryRun ip armed assignment)
      fun memory => OrLost ip (memory.Idle dryRun ip) := by
  have hLost : ∀ state : VipState, state.Lost ip → OrLost ip (Left dryRun ip) state :=
    fun _ => .inl
  have hLeave : ∀ state, state.Left dryRun ip →
      ((vipContract ip (OrLost ip (Left dryRun ip))).barring (Lost ip)).leave state :=
    fun _ => .inr
  have hSettled : (vipContract ip (OrLost ip (Left dryRun ip))).Triple (OrLost ip (Left dryRun ip))
      Vip.settled fun settled => OrLost ip (Unbinding dryRun settled false ip none) := by
    apply orLost_triple hLost (@Vip.settled_within ip)
    apply (barring_works.settled (barring_works.stable Others.left) (fun state _ => hLeave state)
      fun _ hState => hState.quiet).mono
    · exact fun _ _ hState => hState
    · rintro settled state ⟨hState, hAll⟩
      exact ⟨hState.quiet, hState.covered, hState.dry, fun hYes => hAll hYes _ rfl, nofun⟩
  apply Contract.Triple.bind (lift_triple hSettled)
  intro settledBefore
  have hUnbind : (vipContract ip (OrLost ip (Left dryRun ip))).Triple
      (OrLost ip (Unbinding dryRun settledBefore false ip none)) (LocalVip.unbindAll dryRun [ip])
      fun failures => OrLost ip fun state => state.Left dryRun ip ∧
        (failures = [] → state.Unbound settledBefore ip) := by
    apply orLost_triple hLost (LocalVip.unbindAll_within dryRun [ip])
    apply (LocalVip.unbindAll_unbound barring_works hLeave [ip]).mono
    · exact fun _ _ hState => hState
    · exact fun _ _ hState => ⟨hState.1.left, fun hNil => hState.2 hNil (by simp)⟩
  apply Contract.Triple.bind (lift_triple hUnbind)
  intro failures
  have hStable : ∀ {state after : VipState}, Others ip state after →
      state.Left dryRun ip ∧ (failures = [] → state.Unbound settledBefore ip) →
      after.Left dryRun ip ∧ (failures = [] → after.Unbound settledBefore ip) :=
    fun hOthers hState => ⟨hOthers.left hState.1, fun hNil => hOthers.unbound (hState.2 hNil)⟩
  cases failures with
  | cons head rest =>
      refine .done (worker_stable (orLost_others hStable)) fun _ _ hState => ?_
      exact hState.imp_right fun h => ⟨h.1, nofun, nofun, nofun⟩
  | nil =>
      have hAgain : (vipContract ip (OrLost ip (Left dryRun ip))).Triple
          (OrLost ip fun state => state.Left dryRun ip ∧
            (([] : List IpAddr) = [] → state.Unbound settledBefore ip))
          (Vip.contains .needsRecleanup ip) fun again => OrLost ip fun state =>
            (WorkerMemory.mk armed false again assignment).Idle dryRun ip state ∧
              (settledBefore = true → state.Absent ip) := by
        apply orLost_triple hLost (Vip.contains_within _)
        apply (barring_works.contains (barring_works.stable hStable)
          (fun state _ hState => hLeave state hState.1) .needsRecleanup).mono
        · exact fun _ _ hState => hState
        · rintro again state ⟨⟨hLeft, hUnbound⟩, hNeeds⟩
          have hOut : again = false → ip ∉ state.tracked .needsRecleanup :=
            fun hNot hIn => absurd (hNot.symm.trans (hNeeds.mpr hIn)) (by simp)
          refine ⟨⟨hLeft, nofun, hOut, fun hNot _ => ?_⟩, (hUnbound rfl).settled⟩
          exact ((hUnbound rfl).clean (hOut hNot)).2
      apply Contract.Triple.bind (lift_triple hAgain)
      intro again
      have hIdle : ∀ {state after : VipState}, Others ip state after →
          OrLost ip ((WorkerMemory.mk armed false again assignment).Idle dryRun ip) state →
          OrLost ip ((WorkerMemory.mk armed false again assignment).Idle dryRun ip) after :=
        orLost_others idle_others
      by_cases hPublish : (armed && settledBefore && assignment) = true
      · simp only [hPublish, if_true]
        have hSettled : settledBefore = true := by
          simp only [Bool.and_eq_true] at hPublish
          exact hPublish.1.2
        refine .bind ((maybePublishRelease_keeps _).mono ?_ fun _ _ hState => hState) fun _ =>
          .keep (worker_stable hIdle)
        exact fun _ _ hState => hState.imp_right fun h => ⟨h.1, h.2 hSettled⟩
      · simp only [hPublish, Bool.false_eq_true, if_false]
        refine .done (worker_stable ?_) fun _ _ hState => hState.imp_right And.left
        exact orLost_others fun hOthers hState =>
          ⟨idle_others hOthers hState.1, fun h => hOthers.absent (hState.2 h)⟩

/-- The bind contract asks for more than the worker's. -/
theorem bindContract_weaker (witness : Bool) :
    ((vipContract ip (OrLost ip (Kept dryRun witness ip))).await
        fun _ op hGood => hGood.drop op).Weaker (workerContract dryRun ip) where
  rely h := h
  good h := h
  demand h := h
  leave h := h.imp_right fun hKept => hKept.toLeft

theorem bindKernel_cancellable (witness : Bool) :
    (workerContract dryRun ip).Triple (OrLost ip (Loose dryRun witness ip))
      (LocalVip.bindKernel dryRun ip).cancellable fun result =>
        OrLost ip (Kept dryRun (result.elim false LocalVip.completed || witness) ip) := by
  have hBind : (vipContract ip (OrLost ip (Kept dryRun witness ip))).Triple
      (OrLost ip (Loose dryRun witness ip)) (LocalVip.bindKernel dryRun ip)
      fun outcome => OrLost ip (Kept dryRun (LocalVip.completed outcome || witness) ip) :=
    orLost_triple (fun _ => .inl) (LocalVip.bindKernel_within dryRun)
      (LocalVip.bindKernel_keeps barring_works (fun _ => .inr) fun _ hGood => hGood.2)
  intro state hGood hState
  have hStable : (vipContract ip (OrLost ip (Kept dryRun witness ip))).Stable
      (OrLost ip (Kept dryRun witness ip)) :=
    vipContract_works.stable (orLost_others Others.keeps)
  apply (Contract.Safe.weaken (bindContract_weaker witness)
    ((hBind state hGood hState).cancellable hStable hGood)).mono
  intro result after hAfter
  cases result with
  | none => exact hAfter
  | some outcome => exact hAfter

theorem kept_left {witness : Bool} (state : VipState)
    (h : OrLost ip (Kept dryRun witness ip) state) : OrLost ip (Left dryRun ip) state :=
  h.imp_right fun hKept => hKept.toLeft

theorem keep_keeps (armed witness assignment : Bool) :
    (workerContract dryRun ip).Triple (OrLost ip (Kept dryRun witness ip))
      (keep armed witness assignment) fun memory => OrLost ip (memory.Idle dryRun ip) := by
  apply Contract.Triple.bind (observeIf_keeps (orLost_others Others.keeps) kept_left witness)
  intro retained
  refine .done ((worker_stable (orLost_others Others.keeps)).and (.const _)) fun state _ hState => ?_
  refine hState.1.imp_right fun h => ⟨h.toLeft, h.kept, fun _ => h.clean, ?_⟩
  intro hRetained hWitness
  have hAsked := hState.2 (by simpa using hRetained)
  exact absurd (hWitness.symm.trans hAsked) (by simp)

theorem bind_keeps (armed witness assignment : Bool) :
    (workerContract dryRun ip).Triple (OrLost ip (Loose dryRun witness ip))
      (bind dryRun ip armed witness assignment)
      fun memory => OrLost ip (memory.Idle dryRun ip) := by
  have hStable : ∀ witness, (workerContract dryRun ip).Stable
      (OrLost ip (Kept dryRun witness ip)) :=
    fun _ => worker_stable (orLost_others Others.keeps)
  apply Contract.Triple.bind (bindKernel_cancellable witness)
  rintro (_ | _ | _ | _)
  · exact keep_keeps armed witness assignment
  · refine .done (hStable _) fun _ _ hState => ?_
    exact hState.imp_right fun h => ⟨h.toLeft, h.kept, nofun, nofun⟩
  · exact keep_keeps armed witness assignment
  · apply Contract.Triple.bind (observeIf_keeps (orLost_others Others.keeps) kept_left true)
    rintro (_ | _)
    · apply (keep_keeps armed witness assignment).mono
      · exact fun _ _ hState => hState.1.imp_right fun h => { h with kept := fun _ => h.kept rfl }
      · exact fun _ _ hState => hState
    · refine .done ((hStable _).and (.const _)) fun _ _ hState => ?_
      exact hState.1.imp_right fun h => ⟨h.toLeft, h.kept, fun _ => h.clean, nofun⟩

theorem acquire_keeps (armed witness assignment : Bool) :
    (workerContract dryRun ip).Triple (OrLost ip (Loose dryRun witness ip))
      (acquire dryRun ip armed witness assignment)
      fun memory => OrLost ip (memory.Idle dryRun ip) := by
  have hLoose : ∀ {state after : VipState}, Others ip state after →
      OrLost ip (Loose dryRun witness ip) state → OrLost ip (Loose dryRun witness ip) after :=
    orLost_others Others.loose
  have hLeft : ∀ state, OrLost ip (Loose dryRun witness ip) state →
      OrLost ip (Left dryRun ip) state := fun _ hState => hState.imp_right fun h => h.toLeft
  have hDone : ∀ owed fact, (workerContract dryRun ip).Triple
      (fun state => OrLost ip (Loose dryRun witness ip) state ∧ fact)
      (pure (WorkerMemory.mk armed witness owed assignment))
      fun memory => OrLost ip (memory.Idle dryRun ip) := by
    intro owed fact
    refine .done ((worker_stable hLoose).and (.const _)) fun _ _ hState => ?_
    exact hState.1.imp_right fun h => ⟨h.toLeft, h.kept, fun _ => h.clean, fun _ => h.writers⟩
  apply Contract.Triple.bind (observeIf_keeps hLoose hLeft true)
  rintro (_ | _)
  · exact hDone false _
  · apply Contract.Triple.bind ((observeIf_keeps hLoose hLeft true).mono
      (fun _ _ hState => hState.1) fun _ _ hState => hState)
    rintro (_ | _)
    · apply Contract.Triple.bind ((observeIf_keeps hLoose hLeft _).mono
        (fun _ _ hState => hState.1) fun _ _ hState => hState)
      exact fun owed => hDone owed _
    · exact (bind_keeps armed witness assignment).mono (fun _ _ hState => hState.1)
        fun _ _ hState => hState

/-- A round keeps what holds between rounds. -/
theorem run_keeps (memory : WorkerMemory) :
    (workerContract dryRun ip).Triple (OrLost ip (memory.Idle dryRun ip)) (run dryRun ip memory)
      fun after => OrLost ip (after.Idle dryRun ip) := by
  have hGate : ∀ condition, (workerContract dryRun ip).Triple (OrLost ip (memory.Idle dryRun ip))
      (observeIf condition) fun _ => OrLost ip (memory.Idle dryRun ip) := by
    intro condition
    apply (observeIf_keeps (orLost_others idle_others)
      (fun _ hState => hState.imp_right fun h => h.toLeft) condition).mono
    · exact fun _ _ hState => hState
    · exact fun _ _ hState => hState.1
  refine .bind (hGate _) fun arms => .bind (hGate _) fun retained => .bind (hGate _) fun readable =>
    .bind (hGate _) fun assigned => .bind (hGate _) fun shown => .bind (hGate _) fun owed => ?_
  split
  · exact (cleanUp_keeps _ _).mono (fun _ _ hState => hState.imp_right fun h => h.toLeft)
      fun _ _ hState => hState
  · rename_i hQuiet
    have hCleanup : memory.cleanupNeeded = false := by
      simp only [Bool.or_eq_true, not_or, Bool.not_eq_true] at hQuiet
      exact hQuiet.1.1.1
    apply (acquire_keeps _ _ _).mono
    · exact fun _ _ hState => hState.imp_right fun h =>
        ⟨⟨h.toLeft, h.clean hCleanup, h.kept⟩, h.writers hCleanup⟩
    · exact fun _ _ hState => hState

end Worker

namespace VipProcess

section

variable (dryRun : Bool) {table : VipTable} {ip : IpAddr} {start : VipProcess}

theorem vipContract_runs (leave : VipState → Prop) :
    RunsUnder ip (fun _ _ => True) (vipContract ip leave) where
  does _ hPerform := ⟨_, hPerform⟩
  drop := rfl
  rely h := h
  good := rfl

/-- At every moment of a run the worker of a VIP that was absent at the start keeps its
contract. -/
theorem watched_release (hStart : start.Starts table) (hIp : ip ∈ table.addrs)
    (hAbsent : start.state.attached ip = false) (events : List VipEvent) {i : Nat}
    (hi : i ≤ events.length) :
    (Runs.stateAt (step dryRun table) start events i).Watched table ip (workerContract dryRun ip)
      fun memory => OrLost ip (memory.Idle dryRun ip) := by
  have hNone : start.state.Absent ip := ⟨hAbsent, fun index child hChild => by
    simp [hStart.childless] at hChild⟩
  have hFirst : start.Watched table ip (workerContract dryRun ip)
      fun memory => OrLost ip (memory.Idle dryRun ip) := by
    apply hStart.watched hIp
    · exact ⟨by simp [hStart.childless], by simp [hStart.childless, hStart.settled]⟩
    · exact fun _ => Worker.worker_stable (Worker.orLost_others Worker.idle_others)
    · refine fun locked => .inr ⟨⟨?_, .inl hNone, fun _ => hNone⟩, nofun, fun _ => ?_, fun _ _ => hNone.2⟩
      · intro index child hChild
        simp [hStart.childless] at hChild
      · simp [hStart.untracked]
  exact hFirst.run (vipContract_runs _) Worker.run_keeps (fun _ _ _ _ _ => trivial) hi

end

/-- Whenever a worker submits a release of its VIP, the VIP is not attached and no
command that is left can attach it. -/
theorem release_implies_absence (dryRun : Bool) (table : VipTable) (start : VipProcess)
    (hStart : start.Starts table) (ip : IpAddr) (hIp : ip ∈ table.addrs)
    (hAbsent : start.state.attached ip = false) (events : List VipEvent) (i : Nat)
    (hi : i ≤ events.length) :
    let process := Runs.stateAt (step dryRun table) start events i
    process.pending ip = some (.submitRelease ip) →
      process.state.attached ip = false ∧
        ∀ child ∈ process.state.children, child.reaped = false →
          child.command ≠ .replaceAddress ip := by
  intro process hBefore
  have hSafe := (watched_release dryRun hStart hIp hAbsent events hi).safe
  obtain ⟨await, next, hWorker, hOp⟩ := pending_cases hBefore
  rw [hWorker] at hSafe
  have hOwed : process.state.Absent ip := (hSafe process.state .refl).1 hOp
  exact ⟨hOwed.1, hOwed.no_writer⟩

/-- A bind that loses its authorization at the end, and the cleanup after it. -/
def revokedBind : List VipEvent :=
  goesOn 4 ++ [.work soleVip 0] ++ goesOn 10 ++ succeeds 0 ++ goesOn 3 ++ succeeds 1 ++ goesOn 2 ++
    [.work soleVip 0] ++ goesOn 8 ++ succeeds 2 ++ goesOn 2 ++ succeeds 3 ++ goesOn 7

theorem release_implies_absence_revoked :
    (Runs.stateAt (step false soleTable) soleStart revokedBind 22).state.attached soleVip = true ∧
      (Runs.stateAt (step false soleTable) soleStart revokedBind 46).state.attached soleVip = false :=
  ⟨by decide +kernel, (release_implies_absence false soleTable soleStart soleStart_starts soleVip
    (by decide) rfl revokedBind 46 (by decide) (by decide +kernel)).1⟩

end VipProcess

end KeepAfloat
