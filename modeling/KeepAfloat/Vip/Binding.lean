import KeepAfloat.Vip.Rules

/-! Tracking of the VIP through a bind, as long as none of its commands is lost: an
address that may be attached is tracked, and a program that is dropped leaves it so. -/

namespace KeepAfloat

open Async

namespace VipState

/-- The VIP is absent, or cleanup will find it. -/
def Covered (ip : IpAddr) (state : VipState) : Prop :=
  state.Absent ip ∨ ip ∈ state.tracked .bound ∨ ip ∈ state.tracked .needsRecleanup

/-- What a worker leaves behind wherever it is dropped. -/
structure Left (dryRun : Bool) (ip : IpAddr) (state : VipState) : Prop where
  quiet : state.Quiet ip none
  covered : state.Covered ip
  dry : dryRun = true → state.Absent ip

/-- What a bind leaves behind; a completed binding stays tracked as one. -/
structure Kept (dryRun witness : Bool) (ip : IpAddr) (state : VipState) : Prop
    extends Left dryRun ip state where
  clean : ip ∉ state.tracked .needsRecleanup
  kept : witness = true → ip ∈ state.tracked .bound ∧ ip ∉ state.tracked .pendingFirstBind

/-- What a bind starts from. -/
structure Loose (dryRun witness : Bool) (ip : IpAddr) (state : VipState) : Prop
    extends Kept dryRun witness ip state where
  writers : witness = false → state.Reaped (.replaceAddress ip) none

/-- A first bind has no completed binding and no stale writer; the VIP is absent unless
an earlier first bind is pending. -/
def First (witness wasPending firstBind : Bool) (ip : IpAddr) (writer : Option Nat)
    (state : VipState) : Prop :=
  firstBind = true → witness = false ∧ state.Reaped (.replaceAddress ip) writer ∧
    (wasPending = false → state.Absent ip)

/-- The tracking was read and is not changed yet. -/
structure Ready (dryRun witness wasPending firstBind : Bool) (ip : IpAddr) (state : VipState) : Prop
    extends Kept dryRun witness ip state where
  first : state.First witness wasPending firstBind ip none
  again : firstBind = false → ip ∉ state.tracked .pendingFirstBind

/-- The VIP is tracked; commands run. -/
structure Binding (dryRun witness wasPending firstBind : Bool) (ip : IpAddr)
    (waiting writer : Option Nat) (state : VipState) : Prop where
  quiet : state.Quiet ip waiting
  bound : ip ∈ state.tracked .bound
  clean : ip ∉ state.tracked .needsRecleanup
  first : state.First witness wasPending firstBind ip writer
  again : firstBind = false → ip ∉ state.tracked .pendingFirstBind
  dry : dryRun = true → state.Absent ip

section

variable {dryRun witness wasPending firstBind : Bool} {ip : IpAddr} {waiting writer : Option Nat}
variable {state after : VipState}

theorem Others.covered (h : Others ip state after) (hCovered : state.Covered ip) :
    after.Covered ip := by
  rcases hCovered with hAbsent | hBound | hNeeds
  · exact .inl (h.absent hAbsent)
  · exact .inr (.inl ((h.tracked _).mpr hBound))
  · exact .inr (.inr ((h.tracked _).mpr hNeeds))

theorem Others.left (h : Others ip state after) (hLeft : state.Left dryRun ip) :
    after.Left dryRun ip where
  quiet := h.quiet hLeft.quiet
  covered := h.covered hLeft.covered
  dry hDry := h.absent (hLeft.dry hDry)

theorem Others.keeps (h : Others ip state after) (hKept : state.Kept dryRun witness ip) :
    after.Kept dryRun witness ip where
  toLeft := h.left hKept.toLeft
  clean := h.untracked hKept.clean
  kept hWitness := ⟨(h.tracked _).mpr (hKept.kept hWitness).1, h.untracked (hKept.kept hWitness).2⟩

theorem Others.loose (h : Others ip state after) (hLoose : state.Loose dryRun witness ip) :
    after.Loose dryRun witness ip where
  toKept := h.keeps hLoose.toKept
  writers hNone := h.reaped rfl (hLoose.writers hNone)

theorem Others.first (h : Others ip state after)
    (hFirst : state.First witness wasPending firstBind ip writer) :
    after.First witness wasPending firstBind ip writer := by
  intro hBind
  obtain ⟨hWitness, hReaped, hAbsent⟩ := hFirst hBind
  exact ⟨hWitness, h.reaped rfl hReaped, fun hPending => h.absent (hAbsent hPending)⟩

theorem Others.ready (h : Others ip state after)
    (hReady : state.Ready dryRun witness wasPending firstBind ip) :
    after.Ready dryRun witness wasPending firstBind ip where
  toKept := h.keeps hReady.toKept
  first := h.first hReady.first
  again hBind := h.untracked (hReady.again hBind)

theorem Others.binding (h : Others ip state after)
    (hBinding : state.Binding dryRun witness wasPending firstBind ip waiting writer) :
    after.Binding dryRun witness wasPending firstBind ip waiting writer where
  quiet := h.quiet hBinding.quiet
  bound := (h.tracked _).mpr hBinding.bound
  clean := h.untracked hBinding.clean
  first := h.first hBinding.first
  again hBind := h.untracked (hBinding.again hBind)
  dry hDry := h.absent (hBinding.dry hDry)

/-- A bind that waits for nothing can be dropped. -/
theorem Binding.kept (h : state.Binding dryRun witness wasPending firstBind ip none writer) :
    state.Kept dryRun witness ip where
  quiet := h.quiet
  covered := .inr (.inl h.bound)
  dry := h.dry
  clean := h.clean
  kept := by
    intro hWitness
    refine ⟨h.bound, ?_⟩
    cases hBind : firstBind with
    | true => exact absurd ((h.first hBind).1.symm.trans hWitness) (by simp)
    | false => exact h.again hBind

/-- A bind that waits for a command can be dropped. -/
theorem Binding.drop {command : VipCommand} {index : Nat} {property : VipState → Prop}
    (h : state.Binding dryRun witness wasPending firstBind ip (some index) writer)
    (hRunning : state.Running command index property) :
    (state.drop (.wait command index)).Kept dryRun witness ip := by
  have hDropped : (state.drop (.wait command index)).Binding dryRun witness wasPending firstBind ip
      none writer := by
    refine ⟨h.quiet.drop hRunning, ?_, ?_, ?_, ?_, fun hDry => (h.dry hDry).drop _⟩
    · rw [drop_tracked]
      exact h.bound
    · rw [drop_tracked]
      exact h.clean
    · intro hBind
      obtain ⟨hWitness, hReaped, hAbsent⟩ := h.first hBind
      exact ⟨hWitness, hReaped.drop _, fun hPending => (hAbsent hPending).drop _⟩
    · rw [drop_tracked]
      exact h.again
  exact hDropped.kept

/-- The answer of the probe, or nothing known. -/
theorem Binding.forgetAbsence
    (h : state.Binding dryRun witness wasPending firstBind ip waiting writer) :
    state.Binding dryRun witness true firstBind ip waiting writer :=
  { h with first := fun hBind => ⟨(h.first hBind).1, (h.first hBind).2.1, fun h => by cases h⟩ }

end

end VipState

namespace LocalVip

open VipState

section

variable {machine : Machine VipOp VipOp.Answer VipState} {contract : Contract machine} {ip : IpAddr}
variable {dryRun witness wasPending firstBind : Bool}
variable (works : WorksOn ip contract)
  (hLeave : ∀ state, state.Kept dryRun witness ip → contract.leave state)

theorem binding_stable {waiting writer : Option Nat} (works : WorksOn ip contract) :
    contract.Stable (Binding dryRun witness wasPending firstBind ip waiting writer) :=
  works.stable Others.binding

theorem kept_stable (works : WorksOn ip contract) :
    contract.Stable (Kept dryRun witness ip) :=
  works.stable Others.keeps

theorem loose_stable (works : WorksOn ip contract) : contract.Stable (Loose dryRun witness ip) :=
  works.stable Others.loose

include works hLeave

/-- A command other than the address command. -/
theorem status_binding {command : VipCommand} (hAddress : command.address = ip)
    (hOther : command ≠ .replaceAddress ip) :
    contract.Triple (Binding dryRun witness wasPending firstBind ip none none) (Vip.status command)
      fun _ => Binding dryRun witness wasPending firstBind ip none none := by
  apply works.status fun index state =>
    state.Binding dryRun witness wasPending firstBind ip (some index) none ∧
      state.Running command index fun _ => True
  · exact binding_stable works
  · exact fun index => (binding_stable works).and (works.running_stable hAddress)
  · exact fun _ => binding_stable works
  · exact fun state _ hState => hLeave state hState.kept
  · intro state _ hState _
    refine ⟨⟨hState.quiet.spawned command, hState.bound, hState.clean, ?_, hState.again, ?_⟩,
      running_spawned state command _⟩
    · intro hBind
      obtain ⟨hWitness, hReaped, hAbsent⟩ := hState.first hBind
      exact ⟨hWitness, hReaped.spawned_of_ne hOther,
        fun hPending => (hAbsent hPending).spawned_of_ne hOther⟩
    · exact fun hDry => (hState.dry hDry).spawned_of_ne hOther
  · exact fun index state _ hState => hLeave _ (hState.1.drop hState.2)
  · exact fun _ _ hState => hState
  · intro index state child hGood hState hChild _ hFinished
    exact { hState.1 with quiet := hState.1.quiet.finished hChild hFinished }

/-- The address command, the only writer that a first bind leaves. -/
theorem status_replaceAddress (hAlive : ∀ state, contract.good state → ¬state.Lost ip) (hDry : dryRun = false) :
    contract.Triple (Binding dryRun witness true firstBind ip none none)
      (Vip.status (.replaceAddress ip))
      fun _ => Binding dryRun witness true firstBind ip none none := by
  apply works.status fun index state =>
    state.Binding dryRun witness true firstBind ip (some index) (some index) ∧
      state.Running (.replaceAddress ip) index fun _ => True
  · exact binding_stable works
  · exact fun index => (binding_stable works).and (works.running_stable rfl)
  · exact fun _ => binding_stable works
  · exact fun state _ hState => hLeave state hState.kept
  · intro state _ hState _
    refine ⟨⟨hState.quiet.spawned _, hState.bound, hState.clean, ?_, hState.again, ?_⟩,
      running_spawned state _ _⟩
    · intro hBind
      obtain ⟨hWitness, hReaped, -⟩ := hState.first hBind
      exact ⟨hWitness, hReaped.spawned _, fun hPending => by cases hPending⟩
    · exact fun hWet => absurd (hDry.symm.trans hWet) (by simp)
  · exact fun index state _ hState => hLeave _ (hState.1.drop hState.2)
  · exact fun _ _ hState => hState
  · intro index state child hGood hState hChild hCommand hFinished
    have hReaped : child.reaped = true := by
      apply reaped_of_not_lost _ hChild hFinished
      rw [hCommand]
      exact hAlive state hGood
    refine { hState.1 with quiet := hState.1.quiet.finished hChild hFinished, first := ?_ }
    intro hBind
    obtain ⟨hWitness, hWriters, hAbsent⟩ := hState.1.first hBind
    exact ⟨hWitness, hWriters.finished hChild hReaped, hAbsent⟩

theorem replaceMarker_binding :
    contract.Triple (Binding dryRun witness wasPending firstBind ip none none)
      (OwnershipMarker.replace ip)
      fun _ => Binding dryRun witness wasPending firstBind ip none none := by
  apply Contract.Triple.bind (status_binding works hLeave rfl (by simp))
  intro result
  rcases result with ⟨_ | _⟩ | _
  · exact .keep (binding_stable works)
  · exact .keep (binding_stable works)
  · exact .keep (binding_stable works)

theorem deleteMarker_binding :
    contract.Triple (Binding dryRun witness wasPending firstBind ip none none)
      (OwnershipMarker.delete ip)
      fun _ => Binding dryRun witness wasPending firstBind ip none none := by
  apply Contract.Triple.bind (status_binding works hLeave rfl (by simp))
  intro result
  rcases result with ⟨_ | _⟩ | _
  · apply Contract.Triple.bind (works.probeMarker (binding_stable works)
      fun state _ hState => hLeave state hState.kept)
    intro found
    rcases found with _ | _ | _
    · exact .keep (binding_stable works)
    · exact .keep (binding_stable works)
    · exact .keep (binding_stable works)
  · exact .keep (binding_stable works)
  · exact .keep (binding_stable works)

/-- A probe after a failed first bind, which leaves no writer. -/
theorem probeAddress_binding :
    contract.Triple (Binding dryRun witness true true ip none none)
      (Vip.perform (.probeAddress ip))
      fun found => Binding dryRun witness (found != some false) true ip none none := by
  apply (works.probeAddress (binding_stable works)
    (fun state _ (hState : state.Binding dryRun witness true true ip none none) =>
      hLeave state hState.kept)
    (works.stable Others.absent)
    (fun _ _ _ hState _ hAttached => ⟨hAttached, (hState.first rfl).2.1⟩)).mono
  · exact fun _ _ hState => hState
  · intro found state hState
    obtain ⟨hBinding, hAbsent⟩ := hState
    obtain ⟨hWitness, hReaped, -⟩ := hBinding.first rfl
    refine { hBinding with first := fun _ => ⟨hWitness, hReaped, fun hFound => ?_⟩ }
    exact hAbsent (by simpa using hFound)

/-- Ownership is given up only for an address that is proven absent. -/
theorem removeAfterFailedFirstBind_binding :
    contract.Triple (Binding dryRun witness true true ip none none)
      (OwnershipMarker.removeAfterFailedFirstBind ip)
      fun outcome => Binding dryRun witness (!outcome.toBool) true ip none none := by
  apply Contract.Triple.bind (probeAddress_binding works hLeave)
  intro found
  rcases found with _ | _ | _
  · exact .keep (binding_stable works)
  · apply Contract.Triple.bind (deleteMarker_binding works hLeave)
    intro outcome
    cases outcome with
    | ok _ => exact .keep (binding_stable works)
    | error _ => exact .done (binding_stable works) fun _ _ hState => hState.forgetAbsence
  · exact .keep (binding_stable works)

/-- The tracking of a first bind goes while the VIP is absent. -/
theorem forget_binding (error : EffectError) :
    contract.Triple (Binding dryRun witness false true ip none none)
      (do
        Vip.remove .bound ip
        Vip.remove .pendingFirstBind ip
        return .error error)
      fun outcome => Kept dryRun (completed outcome || witness) ip := by
  have hBound : contract.Triple (Binding dryRun witness false true ip none none)
      (Vip.remove .bound ip) fun _ => Kept dryRun witness ip := by
    apply works.remove (binding_stable works) (fun state _ hState => hLeave state hState.kept) _
      (kept_stable works)
    intro state _ hState
    obtain ⟨hWitness, -, hAbsent⟩ := hState.first rfl
    refine ⟨⟨hState.quiet, .inl (hAbsent rfl), hState.dry⟩, ?_, fun hKept => ?_⟩
    · simpa using hState.clean
    · exact absurd (hWitness.symm.trans hKept) (by simp)
  have hPending : contract.Triple (Kept dryRun witness ip) (Vip.remove .pendingFirstBind ip)
      fun _ => Kept dryRun witness ip := by
    apply works.remove (kept_stable works) (fun state _ hState => hLeave state hState) _
      (kept_stable works)
    intro state _ hState
    refine ⟨⟨hState.quiet, ?_, hState.dry⟩, ?_, fun hKept => ?_⟩
    · exact hState.covered.imp_right fun hTracked => by simpa using hTracked
    · simpa using hState.clean
    · simpa using (hState.kept hKept).1
  exact .bind hBound fun _ => .bind hPending fun _ =>
    .keep (kept_stable works)

theorem failBind_keeps (error : EffectError) :
    contract.Triple (Binding dryRun witness true firstBind ip none none)
      (failBind ip firstBind error) fun outcome => Kept dryRun (completed outcome || witness) ip := by
  cases firstBind with
  | false => exact .done (binding_stable works) fun _ _ hState => hState.kept
  | true =>
      apply Contract.Triple.bind (removeAfterFailedFirstBind_binding works hLeave)
      intro outcome
      cases outcome with
      | ok _ => exact forget_binding works hLeave _
      | error _ => exact .done (binding_stable works) fun _ _ hState => hState.kept

theorem insertPending_binding :
    contract.Triple (Binding dryRun witness wasPending true ip none none)
      (Vip.insert .pendingFirstBind ip)
      fun _ => Binding dryRun witness wasPending true ip none none := by
  apply works.insert (binding_stable works) (fun state _ hState => hLeave state hState.kept) _
    (binding_stable works)
  intro state _ hState
  exact { hState with
    bound := by simpa using hState.bound
    clean := by simpa using hState.clean
    again := fun hBind => by cases hBind }

theorem failMarker_keeps (error : EffectError) :
    contract.Triple (Binding dryRun witness wasPending firstBind ip none none)
      (failMarker ip wasPending firstBind error)
      fun outcome => Kept dryRun (completed outcome || witness) ip := by
  cases firstBind with
  | false => exact .done (binding_stable works) fun _ _ hState => hState.kept
  | true =>
      simp only [failMarker, if_true]
      by_cases hCertain : (wasPending || error.isIo) = true
      · simp only [hCertain, if_true]
        exact .bind (insertPending_binding works hLeave) fun _ =>
          .done (binding_stable works) fun _ _ hState => hState.kept
      · simp only [hCertain, Bool.false_eq_true, if_false]
        have hFresh : wasPending = false := by
          cases wasPending with
          | true => exact absurd rfl hCertain
          | false => rfl
        subst hFresh
        exact forget_binding works hLeave _

theorem finishRounds_keeps (rounds : Nat) :
    contract.Triple (Binding dryRun witness wasPending firstBind ip none none)
      (finishRounds ip firstBind rounds) fun done => Kept dryRun (done || witness) ip := by
  have hAsk := works.authorized (binding_stable works)
    fun state _ (hState : state.Binding dryRun witness wasPending firstBind ip none none) =>
      hLeave state hState.kept
  have hAgain : ∀ state : VipState,
      state.Binding dryRun witness wasPending false ip none none → state.Kept dryRun true ip :=
    fun state hState => { hState.kept with kept := fun _ => ⟨hState.bound, hState.again rfl⟩ }
  induction rounds with
  | zero =>
      apply Contract.Triple.bind hAsk
      intro allowed
      cases allowed with
      | false => exact .done (binding_stable works) fun _ _ hState => hState.kept
      | true =>
          cases firstBind with
          | false => exact .done (binding_stable works) fun state _ hState => hAgain state hState
          | true =>
              have hPending : contract.Triple (Binding dryRun witness wasPending true ip none none)
                  (Vip.remove .pendingFirstBind ip) fun _ => Kept dryRun true ip := by
                apply works.remove (binding_stable works)
                  (fun state _ hState => hLeave state hState.kept) _ (kept_stable works)
                intro state _ hState
                refine ⟨⟨hState.quiet, ?_, hState.dry⟩, ?_, fun _ => ?_⟩
                · exact hState.kept.covered.imp_right fun hTracked => by simpa using hTracked
                · simpa using hState.clean
                · simpa using hState.bound
              exact .bind hPending fun _ => .keep (kept_stable works)
  | succ rounds ih =>
      apply Contract.Triple.bind hAsk
      intro allowed
      cases allowed with
      | false => exact .done (binding_stable works) fun _ _ hState => hState.kept
      | true =>
          cases firstBind with
          | false => exact .done (binding_stable works) fun state _ hState => hAgain state hState
          | true => exact ih

theorem finishBind_keeps :
    contract.Triple (Binding dryRun witness wasPending firstBind ip none none)
      (finishBind ip firstBind) fun outcome => Kept dryRun (completed outcome || witness) ip := by
  apply Contract.Triple.bind (works.contention (binding_stable works)
    fun state _ hState => hLeave state hState.kept)
  intro rounds
  apply Contract.Triple.bind (finishRounds_keeps works hLeave rounds)
  intro done
  cases done with
  | true => exact .keep (kept_stable works)
  | false => exact .keep (kept_stable works)

theorem bindAddress_keeps (hAlive : ∀ state, contract.good state → ¬state.Lost ip)
    (hDry : dryRun = false) :
    contract.Triple (Binding dryRun witness true firstBind ip none none) (bindAddress ip firstBind)
      fun outcome => Kept dryRun (completed outcome || witness) ip := by
  apply Contract.Triple.bind (status_replaceAddress works hLeave hAlive hDry)
  intro result
  rcases result with ⟨_ | _⟩ | _
  · exact failBind_keeps works hLeave _
  · exact finishBind_keeps works hLeave
  · exact failBind_keeps works hLeave _

theorem bindMarked_keeps (hAlive : ∀ state, contract.good state → ¬state.Lost ip)
    (hDry : dryRun = false) :
    contract.Triple (Binding dryRun witness wasPending firstBind ip none none)
      (bindMarked ip wasPending firstBind)
      fun outcome => Kept dryRun (completed outcome || witness) ip := by
  apply Contract.Triple.bind (replaceMarker_binding works hLeave)
  intro result
  cases result with
  | error error => exact failMarker_keeps works hLeave error
  | ok _ =>
      apply Contract.Triple.bind (works.authorized (binding_stable works)
        fun state _ hState => hLeave state hState.kept)
      intro allowed
      cases allowed with
      | false => exact .done (binding_stable works) fun _ _ hState => hState.kept
      | true =>
          apply (bindAddress_keeps works hLeave hAlive hDry).mono
          · exact fun _ _ hState => hState.forgetAbsence
          · exact fun _ _ hState => hState

theorem bindTracked_keeps (hAlive : ∀ state, contract.good state → ¬state.Lost ip) :
    contract.Triple (Ready dryRun witness wasPending firstBind ip)
      (bindTracked dryRun ip wasPending firstBind)
      fun outcome => Kept dryRun (completed outcome || witness) ip := by
  have hInsert : contract.Triple (Ready dryRun witness wasPending firstBind ip)
      (Vip.insert .bound ip)
      fun _ => Binding dryRun witness wasPending firstBind ip none none := by
    apply works.insert (works.stable Others.ready)
      (fun state _ hState => hLeave state hState.toKept) _ (binding_stable works)
    intro state _ hState
    refine ⟨hState.quiet, by simp, ?_, hState.first, ?_, hState.dry⟩
    · simpa using hState.clean
    · simpa using hState.again
  have hPending : contract.Triple (Binding dryRun witness wasPending firstBind ip none none)
      (Vip.insertIf firstBind .pendingFirstBind ip)
      fun _ => Binding dryRun witness wasPending firstBind ip none none := by
    cases firstBind with
    | false => exact .keep (binding_stable works)
    | true => exact insertPending_binding works hLeave
  refine .bind hInsert fun _ => .bind hPending fun _ => ?_
  apply Contract.Triple.bind (works.authorized (binding_stable works)
    fun state _ hState => hLeave state hState.kept)
  intro allowed
  cases allowed with
  | false => exact .done (binding_stable works) fun _ _ hState => hState.kept
  | true =>
      cases hDry : dryRun with
      | true =>
          subst hDry
          exact finishBind_keeps works hLeave
      | false =>
          subst hDry
          exact bindMarked_keeps works hLeave hAlive rfl

theorem isFirstBind_ready :
    contract.Triple
      (fun state => Loose dryRun witness ip state ∧
        (wasPending = true ↔ ip ∈ state.tracked .pendingFirstBind))
      (isFirstBind wasPending ip)
      fun firstBind => Ready dryRun witness wasPending firstBind ip := by
  have hStable : contract.Stable fun state => Loose dryRun witness ip state ∧
      (wasPending = true ↔ ip ∈ state.tracked .pendingFirstBind) :=
    (loose_stable works).and (works.stable fun hOthers hIff => hIff.trans (hOthers.tracked _).symm)
  cases wasPending with
  | true =>
      refine .done hStable fun state _ hState => ?_
      have hWitness : witness = false := by
        rw [← Bool.not_eq_true]
        exact fun hWitness => (hState.1.kept hWitness).2 (hState.2.mp rfl)
      exact ⟨hState.1.toKept,
        fun _ => ⟨hWitness, hState.1.writers hWitness, fun hPending => by cases hPending⟩,
        fun hBind => by cases hBind⟩
  | false =>
      apply Contract.Triple.bind (works.contains hStable
        (fun state _ hState => hLeave state hState.1.toKept) .bound)
      intro bound
      refine .done (hStable.and (works.stable fun hOthers hIff =>
        hIff.trans (hOthers.tracked _).symm)) fun state _ hState => ?_
      obtain ⟨⟨hLoose, hPending⟩, hBound⟩ := hState
      refine ⟨hLoose.toKept, fun hBind => ?_, fun _ hIn => by simpa using hPending.mpr hIn⟩
      have hOut : ip ∉ state.tracked .bound := fun hIn => by simp [hBound.mpr hIn] at hBind
      have hWitness : witness = false := by
        rw [← Bool.not_eq_true]
        exact fun hWitness => hOut (hLoose.kept hWitness).1
      refine ⟨hWitness, hLoose.writers hWitness, fun _ => ?_⟩
      exact hLoose.covered.resolve_right fun hTracked => hTracked.elim hOut hLoose.clean

/-- A bind keeps the VIP tracked as long as it may be attached. -/
theorem bindKernel_keeps (hAlive : ∀ state, contract.good state → ¬state.Lost ip) :
    contract.Triple (Loose dryRun witness ip) (bindKernel dryRun ip)
      fun outcome => Kept dryRun (completed outcome || witness) ip := by
  apply Contract.Triple.bind (works.authorized (loose_stable works)
    fun state _ hState => hLeave state hState.toKept)
  intro allowed
  cases allowed with
  | false => exact .done (loose_stable works) fun _ _ hState => hState.toKept
  | true =>
      apply Contract.Triple.bind (works.contains (loose_stable works)
        (fun state _ hState => hLeave state hState.toKept) .pendingFirstBind)
      intro wasPending
      apply Contract.Triple.bind (isFirstBind_ready works hLeave)
      intro firstBind
      apply Contract.Triple.bind (works.authorized (works.stable Others.ready)
        fun state _ hState => hLeave state hState.toKept)
      intro still
      cases still with
      | false => exact .done (works.stable Others.ready) fun _ _ hState => hState.toKept
      | true => exact bindTracked_keeps works hLeave hAlive

end

end LocalVip

end KeepAfloat
