import KeepAfloat.Vip.Rules

/-! Which operations the programs come to: those of one VIP touch no other, and only
the worker publishes releases. -/

namespace KeepAfloat

open Async

/-- An operation on these addresses that publishes nothing. -/
def VipOp.Within (addresses : Set IpAddr) (op : VipOp) : Prop :=
  op.submits = false ∧ ∀ ip, op.address = some ip → ip ∈ addresses

namespace Vip

variable {ip : IpAddr} {Value : Type}

theorem perform_within {op : VipOp} (hSubmits : op.submits = false)
    (hAddress : ∀ other, op.address = some other → other = ip) :
    (perform op).Only (VipOp.Within {ip}) :=
  Prog.Only.perform ⟨hSubmits, hAddress⟩

theorem pure_within (value : Value) : (pure value : Vip Value).Only (VipOp.Within {ip}) :=
  trivial

theorem authorized_within : authorized.Only (VipOp.Within {ip}) :=
  perform_within rfl fun _ h => by cases h

theorem contains_within (set : TrackedSet) : (contains set ip).Only (VipOp.Within {ip}) :=
  perform_within rfl fun _ h => (Option.some.inj h).symm

theorem insert_within (set : TrackedSet) : (insert set ip).Only (VipOp.Within {ip}) :=
  perform_within rfl fun _ h => (Option.some.inj h).symm

theorem remove_within (set : TrackedSet) : (remove set ip).Only (VipOp.Within {ip}) :=
  perform_within rfl fun _ h => (Option.some.inj h).symm

theorem insertIf_within (condition : Bool) (set : TrackedSet) :
    (insertIf condition set ip).Only (VipOp.Within {ip}) := by
  cases condition with
  | true => exact insert_within set
  | false => exact pure_within ()

theorem removeIf_within (condition : Bool) (set : TrackedSet) :
    (removeIf condition set ip).Only (VipOp.Within {ip}) := by
  cases condition with
  | true => exact remove_within set
  | false => exact pure_within ()

theorem settled_within : settled.Only (VipOp.Within {ip}) :=
  perform_within rfl fun _ h => by cases h

theorem probeAddress_within : (perform (.probeAddress ip)).Only (VipOp.Within {ip}) :=
  perform_within rfl fun _ h => (Option.some.inj h).symm

theorem probeMarker_within : (perform (.probeMarker ip)).Only (VipOp.Within {ip}) :=
  perform_within rfl fun _ h => (Option.some.inj h).symm

theorem status_within {command : VipCommand} (hCommand : command.address = ip) :
    (status command).Only (VipOp.Within {ip}) := by
  apply Prog.Only.bind
  · exact perform_within rfl fun _ h => (Option.some.inj h).symm.trans hCommand
  · intro child
    cases child with
    | none => exact pure_within _
    | some index => exact perform_within rfl fun _ h => (Option.some.inj h).symm.trans hCommand

end Vip

namespace OwnershipMarker

variable {ip : IpAddr}

theorem replace_within : (replace ip).Only (VipOp.Within {ip}) := by
  apply Prog.Only.bind (Vip.status_within rfl)
  rintro (⟨_ | _⟩ | _) <;> exact trivial

theorem delete_within : (delete ip).Only (VipOp.Within {ip}) := by
  apply Prog.Only.bind (Vip.status_within rfl)
  rintro (⟨_ | _⟩ | _)
  · apply Prog.Only.bind Vip.probeMarker_within
    rintro (_ | _ | _) <;> exact trivial
  · exact trivial
  · exact trivial

theorem removeAfterFailedFirstBind_within :
    (removeAfterFailedFirstBind ip).Only (VipOp.Within {ip}) := by
  apply Prog.Only.bind Vip.probeAddress_within
  rintro (_ | _ | _)
  · exact trivial
  · apply Prog.Only.bind delete_within
    rintro (_ | _) <;> exact trivial
  · exact trivial

end OwnershipMarker

namespace LocalVip

variable {ip : IpAddr}

theorem finishRounds_within (firstBind : Bool) (rounds : Nat) :
    (finishRounds ip firstBind rounds).Only (VipOp.Within {ip}) := by
  induction rounds with
  | zero =>
      apply Prog.Only.bind Vip.authorized_within
      rintro (_ | _)
      · exact trivial
      · cases firstBind with
        | false => exact trivial
        | true => exact (Vip.remove_within _).bind fun _ => trivial
  | succ rounds ih =>
      apply Prog.Only.bind Vip.authorized_within
      rintro (_ | _)
      · exact trivial
      · cases firstBind with
        | false => exact trivial
        | true => exact ih

theorem finishBind_within (firstBind : Bool) :
    (finishBind ip firstBind).Only (VipOp.Within {ip}) := by
  apply Prog.Only.bind (Vip.perform_within rfl fun _ h => by cases h)
  intro rounds
  apply Prog.Only.bind (finishRounds_within firstBind rounds)
  rintro (_ | _) <;> exact trivial

theorem failBind_within (firstBind : Bool) (error : EffectError) :
    (failBind ip firstBind error).Only (VipOp.Within {ip}) := by
  cases firstBind with
  | false => exact trivial
  | true =>
      apply Prog.Only.bind OwnershipMarker.removeAfterFailedFirstBind_within
      rintro (_ | _)
      · exact trivial
      · exact (Vip.remove_within _).bind fun _ => (Vip.remove_within _).bind fun _ => trivial

theorem failMarker_within (wasPending firstBind : Bool) (error : EffectError) :
    (failMarker ip wasPending firstBind error).Only (VipOp.Within {ip}) := by
  cases firstBind with
  | false => exact trivial
  | true =>
      simp only [failMarker, if_true]
      split
      · exact (Vip.insert_within _).bind fun _ => trivial
      · exact (Vip.remove_within _).bind fun _ => (Vip.remove_within _).bind fun _ => trivial

theorem bindAddress_within (firstBind : Bool) :
    (bindAddress ip firstBind).Only (VipOp.Within {ip}) := by
  apply Prog.Only.bind (Vip.status_within rfl)
  rintro (⟨_ | _⟩ | _)
  · exact failBind_within _ _
  · exact finishBind_within _
  · exact failBind_within _ _

theorem bindMarked_within (wasPending firstBind : Bool) :
    (bindMarked ip wasPending firstBind).Only (VipOp.Within {ip}) := by
  apply Prog.Only.bind OwnershipMarker.replace_within
  rintro (_ | _)
  · exact failMarker_within _ _ _
  · apply Prog.Only.bind Vip.authorized_within
    rintro (_ | _)
    · exact trivial
    · exact bindAddress_within _

theorem bindTracked_within (dryRun wasPending firstBind : Bool) :
    (bindTracked dryRun ip wasPending firstBind).Only (VipOp.Within {ip}) := by
  refine (Vip.insert_within _).bind fun _ => (Vip.insertIf_within _ _).bind fun _ => ?_
  apply Prog.Only.bind Vip.authorized_within
  rintro (_ | _)
  · exact trivial
  · cases dryRun with
    | true => exact finishBind_within _
    | false => exact bindMarked_within _ _

theorem isFirstBind_within (wasPending : Bool) :
    (isFirstBind wasPending ip).Only (VipOp.Within {ip}) := by
  cases wasPending with
  | true => exact trivial
  | false => exact (Vip.contains_within _).bind fun _ => trivial

theorem bindKernel_within (dryRun : Bool) : (bindKernel dryRun ip).Only (VipOp.Within {ip}) := by
  apply Prog.Only.bind Vip.authorized_within
  rintro (_ | _)
  · exact trivial
  · refine (Vip.contains_within _).bind fun _ => (isFirstBind_within _).bind fun _ => ?_
    apply Prog.Only.bind Vip.authorized_within
    rintro (_ | _)
    · exact trivial
    · exact bindTracked_within _ _ _

theorem deleteKernel_within : (deleteKernel ip).Only (VipOp.Within {ip}) := by
  have hVerify : ∀ success, (verifyDeleteResult ip success).Only (VipOp.Within {ip}) := by
    rintro (_ | _)
    · apply Prog.Only.bind Vip.probeAddress_within
      rintro (_ | _ | _) <;> exact trivial
    · exact trivial
  apply Prog.Only.bind (Vip.status_within rfl)
  rintro (success | _)
  · apply (hVerify success).bind
    rintro (_ | _)
    · exact trivial
    · exact OwnershipMarker.delete_within
  · exact trivial

theorem forget_within (settled : Bool) : (forget ip settled).Only (VipOp.Within {ip}) :=
  (Vip.insertIf_within _ _).bind fun _ => (Vip.remove_within _).bind fun _ =>
    (Vip.remove_within _).bind fun _ => (Vip.removeIf_within _ _).bind fun _ => trivial

theorem unbind_within (dryRun : Bool) : (unbind dryRun ip).Only (VipOp.Within {ip}) := by
  have hTracked : (isTracked ip).Only (VipOp.Within {ip}) := by
    apply Prog.Only.bind (Vip.contains_within _)
    rintro (_ | _)
    · exact Vip.contains_within _
    · exact trivial
  refine Vip.settled_within.bind fun settled => hTracked.bind ?_
  rintro (_ | _)
  · exact trivial
  · cases dryRun with
    | true => exact forget_within _
    | false =>
        apply deleteKernel_within.bind
        rintro (_ | _)
        · exact trivial
        · exact forget_within _

theorem unbindRetrying_within (dryRun : Bool) (retries : Nat) :
    (unbindRetrying dryRun ip retries).Only (VipOp.Within {ip}) := by
  induction retries with
  | zero => exact unbind_within dryRun
  | succ retries ih =>
      apply (unbind_within dryRun).bind
      rintro (_ | _)
      · exact ih
      · exact trivial

theorem unbindAll_within (dryRun : Bool) (table : List IpAddr) :
    (unbindAll dryRun table).Only (VipOp.Within { ip | ip ∈ table }) := by
  induction table with
  | nil => exact trivial
  | cons head rest ih =>
      have hRest : (unbindAll dryRun rest).Only (VipOp.Within { ip | ip ∈ head :: rest }) :=
        ih.mono fun _ hOp => ⟨hOp.1, fun ip hIp => List.mem_cons_of_mem head (hOp.2 ip hIp)⟩
      apply Prog.Only.bind
      · apply (unbindRetrying_within dryRun _).mono
        rintro op ⟨hSubmits, hAddress⟩
        exact ⟨hSubmits, fun ip hIp => (hAddress ip hIp) ▸ List.mem_cons_self⟩
      · rintro (_ | _)
        · exact hRest.bind fun _ => trivial
        · exact hRest

end LocalVip

namespace Worker

variable {ip : IpAddr}

/-- An awaited operation of one worker. -/
def Own (ip : IpAddr) (await : Await VipOp) : Prop :=
  ∀ other, await.op.address = some other → other = ip

theorem own_of_within {Value : Type} {prog : Vip Value} (h : prog.Only (VipOp.Within {ip})) :
    prog.lift.Only (Own ip) :=
  h.lift.mono fun _ hOp => hOp.2

theorem observeIf_own (condition : Bool) : (observeIf condition).Only (Own ip) := by
  cases condition with
  | false => exact trivial
  | true => exact own_of_within (Vip.perform_within rfl fun _ h => by cases h)

theorem cleanUp_own (dryRun armed assignment : Bool) :
    (cleanUp dryRun ip armed assignment).Only (Own ip) := by
  have hUnbind : (LocalVip.unbindAll dryRun [ip]).Only (VipOp.Within {ip}) :=
    (LocalVip.unbindAll_within dryRun [ip]).mono fun _ hOp =>
      ⟨hOp.1, fun other hOther => List.mem_singleton.mp (hOp.2 other hOther)⟩
  have hPublish : (maybePublishRelease ip).Only (Own ip) := by
    apply (own_of_within Vip.settled_within).bind
    rintro (_ | _)
    · exact trivial
    · apply (observeIf_own true).bind
      rintro (_ | _)
      · exact trivial
      · exact Prog.Only.bind ⟨fun _ h => (Option.some.inj h).symm, fun _ => trivial⟩ fun _ => trivial
  refine (own_of_within Vip.settled_within).bind fun settled =>
    (own_of_within hUnbind).bind fun failures => ?_
  split
  · apply (own_of_within (Vip.contains_within _)).bind
    intro again
    split
    · exact hPublish.bind fun _ => trivial
    · exact trivial
  · exact trivial

theorem keep_own (armed witness assignment : Bool) :
    (keep armed witness assignment).Only (Own ip) :=
  (observeIf_own _).bind fun _ => trivial

theorem bind_own (dryRun armed witness assignment : Bool) :
    (bind dryRun ip armed witness assignment).Only (Own ip) := by
  apply ((LocalVip.bindKernel_within dryRun).cancellable.mono fun _ hOp => hOp.2).bind
  rintro (_ | _ | _ | _)
  · exact keep_own _ _ _
  · exact trivial
  · exact keep_own _ _ _
  · apply (observeIf_own true).bind
    rintro (_ | _)
    · exact keep_own _ _ _
    · exact trivial

theorem run_own (dryRun : Bool) (memory : WorkerMemory) :
    (run dryRun ip memory).Only (Own ip) := by
  have hAcquire : ∀ armed assignment,
      (acquire dryRun ip armed memory.witness assignment).Only (Own ip) := by
    intro armed assignment
    apply (observeIf_own true).bind
    rintro (_ | _)
    · exact trivial
    · apply (observeIf_own true).bind
      rintro (_ | _)
      · exact (observeIf_own _).bind fun _ => trivial
      · exact bind_own _ _ _ _
  refine (observeIf_own _).bind fun _ => (observeIf_own _).bind fun _ => (observeIf_own _).bind
    fun _ => (observeIf_own _).bind fun _ => (observeIf_own _).bind fun _ =>
      (observeIf_own _).bind fun _ => ?_
  split
  · exact cleanUp_own _ _ _
  · exact hAcquire _ _

end Worker

/-- What others leave alone survives a program of other addresses. -/
theorem WorksOn.frame {ip : IpAddr} {machine : Machine VipOp VipOp.Answer VipState}
    {contract : Contract machine} (works : WorksOn ip contract) {property : VipState → Prop}
    (hKeeps : ∀ {state after : VipState}, VipState.Others ip state after → property state →
      property after)
    (hLeave : ∀ state, property state → contract.leave state) {Value : Type} {prog : Vip Value}
    {addresses : Set IpAddr} (hIp : ip ∉ addresses) (hOnly : prog.Only (VipOp.Within addresses)) :
    contract.Triple property prog fun _ => property := by
  have hStable : contract.Stable property := works.stable hKeeps
  intro state hGood hState
  induction prog generalizing state with
  | done value => exact fun after hAfter => hStable.later hGood hAfter hState
  | call op next ih =>
      intro before hBefore
      have hGoodBefore := hBefore.good hGood
      have hStateBefore := hStable.later hGood hBefore hState
      have hOp : op.address ≠ some ip := fun hSame => hIp (hOnly.1.2 ip hSame)
      refine ⟨works.demand hOnly.1.1, ?_, fun answer after hDoes => ?_⟩
      · rw [works.drop]
        exact hLeave _ (hKeeps (before.drop_others hOp) hStateBefore)
      · obtain ⟨choice, hPerform⟩ := works.does hDoes
        exact ih answer (hOnly.2 answer) after (contract.does_good hGoodBefore hDoes)
          (hKeeps (VipState.perform_others hOp hPerform) hStateBefore)

end KeepAfloat
