import KeepAfloat.Vip.Footprint
import KeepAfloat.Vip.Watch

/-! The marker route of a VIP through a bind: marker before address, address before
marker. Nothing here is excused by a lost command. What is asked of a run instead is that no
writer of the address can take effect any more when the worker deletes it or finds it absent. -/

namespace KeepAfloat

open Async

/-- What the worker takes care of: when it deletes the address, or probes an address that is not
attached, no writer can take effect any more. -/
def VipOp.TakesCare (ip : IpAddr) (state : VipState) (op : VipOp) : Prop :=
  op = .spawn (.deleteAddress ip) ∨ op = .probeAddress ip ∧ state.attached ip = false →
    state.Spent (.replaceAddress ip)

instance (command : VipCommand) (state : VipState) : Decidable (state.Spent command) :=
  inferInstanceAs (Decidable (∀ child ∈ state.children, _))

instance (ip : IpAddr) (state : VipState) (op : VipOp) : Decidable (VipOp.TakesCare ip state op) :=
  inferInstanceAs (Decidable (_ → _))

/-- The machine of careful runs. -/
def carefulMachine (ip : IpAddr) : Machine VipOp VipOp.Answer VipState where
  does state op answer after := VipOp.TakesCare ip state op ∧
    ∃ choice, state.perform op choice = some (answer, after)
  drop := VipState.drop

def markingContract (ip : IpAddr) (leave : VipState → Prop) : Contract (carefulMachine ip) where
  rely := VipState.Others ip
  good := VipState.Good
  demand _ _ := True
  leave := leave
  does_good := fun hGood ⟨_, _, hPerform⟩ => hGood.perform hPerform

section

variable {ip : IpAddr} {leave : VipState → Prop}

theorem markingContract_works : WorksOn ip (markingContract ip leave) where
  does h := h.2
  drop := rfl
  rely h := h
  good h := h
  demand _ := trivial

theorem markingContract_runs : RunsUnder ip (VipOp.TakesCare ip) (markingContract ip leave) where
  does hCare hPerform := ⟨hCare, _, hPerform⟩
  drop := rfl
  rely h := h
  good := rfl

end

namespace VipState

/-- An attached address would be attributed to this instance. -/
def Attributed (ip : IpAddr) (state : VipState) : Prop := state.Gone ip ∨ state.Marked ip

/-- No command is left that removes the marker. -/
def Unerased (ip : IpAddr) (state : VipState) : Prop := state.Reaped (.deleteMarker ip) none

/-- What a worker leaves behind wherever it is dropped. -/
structure Unattended (dryRun : Bool) (ip : IpAddr) (state : VipState) : Prop where
  quiet : state.Quiet ip none
  attributed : state.Attributed ip
  tracked : state.Unerased ip ∨ ip ∈ state.tracked .bound ∨ ip ∈ state.tracked .needsRecleanup
  dry : dryRun = true → state.Gone ip ∧ state.Unerased ip

/-- What a bind leaves behind. -/
structure Retained (dryRun witness : Bool) (ip : IpAddr) (state : VipState) : Prop
    extends Unattended dryRun ip state where
  clean : ip ∉ state.tracked .needsRecleanup
  kept : witness = true → ip ∈ state.tracked .bound ∧ ip ∉ state.tracked .pendingFirstBind ∧
    state.Unerased ip

/-- What a bind starts from. -/
structure Steady (dryRun witness : Bool) (ip : IpAddr) (state : VipState) : Prop
    extends Retained dryRun witness ip state where
  unerased : state.Unerased ip

/-- How far a bind has come. -/
inductive Standing where
  | attributed
  | marked
  | absent

def Standing.Holds (ip : IpAddr) : Standing → VipState → Prop
  | attributed => Attributed ip
  | marked => Marked ip
  | absent => Gone ip

/-- The VIP is tracked; commands run. -/
structure Placing (dryRun witness firstBind : Bool) (ip : IpAddr) (standing : Standing)
    (waiting : Option Nat) (state : VipState) : Prop where
  quiet : state.Quiet ip waiting
  bound : ip ∈ state.tracked .bound
  clean : ip ∉ state.tracked .needsRecleanup
  first : firstBind = true → witness = false
  again : firstBind = false → ip ∉ state.tracked .pendingFirstBind
  standing : standing.Holds ip state
  unerased : state.Unerased ip
  dry : dryRun = true → state.Gone ip

section

variable {dryRun witness firstBind : Bool} {ip : IpAddr} {standing : Standing}
variable {waiting : Option Nat} {state after : VipState}

theorem Standing.attributed_of (h : standing.Holds ip state) : state.Attributed ip := by
  cases standing with
  | attributed => exact h
  | marked => exact .inr h
  | absent => exact .inl h

theorem Others.attributed (h : Others ip state after) (hState : state.Attributed ip) :
    after.Attributed ip :=
  hState.imp h.gone h.marked

theorem Others.holds (h : Others ip state after) (hState : standing.Holds ip state) :
    standing.Holds ip after := by
  cases standing with
  | attributed => exact h.attributed hState
  | marked => exact h.marked hState
  | absent => exact h.gone hState

theorem Others.unerased (h : Others ip state after) (hState : state.Unerased ip) :
    after.Unerased ip := h.reaped rfl hState

theorem Others.unattended (h : Others ip state after) (hState : state.Unattended dryRun ip) :
    after.Unattended dryRun ip where
  quiet := h.quiet hState.quiet
  attributed := h.attributed hState.attributed
  tracked := hState.tracked.imp h.unerased (.imp (h.tracked _).mpr (h.tracked _).mpr)
  dry hDry := ⟨h.gone (hState.dry hDry).1, h.unerased (hState.dry hDry).2⟩

theorem Others.retained (h : Others ip state after) (hState : state.Retained dryRun witness ip) :
    after.Retained dryRun witness ip where
  toUnattended := h.unattended hState.toUnattended
  clean hIn := hState.clean ((h.tracked _).mp hIn)
  kept hWitness := ⟨(h.tracked _).mpr (hState.kept hWitness).1,
    fun hIn => (hState.kept hWitness).2.1 ((h.tracked _).mp hIn), h.unerased (hState.kept hWitness).2.2⟩

theorem Others.steady (h : Others ip state after) (hState : state.Steady dryRun witness ip) :
    after.Steady dryRun witness ip :=
  ⟨h.retained hState.toRetained, h.unerased hState.unerased⟩

theorem Others.placing (h : Others ip state after)
    (hState : state.Placing dryRun witness firstBind ip standing waiting) :
    after.Placing dryRun witness firstBind ip standing waiting where
  quiet := h.quiet hState.quiet
  bound := (h.tracked _).mpr hState.bound
  clean hIn := hState.clean ((h.tracked _).mp hIn)
  first := hState.first
  again hBind hIn := hState.again hBind ((h.tracked _).mp hIn)
  standing := h.holds hState.standing
  unerased := h.unerased hState.unerased
  dry hDry := h.gone (hState.dry hDry)

theorem Placing.retained (h : state.Placing dryRun witness firstBind ip standing none) :
    state.Retained dryRun witness ip where
  quiet := h.quiet
  attributed := Standing.attributed_of h.standing
  tracked := .inl h.unerased
  dry hDry := ⟨h.dry hDry, h.unerased⟩
  clean := h.clean
  kept := by
    intro hWitness
    refine ⟨h.bound, ?_, h.unerased⟩
    cases hBind : firstBind with
    | true => exact absurd ((h.first hBind).symm.trans hWitness) (by simp)
    | false => exact h.again hBind

theorem Marked.drop (h : state.Marked ip) (op : VipOp) : (state.drop op).Marked ip :=
  ⟨by rw [drop_marker]; exact h.1, h.2.drop op⟩

theorem Placing.drop {command : VipCommand} {index : Nat} {property : VipState → Prop}
    (h : state.Placing dryRun witness firstBind ip standing (some index))
    (hRunning : state.Running command index property) :
    (state.drop (.wait command index)).Retained dryRun witness ip := by
  have hDropped : (state.drop (.wait command index)).Placing dryRun witness firstBind ip
      .attributed none := by
    refine ⟨h.quiet.drop hRunning, ?_, ?_, h.first, ?_, ?_, h.unerased.drop _,
      fun hDry => (h.dry hDry).drop _⟩
    · rw [drop_tracked]
      exact h.bound
    · rw [drop_tracked]
      exact h.clean
    · rw [drop_tracked]
      exact h.again
    · exact (Standing.attributed_of h.standing).imp (fun hAbsent => hAbsent.drop _)
        fun hMarked => hMarked.drop _
  exact hDropped.retained

/-- A command that neither attaches the address nor removes the marker, or one that
attaches it under the marker. -/
theorem Placing.spawned {command : VipCommand}
    (h : state.Placing dryRun witness firstBind ip standing none)
    (hEraser : command ≠ .deleteMarker ip)
    (hWriter : standing = .marked ∧ dryRun = false ∨ command ≠ .replaceAddress ip) :
    (state.spawned command).Placing dryRun witness firstBind ip standing
      (some state.children.length) where
  quiet := h.quiet.spawned command
  bound := h.bound
  clean := h.clean
  first := h.first
  again := h.again
  unerased := h.unerased.spawned_of_ne hEraser
  standing := by
    have hMarked : state.Marked ip → (state.spawned command).Marked ip :=
      fun hState => ⟨hState.1, hState.2.spawned_of_ne hEraser⟩
    rcases hWriter with ⟨rfl, -⟩ | hOther
    · exact hMarked h.standing
    · have hAbsent : state.Gone ip → (state.spawned command).Gone ip :=
        fun hState => hState.spawned_of_ne hOther
      cases standing with
      | attributed => exact h.standing.imp hAbsent hMarked
      | marked => exact hMarked h.standing
      | absent => exact hAbsent h.standing
  dry := by
    intro hDry
    rcases hWriter with ⟨-, hWet⟩ | hOther
    · exact absurd (hWet.symm.trans hDry) (by simp)
    · exact (h.dry hDry).spawned_of_ne hOther

/-- The marker of an absent address is removed. `settled` says that no other command
was left that removes it. -/
structure Erasing (ip : IpAddr) (sets : VipState → Prop) (settled : Bool) (waiting : Option Nat)
    (state : VipState) : Prop where
  quiet : state.Quiet ip waiting
  absent : state.Gone ip
  sets : sets state
  erasers : settled = true → state.Reaped (.deleteMarker ip) waiting

/-- A property of the tracking of one VIP. -/
def Tracking (ip : IpAddr) (sets : VipState → Prop) : Prop :=
  ∀ state after : VipState, (∀ set, ip ∈ after.tracked set ↔ ip ∈ state.tracked set) →
    sets state → sets after

theorem Others.erasing {sets : VipState → Prop} (hSets : Tracking ip sets) {settled : Bool}
    (h : Others ip state after) (hState : state.Erasing ip sets settled waiting) :
    after.Erasing ip sets settled waiting where
  quiet := h.quiet hState.quiet
  absent := h.gone hState.absent
  sets := hSets state after h.tracked hState.sets
  erasers hSettled := h.reaped rfl (hState.erasers hSettled)

theorem Placing.weaken (h : state.Placing dryRun witness firstBind ip standing waiting) :
    state.Placing dryRun witness firstBind ip .attributed waiting :=
  { h with standing := Standing.attributed_of h.standing }

end

end VipState

namespace LocalVip

open VipState

section

variable {ip : IpAddr} {leave : VipState → Prop} {dryRun witness firstBind : Bool}
  {standing : Standing}

theorem placing_stable {waiting : Option Nat} :
    (markingContract ip leave).Stable (Placing dryRun witness firstBind ip standing waiting) :=
  markingContract_works.stable Others.placing

theorem retained_stable : (markingContract ip leave).Stable (Retained dryRun witness ip) :=
  markingContract_works.stable Others.retained

theorem steady_stable : (markingContract ip leave).Stable (Steady dryRun witness ip) :=
  markingContract_works.stable Others.steady

variable (hLeave : ∀ state, state.Retained dryRun witness ip → leave state)

include hLeave

/-- The marker command. Its success proves the marker, since no command is left that
removes it. -/
theorem replaceMarker_placing :
    (markingContract ip leave).Triple (Placing dryRun witness firstBind ip .attributed none)
      (OwnershipMarker.replace ip) fun outcome =>
        Placing dryRun witness firstBind ip (if outcome.toBool then .marked else .attributed)
          none := by
  have hStatus : (markingContract ip leave).Triple
      (Placing dryRun witness firstBind ip .attributed none) (Vip.status (.replaceMarker ip))
      fun result => Placing dryRun witness firstBind ip
        (if result = .exited true then .marked else .attributed) none := by
    apply markingContract_works.status fun index state =>
      state.Placing dryRun witness firstBind ip .attributed (some index) ∧
        state.Running (.replaceMarker ip) index fun state => state.marker ip = true
    · exact placing_stable
    · refine fun index => markingContract_works.stable fun hOthers hState =>
        ⟨hOthers.placing hState.1, ?_⟩
      apply hOthers.running rfl _ _ hState.2
      · exact fun hMarker => (hOthers.marked ⟨hMarker, hState.1.unerased⟩).1
      · exact fun child next hChild hNext hCommand hNot hNow =>
          hOthers.marks index child next hChild hNext hCommand hNot hNow
    · exact fun _ => placing_stable
    · exact fun state _ hState => hLeave state hState.retained
    · exact fun state _ hState _ => ⟨hState.spawned (by simp) (.inr (by simp)),
        running_spawned state _ _⟩
    · exact fun index state _ hState => hLeave _ (hState.1.drop hState.2)
    · exact fun _ _ hState => hState
    · intro index state child hGood hState hChild _ hFinished
      obtain ⟨hPlacing, other, hOther, -, hEffect⟩ := hState
      obtain rfl := Option.some.inj (hChild.symm.trans hOther)
      refine { hPlacing with quiet := hPlacing.quiet.finished hChild hFinished, standing := ?_ }
      split
      · rename_i hSuccess
        have hSound := hGood.sound child (List.mem_of_getElem? hChild)
        exact ⟨hEffect (hSound.succeeded hFinished hSuccess), hPlacing.unerased⟩
      · exact hPlacing.standing
  apply Contract.Triple.bind hStatus
  rintro (⟨_ | _⟩ | _)
  · exact .keep placing_stable
  · exact .keep placing_stable
  · exact .keep placing_stable

/-- The address command, under the marker. -/
theorem replaceAddress_placing (hDry : dryRun = false) :
    (markingContract ip leave).Triple (Placing dryRun witness firstBind ip .marked none)
      (Vip.status (.replaceAddress ip))
      fun _ => Placing dryRun witness firstBind ip .marked none := by
  apply markingContract_works.status fun index state =>
    state.Placing dryRun witness firstBind ip .marked (some index) ∧
      state.Running (.replaceAddress ip) index fun _ => True
  · exact placing_stable
  · exact fun index => placing_stable.and (markingContract_works.running_stable rfl)
  · exact fun _ => placing_stable
  · exact fun state _ hState => hLeave state hState.retained
  · exact fun state _ hState _ => ⟨hState.spawned (by simp) (.inl ⟨rfl, hDry⟩),
      running_spawned state _ _⟩
  · exact fun index state _ hState => hLeave _ (hState.1.drop hState.2)
  · exact fun _ _ hState => hState
  · intro index state child _ hState hChild _ hFinished
    exact { hState.1 with quiet := hState.1.quiet.finished hChild hFinished }

end

section

variable {ip : IpAddr} {leave sets : VipState → Prop} {settled : Bool}
variable (hSets : Tracking ip sets)
  (hLeave : ∀ state : VipState, state.Quiet ip none → state.Gone ip → sets state → leave state)

include hSets

theorem erasing_stable {waiting : Option Nat} :
    (markingContract ip leave).Stable (Erasing ip sets settled waiting) :=
  markingContract_works.stable (Others.erasing hSets)

include hLeave

/-- Removing the marker of an absent address; success proves the command reaped. -/
theorem deleteMarker_erasing :
    (markingContract ip leave).Triple (Erasing ip sets settled none) (OwnershipMarker.delete ip)
      fun outcome => Erasing ip sets (settled && outcome.toBool) none := by
  have hStatus : (markingContract ip leave).Triple (Erasing ip sets settled none)
      (Vip.status (.deleteMarker ip)) fun result =>
        Erasing ip sets (settled && decide (result ≠ .failed)) none := by
    apply markingContract_works.status fun index state =>
      state.Erasing ip sets settled (some index) ∧
        state.Running (.deleteMarker ip) index fun _ => True
    · exact erasing_stable hSets
    · exact fun index => (erasing_stable hSets).and (markingContract_works.running_stable rfl)
    · exact fun _ => erasing_stable hSets
    · exact fun state _ hState => hLeave state hState.quiet hState.absent hState.sets
    · intro state _ hState _
      refine ⟨⟨hState.quiet.spawned _, hState.absent.spawned_of_ne (by simp), ?_, ?_⟩,
        running_spawned state _ _⟩
      · exact hSets state _ (fun _ => Iff.rfl) hState.sets
      · exact fun hSettled => (hState.erasers hSettled).spawned _
    · intro index state _ hState
      apply hLeave _ (hState.1.quiet.drop hState.2) (hState.1.absent.drop _)
      exact hSets state _ (fun _ => by rw [drop_tracked]) hState.1.sets
    · exact fun _ _ hState => { hState with erasers := fun hSettled => by simp at hSettled }
    · intro index state child hGood hState hChild _ hFinished
      refine { hState.1 with quiet := hState.1.quiet.finished hChild hFinished, erasers := ?_ }
      intro hBoth
      obtain ⟨hSettled, hExited⟩ := (Bool.and_eq_true _ _).mp hBoth
      have hSound := hGood.sound child (List.mem_of_getElem? hChild)
      exact (hState.1.erasers hSettled).finished hChild
        (hSound.exited hFinished (of_decide_eq_true hExited))
  have hWeaken : ∀ (known : Bool) (state : VipState), state.Erasing ip sets (settled && known) none →
      state.Erasing ip sets (settled && false) none :=
    fun known state hState => { hState with erasers := fun hSettled => by simp at hSettled }
  apply Contract.Triple.bind hStatus
  rintro (⟨_ | _⟩ | _)
  · apply Contract.Triple.bind (markingContract_works.probeMarker (erasing_stable hSets)
      fun state _ hState => hLeave state hState.quiet hState.absent hState.sets)
    rintro (_ | _ | _)
    · exact .done (erasing_stable hSets) fun state _ hState => hWeaken _ state hState
    · exact .keep (erasing_stable hSets)
    · exact .done (erasing_stable hSets) fun state _ hState => hWeaken _ state hState
  · exact .keep (erasing_stable hSets)
  · exact .keep (erasing_stable hSets)

end

section

variable {ip : IpAddr} {leave : VipState → Prop} {dryRun witness firstBind : Bool}
variable (hLeave : ∀ state, state.Retained dryRun witness ip → leave state)

include hLeave

/-- The tracking of a first bind goes while the VIP is absent and no command is left that
removes its marker. -/
theorem forget_placing (error : EffectError) :
    (markingContract ip leave).Triple (Placing dryRun witness true ip .attributed none)
      (do
        Vip.remove .bound ip
        Vip.remove .pendingFirstBind ip
        return .error error)
      fun outcome => Retained dryRun (completed outcome || witness) ip := by
  have hBound : (markingContract ip leave).Triple (Placing dryRun witness true ip .attributed none)
      (Vip.remove .bound ip) fun _ => Retained dryRun witness ip := by
    apply markingContract_works.remove placing_stable
      (fun state _ hState => hLeave state hState.retained) _ retained_stable
    intro state _ hState
    refine ⟨⟨hState.quiet, hState.standing, .inl hState.unerased,
      fun hDry => ⟨hState.dry hDry, hState.unerased⟩⟩, ?_, fun hKept => ?_⟩
    · simpa using hState.clean
    · exact absurd ((hState.first rfl).symm.trans hKept) (by simp)
  have hPending : (markingContract ip leave).Triple (Retained dryRun witness ip)
      (Vip.remove .pendingFirstBind ip) fun _ => Retained dryRun witness ip := by
    apply markingContract_works.remove retained_stable (fun state _ hState => hLeave state hState) _
      retained_stable
    intro state _ hState
    refine ⟨⟨hState.quiet, hState.attributed, ?_, hState.dry⟩, ?_, fun hKept => ?_⟩
    · exact hState.tracked.imp_right fun hTracked => by simpa using hTracked
    · simpa using hState.clean
    · obtain ⟨hIn, -, hUnerased⟩ := hState.kept hKept
      exact ⟨by simpa using hIn, by simp, hUnerased⟩
  exact .bind hBound fun _ => .bind hPending fun _ => .keep retained_stable

theorem probeAddress_placing :
    (markingContract ip leave).Triple (Placing dryRun witness firstBind ip .marked none)
      (Vip.perform (.probeAddress ip)) fun found => Placing dryRun witness firstBind ip
        (if found = some false then .absent else .attributed) none := by
  apply (markingContract_works.probeAddress placing_stable
    (fun state _ (hState : state.Placing dryRun witness firstBind ip .marked none) =>
      hLeave state hState.retained)
    (markingContract_works.stable Others.gone)
    (fun _ _ _ _ hStep hAttached => ⟨hAttached, hStep.1 (.inr ⟨rfl, hAttached⟩)⟩)).mono
  · exact fun _ _ hState => hState
  · rintro found state ⟨hState, hAbsent⟩
    refine { hState with standing := ?_ }
    split
    · exact hAbsent ‹_›
    · exact .inr hState.standing

/-- After a failed first bind the marker goes only with the address. -/
theorem removeAfterFailedFirstBind_placing (hDry : dryRun = false) (hWitness : witness = false) :
    (markingContract ip leave).Triple (Placing dryRun witness true ip .marked none)
      (OwnershipMarker.removeAfterFailedFirstBind ip) fun outcome state =>
        state.Retained dryRun witness ip ∧
          (outcome.toBool = true → state.Placing dryRun witness true ip .attributed none) := by
  have hUnknown : ∀ error, (markingContract ip leave).Triple
      (Placing dryRun witness true ip .attributed none) (pure (.error error))
      fun (outcome : Except EffectError Unit) state => state.Retained dryRun witness ip ∧
        (outcome.toBool = true → state.Placing dryRun witness true ip .attributed none) :=
    fun _ => .done placing_stable fun _ _ hState => ⟨hState.retained, nofun⟩
  have hSets : Tracking ip fun state => ip ∈ state.tracked .bound ∧
      ip ∉ state.tracked .needsRecleanup :=
    fun state after hSame hState => ⟨(hSame _).mpr hState.1, fun hIn => hState.2 ((hSame _).mp hIn)⟩
  have hErase : ∀ (known : Bool) (state : VipState),
      state.Erasing ip (fun state => ip ∈ state.tracked .bound ∧
        ip ∉ state.tracked .needsRecleanup) known none → state.Retained dryRun witness ip := by
    intro known state hState
    refine ⟨⟨hState.quiet, .inl hState.absent, .inr (.inl hState.sets.1), ?_⟩, hState.sets.2, ?_⟩
    · exact fun hYes => absurd (hDry.symm.trans hYes) (by simp)
    · exact fun hYes => absurd (hWitness.symm.trans hYes) (by simp)
  apply Contract.Triple.bind (probeAddress_placing hLeave)
  rintro (_ | _ | _)
  · exact hUnknown _
  · have hDelete := @deleteMarker_erasing ip leave _ true hSets fun state hQuiet hAbsent hIn =>
      hLeave state (hErase false state ⟨hQuiet, hAbsent, hIn, nofun⟩)
    apply Contract.Triple.bind (hDelete.mono
      (fun _ _ hState => ⟨hState.quiet, hState.standing, ⟨hState.bound, hState.clean⟩,
        fun _ => hState.unerased⟩) fun _ _ hState => hState)
    rintro (_ | _)
    · exact .done (erasing_stable hSets) fun state _ hState => ⟨hErase _ state hState, nofun⟩
    · refine .done (erasing_stable hSets) fun state _ hState => ⟨hErase _ state hState, fun _ => ?_⟩
      exact ⟨hState.quiet, hState.sets.1, hState.sets.2, fun _ => hWitness, nofun,
        .inl hState.absent, hState.erasers rfl, fun _ => hState.absent⟩
  · exact hUnknown _

theorem failBind_retains (hDry : dryRun = false) (error : EffectError) :
    (markingContract ip leave).Triple (Placing dryRun witness firstBind ip .marked none)
      (failBind ip firstBind error)
      fun outcome => Retained dryRun (completed outcome || witness) ip := by
  cases firstBind with
  | false => exact .done placing_stable fun _ _ hState => hState.retained
  | true =>
      refine .assume (fun _ hState => hState.first rfl) fun hWitness => ?_
      apply Contract.Triple.bind (removeAfterFailedFirstBind_placing hLeave hDry hWitness)
      rintro (_ | _)
      · refine .done (retained_stable.and (.imp _ placing_stable)) fun _ _ hState => hState.1
      · exact (forget_placing hLeave error).mono (fun _ _ hState => hState.2 rfl)
          fun _ _ hState => hState

theorem insertPending_placing :
    (markingContract ip leave).Triple (Placing dryRun witness true ip .attributed none)
      (Vip.insert .pendingFirstBind ip) fun _ => Placing dryRun witness true ip .attributed none := by
  apply markingContract_works.insert placing_stable
    (fun state _ hState => hLeave state hState.retained) _ placing_stable
  intro state _ hState
  exact { hState with
    bound := by simpa using hState.bound
    clean := by simpa using hState.clean
    again := nofun }

theorem failMarker_retains (wasPending : Bool) (error : EffectError) :
    (markingContract ip leave).Triple (Placing dryRun witness firstBind ip .attributed none)
      (failMarker ip wasPending firstBind error)
      fun outcome => Retained dryRun (completed outcome || witness) ip := by
  cases firstBind with
  | false => exact .done placing_stable fun _ _ hState => hState.retained
  | true =>
      simp only [failMarker, if_true]
      split
      · exact .bind (insertPending_placing hLeave) fun _ =>
          .done placing_stable fun _ _ hState => hState.retained
      · exact forget_placing hLeave error

theorem finishRounds_retains (rounds : Nat) :
    (markingContract ip leave).Triple (Placing dryRun witness firstBind ip .attributed none)
      (finishRounds ip firstBind rounds) fun done => Retained dryRun (done || witness) ip := by
  have hAsk := markingContract_works.authorized placing_stable
    fun state _ (hState : state.Placing dryRun witness firstBind ip .attributed none) =>
      hLeave state hState.retained
  have hAgain : ∀ state : VipState,
      state.Placing dryRun witness false ip .attributed none → state.Retained dryRun true ip :=
    fun state hState => { hState.retained with
      kept := fun _ => ⟨hState.bound, hState.again rfl, hState.unerased⟩ }
  induction rounds with
  | zero =>
      apply Contract.Triple.bind hAsk
      rintro (_ | _)
      · exact .done placing_stable fun _ _ hState => hState.retained
      · cases firstBind with
        | false => exact .done placing_stable fun state _ hState => hAgain state hState
        | true =>
            have hPending : (markingContract ip leave).Triple
                (Placing dryRun witness true ip .attributed none) (Vip.remove .pendingFirstBind ip)
                fun _ => Retained dryRun true ip := by
              apply markingContract_works.remove placing_stable
                (fun state _ hState => hLeave state hState.retained) _ retained_stable
              intro state _ hState
              refine ⟨⟨hState.quiet, hState.standing, .inl hState.unerased,
                fun hDry => ⟨hState.dry hDry, hState.unerased⟩⟩, ?_, fun _ => ?_⟩
              · simpa using hState.clean
              · exact ⟨by simpa using hState.bound, by simp, hState.unerased⟩
            exact .bind hPending fun _ => .keep retained_stable
  | succ rounds ih =>
      apply Contract.Triple.bind hAsk
      rintro (_ | _)
      · exact .done placing_stable fun _ _ hState => hState.retained
      · cases firstBind with
        | false => exact .done placing_stable fun state _ hState => hAgain state hState
        | true => exact ih

theorem finishBind_retains :
    (markingContract ip leave).Triple (Placing dryRun witness firstBind ip .attributed none)
      (finishBind ip firstBind)
      fun outcome => Retained dryRun (completed outcome || witness) ip := by
  apply Contract.Triple.bind (markingContract_works.contention placing_stable
    fun state _ hState => hLeave state hState.retained)
  intro rounds
  apply Contract.Triple.bind (finishRounds_retains hLeave rounds)
  rintro (_ | _)
  · exact .keep retained_stable
  · exact .keep retained_stable

theorem bindMarked_retains (hDry : dryRun = false) (wasPending : Bool) :
    (markingContract ip leave).Triple (Placing dryRun witness firstBind ip .attributed none)
      (bindMarked ip wasPending firstBind)
      fun outcome => Retained dryRun (completed outcome || witness) ip := by
  apply Contract.Triple.bind (replaceMarker_placing hLeave)
  rintro (error | _)
  · exact failMarker_retains hLeave wasPending error
  · apply Contract.Triple.bind (markingContract_works.authorized placing_stable
      fun state _ hState => hLeave state hState.retained)
    rintro (_ | _)
    · exact .done placing_stable fun _ _ hState => hState.retained
    · apply Contract.Triple.bind (replaceAddress_placing hLeave hDry)
      rintro (⟨_ | _⟩ | _)
      · exact failBind_retains hLeave hDry _
      · exact (finishBind_retains hLeave).mono (fun _ _ hState => hState.weaken)
          fun _ _ hState => hState
      · exact failBind_retains hLeave hDry _

theorem bindTracked_retains (wasPending : Bool) :
    (markingContract ip leave).Triple
      (fun state => state.Steady dryRun witness ip ∧ (firstBind = true → witness = false) ∧
        (firstBind = false → ip ∉ state.tracked .pendingFirstBind))
      (bindTracked dryRun ip wasPending firstBind)
      fun outcome => Retained dryRun (completed outcome || witness) ip := by
  have hInsert : (markingContract ip leave).Triple
      (fun state => state.Steady dryRun witness ip ∧ (firstBind = true → witness = false) ∧
        (firstBind = false → ip ∉ state.tracked .pendingFirstBind))
      (Vip.insert .bound ip) fun _ => Placing dryRun witness firstBind ip .attributed none := by
    apply markingContract_works.insert _ (fun state _ hState => hLeave state hState.1.toRetained) _
      placing_stable
    · intro state _ hState
      obtain ⟨hSteady, hFirst, hAgain⟩ := hState
      refine ⟨hSteady.quiet, by simp, ?_, hFirst, ?_, hSteady.attributed, hSteady.unerased,
        fun hDry => (hSteady.dry hDry).1⟩
      · simpa using hSteady.clean
      · simpa using hAgain
    · exact steady_stable.and ((Contract.Stable.const _).and (markingContract_works.stable
        fun hOthers hOut hBind hIn => hOut hBind ((hOthers.tracked _).mp hIn)))
  have hPending : (markingContract ip leave).Triple
      (Placing dryRun witness firstBind ip .attributed none)
      (Vip.insertIf firstBind .pendingFirstBind ip)
      fun _ => Placing dryRun witness firstBind ip .attributed none := by
    cases firstBind with
    | false => exact .keep placing_stable
    | true => exact insertPending_placing hLeave
  refine .bind hInsert fun _ => .bind hPending fun _ => ?_
  apply Contract.Triple.bind (markingContract_works.authorized placing_stable
    fun state _ hState => hLeave state hState.retained)
  rintro (_ | _)
  · exact .done placing_stable fun _ _ hState => hState.retained
  · cases hDry : dryRun with
    | true =>
        subst hDry
        exact finishBind_retains hLeave
    | false =>
        subst hDry
        exact bindMarked_retains hLeave rfl wasPending

theorem isFirstBind_steady (wasPending : Bool) :
    (markingContract ip leave).Triple
      (fun state => state.Steady dryRun witness ip ∧
        (wasPending = true ↔ ip ∈ state.tracked .pendingFirstBind))
      (isFirstBind wasPending ip) fun firstBind state => state.Steady dryRun witness ip ∧
        (firstBind = true → witness = false) ∧
        (firstBind = false → ip ∉ state.tracked .pendingFirstBind) := by
  have hStable : (markingContract ip leave).Stable fun state => state.Steady dryRun witness ip ∧
      (wasPending = true ↔ ip ∈ state.tracked .pendingFirstBind) :=
    steady_stable.and (markingContract_works.stable fun hOthers hIff =>
      hIff.trans (hOthers.tracked _).symm)
  cases wasPending with
  | true =>
      refine .done hStable fun state _ hState => ⟨hState.1, fun _ => ?_, nofun⟩
      rw [← Bool.not_eq_true]
      exact fun hWitness => (hState.1.kept hWitness).2.1 (hState.2.mp rfl)
  | false =>
      apply Contract.Triple.bind (markingContract_works.contains hStable
        (fun state _ hState => hLeave state hState.1.toRetained) .bound)
      intro bound
      refine .done (hStable.and (markingContract_works.stable fun hOthers hIff =>
        hIff.trans (hOthers.tracked _).symm)) fun state _ hState => ?_
      obtain ⟨⟨hSteady, hPending⟩, hBound⟩ := hState
      refine ⟨hSteady, fun hBind => ?_, fun _ hIn => by simpa using hPending.mpr hIn⟩
      rw [← Bool.not_eq_true]
      intro hWitness
      simp [hBound.mpr (hSteady.kept hWitness).1] at hBind

/-- A bind keeps the address attributed. -/
theorem bindKernel_retains :
    (markingContract ip leave).Triple (Steady dryRun witness ip) (bindKernel dryRun ip)
      fun outcome => Retained dryRun (completed outcome || witness) ip := by
  apply Contract.Triple.bind (markingContract_works.authorized steady_stable
    fun state _ hState => hLeave state hState.toRetained)
  rintro (_ | _)
  · exact .done steady_stable fun _ _ hState => hState.toRetained
  · apply Contract.Triple.bind (markingContract_works.contains steady_stable
      (fun state _ hState => hLeave state hState.toRetained) .pendingFirstBind)
    intro wasPending
    apply Contract.Triple.bind (isFirstBind_steady hLeave wasPending)
    intro firstBind
    have hStable : (markingContract ip leave).Stable fun state => state.Steady dryRun witness ip ∧
        (firstBind = true → witness = false) ∧
        (firstBind = false → ip ∉ state.tracked .pendingFirstBind) :=
      steady_stable.and ((Contract.Stable.const _).and (markingContract_works.stable
        fun hOthers hOut hBind hIn => hOut hBind ((hOthers.tracked _).mp hIn)))
    apply Contract.Triple.bind (markingContract_works.authorized hStable
      fun state _ hState => hLeave state hState.1.toRetained)
    rintro (_ | _)
    · exact .done hStable fun _ _ hState => hState.1.toRetained
    · exact bindTracked_retains hLeave wasPending

end

end LocalVip

end KeepAfloat
