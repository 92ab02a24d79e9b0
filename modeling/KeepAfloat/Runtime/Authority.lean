import KeepAfloat.Admission.Controller
import KeepAfloat.Runtime.Permission

/-! The authority of one running process: a verified quorum result is bound to the
terminal permission of the exact boot that asked for it. -/

namespace KeepAfloat

structure RuntimeAuthority (Instant : Type) where
  localReplica : ReplicaId
  permission : RuntimePermission Instant
  joinBinding : Option JoinBinding

namespace RuntimeAuthority

variable {Instant : Type} [LinearOrder Instant] (digest : Genesis → BitVec 256)

/-- The authority of a boot whose quarantine ends at `ready`. -/
def quarantined (localReplica : ReplicaId) (ready : Instant) : RuntimeAuthority Instant :=
  ⟨localReplica, .quarantined ready, none⟩

def new (localReplica : ReplicaId) (timing : AdmissionTiming Instant) (boot : Instant) :
    Except AdmissionDenied (RuntimeAuthority Instant) :=
  (quarantined localReplica) <$> timing.quarantineDeadline boot

def identity (authority : RuntimeAuthority Instant) (context : AdmissionContext) :
    AuthorityContext :=
  ⟨authority.localReplica.bootNonce, context.genesis.epoch, digest context.genesis, 1⟩

/-- Store the permission that a transition left, with its answer. -/
def settle (authority : RuntimeAuthority Instant) (outcome : Bool × RuntimePermission Instant) :
    Except AdmissionDenied Unit × RuntimeAuthority Instant :=
  (ensure outcome.1 "runtime cannot accept this admission transition",
    { authority with permission := outcome.2 })

/-- The part of accepting a result that moves the permission, at one reading of
the clock. -/
def transition (authority : RuntimeAuthority Instant) (verified : VerifiedAdmission Instant)
    (now : Instant) : Except AdmissionDenied Unit × RuntimeAuthority Instant :=
  if verified.context.localReplica ≠ authority.localReplica then
    (.error ⟨"admission result belongs to another runtime"⟩, authority)
  else
    let context := authority.identity digest verified.context
    match verified.mode with
    | .cold => authority.settle (authority.permission.admitOnce context verified.deadline now)
    | .join (some prepared) =>
        if authority.joinBinding.any (· ≠ prepared) then
          (.error ⟨"join differs from the admitted operation"⟩, authority)
        else
          let outcome := authority.permission.join context prepared.logId verified.deadline now
          { authority with
            joinBinding := if outcome.1 then some prepared else authority.joinBinding }.settle outcome
    | .renew (some _) => authority.settle (authority.permission.renew context verified.deadline now)
    | _ => (.error ⟨"runtime cannot accept this admission transition"⟩, authority)

/-- The fence consulted by every session of this process. -/
def check (authority : RuntimeAuthority Instant) (expected : AdmissionContext) (now : Instant) :
    Except AdmissionDenied Instant × RuntimeAuthority Instant :=
  let answer := authority.permission.current now
  (do
      let (context, deadline) ← okOr answer.1 "runtime has no active admission"
      ensure (expected.localReplica = authority.localReplica ∧
          context = authority.identity digest expected)
        "runtime authority context mismatch"
      return deadline,
    { authority with permission := answer.2 })

/-- Open a session over this fence. The clock is read once by the fence and once
more against the deadline that it answered. -/
def openSession (authority : RuntimeAuthority Instant) (context : AdmissionContext)
    (checked returned : Instant) :
    Except AdmissionDenied AdmissionSession × RuntimeAuthority Instant :=
  if authority.localReplica ≠ context.localReplica then
    (.error ⟨"runtime boot differs from admission context"⟩, authority)
  else
    let answer := authority.check digest context checked
    (do
        let deadline ← answer.1
        ensure (returned < deadline) "admission deadline expired"
        return ⟨context⟩,
      answer.2)

def accept (authority : RuntimeAuthority Instant) (verified : VerifiedAdmission Instant)
    (now checked returned : Instant) :
    Except AdmissionDenied AdmissionSession × RuntimeAuthority Instant :=
  match authority.transition digest verified now with
  | (.error denied, after) => (.error denied, after)
  | (.ok (), after) => after.openSession digest verified.context checked returned

/-- A transition is at most one call of the permission, and never a promotion. -/
theorem transition_permission (authority : RuntimeAuthority Instant)
    (verified : VerifiedAdmission Instant) (now : Instant) :
    (authority.transition digest verified now).2.permission = authority.permission ∨
    ∃ request, (∀ context prepared, request ≠ .markPromoted context prepared) ∧
      (authority.transition digest verified now).2.permission =
        authority.permission.call now request := by
  unfold transition
  split
  · exact .inl rfl
  · dsimp only
    split
    · exact .inr ⟨.admitOnce _ _, by simp, rfl⟩
    · split
      · exact .inl rfl
      · exact .inr ⟨.join _ _ _, by simp, rfl⟩
    · exact .inr ⟨.renew _ _, by simp, rfl⟩
    · exact .inl rfl

theorem transition_local (authority : RuntimeAuthority Instant)
    (verified : VerifiedAdmission Instant) (now : Instant) :
    (authority.transition digest verified now).2.localReplica = authority.localReplica := by
  unfold transition
  split
  · rfl
  · dsimp only
    split
    · rfl
    · split <;> rfl
    · rfl
    · rfl

/-- A transition is accepted only for the exact boot. -/
theorem transition_ok_local {authority : RuntimeAuthority Instant}
    {verified : VerifiedAdmission Instant} {now : Instant}
    (h : (authority.transition digest verified now).1 = .ok ()) :
    verified.context.localReplica = authority.localReplica := by
  by_contra hOther
  simp [transition, hOther] at h

/-- What is active after a transition is the result it accepted, or was active
before. -/
theorem transition_active {authority : RuntimeAuthority Instant}
    {verified : VerifiedAdmission Instant} {now deadline : Instant} {context : AuthorityContext}
    {stage : Stage}
    (h : (authority.transition digest verified now).2.permission = .active context stage deadline) :
    if (authority.transition digest verified now).1 = .ok () then
      context = authority.identity digest verified.context ∧ deadline = verified.deadline
    else authority.permission = .active context stage deadline := by
  have hSettle : ∀ (other : RuntimeAuthority Instant) outcome,
      authority.permission.Installs (authority.identity digest verified.context)
        verified.deadline outcome → outcome.2 = .active context stage deadline →
      if (other.settle outcome).1 = .ok () then
        context = authority.identity digest verified.context ∧ deadline = verified.deadline
      else authority.permission = .active context stage deadline := by
    rintro other ⟨accepted, permission⟩ hInstalls hActive
    dsimp only at hActive
    subst hActive
    rcases hInstalls with ⟨hAccepted, _, hInstalled⟩ | ⟨hAccepted, hSame | hSealed⟩
    · dsimp only at hAccepted hInstalled
      subst hAccepted
      cases hInstalled
      simp [settle, ensure]
    · dsimp only at hAccepted hSame
      subst hAccepted
      simp [settle, ensure, ← hSame]
    · cases hSealed
  by_cases hLocal : verified.context.localReplica = authority.localReplica
  · cases hMode : verified.mode with
    | cold =>
        simp only [transition, hLocal, hMode, ne_eq, not_true_eq_false, if_false] at h ⊢
        exact hSettle authority _ (RuntimePermission.admitOnce_installs _ _ _ _) h
    | join prepared =>
        cases prepared with
        | none =>
            simp only [transition, hLocal, hMode, ne_eq, not_true_eq_false, if_false] at h ⊢
            simpa using h
        | some prepared =>
            by_cases hBound : authority.joinBinding.any (· ≠ prepared)
            · simp only [transition, hLocal, hMode, hBound, ne_eq, not_true_eq_false, if_false,
                if_true] at h ⊢
              simpa using h
            · simp only [transition, hLocal, hMode, hBound, ne_eq, not_true_eq_false, if_false,
                Bool.false_eq_true] at h ⊢
              exact hSettle _ _ (RuntimePermission.join_installs _ _ _ _ _) h
    | renew progress =>
        cases progress with
        | none =>
            simp only [transition, hLocal, hMode, ne_eq, not_true_eq_false, if_false] at h ⊢
            simpa using h
        | some progress =>
            simp only [transition, hLocal, hMode, ne_eq, not_true_eq_false, if_false] at h ⊢
            exact hSettle authority _ (RuntimePermission.renew_installs _ _ _ _) h
  · simp only [transition, hLocal, ne_eq, not_false_eq_true, if_true] at h ⊢
    simpa using h

/-- Accepting reads the permission once more after an accepted transition. -/
theorem accept_permission (authority : RuntimeAuthority Instant)
    (verified : VerifiedAdmission Instant) (now checked returned : Instant) :
    (authority.accept digest verified now checked returned).2.permission =
      if (authority.transition digest verified now).1 = .ok () then
        ((authority.transition digest verified now).2.permission.current checked).2
      else (authority.transition digest verified now).2.permission := by
  have hLocal : (authority.transition digest verified now).1 = .ok () →
      verified.context.localReplica = authority.localReplica := transition_ok_local digest
  have hSame := transition_local digest authority verified now
  unfold accept
  generalize authority.transition digest verified now = outcome at *
  obtain ⟨answer, after⟩ := outcome
  cases answer with
  | error denied => simp
  | ok _ =>
      have hOpen : after.localReplica = verified.context.localReplica := hSame.trans (hLocal rfl).symm
      simp [openSession, check, hOpen]

/-- A call of the process's authority, either directly on its permission or by
accepting a verified result. The latter reads the clock twice more. -/
inductive Call (Instant : Type) where
  | permission (request : RuntimePermission.Call Instant)
  | accept (verified : VerifiedAdmission Instant) (checked returned : Instant)

/-- A call and the reading that it makes first. -/
structure TimedCall (Instant : Type) where
  now : Instant
  call : Call Instant

/-- The last reading of a call. -/
def TimedCall.finished (timed : TimedCall Instant) : Instant :=
  match timed.call with
  | .permission _ => timed.now
  | .accept _ _ returned => returned

/-- The readings within a call follow one another. -/
def TimedCall.WellTimed (timed : TimedCall Instant) : Prop :=
  match timed.call with
  | .permission _ => True
  | .accept _ checked returned => timed.now ≤ checked ∧ checked ≤ returned

/-- Calls at non-decreasing times. -/
def NonDecreasing (calls : List (TimedCall Instant)) : Prop :=
  (∀ timed ∈ calls, timed.WellTimed) ∧
    calls.Pairwise fun earlier later => earlier.finished ≤ later.now

def step (authority : RuntimeAuthority Instant) (timed : TimedCall Instant) :
    RuntimeAuthority Instant :=
  match timed.call with
  | .permission request =>
      { authority with permission := authority.permission.call timed.now request }
  | .accept verified checked returned =>
      (authority.accept digest verified timed.now checked returned).2

/-- What `current` answers during a call, with its reading, if the call gets to it. -/
def currentAnswer (authority : RuntimeAuthority Instant) (timed : TimedCall Instant) :
    Option (Instant × Option (AuthorityContext × Instant)) :=
  match timed.call with
  | .permission .current => some (timed.now, (authority.permission.current timed.now).1)
  | .permission _ => none
  | .accept verified checked _ =>
      let after := authority.transition digest verified timed.now
      if after.1 = .ok () then some (checked, (after.2.permission.current checked).1) else none

/-- Every call makes one move of the permission, which is a promotion only if the
call is, and may then find it expired. -/
theorem step_moves (authority : RuntimeAuthority Instant) (timed : TimedCall Instant) :
    ∃ request next, RuntimePermission.Moves timed.now request authority.permission next ∧
      (∀ context prepared, request = .markPromoted context prepared →
        timed.call = .permission (.markPromoted context prepared)) ∧
      ((step digest authority timed).permission = next ∨
        (step digest authority timed).permission = .sealed) := by
  obtain ⟨now, call⟩ := timed
  cases call with
  | permission request =>
      exact ⟨request, _, RuntimePermission.call_moves now _ request, by rintro _ _ rfl; rfl, .inl rfl⟩
  | accept verified checked returned =>
      have hMoves : ∃ request, RuntimePermission.Moves now request authority.permission
          (authority.transition digest verified now).2.permission ∧
          ∀ context prepared, request ≠ .markPromoted context prepared := by
        rcases transition_permission digest authority verified now with hSame | ⟨request, hNot, hCall⟩
        · rw [hSame]
          exact ⟨.current, .idle _ (by simp), by simp⟩
        · rw [hCall]
          exact ⟨request, RuntimePermission.call_moves now _ request, hNot⟩
      obtain ⟨request, hMove, hNot⟩ := hMoves
      refine ⟨request, _, hMove, fun context prepared h => absurd h (hNot context prepared), ?_⟩
      change (authority.accept digest verified now checked returned).2.permission = _ ∨
        (authority.accept digest verified now checked returned).2.permission = _
      rw [accept_permission]
      split
      · rw [RuntimePermission.current_snd]
        exact RuntimePermission.sealExpired_eq checked _
      · exact .inl rfl

theorem step_precedes (authority : RuntimeAuthority Instant) (timed : TimedCall Instant) :
    authority.permission.Precedes (step digest authority timed).permission := by
  obtain ⟨request, next, hMove, -, hNext⟩ := step_moves digest authority timed
  rcases hNext with hNext | hNext
  · rw [hNext]
    exact hMove.precedes
  · rw [hNext]
    exact RuntimePermission.precedes_sealed _

theorem step_local (authority : RuntimeAuthority Instant) (timed : TimedCall Instant) :
    (step digest authority timed).localReplica = authority.localReplica := by
  obtain ⟨now, call⟩ := timed
  cases call with
  | permission request => rfl
  | accept verified checked returned =>
      have hSame := transition_local digest authority verified now
      simp only [step, accept]
      split
      · rename_i hTransition
        rwa [hTransition] at hSame
      · rename_i hTransition
        rw [hTransition] at hSame
        rw [← hSame]
        unfold openSession
        split <;> rfl

/-- An expired permission is not revived. -/
theorem step_expired {authority : RuntimeAuthority Instant} {timed : TimedCall Instant}
    {context : AuthorityContext} {stage : Stage} {deadline : Instant}
    (h : authority.permission = .active context stage deadline) (hNow : deadline ≤ timed.now) :
    (step digest authority timed).permission = .active context stage deadline ∨
      (step digest authority timed).permission = .sealed := by
  obtain ⟨now, call⟩ := timed
  cases call with
  | permission request =>
      right
      change authority.permission.call now request = .sealed
      rw [h]
      exact RuntimePermission.call_expired hNow request
  | accept verified checked returned =>
      have hAfter : (authority.transition digest verified now).2.permission =
          .active context stage deadline ∨
          (authority.transition digest verified now).2.permission = .sealed := by
        rcases transition_permission digest authority verified now with hSame | ⟨request, -, hCall⟩
        · exact .inl (hSame.trans h)
        · right
          rw [hCall, h]
          exact RuntimePermission.call_expired hNow request
      change (authority.accept digest verified now checked returned).2.permission = _ ∨
        (authority.accept digest verified now checked returned).2.permission = _
      rw [accept_permission]
      split
      · rw [RuntimePermission.current_snd]
        rcases RuntimePermission.sealExpired_eq checked
          (authority.transition digest verified now).2.permission with hKept | hSealed
        · rwa [hKept]
        · exact .inr hSealed
      · exact hAfter

/-- Only a promotion of the same context and operation makes a learner vote. -/
theorem step_promoted {authority : RuntimeAuthority Instant} {timed : TimedCall Instant}
    {context context' : AuthorityContext} {operation : LogId} {deadline deadline' : Instant}
    (h : authority.permission = .active context (.joining operation) deadline)
    (h' : (step digest authority timed).permission = .active context' .voting deadline') :
    timed.call = .permission (.markPromoted context operation) ∧ context' = context ∧
      deadline' = deadline := by
  obtain ⟨request, next, hMove, hRequest, hNext⟩ := step_moves digest authority timed
  rcases hNext with hNext | hNext
  · rw [← hNext, h, h'] at hMove
    cases hMove with
    | promote hPromoted => exact ⟨hRequest _ _ hPromoted, rfl, rfl⟩
  · rw [hNext] at h'
    cases h'

/-- A permission is entered at or after the end of its quarantine. -/
theorem step_entered {authority : RuntimeAuthority Instant} {timed : TimedCall Instant}
    {ready deadline : Instant} {context : AuthorityContext} {stage : Stage}
    (h : authority.permission = .quarantined ready)
    (h' : (step digest authority timed).permission = .active context stage deadline) :
    ready ≤ timed.now := by
  obtain ⟨request, next, hMove, -, hNext⟩ := step_moves digest authority timed
  rcases hNext with hNext | hNext
  · rw [← hNext, h, h'] at hMove
    cases hMove with
    | enter hReady => exact hReady
  · rw [hNext] at h'
    cases h'

/-- An answered value is what the call leaves in force. -/
theorem step_of_answer {authority : RuntimeAuthority Instant} {timed : TimedCall Instant}
    {reading deadline : Instant} {context : AuthorityContext}
    (h : currentAnswer digest authority timed = some (reading, some (context, deadline))) :
    ∃ stage, (step digest authority timed).permission = .active context stage deadline ∧
      reading < deadline := by
  have hKept : ∀ state : RuntimePermission Instant,
      (state.current reading).1 = some (context, deadline) →
        ∃ stage, (state.current reading).2 = .active context stage deadline ∧ reading < deadline := by
    intro state hAnswer
    obtain ⟨stage, rfl, hLt⟩ := RuntimePermission.current_eq_some.mp hAnswer
    exact ⟨stage, by simp [RuntimePermission.current, RuntimePermission.sealExpired_active hLt], hLt⟩
  obtain ⟨now, call⟩ := timed
  cases call with
  | permission request =>
      cases request with
      | current =>
          obtain ⟨rfl, hAnswer⟩ := Prod.mk.inj (Option.some.inj h)
          exact hKept _ hAnswer
      | _ => cases h
  | accept verified checked returned =>
      simp only [currentAnswer] at h
      split at h
      · rename_i hOk
        obtain ⟨rfl, hAnswer⟩ := Prod.mk.inj (Option.some.inj h)
        have hStep := accept_permission digest authority verified now checked returned
        rw [if_pos hOk] at hStep
        obtain ⟨stage, hStage⟩ := hKept _ hAnswer
        exact ⟨stage, hStep.trans hStage.1, hStage.2⟩
      · cases h

/-- After an answer without a value nothing is in force. -/
theorem step_of_no_answer {authority : RuntimeAuthority Instant} {timed : TimedCall Instant}
    {reading : Instant} (h : currentAnswer digest authority timed = some (reading, none))
    (context : AuthorityContext) (stage : Stage) (deadline : Instant) :
    (step digest authority timed).permission ≠ .active context stage deadline := by
  obtain ⟨now, call⟩ := timed
  cases call with
  | permission request =>
      cases request with
      | current =>
          obtain ⟨rfl, hAnswer⟩ := Prod.mk.inj (Option.some.inj h)
          exact RuntimePermission.current_eq_none hAnswer context stage deadline
      | _ => cases h
  | accept verified checked returned =>
      simp only [currentAnswer] at h
      split at h
      · rename_i hOk
        obtain ⟨rfl, hAnswer⟩ := Prod.mk.inj (Option.some.inj h)
        have hStep := accept_permission digest authority verified now checked returned
        rw [if_pos hOk] at hStep
        change (authority.accept digest verified now checked returned).2.permission ≠ _
        rw [hStep]
        exact RuntimePermission.current_eq_none hAnswer context stage deadline
      · cases h

section Run

variable (localReplica : ReplicaId) (ready : Instant) (calls : List (TimedCall Instant))

/-- The authority after the first `i` calls of a boot. -/
def authorityAt (i : Nat) : RuntimeAuthority Instant :=
  Runs.stateAt (step digest) (quarantined localReplica ready) calls i

/-- The reading and answer of `current` in call `i`, if it asks. -/
def answerAt (i : Nat) : Option (Instant × Option (AuthorityContext × Instant)) :=
  calls[i]?.bind (currentAnswer digest (authorityAt digest localReplica ready calls i))

/-- The authority of one boot is a single interval of time. -/
structure OneInterval : Prop where
  /-- It is not active before the end of the quarantine. -/
  after_quarantine : ∀ i (h : i < calls.length) context stage deadline,
    (authorityAt digest localReplica ready calls (i + 1)).permission =
      .active context stage deadline → ready ≤ (calls[i]).now
  /-- While it is active its context stays and its deadline never decreases. -/
  steady : ∀ i j context stage deadline context' stage' deadline', i ≤ j → j ≤ calls.length →
    (authorityAt digest localReplica ready calls i).permission = .active context stage deadline →
    (authorityAt digest localReplica ready calls j).permission = .active context' stage' deadline' →
      context' = context ∧ deadline ≤ deadline'
  /-- A value is answered only strictly before the deadline then in force. -/
  within_deadline : ∀ i reading context deadline,
    answerAt digest localReplica ready calls i = some (reading, some (context, deadline)) →
      reading < deadline ∧ ∃ stage,
        (authorityAt digest localReplica ready calls (i + 1)).permission =
          .active context stage deadline
  /-- No value is answered after one was missing. -/
  lost_once : ∀ i j k reading reading' reading'' value answer, i < j → j < k →
    answerAt digest localReplica ready calls i = some (reading, some value) →
    answerAt digest localReplica ready calls j = some (reading', none) →
    answerAt digest localReplica ready calls k = some (reading'', answer) → answer = none
  /-- No value is answered after the permission was sealed. -/
  sealed_once : ∀ i k now reading answer, i < k →
    calls[i]? = some ⟨now, .permission .sealNow⟩ →
    answerAt digest localReplica ready calls k = some (reading, answer) → answer = none
  /-- A learner votes only after its own promotion. -/
  promoted : ∀ i j context operation deadline context' deadline', i ≤ j → j ≤ calls.length →
    (authorityAt digest localReplica ready calls i).permission =
      .active context (.joining operation) deadline →
    (authorityAt digest localReplica ready calls j).permission =
      .active context' .voting deadline' →
      ∃ k now, i ≤ k ∧ k < j ∧
        calls[k]? = some ⟨now, .permission (.markPromoted context operation)⟩

variable {localReplica ready calls}

theorem authorityAt_succ {i : Nat} (h : i < calls.length) :
    authorityAt digest localReplica ready calls (i + 1) =
      step digest (authorityAt digest localReplica ready calls i) calls[i] :=
  Runs.stateAt_succ _ _ h

theorem authorityAt_precedes {i j : Nat} (hij : i ≤ j) (hj : j ≤ calls.length) :
    (authorityAt digest localReplica ready calls i).permission.Precedes
      (authorityAt digest localReplica ready calls j).permission :=
  Runs.stateAt_related _ _
    (fun first second : RuntimeAuthority Instant => first.permission.Precedes second.permission)
    (fun _ => RuntimePermission.Precedes.refl _)
    (fun _ _ _ => RuntimePermission.Precedes.trans _ _ _)
    (fun _ _ => step_precedes digest _ _) hij hj

theorem answerAt_eq_some {i : Nat} {answer : Instant × Option (AuthorityContext × Instant)}
    (h : answerAt digest localReplica ready calls i = some answer) :
    ∃ h : i < calls.length,
      currentAnswer digest (authorityAt digest localReplica ready calls i) calls[i] =
        some answer := by
  obtain ⟨timed, hTimed, hAnswer⟩ := Option.bind_eq_some_iff.mp h
  obtain ⟨hLt, rfl⟩ := List.getElem?_eq_some_iff.mp hTimed
  exact ⟨hLt, hAnswer⟩

/-- A sealed permission answers nothing for the rest of the run. -/
theorem answerAt_of_sealed {i k : Nat} {reading : Instant}
    {answer : Option (AuthorityContext × Instant)} (hik : i ≤ k)
    (hSealed : (authorityAt digest localReplica ready calls i).permission = .sealed)
    (hAnswer : answerAt digest localReplica ready calls k = some (reading, answer)) :
    answer = none := by
  obtain ⟨hk, hCurrent⟩ := answerAt_eq_some digest hAnswer
  cases answer with
  | none => rfl
  | some value =>
      obtain ⟨stage, hActive, -⟩ := step_of_answer digest hCurrent
      rw [← authorityAt_succ digest hk] at hActive
      have hAfter : (authorityAt digest localReplica ready calls i).permission.Precedes
          (authorityAt digest localReplica ready calls (k + 1)).permission :=
        authorityAt_precedes digest (by omega) (by omega)
      rw [hSealed, hActive] at hAfter
      cases hAfter

/-- Whatever is active was entered by an earlier call, after the quarantine. -/
theorem exists_entry {i : Nat} (hi : i ≤ calls.length) {context : AuthorityContext} {stage : Stage}
    {deadline : Instant}
    (hActive : (authorityAt digest localReplica ready calls i).permission =
      .active context stage deadline) :
    ∃ k, ∃ h : k < calls.length, k < i ∧ ready ≤ (calls[k]).now := by
  refine (Runs.stateAt_indexed (step digest) (quarantined localReplica ready)
    (fun i authority =>
      (∀ ready', authority.permission = .quarantined ready' → ready' = ready) ∧
      ∀ context stage deadline, authority.permission = .active context stage deadline →
        ∃ k, ∃ h : k < calls.length, k < i ∧ ready ≤ (calls[k]).now)
    ⟨?_, ?_⟩ ?_ i hi).2 context stage deadline hActive
  · intro ready' h
    exact (RuntimePermission.quarantined.inj h).symm
  · intro context stage deadline h
    cases h
  · rintro n hn ⟨hQuarantined, hEntered⟩
    have hPrecedes := step_precedes digest
      (Runs.stateAt (step digest) (quarantined localReplica ready) calls n) calls[n]
    generalize hBefore : Runs.stateAt (step digest) (quarantined localReplica ready) calls n = before
      at *
    constructor
    · intro ready' hNext
      rw [hNext] at hPrecedes
      cases hPermission : before.permission with
      | quarantined ready'' =>
          rw [hPermission] at hPrecedes
          exact Eq.trans hPrecedes (hQuarantined ready'' hPermission)
      | active context stage deadline =>
          rw [hPermission] at hPrecedes
          cases hPrecedes
      | sealed =>
          rw [hPermission] at hPrecedes
          cases hPrecedes
    · intro context stage deadline hNext
      cases hPermission : before.permission with
      | quarantined ready' =>
          have hReady := step_entered digest hPermission hNext
          rw [hQuarantined ready' hPermission] at hReady
          exact ⟨n, hn, Nat.lt_succ_self n, hReady⟩
      | active context' stage' deadline' =>
          obtain ⟨k, hk, hkn, hReady⟩ := hEntered context' stage' deadline' hPermission
          exact ⟨k, hk, Nat.lt_succ_of_lt hkn, hReady⟩
      | sealed =>
          rw [hPermission, hNext] at hPrecedes
          cases hPrecedes

theorem TimedCall.WellTimed.now_le_finished {timed : TimedCall Instant} (h : timed.WellTimed) :
    timed.now ≤ timed.finished := by
  obtain ⟨now, call⟩ := timed
  cases call with
  | permission request => exact le_rfl
  | accept verified checked returned => exact h.1.trans h.2

theorem NonDecreasing.now_le (h : NonDecreasing calls) {k i : Nat} (hk : k < calls.length)
    (hi : i < calls.length) (hki : k ≤ i) : (calls[k]).now ≤ (calls[i]).now := by
  rcases hki.eq_or_lt with rfl | hLt
  · exact le_rfl
  · calc (calls[k]).now ≤ (calls[k]).finished := (h.1 _ (List.getElem_mem hk)).now_le_finished
      _ ≤ (calls[i]).now := List.pairwise_iff_getElem.mp h.2 k i hk hi hLt

/-- A learner that votes later was promoted by the first call after which it voted. -/
theorem exists_promotion {i j : Nat} {context context' : AuthorityContext} {operation : LogId}
    {deadline deadline' : Instant} (hij : i ≤ j) (hj : j ≤ calls.length)
    (hLearner : (authorityAt digest localReplica ready calls i).permission =
      .active context (.joining operation) deadline)
    (hVoter : (authorityAt digest localReplica ready calls j).permission =
      .active context' .voting deadline') :
    ∃ k now, i ≤ k ∧ k < j ∧
      calls[k]? = some ⟨now, .permission (.markPromoted context operation)⟩ := by
  obtain ⟨k, hik, hkj, hBefore, hAfter⟩ := Runs.exists_step_of_change (step digest)
    (quarantined localReplica ready)
    (fun authority => ∃ context deadline, authority.permission = .active context .voting deadline)
    hij (by
      rintro ⟨other, later, h⟩
      exact absurd (hLearner.symm.trans h) (by simp)) ⟨context', deadline', hVoter⟩
  have hk : k < calls.length := by omega
  obtain ⟨voter, later, hVoting⟩ := hAfter
  have hPrecedes : (authorityAt digest localReplica ready calls i).permission.Precedes
      (authorityAt digest localReplica ready calls k).permission :=
    authorityAt_precedes digest hik (by omega)
  have hStep : (step digest (authorityAt digest localReplica ready calls k) calls[k]).permission =
      .active voter .voting later := by
    rw [← authorityAt_succ digest hk]
    exact hVoting
  rw [hLearner] at hPrecedes
  cases hPermission : (authorityAt digest localReplica ready calls k).permission with
  | quarantined ready' =>
      rw [hPermission] at hPrecedes
      cases hPrecedes
  | sealed =>
      have hStuck := step_precedes digest (authorityAt digest localReplica ready calls k) calls[k]
      rw [hPermission, hStep] at hStuck
      cases hStuck
  | active inForce stage previous =>
      rw [hPermission] at hPrecedes
      obtain ⟨rfl, -, hStage⟩ := hPrecedes
      cases stage with
      | voting => exact absurd ⟨inForce, previous, hPermission⟩ hBefore
      | joining pending =>
          obtain rfl : operation = pending := Stage.joining.inj (hStage pending rfl)
          obtain ⟨hCall, -, -⟩ := step_promoted digest hPermission hStep
          refine ⟨k, (calls[k]).now, hik, hkj, ?_⟩
          rw [List.getElem?_eq_getElem hk, ← hCall]

end Run

/-- Over every sequence of calls at non-decreasing times, direct or through
accepted results, the authority of a boot is one contiguous interval. -/
theorem authority_one_interval (digest : Genesis → BitVec 256) (localReplica : ReplicaId)
    (ready : Instant) (calls : List (TimedCall Instant)) (hTimes : NonDecreasing calls) :
    OneInterval digest localReplica ready calls where
  after_quarantine i h context stage deadline hActive := by
    obtain ⟨k, hk, hki, hReady⟩ := exists_entry digest h hActive
    exact hReady.trans (hTimes.now_le hk h (Nat.lt_succ_iff.mp hki))
  steady i j context stage deadline context' stage' deadline' hij hj hActive hActive' := by
    have hPrecedes : (authorityAt digest localReplica ready calls i).permission.Precedes
        (authorityAt digest localReplica ready calls j).permission :=
      authorityAt_precedes digest hij hj
    rw [hActive, hActive'] at hPrecedes
    exact ⟨hPrecedes.1, hPrecedes.2.1⟩
  within_deadline i reading context deadline hAnswer := by
    obtain ⟨hi, hCurrent⟩ := answerAt_eq_some digest hAnswer
    obtain ⟨stage, hActive, hLt⟩ := step_of_answer digest hCurrent
    exact ⟨hLt, stage, by rw [authorityAt_succ digest hi]; exact hActive⟩
  lost_once i j k reading reading' reading'' value answer hij hjk hFirst hLost hLater := by
    obtain ⟨hi, hCurrent⟩ := answerAt_eq_some digest hFirst
    obtain ⟨stage, hActive, -⟩ := step_of_answer digest hCurrent
    obtain ⟨hj, hCurrent'⟩ := answerAt_eq_some digest hLost
    have hNone := step_of_no_answer digest hCurrent'
    rw [← authorityAt_succ digest hi] at hActive
    rw [← authorityAt_succ digest hj] at hNone
    have hPrecedes : (authorityAt digest localReplica ready calls (i + 1)).permission.Precedes
        (authorityAt digest localReplica ready calls (j + 1)).permission :=
      authorityAt_precedes digest (by omega) (by omega)
    rw [hActive] at hPrecedes
    cases hPermission : (authorityAt digest localReplica ready calls (j + 1)).permission with
    | quarantined ready' =>
        rw [hPermission] at hPrecedes
        cases hPrecedes
    | active context stage deadline => exact absurd hPermission (hNone context stage deadline)
    | sealed => exact answerAt_of_sealed digest hjk hPermission hLater
  sealed_once i k now reading answer hik hSeal hLater := by
    obtain ⟨hi, hCall⟩ := List.getElem?_eq_some_iff.mp hSeal
    apply answerAt_of_sealed digest hik _ hLater
    rw [authorityAt_succ digest hi, hCall]
    rfl
  promoted i j context operation deadline context' deadline' hij hj hLearner hVoter :=
    exists_promotion digest hij hj hLearner hVoter

/-- A second boot of a single member that joins its own cluster. -/
def rejoined : ReplicaId := ⟨1, 2⟩

def rejoinContext : AdmissionContext := ⟨rejoined, ⟨⟨1, 0⟩, 9, {⟨1, 1⟩}⟩⟩

/-- The learner is admitted and extended by verified joins, promoted and renewed,
and then let expire. -/
def rejoinCalls : List (TimedCall Nat) :=
  let operation : LogId := ⟨⟨1, ⟨1, 1⟩⟩, 3⟩
  let joining : AdmissionMode := .join (some ⟨operation, 0⟩)
  let context : AuthorityContext := ⟨2, 9, 7, 1⟩
  [⟨10, .accept ⟨rejoinContext, 15, joining, none⟩ 10 11⟩,
   ⟨12, .accept ⟨rejoinContext, 18, joining, none⟩ 13 13⟩,
   ⟨14, .permission (.markPromoted context operation)⟩,
   ⟨15, .accept ⟨rejoinContext, 20, .renew (some operation), none⟩ 15 16⟩,
   ⟨17, .permission .current⟩,
   ⟨20, .permission .current⟩,
   ⟨21, .permission (.admitOnce context 40)⟩,
   ⟨22, .permission .current⟩]

theorem authority_one_interval_rejoined :
    OneInterval (fun _ => 7) rejoined 8 rejoinCalls ∧
    answerAt (fun _ => 7) rejoined 8 rejoinCalls 0 = some (10, some (⟨2, 9, 7, 1⟩, 15)) ∧
    answerAt (fun _ => 7) rejoined 8 rejoinCalls 4 = some (17, some (⟨2, 9, 7, 1⟩, 20)) ∧
    answerAt (fun _ => 7) rejoined 8 rejoinCalls 5 = some (20, none) ∧
    answerAt (fun _ => 7) rejoined 8 rejoinCalls 7 = some (22, none) := by
  refine ⟨authority_one_interval _ _ _ _ ⟨?_, ?_⟩, by decide +kernel, by decide +kernel,
    by decide +kernel, by decide +kernel⟩
  · simp [rejoinCalls, TimedCall.WellTimed]
  · simp [rejoinCalls, TimedCall.finished]

end RuntimeAuthority

end KeepAfloat
