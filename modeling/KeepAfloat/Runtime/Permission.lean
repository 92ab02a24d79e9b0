import KeepAfloat.Library.Runs
import KeepAfloat.Raft.Identity

/-! Process-local authority. A permission is granted once, after the restart
quarantine, and can only be extended while it lasts. Nothing watches the clock on
its behalf: whichever call comes next finds an expired permission and seals it. -/

namespace KeepAfloat

/-- Immutable identity of one admitted runtime. -/
structure AuthorityContext where
  bootNonce : BitVec 256
  clusterEpoch : BitVec 128
  genesisDigest : BitVec 256
  admissionGeneration : Nat
  deriving DecidableEq

/-- A learner is bound to the log position of its preparation. -/
inductive Stage where
  | joining (operation : LogId)
  | voting
  deriving DecidableEq

inductive RuntimePermission (Instant : Type) where
  | quarantined (ready : Instant)
  | active (context : AuthorityContext) (stage : Stage) (deadline : Instant)
  | sealed
  deriving DecidableEq

namespace RuntimePermission

variable {Instant : Type} [LinearOrder Instant]

/-- Expiry is terminal. -/
def sealExpired (now : Instant) : RuntimePermission Instant → RuntimePermission Instant
  | active context stage deadline =>
      if deadline ≤ now then sealed else active context stage deadline
  | state => state

/-- Admit exactly once, after quarantine. Each operation below answers whether it
was accepted, and the permission that it leaves. -/
def admitOnce (context : AuthorityContext) (deadline now : Instant) (state : RuntimePermission Instant) :
    Bool × RuntimePermission Instant :=
  match state with
  | quarantined ready =>
      if ready ≤ now ∧ now < deadline then (true, active context .voting deadline)
      else (false, state)
  | _ => (false, state.sealExpired now)

/-- Admit a learner, or extend the same unexpired learner operation. -/
def join (context : AuthorityContext) (prepared : LogId) (deadline now : Instant)
    (state : RuntimePermission Instant) : Bool × RuntimePermission Instant :=
  match state.sealExpired now with
  | quarantined ready =>
      if ready ≤ now ∧ now < deadline then (true, active context (.joining prepared) deadline)
      else (false, quarantined ready)
  | active current (.joining operation) previous =>
      if current = context ∧ operation = prepared ∧ previous < deadline then
        (true, active context (.joining prepared) deadline)
      else (false, active current (.joining operation) previous)
  | other => (false, other)

def markPromoted (context : AuthorityContext) (prepared : LogId) (now : Instant)
    (state : RuntimePermission Instant) : Bool × RuntimePermission Instant :=
  match state.sealExpired now with
  | active current (.joining operation) deadline =>
      if current = context ∧ operation = prepared then (true, active current .voting deadline)
      else (false, active current (.joining operation) deadline)
  | other => (false, other)

/-- Extend voting authority of the same context. A deadline that does not move is
accepted as well. -/
def renew (context : AuthorityContext) (deadline now : Instant)
    (state : RuntimePermission Instant) : Bool × RuntimePermission Instant :=
  match state.sealExpired now with
  | active current .voting previous =>
      if current = context ∧ previous ≤ deadline then (true, active context .voting deadline)
      else (false, active current .voting previous)
  | other => (false, other)

/-- The context and deadline in force. -/
def current (now : Instant) (state : RuntimePermission Instant) :
    Option (AuthorityContext × Instant) × RuntimePermission Instant :=
  match state.sealExpired now with
  | active context stage deadline => (some (context, deadline), active context stage deadline)
  | other => (none, other)

/-- Revoke. -/
def sealNow (_ : RuntimePermission Instant) : RuntimePermission Instant := sealed

@[simp] theorem sealExpired_quarantined (now ready : Instant) :
    (quarantined ready).sealExpired now = quarantined ready := rfl

@[simp] theorem sealExpired_sealed (now : Instant) :
    (sealed : RuntimePermission Instant).sealExpired now = sealed := rfl

theorem sealExpired_active {context : AuthorityContext} {stage : Stage} {now deadline : Instant}
    (h : now < deadline) :
    (active context stage deadline).sealExpired now = active context stage deadline :=
  if_neg (not_le.mpr h)

theorem sealExpired_expired {context : AuthorityContext} {stage : Stage} {now deadline : Instant}
    (h : deadline ≤ now) : (active context stage deadline).sealExpired now = sealed :=
  if_pos h

/-- Looking at the clock changes nothing but the discovery of an expiry. -/
theorem sealExpired_eq (now : Instant) (state : RuntimePermission Instant) :
    state.sealExpired now = state ∨ state.sealExpired now = sealed := by
  cases state with
  | quarantined ready => exact .inl rfl
  | sealed => exact .inl rfl
  | active context stage deadline =>
      by_cases h : now < deadline
      · exact .inl (sealExpired_active h)
      · exact .inr (sealExpired_expired (not_lt.mp h))

/-- A value is answered strictly before the deadline in force, and only then. -/
theorem current_eq_some {now deadline : Instant} {context : AuthorityContext}
    {state : RuntimePermission Instant} :
    (state.current now).1 = some (context, deadline) ↔
      ∃ stage, state = active context stage deadline ∧ now < deadline := by
  cases state with
  | quarantined ready => simp [current]
  | sealed => simp [current]
  | active inForce stage previous =>
      by_cases h : now < previous
      · simp [current, sealExpired_active h]
        grind
      · simp [current, sealExpired_expired (not_lt.mp h)]
        grind

/-- After an answer without a value there is nothing active left. -/
theorem current_eq_none {now : Instant} {state : RuntimePermission Instant}
    (h : (state.current now).1 = none) (context : AuthorityContext) (stage : Stage)
    (deadline : Instant) : (state.current now).2 ≠ active context stage deadline := by
  cases state with
  | quarantined ready => simp [current]
  | sealed => simp [current]
  | active inForce stage' previous =>
      by_cases hNow : now < previous
      · simp [current, sealExpired_active hNow] at h
      · simp [current, sealExpired_expired (not_lt.mp hNow)]

theorem current_snd (now : Instant) (state : RuntimePermission Instant) :
    (state.current now).2 = state.sealExpired now := by
  unfold current
  split
  · rename_i hActive
    exact hActive.symm
  · rfl

/-- An operation that was asked for `context` until `deadline` either installs
exactly that, or leaves the permission as it was or sealed. -/
def Installs (context : AuthorityContext) (deadline : Instant) (state : RuntimePermission Instant)
    (outcome : Bool × RuntimePermission Instant) : Prop :=
  (outcome.1 = true ∧ ∃ stage, outcome.2 = active context stage deadline) ∨
  (outcome.1 = false ∧ (outcome.2 = state ∨ outcome.2 = sealed))

theorem admitOnce_installs (context : AuthorityContext) (deadline now : Instant)
    (state : RuntimePermission Instant) :
    Installs context deadline state (state.admitOnce context deadline now) := by
  unfold admitOnce
  split
  · split
    · exact .inl ⟨rfl, _, rfl⟩
    · exact .inr ⟨rfl, .inl rfl⟩
  · exact .inr ⟨rfl, sealExpired_eq now state⟩

theorem join_installs (context : AuthorityContext) (prepared : LogId) (deadline now : Instant)
    (state : RuntimePermission Instant) :
    Installs context deadline state (state.join context prepared deadline now) := by
  have hSeal := sealExpired_eq now state
  unfold join
  split
  · rename_i hQuarantined
    rw [hQuarantined] at hSeal
    split
    · exact .inl ⟨rfl, _, rfl⟩
    · exact .inr ⟨rfl, hSeal⟩
  · rename_i hActive
    rw [hActive] at hSeal
    split
    · exact .inl ⟨rfl, _, rfl⟩
    · exact .inr ⟨rfl, hSeal⟩
  · exact .inr ⟨rfl, hSeal⟩

theorem renew_installs (context : AuthorityContext) (deadline now : Instant)
    (state : RuntimePermission Instant) :
    Installs context deadline state (state.renew context deadline now) := by
  have hSeal := sealExpired_eq now state
  unfold renew
  split
  · rename_i hActive
    rw [hActive] at hSeal
    split
    · exact .inl ⟨rfl, _, rfl⟩
    · exact .inr ⟨rfl, hSeal⟩
  · exact .inr ⟨rfl, hSeal⟩

/-- A promotion changes neither the context nor the deadline. -/
theorem markPromoted_active {context inForce : AuthorityContext} {prepared : LogId}
    {now deadline : Instant} {stage : Stage} {state : RuntimePermission Instant}
    (h : (state.markPromoted context prepared now).2 = active inForce stage deadline) :
    ∃ before, state = active inForce before deadline := by
  have hSeal := sealExpired_eq now state
  unfold markPromoted at h
  split at h
  · rename_i hActive
    rw [hActive] at hSeal
    rcases hSeal with hSame | hSealed
    · split at h
      · cases h
        exact ⟨_, hSame.symm⟩
      · cases h
        exact ⟨_, hSame.symm⟩
    · cases hSealed
  · dsimp only at h
    rcases hSeal with hSame | hSealed
    · exact ⟨stage, hSame.symm.trans h⟩
    · rw [hSealed] at h
      cases h

/-- The calls of a permission. -/
inductive Call (Instant : Type) where
  | admitOnce (context : AuthorityContext) (deadline : Instant)
  | join (context : AuthorityContext) (prepared : LogId) (deadline : Instant)
  | markPromoted (context : AuthorityContext) (prepared : LogId)
  | renew (context : AuthorityContext) (deadline : Instant)
  | current
  | sealNow

/-- The permission that a call leaves. -/
def call (now : Instant) (state : RuntimePermission Instant) :
    Call Instant → RuntimePermission Instant
  | .admitOnce context deadline => (state.admitOnce context deadline now).2
  | .join context prepared deadline => (state.join context prepared deadline now).2
  | .markPromoted context prepared => (state.markPromoted context prepared now).2
  | .renew context deadline => (state.renew context deadline now).2
  | .current => (state.current now).2
  | .sealNow => state.sealNow

/-- What a call can do to a permission at the reading `now`. -/
inductive Moves (now : Instant) (call : Call Instant) :
    RuntimePermission Instant → RuntimePermission Instant → Prop where
  | idle (state) (h : call ≠ .sealNow) : Moves now call state state
  | stop (state) : Moves now call state sealed
  | enter {ready context stage deadline} (h : ready ≤ now) :
      Moves now call (quarantined ready) (active context stage deadline)
  | extend {context stage previous deadline} (h : previous ≤ deadline) :
      Moves now call (active context stage previous) (active context stage deadline)
  | promote {context operation deadline} (h : call = .markPromoted context operation) :
      Moves now call (active context (.joining operation) deadline)
        (active context .voting deadline)

/-- An active permission is first found expired, or it is not. -/
theorem moves_of_unexpired {now : Instant} {request : Call Instant}
    {state next : RuntimePermission Instant}
    (hExpired : ∀ context stage deadline, state = active context stage deadline →
      deadline ≤ now → next = sealed)
    (hOther : state.sealExpired now = state → Moves now request state next) :
    Moves now request state next := by
  cases state with
  | quarantined ready => exact hOther rfl
  | sealed => exact hOther rfl
  | active context stage deadline =>
      by_cases h : now < deadline
      · exact hOther (sealExpired_active h)
      · rw [hExpired context stage deadline rfl (not_lt.mp h)]
        exact .stop _

theorem call_moves (now : Instant) (state : RuntimePermission Instant) (request : Call Instant) :
    Moves now request state (state.call now request) := by
  cases request with
  | sealNow => exact .stop _
  | admitOnce context deadline =>
      apply moves_of_unexpired
      · rintro context stage deadline rfl h
        exact sealExpired_expired h
      · intro hSame
        cases state with
        | quarantined ready =>
            simp only [call, admitOnce]
            split
            · exact .enter (And.left ‹_›)
            · exact .idle _ (by simp)
        | sealed => exact .idle _ (by simp)
        | active inForce stage previous =>
            simp only [call, admitOnce, hSame]
            exact .idle _ (by simp)
  | join context prepared deadline =>
      apply moves_of_unexpired
      · rintro context stage deadline rfl h
        simp [call, join, sealExpired_expired h]
      · intro hSame
        simp only [call, join, hSame]
        split
        · split
          · exact .enter (And.left ‹_›)
          · exact .idle _ (by simp)
        · split
          · rename_i h
            obtain ⟨rfl, rfl, hLt⟩ := h
            exact .extend hLt.le
          · exact .idle _ (by simp)
        · exact .idle _ (by simp)
  | markPromoted context prepared =>
      apply moves_of_unexpired
      · rintro context stage deadline rfl h
        simp [call, markPromoted, sealExpired_expired h]
      · intro hSame
        simp only [call, markPromoted, hSame]
        split
        · split
          · rename_i h
            obtain ⟨rfl, rfl⟩ := h
            exact .promote rfl
          · exact .idle _ (by simp)
        · exact .idle _ (by simp)
  | renew context deadline =>
      apply moves_of_unexpired
      · rintro context stage deadline rfl h
        simp [call, renew, sealExpired_expired h]
      · intro hSame
        simp only [call, renew, hSame]
        split
        · split
          · rename_i h
            obtain ⟨rfl, hLe⟩ := h
            exact .extend hLe
          · exact .idle _ (by simp)
        · exact .idle _ (by simp)
  | current =>
      apply moves_of_unexpired
      · rintro context stage deadline rfl h
        simp [call, current, sealExpired_expired h]
      · intro hSame
        simp only [call, current, hSame]
        split
        · exact .idle _ (by simp)
        · exact .idle _ (by simp)

/-- Every call that finds the permission expired seals it. -/
theorem call_expired {context : AuthorityContext} {stage : Stage} {now deadline : Instant}
    (h : deadline ≤ now) (request : Call Instant) :
    (active context stage deadline).call now request = sealed := by
  have hSealed : (active context stage deadline).sealExpired now = sealed := sealExpired_expired h
  cases request with
  | admitOnce context deadline => exact hSealed
  | join context prepared deadline => simp only [call, join, hSealed]
  | markPromoted context prepared => simp only [call, markPromoted, hSealed]
  | renew context deadline => simp only [call, renew, hSealed]
  | current => simp only [call, current, hSealed]
  | sealNow => rfl

/-- `later` can follow `earlier` within one boot: the context of an active
permission stays, its deadline only grows and a learner stays on its operation
until it votes. -/
def Precedes : RuntimePermission Instant → RuntimePermission Instant → Prop
  | quarantined ready, quarantined ready' => ready' = ready
  | quarantined _, _ => True
  | active context stage deadline, active context' stage' deadline' =>
      context' = context ∧ deadline ≤ deadline' ∧
        ∀ operation, stage' = .joining operation → stage = .joining operation
  | active _ _ _, later => later = sealed
  | sealed, later => later = sealed

theorem Precedes.refl (state : RuntimePermission Instant) : Precedes state state := by
  cases state with
  | quarantined ready => rfl
  | active context stage deadline => exact ⟨rfl, le_rfl, fun _ h => h⟩
  | sealed => rfl

theorem Precedes.trans (first second third : RuntimePermission Instant)
    (h : Precedes first second) (h' : Precedes second third) : Precedes first third := by
  cases first with
  | quarantined ready =>
      cases second with
      | quarantined ready' =>
          cases third with
          | quarantined ready'' => exact Eq.trans h' h
          | active context stage deadline => trivial
          | sealed => trivial
      | active context stage deadline =>
          cases third with
          | quarantined ready'' => cases h'
          | active context stage deadline => trivial
          | sealed => trivial
      | sealed =>
          cases h'
          trivial
  | active context stage deadline =>
      cases second with
      | quarantined ready => cases h
      | sealed =>
          cases h'
          rfl
      | active context' stage' deadline' =>
          cases third with
          | quarantined ready => cases h'
          | sealed => rfl
          | active context'' stage'' deadline'' =>
              obtain ⟨rfl, hDeadline, hStage⟩ := h
              obtain ⟨rfl, hDeadline', hStage'⟩ := h'
              exact ⟨rfl, hDeadline.trans hDeadline', fun op hOp => hStage op (hStage' op hOp)⟩
  | sealed =>
      cases h
      exact h'

theorem precedes_sealed (state : RuntimePermission Instant) : Precedes state sealed := by
  cases state with
  | quarantined ready => trivial
  | active context stage deadline => rfl
  | sealed => rfl

theorem Moves.precedes {now : Instant} {request : Call Instant}
    {state next : RuntimePermission Instant} (h : Moves now request state next) :
    Precedes state next := by
  cases h with
  | idle h => exact Precedes.refl _
  | stop => exact precedes_sealed _
  | enter h => trivial
  | extend h => exact ⟨rfl, h, fun _ hStage => hStage⟩
  | promote h => exact ⟨rfl, le_rfl, fun _ hStage => absurd hStage (by simp)⟩

end RuntimePermission

end KeepAfloat
