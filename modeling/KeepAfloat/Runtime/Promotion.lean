import KeepAfloat.Library.Checks
import KeepAfloat.Runtime.Authority
import KeepAfloat.Store.StateMachine

/-! Promotion of a learner. A process that was admitted for one prepared join votes only
after its own applied state shows that very join as completed; the checks read the local
authority, the session in the store and the replicated receipt together. -/

namespace KeepAfloat

open Std (ExtTreeMap)

/-- The readings of the clock during one promotion: two by the fence, one against the
deadline of the session and one by the permission. -/
structure PromotionReadings (Instant : Type) where
  fenced : Instant
  checked : Instant
  returned : Instant
  marked : Instant

namespace RuntimeAuthority

variable {Instant : Type} [LinearOrder Instant] (digest : Genesis → BitVec 256)
  (planDigest : JoinPlan → BitVec 256)

/-- A session asks the fence of its own process. -/
def checkSession (authority : RuntimeAuthority Instant) (session : AdmissionSession)
    (checked returned : Instant) : Except AdmissionDenied Instant × RuntimeAuthority Instant :=
  let answer := authority.check digest session.context checked
  (do
      let deadline ← answer.1
      ensure (returned < deadline) "admission deadline expired"
      return deadline,
    answer.2)

/-- The applied history that a promotion requires. -/
def promotionEvidence (authority : RuntimeAuthority Instant) (prepared : PreparedJoin)
    (state : KafStorageState) (session : AdmissionSession) : Except AdmissionDenied Unit := do
  let acknowledged ← okOr prepared.learnerApplied
    "promotion requires committed learner acknowledgement"
  let membershipLog ← okOr state.lastMembership.logId "promotion requires committed final membership"
  let completed ← okOr state.completedJoins[authority.localReplica.physicalId]?
    "promotion requires the committed completion receipt"
  let membership := state.lastMembership.membership
  ensure (session.context = ⟨prepared.plan.consumer, prepared.plan.genesis⟩ ∧
      state.genesis = some prepared.plan.genesis ∧
      authority.joinBinding = some (.fromPrepared planDigest prepared) ∧
      completed.prepared = prepared ∧
      ¬(state.preparedJoin.any fun pending =>
        pending.prepared = prepared.prepared ∧ pending.plan = prepared.plan) ∧
      membership.getJointConfig ≠ [] ∧
      (∀ voters ∈ membership.getJointConfig, authority.localReplica ∈ voters) ∧
      (membership.voterIds.filter fun id =>
        id.physicalId = authority.localReplica.physicalId).card = 1 ∧
      prepared.prepared.index < acknowledged.index ∧
      acknowledged.index < completed.promoted.index ∧
      completed.promoted.index ≤ membershipLog.index ∧
      (membershipLog.index = completed.promoted.index → membershipLog = completed.promoted) ∧
      state.lastAppliedLog.any (fun last => membershipLog.index ≤ last.index ∧
        (last.index = membershipLog.index → last = membershipLog)))
    "promotion differs from locally applied join completion"

/-- A completion receipt survives later membership changes, but never restores
authority. -/
def markPromoted (authority : RuntimeAuthority Instant) (prepared : PreparedJoin)
    (state : KafStorageState) (readings : PromotionReadings Instant) :
    Except AdmissionDenied Unit × RuntimeAuthority Instant :=
  match prepared.plan.validate with
  | .error denied => (.error denied, authority)
  | .ok () =>
      let expected : AdmissionContext := ⟨prepared.plan.consumer, prepared.plan.genesis⟩
      match authority.check digest expected readings.fenced with
      | (.error denied, after) => (.error denied, after)
      | (.ok _, fenced) =>
          match state.admission with
          | none => (.error ⟨"promotion requires local admission"⟩, fenced)
          | some session =>
              match fenced.checkSession digest session readings.checked readings.returned with
              | (.error denied, after) => (.error denied, after)
              | (.ok _, active) =>
                  match active.promotionEvidence planDigest prepared state session with
                  | .error denied => (.error denied, active)
                  | .ok () =>
                      let outcome := active.permission.markPromoted (active.identity digest expected)
                        prepared.prepared readings.marked
                      (ensure outcome.1 "runtime is not this operation's active learner",
                        { active with permission := outcome.2 })

/-- Looking at the clock at most discovers an expiry. -/
def AtMostSealed (authority after : RuntimeAuthority Instant) : Prop :=
  after = authority ∨ after = { authority with permission := .sealed }

omit [LinearOrder Instant] in
theorem AtMostSealed.trans {first second third : RuntimeAuthority Instant}
    (h : first.AtMostSealed second) (h' : second.AtMostSealed third) : first.AtMostSealed third := by
  rcases h with rfl | rfl
  · exact h'
  · rcases h' with rfl | rfl
    · exact .inr rfl
    · exact .inr rfl

theorem check_atMostSealed (authority : RuntimeAuthority Instant) (expected : AdmissionContext)
    (now : Instant) : authority.AtMostSealed (authority.check digest expected now).2 := by
  rw [check, RuntimePermission.current_snd]
  rcases RuntimePermission.sealExpired_eq now authority.permission with hSame | hSealed
  · exact .inl (by rw [hSame])
  · exact .inr (by rw [hSealed])

/-- The receipt that a promotion finds in the applied state. -/
structure Completion (state : KafStorageState) (localReplica : ReplicaId) (prepared : PreparedJoin) :
    Prop where
  receipt : ∃ completed, state.completedJoins[localReplica.physicalId]? = some completed ∧
    completed.prepared = prepared
  configured : state.lastMembership.membership.getJointConfig ≠ []
  voter : ∀ voters ∈ state.lastMembership.membership.getJointConfig, localReplica ∈ voters
  unique : ∀ voters ∈ state.lastMembership.membership.getJointConfig, ∀ other ∈ voters,
    other.physicalId = localReplica.physicalId → other = localReplica

omit [LinearOrder Instant] in
theorem completion_of_evidence {authority : RuntimeAuthority Instant} {prepared : PreparedJoin}
    {state : KafStorageState} {session : AdmissionSession}
    (h : authority.promotionEvidence planDigest prepared state session = .ok ()) :
    authority.joinBinding = some (.fromPrepared planDigest prepared) ∧
      Completion state authority.localReplica prepared := by
  simp only [promotionEvidence, Checks.bind_eq_ok, okOr_eq_ok, ensure_eq_ok,
    decide_eq_true_eq] at h
  obtain ⟨acknowledged, -, membershipLog, -, completed, hCompleted, -, -, hBound, hSame, -,
    hConfigured, hVoter, hCount, -⟩ := h
  refine ⟨hBound, ⟨completed, hCompleted, hSame⟩, hConfigured, hVoter, ?_⟩
  intro voters hVoters other hOther hPhysical
  obtain ⟨only, hOnly⟩ := Finset.card_eq_one.mp hCount
  have hMember : ∀ boot ∈ voters, boot.physicalId = authority.localReplica.physicalId →
      boot = only := by
    intro boot hBoot hId
    rw [← Finset.mem_singleton, ← hOnly, Finset.mem_filter]
    exact ⟨Membership.mem_voterIds.mpr ⟨voters, hVoters, hBoot⟩, hId⟩
  rw [hMember other hOther hPhysical, hMember _ (hVoter voters hVoters) rfl]

/-- The fence answers its own boot only. -/
theorem check_local {authority : RuntimeAuthority Instant} {expected : AdmissionContext}
    {now deadline : Instant} (h : (authority.check digest expected now).1 = .ok deadline) :
    expected.localReplica = authority.localReplica := by
  simp only [check, Checks.bind_eq_ok] at h
  obtain ⟨answer, -, ⟨⟩, hMatches, -⟩ := h
  exact (of_decide_eq_true (ensure_eq_ok.mp hMatches)).1

/-- What a promotion was granted on. -/
structure Promotes (authority : RuntimeAuthority Instant) (prepared : PreparedJoin)
    (state : KafStorageState) (deadline : Instant) : Prop where
  consumer : prepared.plan.consumer = authority.localReplica
  learner : authority.permission = .active
    (authority.identity digest ⟨prepared.plan.consumer, prepared.plan.genesis⟩)
    (.joining prepared.prepared) deadline
  bound : authority.joinBinding = some (.fromPrepared planDigest prepared)
  completion : Completion state authority.localReplica prepared

/-- The permission moves only from the operation that it was admitted for. -/
theorem permission_markPromoted_cases (authority : RuntimeAuthority Instant)
    (context : AuthorityContext) (operation : LogId) (now : Instant) :
    authority.AtMostSealed { authority with
        permission := (authority.permission.markPromoted context operation now).2 } ∨
      ∃ deadline, authority.permission = .active context (.joining operation) deadline ∧
        (authority.permission.markPromoted context operation now).2 =
          .active context .voting deadline := by
  have hSeal := RuntimePermission.sealExpired_eq now authority.permission
  unfold RuntimePermission.markPromoted
  split
  · next current pending deadline hActive =>
      rw [hActive] at hSeal
      rcases hSeal with hSame | hSealed
      · split
        · next hMatches =>
            obtain ⟨rfl, rfl⟩ := hMatches
            exact .inr ⟨deadline, hSame.symm, rfl⟩
        · exact .inl (.inl (by rw [hSame]))
      · cases hSealed
  · rcases hSeal with hSame | hSealed
    · exact .inl (.inl (by rw [hSame]))
    · exact .inl (.inr (by rw [hSealed]))

theorem markPromoted_cases (authority : RuntimeAuthority Instant) (prepared : PreparedJoin)
    (state : KafStorageState) (readings : PromotionReadings Instant) :
    authority.AtMostSealed (authority.markPromoted digest planDigest prepared state readings).2 ∨
      ∃ deadline, authority.Promotes digest planDigest prepared state deadline ∧
        (authority.markPromoted digest planDigest prepared state readings).2 =
          { authority with
            permission := .active
              (authority.identity digest ⟨prepared.plan.consumer, prepared.plan.genesis⟩) .voting
              deadline } := by
  have hFence := check_atMostSealed digest authority
    ⟨prepared.plan.consumer, prepared.plan.genesis⟩ readings.fenced
  unfold markPromoted
  split
  · exact .inl (.inl rfl)
  · dsimp only
    split
    · next denied after hChecked =>
        rw [hChecked] at hFence
        exact .inl hFence
    · next deadline fenced hChecked =>
        have hLocal := check_local digest (congrArg Prod.fst hChecked)
        rw [hChecked] at hFence
        split
        · exact .inl hFence
        · next session hSession =>
            have hSessionFence := check_atMostSealed digest fenced session.context readings.checked
            split
            · next denied after hDenied =>
                rw [show (fenced.check digest session.context readings.checked).2 = after from
                  congrArg Prod.snd hDenied] at hSessionFence
                exact .inl (hFence.trans hSessionFence)
            · next limit active hAllowed =>
                rw [show (fenced.check digest session.context readings.checked).2 = active from
                  congrArg Prod.snd hAllowed] at hSessionFence
                have hActive := hFence.trans hSessionFence
                split
                · exact .inl hActive
                · next hEvidence =>
                    obtain ⟨hBound, hCompletion⟩ := completion_of_evidence planDigest hEvidence
                    rcases permission_markPromoted_cases active
                      (active.identity digest ⟨prepared.plan.consumer, prepared.plan.genesis⟩)
                      prepared.prepared readings.marked with hKept | ⟨until', hLearner, hVoting⟩
                    · exact .inl (hActive.trans hKept)
                    · rcases hActive with rfl | rfl
                      · refine .inr ⟨until', ⟨hLocal, hLearner, hBound, hCompletion⟩, ?_⟩
                        rw [hVoting]
                      · cases hLearner

/-! ### Learners -/

/-- The authority of a learner that was admitted in a context for one join: it is still
on that operation, or lost. -/
structure Learner (authority : RuntimeAuthority Instant) (admitted : AdmissionContext)
    (binding : JoinBinding) : Prop where
  boot : authority.localReplica = admitted.localReplica
  bound : authority.joinBinding = some binding
  learning : authority.permission = .sealed ∨ ∃ deadline, authority.permission =
    .active (authority.identity digest admitted) (.joining binding.logId) deadline

variable {digest} {admitted : AdmissionContext} {binding : JoinBinding}

omit [LinearOrder Instant] in
theorem Learner.atMostSealed {authority after : RuntimeAuthority Instant}
    (h : authority.Learner digest admitted binding) (hAfter : authority.AtMostSealed after) :
    after.Learner digest admitted binding := by
  rcases hAfter with rfl | rfl
  · exact h
  · exact ⟨h.boot, h.bound, .inl rfl⟩

theorem Learner.sealExpired {authority : RuntimeAuthority Instant}
    (h : authority.Learner digest admitted binding) (now : Instant) :
    { authority with permission := authority.permission.sealExpired now }.Learner digest admitted
      binding := by
  apply h.atMostSealed
  rcases RuntimePermission.sealExpired_eq now authority.permission with hSame | hSealed
  · exact .inl (by rw [hSame])
  · exact .inr (by rw [hSealed])

/-- The permission of a learner is neither entered again nor renewed. -/
theorem Learner.refuses {authority : RuntimeAuthority Instant}
    (h : authority.Learner digest admitted binding) (context : AuthorityContext)
    (deadline now : Instant) :
    authority.permission.admitOnce context deadline now =
        (false, authority.permission.sealExpired now) ∧
      authority.permission.renew context deadline now =
        (false, authority.permission.sealExpired now) := by
  rcases h.learning with hSealed | ⟨previous, hActive⟩
  · rw [hSealed]
    exact ⟨rfl, rfl⟩
  · rw [hActive]
    refine ⟨rfl, ?_⟩
    rw [RuntimePermission.renew]
    by_cases hNow : now < previous
    · rw [RuntimePermission.sealExpired_active hNow]
    · rw [RuntimePermission.sealExpired_expired (not_lt.mp hNow)]

/-- A join extends a learner of the same context and operation, or changes nothing but
an expiry. -/
theorem Learner.join {authority : RuntimeAuthority Instant}
    (h : authority.Learner digest admitted binding) (context : AuthorityContext) (operation : LogId)
    (deadline now : Instant) :
    (authority.permission.join context operation deadline now).2 =
        authority.permission.sealExpired now ∨
      ∃ later, (authority.permission.join context operation deadline now).2 =
        .active (authority.identity digest admitted) (.joining binding.logId) later := by
  rcases h.learning with hSealed | ⟨previous, hActive⟩
  · rw [hSealed]
    exact .inl rfl
  · rw [hActive, RuntimePermission.join]
    by_cases hNow : now < previous
    · rw [RuntimePermission.sealExpired_active hNow]
      dsimp only
      split
      · next hMatches =>
          obtain ⟨rfl, rfl, -⟩ := hMatches
          exact .inr ⟨deadline, rfl⟩
      · exact .inl rfl
    · rw [RuntimePermission.sealExpired_expired (not_lt.mp hNow)]
      exact .inl rfl

theorem join_accepted {permission : RuntimePermission Instant} {context : AuthorityContext}
    {operation : LogId} {deadline now : Instant}
    (h : (permission.join context operation deadline now).1 = true) :
    (permission.join context operation deadline now).2 =
      .active context (.joining operation) deadline := by
  unfold RuntimePermission.join at h ⊢
  split at h
  · split at h
    · next hReady => rw [if_pos hReady]
    · cases h
  · split at h
    · next hMatches => rw [if_pos hMatches]
    · cases h
  · cases h

/-- An accepted join makes a learner of its operation. -/
theorem learner_of_join {authority : RuntimeAuthority Instant} {verified : VerifiedAdmission Instant}
    {now : Instant} (hMode : verified.mode = .join (some binding))
    (h : (authority.transition digest verified now).1 = .ok ()) :
    (authority.transition digest verified now).2.Learner digest verified.context binding := by
  have hLocal := transition_ok_local digest h
  simp only [transition, hLocal, hMode, ne_eq, not_true_eq_false, if_false] at h ⊢
  split at h
  · cases h
  · next hBinding =>
      rw [if_neg hBinding]
      have hAccepted : (authority.permission.join (authority.identity digest verified.context)
          binding.logId verified.deadline now).1 = true := ensure_eq_ok.mp h
      refine ⟨hLocal.symm, ?_, .inr ⟨verified.deadline, join_accepted hAccepted⟩⟩
      simp [settle, hAccepted]

/-- A transition leaves a learner on its operation. -/
theorem Learner.transition {authority : RuntimeAuthority Instant}
    (h : authority.Learner digest admitted binding) (verified : VerifiedAdmission Instant)
    (now : Instant) :
    (authority.transition digest verified now).2.Learner digest admitted binding := by
  obtain ⟨hEnter, hRenew⟩ := h.refuses (authority.identity digest verified.context)
    verified.deadline now
  unfold RuntimeAuthority.transition
  split
  · exact h
  · dsimp only
    split
    · rw [hEnter]
      exact h.sealExpired now
    · next prepared hMode =>
        split
        · exact h
        · next hBinding =>
            obtain rfl : binding = prepared := by
              by_contra hNe
              exact hBinding (by simp [h.bound, hNe])
            refine ⟨h.boot, ?_, ?_⟩
            · simp only [settle, h.bound, ite_self]
            · rcases h.join (authority.identity digest verified.context) binding.logId
                verified.deadline now with hKept | ⟨later, hLater⟩
              · have hSealed := (h.sealExpired now).learning
                simp only [settle, hKept]
                exact hSealed
              · exact .inr ⟨later, hLater⟩
    · rw [hRenew]
      exact h.sealExpired now
    · exact h

/-- A learner is not renewed. -/
theorem Learner.renew_refused {authority : RuntimeAuthority Instant}
    (h : authority.Learner digest admitted binding) {verified : VerifiedAdmission Instant}
    {now : Instant} {progress : Option LogId} (hMode : verified.mode = .renew progress) :
    (authority.transition digest verified now).1 ≠ .ok () := by
  have hRenew := (h.refuses (authority.identity digest verified.context) verified.deadline now).2
  unfold RuntimeAuthority.transition
  rw [hMode]
  split
  · simp
  · cases progress with
    | none => simp
    | some progress =>
        dsimp only
        rw [hRenew]
        simp [settle]

/-- After its transition, accepting a result only looks at the clock. -/
theorem accept_atMostSealed (authority : RuntimeAuthority Instant)
    (verified : VerifiedAdmission Instant) (now checked returned : Instant) :
    (authority.transition digest verified now).2.AtMostSealed
      (authority.accept digest verified now checked returned).2 := by
  unfold RuntimeAuthority.accept
  split
  · next denied after hDenied =>
      rw [hDenied]
      exact .inl rfl
  · next after hAccepted =>
      rw [hAccepted]
      unfold openSession
      split
      · exact .inl rfl
      · exact check_atMostSealed digest after verified.context checked

end RuntimeAuthority

/-! ### The process -/

/-- Install process-local authority once. The session was checked by the caller. -/
def KafStorageState.bindAdmission (state : KafStorageState) (session : AdmissionSession) :
    Except AdmissionDenied KafStorageState := do
  ensure state.admission.isNone "admission context is already bound"
  ensure (state.genesis.all (· = session.context.genesis))
    "admission genesis differs from applied history"
  return { state with admission := some session }

/-- One running boot: its authority and its applied state. -/
structure BootProcess (Instant : Type) where
  authority : RuntimeAuthority Instant
  store : KafStorageState

/-- What happens in a process. Every call carries the readings of the clock that it
makes, in any order of time. -/
inductive ProcessCall (Instant : Type) where
  | accept (verified : VerifiedAdmission Instant) (now checked returned : Instant)
  | bindAdmission (session : AdmissionSession) (checked returned : Instant)
  | applyEntry (entry : Entry)
  | markPromoted (prepared : PreparedJoin) (readings : PromotionReadings Instant)
  | check (expected : AdmissionContext) (now : Instant)
  | sealNow

namespace BootProcess

open RuntimeAuthority (Learner)

variable {Instant : Type} [LinearOrder Instant] (digest : Genesis → BitVec 256)
  (planDigest : JoinPlan → BitVec 256)

def step (process : BootProcess Instant) : ProcessCall Instant → BootProcess Instant
  | .accept verified now checked returned =>
      { process with authority := (process.authority.accept digest verified now checked returned).2 }
  | .bindAdmission session checked returned =>
      let answer := process.authority.checkSession digest session checked returned
      { authority := answer.2
        store := match answer.1.bind fun _ => process.store.bindAdmission session with
          | .ok bound => bound
          | .error _ => process.store }
  | .applyEntry entry => { process with store := process.store.step entry }
  | .markPromoted prepared readings =>
      { process with
        authority :=
          (process.authority.markPromoted digest planDigest prepared process.store readings).2 }
  | .check expected now => { process with authority := (process.authority.check digest expected now).2 }
  | .sealNow =>
      { process with authority := { process.authority with permission := process.authority.permission.sealNow } }

/-- The permission lets the process vote. -/
def Voting (process : BootProcess Instant) : Prop :=
  ∃ context deadline, process.authority.permission = .active context .voting deadline

/-- The call promotes a process that was admitted in a context for one join, on the
completed join in its own applied state. -/
def PromotedBy (process : BootProcess Instant) (call : ProcessCall Instant)
    (admitted : AdmissionContext) (join : PreparedJoin) : Prop :=
  ∃ prepared readings completed, call = .markPromoted prepared readings ∧
    process.store.completedJoins[admitted.localReplica.physicalId]? = some completed ∧
    completed.prepared.plan.consumer = admitted.localReplica ∧
    completed.prepared.plan.genesis = admitted.genesis ∧
    completed.prepared.plan.requestNonce = join.plan.requestNonce ∧
    completed.prepared.prepared = join.prepared ∧
    process.store.lastMembership.membership.getJointConfig ≠ [] ∧
    ∀ voters ∈ process.store.lastMembership.membership.getJointConfig,
      admitted.localReplica ∈ voters ∧
      ∀ other ∈ voters, other.physicalId = admitted.localReplica.physicalId →
        other = admitted.localReplica

variable {digest planDigest}

/-- A learner is promoted, or stays on its operation. -/
theorem step_learner {process : BootProcess Instant} {admitted : AdmissionContext}
    {binding : JoinBinding} (h : process.authority.Learner digest admitted binding)
    (call : ProcessCall Instant) :
    (process.step digest planDigest call).authority.Learner digest admitted binding ∨
      ((process.step digest planDigest call).Voting ∧
        ∃ prepared readings deadline, call = .markPromoted prepared readings ∧
          process.authority.Promotes digest planDigest prepared process.store deadline) := by
  cases call with
  | accept verified now checked returned =>
      exact .inl ((h.transition verified now).atMostSealed
        (RuntimeAuthority.accept_atMostSealed process.authority verified now checked returned))
  | bindAdmission session checked returned =>
      exact .inl (h.atMostSealed (RuntimeAuthority.check_atMostSealed digest process.authority
        session.context checked))
  | applyEntry entry => exact .inl h
  | check expected now =>
      exact .inl (h.atMostSealed (RuntimeAuthority.check_atMostSealed digest process.authority
        expected now))
  | sealNow => exact .inl (h.atMostSealed (.inr rfl))
  | markPromoted prepared readings =>
      rcases RuntimeAuthority.markPromoted_cases digest planDigest process.authority prepared
        process.store readings with hKept | ⟨deadline, hPromotes, hVoting⟩
      · exact .inl (h.atMostSealed hKept)
      · exact .inr ⟨⟨_, deadline, congrArg RuntimeAuthority.permission hVoting⟩, prepared, readings,
          deadline, rfl, hPromotes⟩

omit [LinearOrder Instant] in
/-- What a learner is promoted on is the join that it was admitted for. -/
theorem promotedBy_of_promotes {process : BootProcess Instant} {admitted : AdmissionContext}
    {join prepared : PreparedJoin} {readings : PromotionReadings Instant} {deadline : Instant}
    (hLearner : process.authority.Learner digest admitted (.fromPrepared planDigest join))
    (h : process.authority.Promotes digest planDigest prepared process.store deadline)
    (hPlan : planDigest prepared.plan = planDigest join.plan → prepared.plan = join.plan)
    (hGenesis : digest prepared.plan.genesis = digest admitted.genesis →
      prepared.plan.genesis = admitted.genesis) :
    process.PromotedBy (.markPromoted prepared readings) admitted join := by
  obtain ⟨⟨completed, hCompleted, hReceipt⟩, hConfigured, hVoter, hUnique⟩ := h.completion
  have hBinding := Option.some.inj (h.bound.symm.trans hLearner.bound)
  simp only [JoinBinding.fromPrepared, JoinBinding.mk.injEq] at hBinding
  have hDigest : digest prepared.plan.genesis = digest admitted.genesis := by
    rcases hLearner.learning with hSealed | ⟨previous, hActive⟩
    · cases hSealed.symm.trans h.learner
    · have hSame := h.learner.symm.trans hActive
      simp only [RuntimePermission.active.injEq, RuntimeAuthority.identity,
        AuthorityContext.mk.injEq] at hSame
      exact hSame.1.2.2.1
  rw [hLearner.boot] at hCompleted hVoter hUnique
  exact ⟨prepared, readings, completed, rfl, hCompleted,
    by rw [hReceipt, h.consumer, hLearner.boot], by rw [hReceipt, hGenesis hDigest],
    by rw [hReceipt, hPlan hBinding.2], by rw [hReceipt, hBinding.1], hConfigured,
    fun voters hVoters => ⟨hVoter voters hVoters, hUnique voters hVoters⟩⟩

theorem step_precedes (process : BootProcess Instant) (call : ProcessCall Instant) :
    process.authority.permission.Precedes
      (process.step digest planDigest call).authority.permission := by
  have hSealed : ∀ {after : RuntimeAuthority Instant}, process.authority.AtMostSealed after →
      process.authority.permission.Precedes after.permission := by
    rintro after (rfl | rfl)
    · exact .refl _
    · exact RuntimePermission.precedes_sealed _
  cases call with
  | accept verified now checked returned =>
      exact RuntimeAuthority.step_precedes digest process.authority
        ⟨now, .accept verified checked returned⟩
  | bindAdmission session checked returned =>
      exact hSealed (RuntimeAuthority.check_atMostSealed digest process.authority session.context
        checked)
  | applyEntry entry => exact .refl _
  | check expected now =>
      exact hSealed (RuntimeAuthority.check_atMostSealed digest process.authority expected now)
  | sealNow => exact RuntimePermission.precedes_sealed _
  | markPromoted prepared readings =>
      rcases RuntimeAuthority.markPromoted_cases digest planDigest process.authority prepared
        process.store readings with hKept | ⟨deadline, hPromotes, hVoting⟩
      · exact hSealed hKept
      · rw [hPromotes.learner, show (process.step digest planDigest
          (.markPromoted prepared readings)).authority = _ from hVoting]
        exact ⟨rfl, le_rfl, fun _ hStage => by cases hStage⟩

section Run

variable (digest planDigest) (start : BootProcess Instant) (calls : List (ProcessCall Instant))

def processAt (i : Nat) : BootProcess Instant :=
  Runs.stateAt (step digest planDigest) start calls i

variable {digest planDigest start calls}

theorem processAt_succ {i : Nat} (h : i < calls.length) :
    processAt digest planDigest start calls (i + 1) =
      (processAt digest planDigest start calls i).step digest planDigest calls[i] :=
  Runs.stateAt_succ _ _ h

theorem processAt_precedes {i j : Nat} (hij : i ≤ j) (hj : j ≤ calls.length) :
    (processAt digest planDigest start calls i).authority.permission.Precedes
      (processAt digest planDigest start calls j).authority.permission :=
  Runs.stateAt_related _ _
    (fun first second : BootProcess Instant =>
      first.authority.permission.Precedes second.authority.permission)
    (fun _ => RuntimePermission.Precedes.refl _)
    (fun _ _ _ => RuntimePermission.Precedes.trans _ _ _)
    (fun _ _ => step_precedes _ _) hij hj

/-- Voting ends with the permission. -/
theorem voting_or_sealed {i j : Nat} (hij : i ≤ j) (hj : j ≤ calls.length)
    (h : (processAt digest planDigest start calls i).Voting) :
    (processAt digest planDigest start calls j).Voting ∨
      (processAt digest planDigest start calls j).authority.permission = .sealed := by
  obtain ⟨context, deadline, hVoting⟩ := h
  have hPrecedes : (processAt digest planDigest start calls i).authority.permission.Precedes
      (processAt digest planDigest start calls j).authority.permission := processAt_precedes hij hj
  rw [hVoting] at hPrecedes
  cases hPermission : (processAt digest planDigest start calls j).authority.permission with
  | quarantined ready =>
      rw [hPermission] at hPrecedes
      cases hPrecedes
  | sealed => exact .inr rfl
  | active inForce stage later =>
      rw [hPermission] at hPrecedes
      cases stage with
      | voting => exact .inl ⟨inForce, later, hPermission⟩
      | joining operation => cases hPrecedes.2.2 operation rfl

/-- A process that is no longer the learner that it was has been promoted. -/
theorem exists_promotion {i j : Nat} (hij : i ≤ j) (hj : j ≤ calls.length)
    {admitted : AdmissionContext} {binding : JoinBinding}
    (hLearner : (processAt digest planDigest start calls i).authority.Learner digest admitted binding)
    (hLeft : ¬(processAt digest planDigest start calls j).authority.Learner digest admitted binding) :
    ∃ k, ∃ hk : k < calls.length, i ≤ k ∧ k < j ∧
      (processAt digest planDigest start calls k).authority.Learner digest admitted binding ∧
      (processAt digest planDigest start calls (k + 1)).Voting ∧
      ∃ prepared readings deadline, calls[k] = .markPromoted prepared readings ∧
        (processAt digest planDigest start calls k).authority.Promotes digest planDigest prepared
          (processAt digest planDigest start calls k).store deadline := by
  obtain ⟨k, hik, hkj, hStill, hGone⟩ := Runs.exists_step_of_change (step digest planDigest) start
    (fun process => ¬process.authority.Learner digest admitted binding) hij (not_not.mpr hLearner)
    hLeft
  have hk : k < calls.length := by omega
  have hBefore : (processAt digest planDigest start calls k).authority.Learner digest admitted
      binding := not_not.mp hStill
  have hAfter : ¬(processAt digest planDigest start calls (k + 1)).authority.Learner digest admitted
      binding := hGone
  rw [processAt_succ hk] at hAfter
  rcases step_learner hBefore calls[k] with hKept | ⟨hVoting, hPromoted⟩
  · exact absurd hKept hAfter
  · rw [← processAt_succ hk] at hVoting
    exact ⟨k, hk, hik, hkj, hBefore, hVoting, hPromoted⟩

end Run

/-- Distinct plans and genesis records of a run have distinct digests. -/
structure CollisionFree (digest : Genesis → BitVec 256) (planDigest : JoinPlan → BitVec 256)
    (calls : List (ProcessCall Instant)) (admitted : AdmissionContext) (join : PreparedJoin) :
    Prop where
  plan : ∀ prepared readings, .markPromoted prepared readings ∈ calls →
    planDigest prepared.plan = planDigest join.plan → prepared.plan = join.plan
  genesis : ∀ prepared readings, .markPromoted prepared readings ∈ calls →
    digest prepared.plan.genesis = digest admitted.genesis → prepared.plan.genesis = admitted.genesis

/-- After a process was admitted as the learner of a join, its permission starts to vote
only at a promotion on the applied completion of that join, and no renewal is accepted
before. -/
theorem voting_only_by_completion (digest : Genesis → BitVec 256)
    (planDigest : JoinPlan → BitVec 256) (start : BootProcess Instant)
    (calls : List (ProcessCall Instant)) (n : Nat) (verified : VerifiedAdmission Instant)
    (now checked returned : Instant) (join : PreparedJoin)
    (hCall : calls[n]? = some (.accept verified now checked returned))
    (hMode : verified.mode = .join (some (.fromPrepared planDigest join)))
    (hAccepted : ((processAt digest planDigest start calls n).authority.transition digest verified
      now).1 = .ok ())
    (hDigests : CollisionFree digest planDigest calls verified.context join) :
    (∀ k (hk : k < calls.length), n < k →
      ¬(processAt digest planDigest start calls k).Voting →
      (processAt digest planDigest start calls (k + 1)).Voting →
        (processAt digest planDigest start calls k).PromotedBy calls[k] verified.context join) ∧
    ∀ m other now' checked' returned' progress, n < m →
      calls[m]? = some (.accept other now' checked' returned') → other.mode = .renew progress →
      ((processAt digest planDigest start calls m).authority.transition digest other now').1 =
        .ok () →
      ∃ k, ∃ hk : k < calls.length, n < k ∧ k < m ∧
        (processAt digest planDigest start calls k).PromotedBy calls[k] verified.context join := by
  obtain ⟨hn, hAt⟩ := List.getElem?_eq_some_iff.mp hCall
  have hLearner : (processAt digest planDigest start calls (n + 1)).authority.Learner digest
      verified.context (.fromPrepared planDigest join) := by
    rw [processAt_succ hn, hAt]
    exact (RuntimeAuthority.learner_of_join hMode hAccepted).atMostSealed
      (RuntimeAuthority.accept_atMostSealed _ verified now checked returned)
  have hPromoted : ∀ k (hk : k < calls.length) prepared readings deadline,
      (processAt digest planDigest start calls k).authority.Learner digest verified.context
        (.fromPrepared planDigest join) →
      calls[k] = .markPromoted prepared readings →
      (processAt digest planDigest start calls k).authority.Promotes digest planDigest prepared
        (processAt digest planDigest start calls k).store deadline →
      (processAt digest planDigest start calls k).PromotedBy calls[k] verified.context join := by
    intro k hk prepared readings deadline hStill hCalled hPromotes
    have hMem : .markPromoted prepared readings ∈ calls := hCalled ▸ List.getElem_mem hk
    rw [hCalled]
    exact promotedBy_of_promotes hStill hPromotes (hDigests.plan prepared readings hMem)
      (hDigests.genesis prepared readings hMem)
  constructor
  · intro k hk hnk hBefore hAfter
    by_cases hStill : (processAt digest planDigest start calls k).authority.Learner digest
        verified.context (.fromPrepared planDigest join)
    · rcases step_learner hStill calls[k] with hKept | ⟨-, prepared, readings, deadline, hCalled,
        hPromotes⟩
      · rw [← processAt_succ hk] at hKept
        obtain ⟨context, later, hVoting⟩ := hAfter
        rcases hKept.learning with hSealed | ⟨previous, hJoining⟩
        · cases hSealed.symm.trans hVoting
        · cases hJoining.symm.trans hVoting
      · exact hPromoted k hk prepared readings deadline hStill hCalled hPromotes
    · obtain ⟨m, hm, -, hmk, -, hVoted, -⟩ := exists_promotion (Nat.succ_le_of_lt hnk) hk.le hLearner
        hStill
      rcases voting_or_sealed (Nat.succ_le_of_lt hmk) hk.le hVoted with hVotes | hSealed
      · exact absurd hVotes hBefore
      · have hPrecedes : (processAt digest planDigest start calls k).authority.permission.Precedes
            (processAt digest planDigest start calls (k + 1)).authority.permission :=
          processAt_precedes (Nat.le_succ k) hk
        obtain ⟨context, later, hVoting⟩ := hAfter
        rw [hSealed, hVoting] at hPrecedes
        cases hPrecedes
  · intro m other now' checked' returned' progress hnm hRenewal hRenew hOk
    have hm : m < calls.length := (List.getElem?_eq_some_iff.mp hRenewal).1
    have hLeft : ¬(processAt digest planDigest start calls m).authority.Learner digest
        verified.context (.fromPrepared planDigest join) :=
      fun hStill => hStill.renew_refused hRenew hOk
    obtain ⟨k, hk, hnk, hkm, hStill, -, prepared, readings, deadline, hCalled, hPromotes⟩ :=
      exists_promotion (Nat.succ_le_of_lt hnm) hm.le hLearner hLeft
    exact ⟨k, hk, hnk, hkm, hPromoted k hk prepared readings deadline hStill hCalled hPromotes⟩

/-! The second boot of a single member joins its own cluster, applies the log that
completes the join and is promoted. -/

def rejoinLogId (index : Nat) : LogId := ⟨⟨1, ⟨1, 1⟩⟩, index⟩

def rejoinPlan : JoinPlan :=
  ⟨RuntimeAuthority.rejoinContext.genesis, RuntimeAuthority.rejoined, 5, {⟨1, 1⟩},
    {RuntimeAuthority.rejoined}⟩

def rejoinMembership (configs : List (Finset ReplicaId)) : EntryPayload :=
  .membership ⟨configs, .ofList [(ReplicaId.mk 1 1, BasicNode.mk "a:1"), (ReplicaId.mk 1 2, BasicNode.mk "a:1")]⟩

def rejoinEntries : List Entry :=
  [.membership ⟨[{⟨1, 1⟩}], .ofList [(ReplicaId.mk 1 1, BasicNode.mk "a:1")]⟩,
    .normal (.admissionGenesis RuntimeAuthority.rejoinContext.genesis),
    .normal (.admissionMembership (.prepareJoin rejoinPlan)),
    rejoinMembership [{⟨1, 1⟩}],
    .normal (.admissionMembership (.learnerApplied RuntimeAuthority.rejoined 5 (rejoinLogId 2))),
    rejoinMembership [{⟨1, 1⟩}, {⟨1, 2⟩}],
    rejoinMembership [{⟨1, 2⟩}]].zipIdx.map fun (payload, index) => ⟨rejoinLogId index, payload⟩

def rejoinProcess : BootProcess Nat :=
  ⟨.quarantined RuntimeAuthority.rejoined 8, StoreConfig.start ⟨⟨[], List.nodup_nil⟩, 3, false, 0⟩⟩

def rejoinProcessCalls : List (ProcessCall Nat) :=
  [.accept ⟨RuntimeAuthority.rejoinContext, 90,
      .join (some (.fromPrepared (fun _ => 3) ⟨rejoinPlan, rejoinLogId 2, none⟩)), none⟩ 10 10 11,
    .bindAdmission ⟨RuntimeAuthority.rejoinContext⟩ 12 12] ++
  rejoinEntries.map .applyEntry ++
  [.markPromoted ⟨rejoinPlan, rejoinLogId 2, some (rejoinLogId 4)⟩ ⟨20, 20, 20, 20⟩]

theorem voting_only_by_completion_rejoined :
    (processAt (fun _ => 7) (fun _ => 3) rejoinProcess rejoinProcessCalls 10).Voting ∧
      (processAt (fun _ => 7) (fun _ => 3) rejoinProcess rejoinProcessCalls 9).PromotedBy
        (.markPromoted ⟨rejoinPlan, rejoinLogId 2, some (rejoinLogId 4)⟩ ⟨20, 20, 20, 20⟩)
        RuntimeAuthority.rejoinContext ⟨rejoinPlan, rejoinLogId 2, none⟩ := by
  have hLearner : (processAt (fun _ => 7) (fun _ => 3) rejoinProcess rejoinProcessCalls
      9).authority.permission = .active ⟨2, 9, 7, 1⟩ (.joining (rejoinLogId 2)) 90 := by
    decide +kernel
  have hVoting : (processAt (fun _ => 7) (fun _ => 3) rejoinProcess rejoinProcessCalls
      10).authority.permission = .active ⟨2, 9, 7, 1⟩ .voting 90 := by
    decide +kernel
  have hPlans : ∀ prepared readings, .markPromoted prepared readings ∈ rejoinProcessCalls →
      prepared.plan = rejoinPlan := by
    intro prepared readings hMem
    simp only [rejoinProcessCalls, List.mem_append, List.mem_cons, List.mem_map, reduceCtorEq,
      and_false, exists_false, List.not_mem_nil, or_false, false_or,
      ProcessCall.markPromoted.injEq] at hMem
    rw [hMem.1]
  refine ⟨⟨_, _, hVoting⟩, ?_⟩
  exact (voting_only_by_completion (fun _ => 7) (fun _ => 3) rejoinProcess rejoinProcessCalls 0 _ 10
    10 11 ⟨rejoinPlan, rejoinLogId 2, none⟩ rfl rfl (by decide +kernel)
    ⟨fun prepared readings hMem _ => hPlans prepared readings hMem,
      fun prepared readings hMem _ => by rw [hPlans prepared readings hMem]; rfl⟩).1 9 (by decide)
    (by decide) (by rintro ⟨_, _, h⟩; cases hLearner.symm.trans h) ⟨_, _, hVoting⟩

end BootProcess

end KeepAfloat
