import KeepAfloat.Admission.Exclusivity
import KeepAfloat.Freshness.Permits

/-! Permits across the cluster. What authorizes a VIP effect is checked in one process against
its own clock; the admission protocol makes these checks exclusive between incarnations. -/

namespace KeepAfloat

/-- The contexts that a permit speaks of: the one on its stamp, and the one of its proof. -/
def Permit.contexts {Instant : Type} (permit : Permit Instant) : List AdmissionContext :=
  [permit.stamp.context, permit.progress.context]

namespace AdmissionCluster

section Effects

variable {Instant : Type} [CommRing Instant] [LinearOrder Instant] [IsStrictOrderedRing Instant]
variable {setting : AdmissionSetting Instant} {process : AdmissionProcess Instant} {now : Instant}

omit [CommRing Instant] [IsStrictOrderedRing Instant] in
theorem current_of_progress {progress : VerifiedProgress Instant}
    (h : (progress.check setting.digest process.authority now).isOk = true) :
    ∃ deadline, (process.authority.permission.current now).1 =
      some (process.authority.identity setting.digest progress.context, deadline) := by
  obtain ⟨-, stage, deadline, hActive, hNow⟩ := ((FreshnessState.check_isOk setting.digest).mp h).1
  exact ⟨deadline, RuntimePermission.current_eq_some.mpr ⟨stage, hActive, hNow⟩⟩

omit [CommRing Instant] [IsStrictOrderedRing Instant] in
/-- A permit that checks is of the context that the runtime has in force. -/
theorem current_of_check {permit : Permit Instant} {freshness : ConsensusFreshness Instant}
    (h : permit.check setting.digest freshness process.authority now = true)
    {context : AdmissionContext} (hContext : context ∈ permit.contexts) :
    ∃ deadline, (process.authority.permission.current now).1 =
      some (process.authority.identity setting.digest context, deadline) := by
  simp only [Permit.check, Bool.and_eq_true] at h
  obtain ⟨⟨⟨⟨-, hOwn⟩, -⟩, hLatest⟩, -⟩ := h
  simp only [Permit.contexts, List.mem_cons, List.not_mem_nil, or_false] at hContext
  rcases hContext with rfl | rfl
  · obtain ⟨progress, -, hProgress⟩ := (Option.any_eq_true _ _).mp hLatest
    rw [Bool.and_eq_true, decide_eq_true_eq] at hProgress
    rw [← hProgress.1]
    exact current_of_progress hProgress.2
  · exact current_of_progress hOwn

/-- At every moment of every interleaving, all permits that check anywhere in the cluster,
whenever and however they were issued, are of one incarnation. -/
theorem effects_exclusive (setting : AdmissionSetting Instant) (clock : ReplicaId → Instant)
    (s : AdmissionCluster Instant) (hReachable : Reachable setting clock s)
    (first second : ReplicaId) (firstProcess secondProcess : AdmissionProcess Instant)
    (hFirst : s.live first = some firstProcess) (hSecond : s.live second = some secondProcess)
    (permit permit' : Permit Instant) (freshness freshness' : ConsensusFreshness Instant)
    (hCheck : permit.check setting.digest freshness firstProcess.authority (s.clock first) = true)
    (hCheck' : permit'.check setting.digest freshness' secondProcess.authority (s.clock second) =
      true)
    (context context' : AdmissionContext) (hContext : context ∈ permit.contexts)
    (hContext' : context' ∈ permit'.contexts) :
    context.genesis.epoch = context'.genesis.epoch ∧
      setting.digest context.genesis = setting.digest context'.genesis := by
  obtain ⟨deadline, hCurrent⟩ := current_of_check hCheck hContext
  obtain ⟨deadline', hCurrent'⟩ := current_of_check hCheck' hContext'
  obtain ⟨hSound, hInv⟩ := hReachable.sound
  obtain ⟨genesis, nonce, issuers, -, hIdentity, hSubset, hMajority, hBacked, hOpen⟩ :=
    backed_of_current hSound hFirst hCurrent
  obtain ⟨genesis', nonce', issuers', -, hIdentity', hSubset', hMajority', hBacked', hOpen'⟩ :=
    backed_of_current hSound hSecond hCurrent'
  obtain rfl : genesis = genesis' :=
    hInv.majorities_agree hSubset hSubset' hMajority hMajority' hBacked hBacked' hOpen hOpen'
  simp only [RuntimeAuthority.identity, AuthorityContext.mk.injEq] at hIdentity hIdentity'
  exact ⟨hIdentity.2.1.trans hIdentity'.2.1.symm, hIdentity.2.2.1.trans hIdentity'.2.2.1.symm⟩

end Effects

/-- The renewal of member `id` and the permit that it gives. -/
def pairPermit (id : Nat) : Permit ℤ where
  stamp := ⟨0, ⟨⟨id, 1⟩, pairGenesis⟩, 1⟩
  acquisitionEpoch := some 0
  deadline := 48
  progress := ⟨39, ⟨⟨id, some true, ⟨id, 1⟩, 9, id, pairGenesis⟩, ⟨⟨1, ⟨1, 1⟩⟩, 4⟩⟩, 50,
    ⟨⟨⟨id, 1⟩, pairGenesis⟩⟩⟩

def pairFreshness (id : Nat) : ConsensusFreshness ℤ :=
  ⟨⟨some 39, 1, 0, true, some (pairPermit id).progress⟩, 9, 0⟩

theorem effects_exclusive_pair : ∃ s : AdmissionCluster ℤ, Reachable pairSetting (fun _ => 0) s ∧
    (pairPermit 1).check pairSetting.digest (pairFreshness 1) (pairAdmitted 1).authority
      (s.clock ⟨1, 1⟩) = true ∧
    (pairPermit 1).stamp.context.genesis.epoch = (pairPermit 2).progress.context.genesis.epoch := by
  obtain ⟨s, h⟩ := pair_admitted
  have hCheck : ∀ id, id = 1 ∨ id = 2 → (pairPermit id).check pairSetting.digest (pairFreshness id)
      (pairAdmitted id).authority (s.clock ⟨id, 1⟩) = true := by
    rintro id (rfl | rfl) <;> rw [h.clock] <;> decide +kernel
  exact ⟨s, h.reachable, hCheck 1 (.inl rfl), (effects_exclusive pairSetting (fun _ => 0) s
    h.reachable ⟨1, 1⟩ ⟨2, 1⟩ _ _ h.first_live h.second_live _ _ _ _ (hCheck 1 (.inl rfl))
    (hCheck 2 (.inr rfl)) _ _ (.head _) (.tail _ (.head _))).1⟩

end AdmissionCluster

end KeepAfloat
