import KeepAfloat.Management.Leader

/-! Preparations are serial on every leader, as long as a call that finds no join in the applied
state finds none at the end of the log either. Calls may be dropped at any await. -/

namespace KeepAfloat.Management

/-- The call has found no prepared join and has not submitted its own. -/
def ManagePhase.claiming : ManagePhase → Bool
  | .unclaimed _ => true
  | .planned _ => true
  | _ => false

/-- The call is about to read the applied state. -/
def ManagePhase.reads : ManagePhase → Bool
  | .leading _ => true
  | _ => false

/-- No join is pending at the end of the log. -/
def Replica.Vacant (config : StoreConfig) (replica : Replica) : Prop :=
  (admissionAt config replica.log replica.log.length).preparedJoin = none

instance (config : StoreConfig) (replica : Replica) : Decidable (replica.Vacant config) :=
  inferInstanceAs (Decidable (_ = none))

/-- What a leader has not applied hides no join from a call: not when the call reads that there is
none, and not when the node is elected with such a call. -/
def Careful {Node : Type} (config : StoreConfig) (cluster : Cluster Node) :
    ClusterEvent Node → Prop
  | .manage node _ => (cluster.replica node).leader.isSome →
      (cluster.replica node).call.any ManagePhase.reads →
        ((cluster.replica node).state config).preparedJoin = none → (cluster.replica node).Vacant config
  | .elect node _ => (cluster.replica node).call.any ManagePhase.claiming →
      (cluster.replica node).Vacant config
  | _ => True

instance {Node : Type} (config : StoreConfig) (cluster : Cluster Node) (event : ClusterEvent Node) :
    Decidable (Careful config cluster event) := by
  cases event <;> dsimp only [Careful] <;> infer_instance

/-! ### One node -/

/-- What the calls of a node and its log know of each other. -/
structure Steady (config : StoreConfig) (replica : Replica) : Prop where
  applied_le : replica.applied ≤ replica.committed
  committed_le : replica.committed ≤ replica.log.length
  unclaimed : ∀ {request}, replica.call = some (.unclaimed request) →
    (admissionAt config replica.log replica.applied).genesis = some request.genesis
  planned : ∀ {plan}, replica.call = some (.planned plan) →
    (admissionAt config replica.log replica.applied).Ready plan.genesis
  /-- A call that is about to prepare a join meets none in the log of the leader. -/
  vacant : replica.leader.isSome → ∀ {phase}, replica.call = some phase → phase.claiming = true →
    replica.Vacant config

section Node

variable {config : StoreConfig} {replica : Replica}

theorem Steady.applied_le_length (h : Steady config replica) :
    replica.applied ≤ replica.log.length := h.applied_le.trans h.committed_le

/-- A call moves without a look at the log. -/
theorem Steady.of_call (h : Steady config replica) {call : Option ManagePhase}
    (hPhase : ∀ phase ∈ call, phase.claiming = false) :
    Steady config { replica with call := call } where
  applied_le := h.applied_le
  committed_le := h.committed_le
  unclaimed := by
    intro request hSome
    cases hPhase _ hSome
  planned := by
    intro plan hSome
    cases hPhase _ hSome
  vacant := by
    intro _ phase hSome hClaims
    cases (hPhase phase hSome).symm.trans hClaims

theorem Steady.release (h : Steady config replica) : Steady config replica.release :=
  h.of_call (by simp)

theorem Steady.wait (h : Steady config replica) {phase : ManagePhase}
    (hPhase : phase.claiming = false) : Steady config (replica.wait phase) :=
  h.of_call (by simpa using hPhase)

/-- A call finds no prepared join, or a plan. -/
theorem Steady.claim (h : Steady config replica) {phase : ManagePhase}
    (hUnclaimed : ∀ request, phase = .unclaimed request →
      (admissionAt config replica.log replica.applied).genesis = some request.genesis)
    (hPlanned : ∀ plan, phase = .planned plan →
      (admissionAt config replica.log replica.applied).Ready plan.genesis)
    (hVacant : replica.leader.isSome → replica.Vacant config) :
    Steady config (replica.wait phase) where
  applied_le := h.applied_le
  committed_le := h.committed_le
  unclaimed := fun hSome => hUnclaimed _ (Option.some.inj hSome)
  planned := fun hSome => hPlanned _ (Option.some.inj hSome)
  vacant := fun hLeader _ _ _ => hVacant hLeader

theorem Steady.apply (hSound : Sound config replica.log) (h : Steady config replica)
    (hLt : replica.applied < replica.committed) :
    Steady config { replica with applied := replica.applied + 1 } := by
  have hEntry := List.getElem?_eq_getElem (hLt.trans_le h.committed_le)
  refine ⟨hLt, h.committed_le, ?_, ?_, h.vacant⟩
  · intro request hCall
    have hGenesis := h.unclaimed hCall
    rw [admissionAt_succ hEntry]
    exact AdmissionView.genesis_step hGenesis _
  · intro plan hCall
    exact hSound.ready_upTo (Nat.le_succ _) (hLt.trans_le h.committed_le) (h.planned hCall)

theorem Steady.commit (h : Steady config replica) {length : Nat} (hLe : replica.committed ≤ length)
    (hLength : length ≤ replica.log.length) :
    Steady config { replica with committed := length } :=
  ⟨h.applied_le.trans hLe, hLength, h.unclaimed, h.planned, h.vacant⟩

/-- A follower keeps what it has committed. -/
theorem Steady.receive (h : Steady config replica) (hLeader : replica.leader = none)
    {log : List Entry} {length : Nat} (hLe : replica.committed ≤ length)
    (hLength : length ≤ log.length)
    (hKept : log.take replica.committed = replica.log.take replica.committed) :
    Steady config { replica with log := log.take length } := by
  have hPast : (log.take length).take replica.applied = replica.log.take replica.applied := by
    have hApplied := congrArg (List.take replica.applied) hKept
    rw [List.take_take, List.take_take, Nat.min_eq_left h.applied_le] at hApplied
    rw [List.take_take, Nat.min_eq_left (h.applied_le.trans hLe), hApplied]
  refine ⟨h.applied_le, by simpa [hLength] using hLe, ?_, ?_, ?_⟩
  · intro request hCall
    rw [admissionAt_congr hPast]
    exact h.unclaimed hCall
  · intro plan hCall
    rw [admissionAt_congr hPast]
    exact h.planned hCall
  · intro hSome
    simp [hLeader] at hSome

theorem Steady.stepDown (h : Steady config replica) :
    Steady config { replica with leader := none } :=
  ⟨h.applied_le, h.committed_le, h.unclaimed, h.planned, fun hSome => by cases hSome⟩

theorem Steady.elect (h : Steady config replica) (id : LeaderId)
    (hCall : replica.call.any ManagePhase.claiming → replica.Vacant config) :
    Steady config { replica with leader := some id } := by
  refine ⟨h.applied_le, h.committed_le, h.unclaimed, h.planned, fun _ phase hSome hClaims => ?_⟩
  refine hCall ?_
  rw [show replica.call = some phase from hSome]
  exact hClaims

theorem admissionAt_append (id : LeaderId) (payload : EntryPayload) {position : Nat}
    (h : position ≤ replica.log.length) :
    admissionAt config (replica.append id payload).log position =
      admissionAt config replica.log position :=
  admissionAt_congr (List.take_append_of_le_length h)

theorem preparation_otherPayload {logId : LogId} {payload : EntryPayload}
    (h : otherPayload payload = true) : (Entry.mk logId payload).preparation = none := by
  rw [Entry.preparation]
  split
  · next hPayload =>
      dsimp only at hPayload
      rw [hPayload] at h
      cases h
  · rfl

theorem voters_otherPayload {payload : EntryPayload} {membership : Membership}
    (h : otherPayload payload = true) (hPayload : payload = .membership membership) :
    membership.voterIds ≠ ∅ := by
  subst hPayload
  exact of_decide_eq_true h

/-- A leader logs something else than a preparation. -/
theorem Steady.propose (h : Steady config replica) {id : LeaderId} {payload : EntryPayload}
    (hOther : (Entry.mk ⟨id, replica.log.length⟩ payload).preparation = none) :
    Steady config (replica.append id payload) := by
  have hLength : (replica.append id payload).log.length = replica.log.length + 1 := by
    simp [Replica.append]
  have hCommitted : replica.committed ≤ (replica.append id payload).log.length := by
    rw [hLength]
    exact h.committed_le.trans (Nat.le_succ _)
  refine ⟨h.applied_le, hCommitted, ?_, ?_, ?_⟩
  · intro request hCall
    exact (congrArg AdmissionView.genesis (admissionAt_append id payload h.applied_le_length)).trans
      (h.unclaimed hCall)
  · intro plan hCall
    have hReady := h.planned hCall
    rw [← admissionAt_append id payload h.applied_le_length] at hReady
    exact hReady
  · intro hLeader phase hCall hClaims
    have hEntry : (replica.append id payload).log[replica.log.length]? =
        some ⟨⟨id, replica.log.length⟩, payload⟩ := by simp [Replica.append]
    rw [Replica.Vacant, hLength, admissionAt_succ hEntry, admissionAt_append id payload le_rfl]
    exact preparedJoin_step_none (h.vacant hLeader hCall hClaims) hOther

/-- A leader logs the preparation of its call. -/
theorem Steady.submit (h : Steady config replica) (id : LeaderId) (plan : JoinPlan) :
    Steady config ((replica.append id (.normal (.admissionMembership (.prepareJoin plan)))).wait
      (.submitted plan replica.log.length)) := by
  refine ⟨h.applied_le, ?_, ?_, ?_, ?_⟩
  · have hLe := h.committed_le
    simp only [Replica.wait, Replica.append, List.length_append]
    omega
  · intro request hSome
    cases hSome
  · intro other hSome
    cases hSome
  · intro _ phase hSome hClaims
    cases Option.some.inj hSome
    cases hClaims

/-- A call that goes on leaves the log alone, or logs its preparation as leader. -/
theorem manage_log (config : StoreConfig) (replica : Replica) (session : Option Genesis) :
    ((replica.manage config session).log = replica.log ∧
        (replica.manage config session).leader = replica.leader) ∨
      ∃ id plan, replica.leader = some id ∧ replica.call = some (.planned plan) ∧
        replica.manage config session =
          (replica.append id (.normal (.admissionMembership (.prepareJoin plan)))).wait
            (.submitted plan replica.log.length) := by
  rw [Replica.manage]
  split
  · exact .inl ⟨rfl, rfl⟩
  · split <;> exact .inl ⟨rfl, rfl⟩
  · split
    · exact .inl ⟨rfl, rfl⟩
    · split
      · exact .inl ⟨rfl, rfl⟩
      · split <;> exact .inl ⟨rfl, rfl⟩
  · dsimp only
    split <;> exact .inl ⟨rfl, rfl⟩
  · next plan hCall =>
      split
      · exact .inl ⟨rfl, rfl⟩
      · next id hLeader =>
          split
          · exact .inl ⟨rfl, rfl⟩
          · exact .inr ⟨id, plan, hLeader, hCall, rfl⟩
  · split
    · split <;> exact .inl ⟨rfl, rfl⟩
    · split <;> exact .inl ⟨rfl, rfl⟩
  · exact .inl ⟨rfl, rfl⟩

/-- A call keeps a node steady. -/
theorem Steady.manage (h : Steady config replica) (session : Option Genesis)
    (hReads : replica.leader.isSome → replica.call.any ManagePhase.reads →
      (replica.state config).preparedJoin = none → replica.Vacant config) :
    Steady config (replica.manage config session) := by
  rw [Replica.manage]
  cases hPhase : replica.call with
  | none => exact h
  | some phase =>
      rw [hPhase, Option.any_some] at hReads
      cases phase with
      | requested request =>
          dsimp only
          split
          · exact h.release
          · exact h.wait rfl
      | leading request =>
          dsimp only
          split
          · exact h.release
          · next hGenesis =>
              rw [not_not] at hGenesis
              split
              · next hNone =>
                  refine h.claim ?_ ?_ fun hLeader => hReads hLeader rfl hNone
                  · rintro other hOther
                    cases hOther
                    exact hGenesis
                  · rintro plan hPlan
                    cases hPlan
              · split
                · exact h.wait rfl
                · exact h.release
      | unclaimed request =>
          dsimp only
          split
          · exact h.release
          · next hPlan =>
              rw [not_or, not_not, not_not] at hPlan
              refine h.claim ?_ ?_ fun hLeader => h.vacant hLeader hPhase rfl
              · rintro other hOther
                cases hOther
              · rintro plan hSome
                cases hSome
                refine ⟨h.unclaimed hPhase, ?_⟩
                have hVoters := (JoinPlan.validate_eq_ok.mp hPlan.2).1
                exact hVoters.ne_empty
      | planned plan =>
          dsimp only
          split
          · exact h.release
          · next id hLeader =>
              split
              · exact h.release
              · exact h.submit id plan
      | submitted plan position =>
          dsimp only
          split
          · split
            · exact h.wait rfl
            · exact h.release
          · split
            · exact h.release
            · exact h
      | prepared peer => exact h.release

end Node

/-! ### The cluster -/

/-- The identity of the leader that has written an entry. -/
def writer (entry : Entry) : LeaderId := entry.logId.leaderId

/-- A log that a node has or that is on its way. -/
def Cluster.Visible {Node : Type} (cluster : Cluster Node) (log : List Entry) : Prop :=
  log ∈ cluster.sent ∨ ∃ node, log = (cluster.replica node).log

structure Ordered {Node : Type} (config : StoreConfig) (cluster : Cluster Node) : Prop where
  sound : ∀ {log}, cluster.Visible log → Sound config log
  steady : ∀ node, Steady config (cluster.replica node)
  agree : ∀ {first second}, cluster.Visible first → cluster.Visible second →
    Stamped.Agree writer first second
  owns : ∀ {node id}, (cluster.replica node).leader = some id → ∀ {log}, cluster.Visible log →
    Stamped.Owns writer id (cluster.replica node).log log
  known : ∀ {log}, cluster.Visible log → ∀ entry ∈ log, writer entry ∈ cluster.elected
  leads : ∀ {node id}, (cluster.replica node).leader = some id → id ∈ cluster.elected
  distinct : ∀ {node other id}, (cluster.replica node).leader = some id →
    (cluster.replica other).leader = some id → node = other

theorem Cluster.visible_replica {Node : Type} (cluster : Cluster Node) (node : Node) :
    cluster.Visible (cluster.replica node).log := .inr ⟨node, rfl⟩

/-- A leader sends its log. -/
theorem Ordered.send {Node : Type} {config : StoreConfig} {cluster : Cluster Node}
    (h : Ordered config cluster) (node : Node) :
    Ordered config { cluster with sent := (cluster.replica node).log :: cluster.sent } := by
  have hVisible : ∀ {log},
      Cluster.Visible { cluster with sent := (cluster.replica node).log :: cluster.sent } log →
        cluster.Visible log := by
    rintro log (hSent | hReplica)
    · rcases List.mem_cons.mp hSent with rfl | hOld
      · exact cluster.visible_replica node
      · exact .inl hOld
    · exact .inr hReplica
  exact ⟨fun hLog => h.sound (hVisible hLog), h.steady,
    fun hFirst hSecond => h.agree (hVisible hFirst) (hVisible hSecond),
    fun hSome _ hLog => h.owns hSome (hVisible hLog), fun hLog => h.known (hVisible hLog), h.leads,
    h.distinct⟩

section Steps

variable {Node : Type} [DecidableEq Node] {config : StoreConfig} {cluster : Cluster Node}
  {node : Node} {replica : Replica}

theorem Cluster.replica_set (other : Node) :
    (cluster.set node replica).replica other =
      if other = node then replica else cluster.replica other :=
  Function.update_apply _ _ _ _

theorem Cluster.visible_set {log : List Entry} (h : (cluster.set node replica).Visible log) :
    cluster.Visible log ∨ log = replica.log := by
  rcases h with hSent | ⟨other, hLog⟩
  · exact .inl (.inl hSent)
  · rw [Cluster.replica_set] at hLog
    split at hLog
    · exact .inr hLog
    · exact .inl (.inr ⟨other, hLog⟩)

/-- A node changes its log, and stays leader or follower as it was. -/
theorem Ordered.set (h : Ordered config cluster)
    (hLeader : replica.leader = (cluster.replica node).leader) (hSteady : Steady config replica)
    (hSound : Sound config replica.log)
    (hKnown : ∀ entry ∈ replica.log, writer entry ∈ cluster.elected)
    (hAgree : ∀ {log}, cluster.Visible log → Stamped.Agree writer replica.log log)
    (hOwns : ∀ {id}, replica.leader = some id → ∀ {log}, cluster.Visible log →
      Stamped.Owns writer id replica.log log)
    (hOther : ∀ {other id}, other ≠ node → (cluster.replica other).leader = some id →
      Stamped.Owns writer id (cluster.replica other).log replica.log) :
    Ordered config (cluster.set node replica) := by
  have hLeads : ∀ {other id}, ((cluster.set node replica).replica other).leader = some id →
      (cluster.replica other).leader = some id := by
    intro other id hSome
    rw [Cluster.replica_set] at hSome
    split at hSome
    · next hSame => rw [hSame, ← hLeader, hSome]
    · exact hSome
  refine ⟨?_, ?_, ?_, ?_, ?_, fun hSome => h.leads (hLeads hSome),
    fun hOne hTwo => h.distinct (hLeads hOne) (hLeads hTwo)⟩
  · intro log hVisible
    rcases Cluster.visible_set hVisible with hOld | rfl
    · exact h.sound hOld
    · exact hSound
  · intro other
    rw [Cluster.replica_set]
    split
    · exact hSteady
    · exact h.steady other
  · intro first second hFirst hSecond
    rcases Cluster.visible_set hFirst with hFirst | rfl
    · rcases Cluster.visible_set hSecond with hSecond | rfl
      · exact h.agree hFirst hSecond
      · exact (hAgree hFirst).symm
    · rcases Cluster.visible_set hSecond with hSecond | rfl
      · exact hAgree hSecond
      · exact Stamped.Agree.refl _
  · intro other id hSome log hVisible
    rw [Cluster.replica_set] at hSome ⊢
    by_cases hSame : other = node
    · rw [if_pos hSame] at hSome ⊢
      rcases Cluster.visible_set hVisible with hOld | rfl
      · exact hOwns hSome hOld
      · exact Stamped.Owns.refl id _
    · rw [if_neg hSame] at hSome ⊢
      rcases Cluster.visible_set hVisible with hOld | rfl
      · exact h.owns hSome hOld
      · exact hOther hSame hSome
  · intro log hVisible
    rcases Cluster.visible_set hVisible with hOld | rfl
    · exact h.known hOld
    · exact hKnown

/-- A node keeps its log. -/
theorem Ordered.set_same (h : Ordered config cluster)
    (hLog : replica.log = (cluster.replica node).log)
    (hLeader : replica.leader = (cluster.replica node).leader) (hSteady : Steady config replica) :
    Ordered config (cluster.set node replica) := by
  have hVisible := cluster.visible_replica node
  refine h.set hLeader hSteady ?_ ?_ ?_ ?_ ?_
  · rw [hLog]
    exact h.sound hVisible
  · rw [hLog]
    exact h.known hVisible
  · intro log hOther
    rw [hLog]
    exact h.agree hVisible hOther
  · intro id hSome log hOther
    rw [hLog]
    exact h.owns (hLeader ▸ hSome) hOther
  · intro other id _ hSome
    rw [hLog]
    exact h.owns hSome hVisible

/-- A leader logs an entry under its own identity. -/
theorem Ordered.set_append (h : Ordered config cluster) {id : LeaderId} {payload : EntryPayload}
    (hId : (cluster.replica node).leader = some id)
    (hLog : replica.log = ((cluster.replica node).append id payload).log)
    (hLeader : replica.leader = (cluster.replica node).leader) (hSteady : Steady config replica)
    (hSound : Sound config replica.log) : Ordered config (cluster.set node replica) := by
  have hVisible := cluster.visible_replica node
  refine h.set hLeader hSteady hSound ?_ ?_ ?_ ?_
  · intro entry hEntry
    rw [hLog, Replica.append, List.mem_append, List.mem_singleton] at hEntry
    rcases hEntry with hOld | rfl
    · exact h.known hVisible entry hOld
    · exact h.leads hId
  · intro log hOther
    rw [hLog]
    exact (h.agree hVisible hOther).append (h.owns hId hOther) rfl
  · intro own hSome log hOther
    rw [hLog]
    exact (h.owns (hLeader ▸ hSome) hOther).append _
  · intro other own hNe hSome
    rw [hLog]
    refine (h.owns hSome hVisible).append_other fun hSame => hNe ?_
    exact h.distinct hSome (hSame ▸ hId)

/-- A follower takes over the front of a log that was sent. -/
theorem Ordered.set_take (h : Ordered config cluster) {log : List Entry} {length : Nat}
    (hSent : log ∈ cluster.sent) (hLog : replica.log = log.take length)
    (hFollower : (cluster.replica node).leader = none)
    (hLeader : replica.leader = (cluster.replica node).leader) (hSteady : Steady config replica) :
    Ordered config (cluster.set node replica) := by
  have hVisible : cluster.Visible log := .inl hSent
  refine h.set hLeader hSteady ?_ ?_ ?_ ?_ ?_
  · rw [hLog]
    exact (h.sound hVisible).take length
  · intro entry hEntry
    rw [hLog] at hEntry
    exact h.known hVisible entry (List.mem_of_mem_take hEntry)
  · intro other hOther
    rw [hLog]
    exact (h.agree hVisible hOther).take length
  · intro id hSome
    cases hFollower.symm.trans (hLeader ▸ hSome)
  · intro other id _ hSome
    rw [hLog]
    exact (h.owns hSome hVisible).take length

/-- Another leadership leaves the logs as they are. -/
theorem Cluster.visible_relead {leader : Option LeaderId} {log : List Entry}
    (h : (cluster.set node { cluster.replica node with leader := leader }).Visible log) :
    cluster.Visible log := by
  rcases Cluster.visible_set h with hOld | rfl
  · exact hOld
  · exact cluster.visible_replica node

theorem Cluster.replica_relead (cluster : Cluster Node) (node : Node) (leader : Option LeaderId)
    (other : Node) :
    ((cluster.set node { cluster.replica node with leader := leader }).replica other).log =
      (cluster.replica other).log := by
  rw [Cluster.replica_set]
  split
  · next hSame => rw [hSame]
  · rfl

/-- A node takes the lead under a new identity. -/
theorem Ordered.elect (h : Ordered config cluster) {id : LeaderId} (hNew : id ∉ cluster.elected)
    (hSteady : Steady config { cluster.replica node with leader := some id }) :
    Ordered config { cluster.set node { cluster.replica node with leader := some id } with
      elected := id :: cluster.elected } := by
  have hLeads : ∀ {other own},
      ((cluster.set node { cluster.replica node with leader := some id }).replica other).leader =
        some own → other = node ∧ own = id ∨ (cluster.replica other).leader = some own := by
    intro other own hSome
    rw [Cluster.replica_set] at hSome
    split at hSome
    · next hSame => exact .inl ⟨hSame, (Option.some.inj hSome).symm⟩
    · exact .inr hSome
  refine ⟨fun hVisible => h.sound (Cluster.visible_relead hVisible), ?_,
    fun hFirst hSecond => h.agree (Cluster.visible_relead hFirst) (Cluster.visible_relead hSecond),
    ?_, ?_, ?_, ?_⟩
  · intro other
    dsimp only
    rw [Cluster.replica_set]
    split
    · exact hSteady
    · exact h.steady other
  · intro other own hSome log hVisible
    have hOld : cluster.Visible log := Cluster.visible_relead hVisible
    dsimp only
    rw [Cluster.replica_relead]
    rcases hLeads hSome with ⟨-, rfl⟩ | hBefore
    · intro position entry hEntry hWriter
      exact absurd (hWriter ▸ h.known hOld entry (List.mem_of_getElem? hEntry)) hNew
    · exact h.owns hBefore hOld
  · intro log hVisible entry hEntry
    exact List.mem_cons_of_mem _ (h.known (Cluster.visible_relead hVisible) entry hEntry)
  · intro other own hSome
    rcases hLeads hSome with ⟨-, rfl⟩ | hBefore
    · exact List.mem_cons_self
    · exact List.mem_cons_of_mem _ (h.leads hBefore)
  · intro one other own hOne hOther
    rcases hLeads hOne with ⟨rfl, rfl⟩ | hOneBefore
    · rcases hLeads hOther with ⟨rfl, -⟩ | hOtherBefore
      · rfl
      · exact absurd (h.leads hOtherBefore) hNew
    · rcases hLeads hOther with ⟨-, rfl⟩ | hOtherBefore
      · exact absurd (h.leads hOneBefore) hNew
      · exact h.distinct hOneBefore hOtherBefore

theorem Ordered.stepDown (h : Ordered config cluster) :
    Ordered config (cluster.set node { cluster.replica node with leader := none }) := by
  have hLeads : ∀ {other own},
      ((cluster.set node { cluster.replica node with leader := none }).replica other).leader =
        some own → (cluster.replica other).leader = some own := by
    intro other own hSome
    rw [Cluster.replica_set] at hSome
    split at hSome
    · cases hSome
    · exact hSome
  refine ⟨fun hVisible => h.sound (Cluster.visible_relead hVisible), ?_,
    fun hFirst hSecond => h.agree (Cluster.visible_relead hFirst) (Cluster.visible_relead hSecond),
    ?_, fun hVisible => h.known (Cluster.visible_relead hVisible),
    fun hSome => h.leads (hLeads hSome), fun hOne hOther => h.distinct (hLeads hOne) (hLeads hOther)⟩
  · intro other
    rw [Cluster.replica_set]
    split
    · exact (h.steady node).stepDown
    · exact h.steady other
  · intro other own hSome log hVisible
    rw [Cluster.replica_relead]
    exact h.owns (hLeads hSome) (Cluster.visible_relead hVisible)

/-- Every careful step keeps the cluster in order. -/
theorem Ordered.step (h : Ordered config cluster) {event : ClusterEvent Node}
    (hCareful : Careful config cluster event) : Ordered config (cluster.step config event) := by
  cases event with
  | request node request =>
      simp only [Cluster.step]
      split
      · exact h
      · exact h.set_same rfl rfl ((h.steady node).wait rfl)
  | manage node session =>
      have hSteady := (h.steady node).manage session hCareful
      rcases manage_log config (cluster.replica node) session with
        ⟨hLog, hLeader⟩ | ⟨id, plan, hId, hCall, hSubmit⟩
      · exact h.set_same hLog hLeader hSteady
      · have hSound := h.sound (cluster.visible_replica node)
        have hSome : (cluster.replica node).leader.isSome := by rw [hId]; rfl
        refine h.set_append hId (by rw [hSubmit]; rfl) (by rw [hSubmit]; rfl) hSteady ?_
        rw [hSubmit]
        refine hSound.append rfl (fun _ hPayload => by cases hPayload) ?_
        intro prepared hPrepared
        cases hPrepared
        exact ⟨(h.steady node).vacant hSome hCall rfl,
          hSound.ready_upTo (h.steady node).applied_le_length le_rfl ((h.steady node).planned hCall)⟩
  | cancel node => exact h.set_same rfl rfl (h.steady node).release
  | propose node payload =>
      simp only [Cluster.step]
      split
      · exact h
      · next id hId =>
          split
          · next hOther =>
              have hNone : (Entry.mk ⟨id, (cluster.replica node).log.length⟩ payload).preparation =
                  none := preparation_otherPayload hOther
              refine h.set_append hId rfl rfl ((h.steady node).propose hNone) ?_
              refine (h.sound (cluster.visible_replica node)).append rfl ?_ ?_
              · intro membership hPayload
                exact voters_otherPayload hOther hPayload
              · intro plan hPlan
                cases hNone.symm.trans hPlan
          · exact h
  | send node =>
      simp only [Cluster.step]
      split
      · exact h.send node
      · exact h
  | receive node log length =>
      simp only [Cluster.step]
      split
      · next hAccepts =>
          simp only [Cluster.accepts, decide_eq_true_eq] at hAccepts
          obtain ⟨hFollower, hSent, hLe, hLength, hKept⟩ := hAccepts
          rw [Option.isNone_iff_eq_none] at hFollower
          exact h.set_take hSent rfl hFollower rfl
            ((h.steady node).receive hFollower hLe hLength hKept)
      · exact h
  | commit node length =>
      simp only [Cluster.step]
      split
      · next hBounds =>
          exact h.set_same rfl rfl ((h.steady node).commit hBounds.1 hBounds.2)
      · exact h
  | apply node =>
      simp only [Cluster.step]
      split
      · next hLt =>
          exact h.set_same rfl rfl
            ((h.steady node).apply (h.sound (cluster.visible_replica node)) hLt)
      · exact h
  | elect node id =>
      simp only [Cluster.step]
      split
      · exact h
      · next hNew => exact h.elect hNew ((h.steady node).elect id hCareful)
  | stepDown node => exact h.stepDown

end Steps

theorem ordered_start (Node : Type) (config : StoreConfig) :
    Ordered config (Cluster.start Node) := by
  have hNil : ∀ {log}, (Cluster.start Node).Visible log → log = [] := by
    rintro log (hSent | ⟨node, hLog⟩)
    · cases hSent
    · exact hLog
  refine ⟨?_, ?_, ?_, ?_, ?_, ?_, ?_⟩
  · intro log hVisible
    rw [hNil hVisible]
    exact sound_nil
  · intro node
    refine ⟨le_rfl, le_rfl, ?_, ?_, ?_⟩
    · intro request hCall
      cases hCall
    · intro plan hCall
      cases hCall
    · intro hLeader
      cases hLeader
  · intro first second hFirst hSecond
    rw [hNil hFirst, hNil hSecond]
    exact Stamped.Agree.refl _
  · intro node id hLeader
    cases hLeader
  · intro log hVisible
    rw [hNil hVisible]
    simp
  · intro node id hLeader
    cases hLeader
  · intro node other id hLeader
    cases hLeader

/-- The cluster after a number of events. -/
def clusterAt {Node : Type} [DecidableEq Node] (config : StoreConfig)
    (events : List (ClusterEvent Node)) (i : Nat) : Cluster Node :=
  Runs.stateAt (Cluster.step config) (Cluster.start Node) events i

/-- A careful run keeps the cluster in order. -/
theorem ordered_clusterAt {Node : Type} [DecidableEq Node] {config : StoreConfig}
    {events : List (ClusterEvent Node)}
    (hCareful : ∀ i (h : i < events.length), Careful config (clusterAt config events i) events[i])
    {i : Nat} (hi : i ≤ events.length) : Ordered config (clusterAt config events i) :=
  Runs.stateAt_indexed (Cluster.step config) (Cluster.start Node) (fun _ => Ordered config)
    (ordered_start Node config) (fun i h hOrdered => hOrdered.step (hCareful i h)) i hi

end KeepAfloat.Management
