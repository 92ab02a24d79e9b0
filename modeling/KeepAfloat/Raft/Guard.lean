import KeepAfloat.Raft.Admission

/-! The cluster guard. Every round asks all other members for their status; three rounds in a
row in which a majority of the roster reports one foreign identity stop the process. -/

namespace KeepAfloat

section Groups

variable {Value : Type} [DecidableEq Value]

/-- Size of the largest group that reports one value other than the local one. Distinct
foreign values never add together. -/
def largestForeignGroup (own : Value) (values : List (Option Value)) : Nat :=
  let foreign := values.reduceOption.filter (· ≠ own)
  (foreign.map fun value => foreign.count value).max?.getD 0

theorem le_largestForeignGroup {own : Value} {values : List (Option Value)} {size : Nat}
    (hSize : 0 < size) :
    size ≤ largestForeignGroup own values ↔ ∃ value ≠ own, size ≤ values.count (some value) := by
  have hCount : ∀ value ≠ own,
      (values.reduceOption.filter (· ≠ own)).count value = values.count (some value) := by
    intro value hForeign
    rw [List.count_filter (by simpa using hForeign)]
    induction values with
    | nil => rfl
    | cons head values ih => cases head <;> simp [List.reduceOption_cons_of_some, List.count_cons, ih]
  unfold largestForeignGroup
  constructor
  · intro hLe
    cases hMax : ((values.reduceOption.filter (· ≠ own)).map fun value =>
        (values.reduceOption.filter (· ≠ own)).count value).max? with
    | none =>
        simp only [hMax, Option.getD_none] at hLe
        omega
    | some largest =>
        simp only [hMax, Option.getD_some] at hLe
        obtain ⟨value, hMem, rfl⟩ := List.mem_map.mp (List.max?_mem hMax)
        have hForeign : value ≠ own := by simpa using (List.mem_filter.mp hMem).2
        exact ⟨value, hForeign, (hCount value hForeign) ▸ hLe⟩
  · rintro ⟨value, hForeign, hLe⟩
    rw [← hCount value hForeign] at hLe
    have hMem := List.count_pos_iff.mp (hSize.trans_le hLe)
    exact hLe.trans (List.le_max?_getD_of_mem (List.mem_map_of_mem hMem))

end Groups

def largestForeignIdentityGroup (own : ClusterConfigFingerprint)
    (identities : List (Option ClusterConfigFingerprint)) : Nat :=
  largestForeignGroup own identities

def largestForeignEpochGroup : Option Nat → List (Option Nat) → Nat
  | some own, epochs => largestForeignGroup own epochs
  | none, _ => 0

/-! ### Rounds -/

structure ConsecutiveMajority where
  strikes : Nat
  required : Nat

def ConsecutiveMajority.observe (count : ConsecutiveMajority) (largestGroup majority : Nat) :
    Bool × ConsecutiveMajority :=
  let strikes := if majority ≤ largestGroup then min (count.strikes + 1) (2 ^ 32 - 1) else 0
  (count.required ≤ strikes, { count with strikes := strikes })

structure GuardRound where
  localEpochKnown : Bool
  foreignConfig : Nat
  foreignEpoch : Nat

inductive FatalReason where
  | configMismatch
  | staleSurvivor
  deriving DecidableEq

structure ClusterGuard where
  majority : Nat
  config : ConsecutiveMajority
  epoch : ConsecutiveMajority

namespace ClusterGuard

def new (rosterSize requiredStrikes : Nat) : ClusterGuard :=
  ⟨rosterSize / 2 + 1, ⟨0, requiredStrikes⟩, ⟨0, requiredStrikes⟩⟩

/-- The configuration is looked at first, and decides alone. -/
def observe (guard : ClusterGuard) (round : GuardRound) : Option FatalReason × ClusterGuard :=
  let (fence, config) := guard.config.observe round.foreignConfig guard.majority
  if fence then (some .configMismatch, { guard with config := config })
  else
    let foreignEpoch := if round.localEpochKnown then round.foreignEpoch else 0
    let (fence, epoch) := guard.epoch.observe foreignEpoch guard.majority
    (if fence then some .staleSurvivor else none, { guard with config := config, epoch := epoch })

end ClusterGuard

def guardStrikesToReset : Nat := 3

structure ClusterStatus where
  clusterEpoch : Option Nat
  configFingerprint : Option ClusterConfigFingerprint

/-- The node that the guard runs on. -/
structure GuardedNode where
  peers : List Nat
  nodeId : Nat
  fingerprint : ClusterConfigFingerprint

/-- What one round finds: the node's own epoch, and which members answer with what. -/
structure GuardProbe where
  localEpoch : Option Nat
  answer : Nat → Option ClusterStatus

namespace GuardedNode

variable (node : GuardedNode)

def others : List Nat := node.peers.filter (· ≠ node.nodeId)

def round (probe : GuardProbe) : GuardRound :=
  let responses := node.others.filterMap probe.answer
  { localEpochKnown := probe.localEpoch.isSome
    foreignConfig := largestForeignIdentityGroup node.fingerprint (responses.map (·.configFingerprint))
    foreignEpoch := largestForeignEpochGroup probe.localEpoch (responses.map (·.clusterEpoch)) }

/-- The guard ends with the first reason to stop. -/
def step (task : Option FatalReason × ClusterGuard) (probe : GuardProbe) :
    Option FatalReason × ClusterGuard :=
  match task with
  | (none, guard) => guard.observe (node.round probe)
  | (some reason, guard) => (some reason, guard)

def runClusterGuard (probes : List GuardProbe) : Option FatalReason × ClusterGuard :=
  probes.foldl node.step (none, .new node.peers.length guardStrikesToReset)

/-! ### What stops a node -/

/-- How many members report a value. -/
def reporting (probe : GuardProbe) (reports : ClusterStatus → Bool) : Nat :=
  node.others.countP fun peer => (probe.answer peer).any reports

/-- A majority of the roster reports one foreign value. -/
def Foreign (probe : GuardProbe) : FatalReason → Prop
  | .configMismatch => ∃ value ≠ node.fingerprint,
      node.peers.length / 2 < node.reporting probe (·.configFingerprint = some value)
  | .staleSurvivor => ∃ own ∈ probe.localEpoch, ∃ value ≠ own,
      node.peers.length / 2 < node.reporting probe (·.clusterEpoch = some value)

variable {node} {probe : GuardProbe} {probes : List GuardProbe} {reason : FatalReason}
  {guard : ClusterGuard}

theorem count_responses {Value : Type} [DecidableEq Value]
    (field : ClusterStatus → Option Value) (value : Value) :
    ((node.others.filterMap probe.answer).map field).count (some value) =
      node.reporting probe (field · = some value) := by
  rw [reporting]
  induction node.others with
  | nil => rfl
  | cons peer peers ih =>
      cases hAnswer : probe.answer peer <;>
        simp_all [List.count_cons, List.countP_cons]

/-- The group that counts towards a reason. -/
def group (node : GuardedNode) (probe : GuardProbe) : FatalReason → Nat
  | .configMismatch => (node.round probe).foreignConfig
  | .staleSurvivor =>
      if (node.round probe).localEpochKnown then (node.round probe).foreignEpoch else 0

theorem foreign_iff :
    node.Foreign probe reason ↔ node.peers.length / 2 + 1 ≤ node.group probe reason := by
  cases reason with
  | configMismatch =>
      rw [group, round, largestForeignIdentityGroup, le_largestForeignGroup (Nat.succ_pos _)]
      simp only [count_responses, Nat.succ_le_iff, Foreign]
  | staleSurvivor =>
      cases hOwn : probe.localEpoch with
      | none => simp [Foreign, group, round, hOwn]
      | some own =>
          simp only [group, round, hOwn, Option.isSome_some, if_true, largestForeignEpochGroup]
          rw [le_largestForeignGroup (Nat.succ_pos _)]
          simp [count_responses, Foreign, hOwn]

/-- The rounds at the end of a run that all counted towards a reason. -/
def streak (node : GuardedNode) (probes : List GuardProbe) (reason : FatalReason) : List GuardProbe :=
  probes.rtakeWhile fun probe => node.peers.length / 2 + 1 ≤ node.group probe reason

theorem mem_streak (h : probe ∈ node.streak probes reason) : node.Foreign probe reason := by
  rw [foreign_iff]
  simpa using List.mem_rtakeWhile_imp h

theorem length_le_streak (before : List GuardProbe) {last : List GuardProbe}
    (h : ∀ probe ∈ last, node.Foreign probe reason) :
    last.length ≤ (node.streak (before ++ last) reason).length := by
  rw [streak, List.rtakeWhile, List.reverse_append, List.takeWhile_append_of_pos]
  · simp
  · exact fun probe hMem => decide_eq_true (foreign_iff.mp (h probe (List.mem_reverse.mp hMem)))

/-- The guard counts streaks below three. -/
structure Counts (node : GuardedNode) (probes : List GuardProbe) (guard : ClusterGuard) : Prop where
  majority : guard.majority = node.peers.length / 2 + 1
  config : guard.config = ⟨(node.streak probes .configMismatch).length, guardStrikesToReset⟩
  epoch : guard.epoch = ⟨(node.streak probes .staleSurvivor).length, guardStrikesToReset⟩
  below : ∀ reason, (node.streak probes reason).length < guardStrikesToReset

theorem observe_streak (probe : GuardProbe)
    (hBelow : (node.streak probes reason).length < guardStrikesToReset) :
    ConsecutiveMajority.observe ⟨(node.streak probes reason).length, guardStrikesToReset⟩
        (node.group probe reason) (node.peers.length / 2 + 1) =
      (decide (guardStrikesToReset ≤ (node.streak (probes ++ [probe]) reason).length),
        ⟨(node.streak (probes ++ [probe]) reason).length, guardStrikesToReset⟩) := by
  have hStreak : (node.streak (probes ++ [probe]) reason).length =
      if node.peers.length / 2 + 1 ≤ node.group probe reason then
        min ((node.streak probes reason).length + 1) (2 ^ 32 - 1) else 0 := by
    rw [guardStrikesToReset] at hBelow
    rw [streak, List.rtakeWhile_concat]
    split_ifs with hGroup
    · rw [List.length_append, List.length_singleton, Nat.min_eq_left]
      · rfl
      · exact (Nat.succ_le_of_lt hBelow).trans (by norm_num)
    all_goals simp_all
  rw [hStreak]
  rfl

/-- In each of three rounds in a row a majority of the roster reported one foreign value. -/
def Struck (node : GuardedNode) (probes : List GuardProbe) (reason : FatalReason) : Prop :=
  ∃ three, three <:+: probes ∧ three.length = guardStrikesToReset ∧
    ∀ probe ∈ three, node.Foreign probe reason

/-- What a run has led to. -/
def Explained (node : GuardedNode) (probes : List GuardProbe) :
    Option FatalReason × ClusterGuard → Prop
  | (none, guard) => node.Counts probes guard
  | (some reason, _) => node.Struck probes reason

theorem explained_streak (h : guardStrikesToReset ≤ (node.streak probes reason).length) :
    node.Explained probes (some reason, guard) := by
  refine ⟨(node.streak probes reason).take guardStrikesToReset, ?_, ?_, ?_⟩
  · exact (List.take_prefix _ _).isInfix.trans (List.rtakeWhile_suffix _ _).isInfix
  · exact List.length_take_of_le h
  · exact fun probe hMem => mem_streak (List.mem_of_mem_take hMem)

theorem Counts.observe (h : node.Counts probes guard) (probe : GuardProbe) :
    node.Explained (probes ++ [probe]) (guard.observe (node.round probe)) := by
  have hConfig := observe_streak probe (h.below .configMismatch)
  have hEpoch := observe_streak probe (h.below .staleSurvivor)
  simp only [group] at hConfig hEpoch
  simp only [ClusterGuard.observe, h.config, h.epoch, h.majority, hConfig, hEpoch, decide_eq_true_eq]
  split_ifs with hFirst hSecond
  · exact explained_streak hFirst
  · exact explained_streak hSecond
  · refine ⟨rfl, rfl, rfl, fun reason => ?_⟩
    cases reason with
    | configMismatch => exact not_le.mp hFirst
    | staleSurvivor => exact not_le.mp hSecond

theorem explained_run (node : GuardedNode) (probes : List GuardProbe) :
    node.Explained probes (node.runClusterGuard probes) := by
  induction probes using List.reverseRecOn with
  | nil => exact ⟨rfl, rfl, rfl, fun _ => Nat.succ_pos _⟩
  | append_singleton probes probe ih =>
      rw [runClusterGuard, List.foldl_append, List.foldl_cons, List.foldl_nil, ← runClusterGuard]
      cases hRun : node.runClusterGuard probes with
      | mk fatal guard =>
          rw [hRun] at ih
          cases fatal with
          | none => exact ih.observe probe
          | some reason =>
              obtain ⟨three, hInfix, hThree⟩ := ih
              exact ⟨three, hInfix.trans (List.prefix_append _ _).isInfix, hThree⟩

theorem stopped_later {before : List GuardProbe}
    (h : (node.runClusterGuard before).1.isSome = true) (after : List GuardProbe) :
    (node.runClusterGuard (before ++ after)).1.isSome = true := by
  induction after using List.reverseRecOn with
  | nil => rwa [List.append_nil]
  | append_singleton after probe ih =>
      rw [runClusterGuard, ← List.append_assoc, List.foldl_append, ← runClusterGuard]
      obtain ⟨reason, hFatal⟩ := Option.isSome_iff_exists.mp ih
      rw [← Prod.mk.eta (p := node.runClusterGuard (before ++ after)), hFatal]
      rfl

theorem struck_of_stopped (hFatal : (node.runClusterGuard probes).1 = some reason) :
    node.Struck probes reason := by
  have hRun := explained_run node probes
  rwa [← Prod.mk.eta (p := node.runClusterGuard probes), hFatal] at hRun

/-- The guard stops a node exactly if it was struck, and then for a reason of which it was. -/
theorem fenced_iff (node : GuardedNode) (probes : List GuardProbe) :
    ((node.runClusterGuard probes).1.isSome = true ↔ ∃ reason, node.Struck probes reason) ∧
      ∀ reason, (node.runClusterGuard probes).1 = some reason → node.Struck probes reason := by
  refine ⟨⟨fun hStopped => ?_, ?_⟩, fun reason => struck_of_stopped⟩
  · obtain ⟨reason, hFatal⟩ := Option.isSome_iff_exists.mp hStopped
    exact ⟨reason, struck_of_stopped hFatal⟩
  · rintro ⟨reason, three, ⟨before, after, rfl⟩, hThree, hForeign⟩
    apply stopped_later
    by_contra hRuns
    rw [Option.not_isSome_iff_eq_none] at hRuns
    have hRun := explained_run node (before ++ three)
    rw [← Prod.mk.eta (p := node.runClusterGuard (before ++ three)), hRuns] at hRun
    have hLe := (length_le_streak before hForeign).trans_lt (hRun.below reason)
    omega

theorem reporting_le {reports : ClusterStatus → Bool} {allies : Finset Nat}
    (hMajority : node.peers.length / 2 < node.peers.countP (· ∈ allies))
    (h : ∀ ally ∈ allies, ∀ status ∈ probe.answer ally, ¬reports status = true) :
    node.reporting probe reports ≤ node.peers.length / 2 := by
  have hOutside : node.reporting probe reports ≤ node.peers.countP (¬ · ∈ allies) := by
    refine (List.Sublist.countP_le List.filter_sublist).trans (List.countP_mono_left ?_)
    intro peer _ hReports
    obtain ⟨status, hAnswer, hStatus⟩ := (Option.any_eq_true _ _).mp hReports
    exact decide_eq_true fun hAlly => h peer hAlly status hAnswer hStatus
  have hSplit : node.peers.length = _ := List.length_eq_countP_add_countP (decide <| · ∈ allies)
  simp only [decide_eq_true_eq] at hSplit hOutside
  omega

/-- Nodes of a majority that agree on one incarnation and one configuration are never stopped,
whichever probes are lost and whatever the others report. -/
theorem majority_spared (node : GuardedNode) (allies : Finset Nat) (probes : List GuardProbe)
    (hMajority : node.peers.length / 2 < node.peers.countP (· ∈ allies))
    (hAllied : ∀ probe ∈ probes, ∀ ally ∈ allies, ∀ status ∈ probe.answer ally,
      (∀ epoch ∈ status.clusterEpoch, ∀ own ∈ probe.localEpoch, epoch = own) ∧
        ∀ identity ∈ status.configFingerprint, identity = node.fingerprint) :
    (node.runClusterGuard probes).1 = none := by
  by_contra hStopped
  obtain ⟨reason, hFatal⟩ := Option.ne_none_iff_exists'.mp hStopped
  obtain ⟨three, hInfix, hThree, hForeign⟩ := struck_of_stopped hFatal
  obtain ⟨probe, hProbe⟩ := List.exists_mem_of_length_pos (hThree.trans_gt (Nat.succ_pos 2))
  have hMem := hAllied probe (hInfix.subset hProbe)
  cases reason with
  | configMismatch =>
      obtain ⟨value, hValue, hMany⟩ := hForeign probe hProbe
      refine absurd hMany (not_lt.mpr (reporting_le hMajority fun ally hAlly status hStatus hSame => ?_))
      exact hValue ((hMem ally hAlly status hStatus).2 value (of_decide_eq_true hSame))
  | staleSurvivor =>
      obtain ⟨own, hOwn, value, hValue, hMany⟩ := hForeign probe hProbe
      refine absurd hMany (not_lt.mpr (reporting_le hMajority fun ally hAlly status hStatus hSame => ?_))
      exact hValue ((hMem ally hAlly status hStatus).1 value (of_decide_eq_true hSame) own hOwn)

/-- Three of five members share an incarnation. -/
def splitProbe (own : Nat) : GuardProbe :=
  ⟨some own, fun peer => some ⟨some (if peer ≤ 3 then 7 else 8), some ⟨1, 0⟩⟩⟩

/-- The two others are stopped, the three are not. -/
theorem majority_spared_split :
    (runClusterGuard ⟨[1, 2, 3, 4, 5], 1, ⟨1, 0⟩⟩ (List.replicate 4 (splitProbe 7))).1 = none ∧
      (runClusterGuard ⟨[1, 2, 3, 4, 5], 4, ⟨1, 0⟩⟩ (List.replicate 4 (splitProbe 8))).1 =
        some .staleSurvivor := by
  constructor
  · refine majority_spared _ {1, 2, 3} _ (by decide) ?_
    intro probe hProbe ally hAlly status hStatus
    cases List.eq_of_mem_replicate hProbe
    cases hStatus
    have hLe : ally ≤ 3 := by
      simp only [Finset.mem_insert, Finset.mem_singleton] at hAlly
      omega
    simp [splitProbe, hLe]
  · decide +kernel

end GuardedNode

end KeepAfloat
