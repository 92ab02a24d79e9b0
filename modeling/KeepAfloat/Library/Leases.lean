import Mathlib

/-! Exclusive leases on clocks of different speed.

A node that wants a lease opens a challenge with a deadline on its own clock and
collects grants. An issuer reserves itself for the granted value, for twice the
lease on its own clock, and a node that lost its memory stays in quarantine for
at least as long. Messages may be delayed, lost and repeated; clocks of live nodes
advance at rates within a factor of two of each other. Then one host never backs
two different values with grants whose challenges are open at the same time. -/

namespace Leases

variable {Node Host Nonce Value Time : Type}

/-- What a live node remembers. -/
structure Member (Nonce Value Time : Type) where
  quarantine : Time
  reservation : Option (Value × Time)
  challenges : Nonce → Option Time

structure Grant (Node Nonce Value : Type) where
  issuer : Node
  consumer : Node
  nonce : Nonce
  value : Value

/-- `booted` are the nodes that ever lived; a node that stopped never returns. -/
structure State (Node Nonce Value Time : Type) where
  live : Node → Option (Member Nonce Value Time)
  clock : Node → Time
  booted : Set Node
  grants : Set (Grant Node Nonce Value)

variable [DecidableEq Node] [DecidableEq Nonce]
variable [CommRing Time] [LinearOrder Time] [IsStrictOrderedRing Time]

/-- The state in which nothing has started. -/
def initial (clock : Node → Time) : State Node Nonce Value Time :=
  ⟨fun _ => none, clock, ∅, ∅⟩

variable (host : Node → Host) (lease : Time)

inductive Step (s : State Node Nonce Value Time) : State Node Nonce Value Time → Prop where
  /-- Start a node on a host without a live one. -/
  | boot (node : Node) (quarantine : Time)
      (hHost : ∀ other member, s.live other = some member → host other ≠ host node)
      (hFresh : node ∉ s.booted) (hQuarantine : s.clock node + 2 * lease ≤ quarantine) :
      Step s { s with
        live := Function.update s.live node (some ⟨quarantine, none, fun _ => none⟩)
        booted := insert node s.booted }
  | crash (node : Node) : Step s { s with live := Function.update s.live node none }
  /-- Time passes. Clocks of stopped nodes are not constrained. -/
  | advance (elapsed : Node → Time)
      (hElapsed : ∀ a b member member', s.live a = some member → s.live b = some member' →
        0 ≤ elapsed a ∧ elapsed a ≤ 2 * elapsed b) :
      Step s { s with clock := fun node => s.clock node + elapsed node }
  | challenge (node : Node) (member : Member Nonce Value Time) (nonce : Nonce)
      (hLive : s.live node = some member) (hFresh : member.challenges nonce = none) :
      Step s { s with
        live := Function.update s.live node
          (some { member with
            challenges := Function.update member.challenges nonce
              (some (s.clock node + lease)) }) }
  /-- Reserve for a value, and grant it or fail to. A consumer that is still live
  has opened the challenge. -/
  | reserve (grant : Grant Node Nonce Value) (member : Member Nonce Value Time) (deadline : Time)
      (grants : Set (Grant Node Nonce Value))
      (hLive : s.live grant.issuer = some member)
      (hQuarantine : member.quarantine ≤ s.clock grant.issuer)
      (hReserved : ∀ value reserved, member.reservation = some (value, reserved) →
        s.clock grant.issuer < reserved → value = grant.value ∧ reserved ≤ deadline)
      (hDeadline : s.clock grant.issuer + 2 * lease ≤ deadline)
      (hConsumer : grant.consumer ∈ s.booted)
      (hChallenge : ∀ consumer, s.live grant.consumer = some consumer →
        ∃ opened, consumer.challenges grant.nonce = some opened)
      (hGrants : grants = s.grants ∨ grants = insert grant s.grants) :
      Step s { s with
        live := Function.update s.live grant.issuer
          (some { member with reservation := some (grant.value, deadline) })
        grants := grants }

/-- The grant's challenge is open for another `left` on the consumer's clock. -/
def Open (s : State Node Nonce Value Time) (grant : Grant Node Nonce Value) (left : Time) : Prop :=
  ∃ member deadline, s.live grant.consumer = some member ∧
    member.challenges grant.nonce = some deadline ∧ left = deadline - s.clock grant.consumer ∧
    0 < left

/-- The live node keeps off other values for at least twice `left`. -/
def Shielded (s : State Node Nonce Value Time) (grant : Grant Node Nonce Value) (left : Time)
    (node : Node) (member : Member Nonce Value Time) : Prop :=
  (∃ deadline, node = grant.issuer ∧ member.reservation = some (grant.value, deadline) ∧
    2 * left ≤ deadline - s.clock node) ∨
  2 * left ≤ member.quarantine - s.clock node

structure Inv (s : State Node Nonce Value Time) : Prop where
  one_per_host : ∀ a b member member', s.live a = some member → s.live b = some member' →
    host a = host b → a = b
  booted : ∀ a member, s.live a = some member → a ∈ s.booted
  bounded : ∀ a member nonce deadline, s.live a = some member →
    member.challenges nonce = some deadline → deadline ≤ s.clock a + lease
  parties : ∀ grant ∈ s.grants, grant.issuer ∈ s.booted ∧ grant.consumer ∈ s.booted
  challenged : ∀ grant ∈ s.grants, ∀ member, s.live grant.consumer = some member →
    ∃ deadline, member.challenges grant.nonce = some deadline
  shielded : ∀ grant ∈ s.grants, ∀ left, Open s grant left → ∀ node member,
    s.live node = some member → host node = host grant.issuer →
    Shielded s grant left node member
  exclusive : ∀ first ∈ s.grants, ∀ second ∈ s.grants, host first.issuer = host second.issuer →
    ∀ left left', Open s first left → Open s second left' → first.value = second.value

omit [DecidableEq Node] [DecidableEq Nonce] [IsStrictOrderedRing Time] in
theorem inv_initial (clock : Node → Time) :
    Inv host lease (initial clock : State Node Nonce Value Time) where
  one_per_host := by simp [initial]
  booted := by simp [initial]
  bounded := by simp [initial]
  parties := by simp [initial]
  challenged := by simp [initial]
  shielded := by simp [initial]
  exclusive := by simp [initial]

variable {host lease} {s : State Node Nonce Value Time}

omit [DecidableEq Nonce] [IsStrictOrderedRing Time] in
/-- A state in which fewer nodes live and nothing else changed. -/
theorem Inv.crash (h : Inv host lease s) (node : Node) :
    Inv host lease { s with live := Function.update s.live node none } := by
  have hLive : ∀ a member, Function.update s.live node none a = some member →
      s.live a = some member := by
    intro a member hMember
    by_cases ha : a = node
    · subst ha
      simp at hMember
    · rwa [Function.update_of_ne ha] at hMember
  have hOpen : ∀ grant left, Open { s with live := Function.update s.live node none } grant left →
      Open s grant left := by
    rintro grant left ⟨member, deadline, hMember, hRest⟩
    exact ⟨member, deadline, hLive _ _ hMember, hRest⟩
  exact {
    one_per_host := fun a b member member' ha hb =>
      h.one_per_host a b member member' (hLive a member ha) (hLive b member' hb)
    booted := fun a member ha => h.booted a member (hLive a member ha)
    bounded := fun a member nonce deadline ha =>
      h.bounded a member nonce deadline (hLive a member ha)
    parties := h.parties
    challenged := fun grant hg member hMember =>
      h.challenged grant hg member (hLive _ _ hMember)
    shielded := fun grant hg left hLeft a member ha =>
      h.shielded grant hg left (hOpen grant left hLeft) a member (hLive a member ha)
    exclusive := fun first hFirst second hSecond hHost left left' hLeft hLeft' =>
      h.exclusive first hFirst second hSecond hHost left left' (hOpen first left hLeft)
        (hOpen second left' hLeft') }

omit [DecidableEq Node] [DecidableEq Nonce] [IsStrictOrderedRing Time] in
/-- Whether a challenge is open depends on its consumer only. -/
theorem Open.of_eq {t : State Node Nonce Value Time} {grant : Grant Node Nonce Value} {left : Time}
    (hOpen : Open t grant left) (hClock : t.clock = s.clock)
    (hLive : t.live grant.consumer = s.live grant.consumer) : Open s grant left := by
  obtain ⟨member, deadline, hMember, hChallenge, hLeft⟩ := hOpen
  rw [hLive] at hMember
  rw [hClock] at hLeft
  exact ⟨member, deadline, hMember, hChallenge, hLeft⟩

omit [DecidableEq Nonce] in
/-- A new node is in quarantine for longer than any open challenge lasts. -/
theorem Inv.boot (h : Inv host lease s) {t : State Node Nonce Value Time} {node : Node}
    {quarantine : Time}
    (hHost : ∀ other member, s.live other = some member → host other ≠ host node)
    (hFresh : node ∉ s.booted) (hQuarantine : s.clock node + 2 * lease ≤ quarantine)
    (hLive : t.live = Function.update s.live node (some ⟨quarantine, none, fun _ => none⟩))
    (hClock : t.clock = s.clock) (hBooted : t.booted = insert node s.booted)
    (hGrants : t.grants = s.grants) : Inv host lease t := by
  have hNew : t.live node = some ⟨quarantine, none, fun _ => none⟩ := by
    rw [hLive, Function.update_self]
  have hOld : ∀ a, a ≠ node → t.live a = s.live a := by
    intro a ha
    rw [hLive, Function.update_of_ne ha]
  have hConsumer : ∀ grant ∈ s.grants, t.live grant.consumer = s.live grant.consumer := by
    intro grant hg
    apply hOld
    rintro rfl
    exact hFresh (h.parties grant hg).2
  constructor
  case one_per_host =>
    intro a b member member' ha hb hab
    by_cases hA : a = node
    · by_cases hB : b = node
      · rw [hA, hB]
      · rw [hOld b hB] at hb
        exact absurd (hab.symm.trans (congrArg host hA)) (hHost b member' hb)
    · rw [hOld a hA] at ha
      by_cases hB : b = node
      · exact absurd (hab.trans (congrArg host hB)) (hHost a member ha)
      · rw [hOld b hB] at hb
        exact h.one_per_host a b member member' ha hb hab
  case booted =>
    intro a member ha
    rw [hBooted]
    by_cases hA : a = node
    · exact Set.mem_insert_iff.mpr (.inl hA)
    · rw [hOld a hA] at ha
      exact Set.mem_insert_of_mem _ (h.booted a member ha)
  case bounded =>
    intro a member nonce deadline ha hDeadline
    rw [hClock]
    by_cases hA : a = node
    · rw [hA, hNew] at ha
      cases Option.some.inj ha
      cases hDeadline
    · rw [hOld a hA] at ha
      exact h.bounded a member nonce deadline ha hDeadline
  case parties =>
    intro grant hg
    rw [hGrants] at hg
    rw [hBooted]
    exact (h.parties grant hg).imp (Set.mem_insert_of_mem _) (Set.mem_insert_of_mem _)
  case challenged =>
    intro grant hg member hMember
    rw [hGrants] at hg
    rw [hConsumer grant hg] at hMember
    exact h.challenged grant hg member hMember
  case shielded =>
    intro grant hg left hLeft a member ha hHosts
    rw [hGrants] at hg
    have hLeft' := hLeft.of_eq hClock (hConsumer grant hg)
    by_cases hA : a = node
    · rw [hA, hNew] at ha
      cases Option.some.inj ha
      obtain ⟨consumer, deadline, hMember, hChallenge, rfl, -⟩ := hLeft'
      have hBound := h.bounded _ consumer grant.nonce deadline hMember hChallenge
      right
      rw [hClock, hA]
      dsimp only
      linarith
    · rw [hOld a hA] at ha
      have hShield := h.shielded grant hg left hLeft' a member ha hHosts
      unfold Shielded at hShield ⊢
      rwa [hClock]
  case exclusive =>
    intro first hFirst second hSecond hHosts left left' hLeft hLeft'
    rw [hGrants] at hFirst hSecond
    exact h.exclusive first hFirst second hSecond hHosts left left'
      (hLeft.of_eq hClock (hConsumer first hFirst))
      (hLeft'.of_eq hClock (hConsumer second hSecond))

omit [DecidableEq Node] [DecidableEq Nonce] in
/-- What is left of a challenge shrinks at least half as fast as any shield. -/
theorem Inv.advance (h : Inv host lease s) {elapsed : Node → Time}
    (hElapsed : ∀ a b member member', s.live a = some member → s.live b = some member' →
      0 ≤ elapsed a ∧ elapsed a ≤ 2 * elapsed b) :
    Inv host lease { s with clock := fun node => s.clock node + elapsed node } := by
  have hOpen : ∀ grant left, Open { s with clock := fun node => s.clock node + elapsed node }
      grant left → Open s grant (left + elapsed grant.consumer) := by
    rintro grant left ⟨member, deadline, hMember, hChallenge, hLeft, hPos⟩
    have hNonneg := (hElapsed _ _ member member hMember hMember).1
    dsimp only at hLeft
    exact ⟨member, deadline, hMember, hChallenge, by rw [hLeft]; ring, by linarith⟩
  exact {
    one_per_host := h.one_per_host
    booted := h.booted
    bounded := by
      intro a member nonce deadline ha hDeadline
      have hBound := h.bounded a member nonce deadline ha hDeadline
      have hNonneg := (hElapsed a a member member ha ha).1
      dsimp only
      linarith
    parties := h.parties
    challenged := h.challenged
    shielded := by
      intro grant hg left hLeft a member ha hHosts
      have hShield := h.shielded grant hg _ (hOpen grant left hLeft) a member ha hHosts
      obtain ⟨consumer, -, hConsumer, -, -, -⟩ := hLeft
      have hRate := (hElapsed a grant.consumer member consumer ha hConsumer).2
      rcases hShield with
        ⟨deadline, hIssuer, hReservation, hShield⟩ | hShield
      · refine .inl ⟨deadline, hIssuer, hReservation, ?_⟩
        dsimp only
        linarith
      · right
        dsimp only
        linarith
    exclusive := fun first hFirst second hSecond hHosts left left' hLeft hLeft' =>
      h.exclusive first hFirst second hSecond hHosts _ _ (hOpen first left hLeft)
        (hOpen second left' hLeft') }

omit [IsStrictOrderedRing Time] in
/-- A new challenge has no grants yet. -/
theorem Inv.challenge (h : Inv host lease s)
    {t : State Node Nonce Value Time} {node : Node}
    {member : Member Nonce Value Time} {nonce : Nonce} (hMember : s.live node = some member)
    (hFresh : member.challenges nonce = none)
    (hLive : t.live = Function.update s.live node (some { member with
      challenges := Function.update member.challenges nonce (some (s.clock node + lease)) }))
    (hClock : t.clock = s.clock) (hBooted : t.booted = s.booted)
    (hGrants : t.grants = s.grants) : Inv host lease t := by
  have hBefore : ∀ a after, t.live a = some after → ∃ before, s.live a = some before ∧
      after.quarantine = before.quarantine ∧ after.reservation = before.reservation ∧
      ∀ other, after.challenges other = before.challenges other ∨
        (a = node ∧ other = nonce ∧ before.challenges nonce = none ∧
          after.challenges other = some (s.clock node + lease)) := by
    intro a after ha
    rw [hLive] at ha
    by_cases hA : a = node
    · rw [hA, Function.update_self] at ha
      cases Option.some.inj ha
      refine ⟨member, hA ▸ hMember, rfl, rfl, ?_⟩
      intro other
      by_cases hOther : other = nonce
      · exact .inr ⟨hA, hOther, hFresh, by rw [hOther]; exact Function.update_self _ _ _⟩
      · exact .inl (Function.update_of_ne hOther _ _)
    · rw [Function.update_of_ne hA] at ha
      exact ⟨after, ha, rfl, rfl, fun _ => .inl rfl⟩
  have hOpen : ∀ grant ∈ s.grants, ∀ left, Open t grant left → Open s grant left := by
    rintro grant hg left ⟨after, deadline, hAfter, hChallenge, hLeft⟩
    obtain ⟨before, hLiveBefore, -, -, hSame⟩ := hBefore _ after hAfter
    rw [hClock] at hLeft
    rcases hSame grant.nonce with hSame | ⟨-, hNonce, hNone, -⟩
    · exact ⟨before, deadline, hLiveBefore, hSame.symm.trans hChallenge, hLeft⟩
    · obtain ⟨opened, hOpened⟩ := h.challenged grant hg before hLiveBefore
      rw [hNonce, hNone] at hOpened
      cases hOpened
  constructor
  case one_per_host =>
    intro a b first second ha hb
    obtain ⟨first', ha', -⟩ := hBefore a first ha
    obtain ⟨second', hb', -⟩ := hBefore b second hb
    exact h.one_per_host a b first' second' ha' hb'
  case booted =>
    intro a after ha
    obtain ⟨before, ha', -⟩ := hBefore a after ha
    rw [hBooted]
    exact h.booted a before ha'
  case bounded =>
    intro a after other deadline ha hDeadline
    obtain ⟨before, ha', -, -, hSame⟩ := hBefore a after ha
    rw [hClock]
    rcases hSame other with hSame | ⟨rfl, -, -, hNew⟩
    · exact h.bounded a before other deadline ha' (hSame.symm.trans hDeadline)
    · rw [hNew] at hDeadline
      exact (Option.some.inj hDeadline).ge
  case parties =>
    rw [hGrants, hBooted]
    exact h.parties
  case challenged =>
    intro grant hg after hAfter
    rw [hGrants] at hg
    obtain ⟨before, hLiveBefore, -, -, hSame⟩ := hBefore _ after hAfter
    obtain ⟨opened, hOpened⟩ := h.challenged grant hg before hLiveBefore
    rcases hSame grant.nonce with hSame | ⟨-, -, -, hNew⟩
    · exact ⟨opened, hSame.trans hOpened⟩
    · exact ⟨_, hNew⟩
  case shielded =>
    intro grant hg left hLeft a after ha hHosts
    rw [hGrants] at hg
    obtain ⟨before, ha', hQuarantine, hReservation, -⟩ := hBefore a after ha
    have hShield := h.shielded grant hg left (hOpen grant hg left hLeft) a before ha' hHosts
    unfold Shielded at hShield ⊢
    rwa [hClock, hQuarantine, hReservation]
  case exclusive =>
    intro first hFirst second hSecond hHosts left left' hLeft hLeft'
    rw [hGrants] at hFirst hSecond
    exact h.exclusive first hFirst second hSecond hHosts left left' (hOpen first hFirst left hLeft)
      (hOpen second hSecond left' hLeft')

omit [DecidableEq Node] [DecidableEq Nonce] in
/-- A grant is given only by a node that no open challenge for another value
keeps off. -/
theorem Inv.value_eq (h : Inv host lease s) {grant old : Grant Node Nonce Value}
    {member : Member Nonce Value Time} {deadline left : Time}
    (hMember : s.live grant.issuer = some member)
    (hQuarantine : member.quarantine ≤ s.clock grant.issuer)
    (hReserved : ∀ value reserved, member.reservation = some (value, reserved) →
      s.clock grant.issuer < reserved → value = grant.value ∧ reserved ≤ deadline)
    (hOld : old ∈ s.grants) (hHosts : host grant.issuer = host old.issuer)
    (hLeft : Open s old left) :
    old.value = grant.value ∧ grant.issuer = old.issuer ∧
      2 * left ≤ deadline - s.clock grant.issuer := by
  have hPos : 0 < left := by
    obtain ⟨_, _, _, _, _, hPos⟩ := hLeft
    exact hPos
  rcases h.shielded old hOld left hLeft _ member hMember hHosts with
    ⟨reserved, hIssuer, hReservation, hShield⟩ | hShield
  · obtain ⟨hValue, hLater⟩ := hReserved _ _ hReservation (by linarith)
    exact ⟨hValue, hIssuer, by linarith⟩
  · exact absurd hPos (not_lt.mpr (by linarith))

omit [DecidableEq Nonce] in
theorem Inv.reserve (h : Inv host lease s) {t : State Node Nonce Value Time}
    {grant : Grant Node Nonce Value} {member : Member Nonce Value Time} {deadline : Time}
    (hMember : s.live grant.issuer = some member)
    (hQuarantine : member.quarantine ≤ s.clock grant.issuer)
    (hReserved : ∀ value reserved, member.reservation = some (value, reserved) →
      s.clock grant.issuer < reserved → value = grant.value ∧ reserved ≤ deadline)
    (hDeadline : s.clock grant.issuer + 2 * lease ≤ deadline)
    (hConsumer : grant.consumer ∈ s.booted)
    (hChallenge : ∀ consumer, s.live grant.consumer = some consumer →
      ∃ opened, consumer.challenges grant.nonce = some opened)
    (hLive : t.live = Function.update s.live grant.issuer
      (some { member with reservation := some (grant.value, deadline) }))
    (hClock : t.clock = s.clock) (hBooted : t.booted = s.booted)
    (hGrants : t.grants = s.grants ∨ t.grants = insert grant s.grants) : Inv host lease t := by
  have hBefore : ∀ a after, t.live a = some after → ∃ before, s.live a = some before ∧
      after.quarantine = before.quarantine ∧ after.challenges = before.challenges ∧
      (a ≠ grant.issuer → after.reservation = before.reservation) ∧
      (a = grant.issuer → after.reservation = some (grant.value, deadline)) := by
    intro a after ha
    rw [hLive] at ha
    by_cases hA : a = grant.issuer
    · rw [hA, Function.update_self] at ha
      cases Option.some.inj ha
      exact ⟨member, hA ▸ hMember, rfl, rfl, fun hNe => absurd hA hNe, fun _ => rfl⟩
    · rw [Function.update_of_ne hA] at ha
      exact ⟨after, ha, rfl, rfl, fun _ => rfl, fun hEq => absurd hEq hA⟩
  have hOpen : ∀ other left, Open t other left → Open s other left := by
    rintro other left ⟨after, opened, hAfter, hOpened, hLeft⟩
    obtain ⟨before, hLiveBefore, -, hSame, -⟩ := hBefore _ after hAfter
    rw [hClock] at hLeft
    exact ⟨before, opened, hLiveBefore, hSame ▸ hOpened, hLeft⟩
  have hMem : ∀ other ∈ t.grants, other = grant ∨ other ∈ s.grants := by
    intro other hOther
    rcases hGrants with hGrants | hGrants
    · exact .inr (hGrants ▸ hOther)
    · rw [hGrants] at hOther
      exact Set.mem_insert_iff.mp hOther
  constructor
  case one_per_host =>
    intro a b first second ha hb
    obtain ⟨first', ha', -⟩ := hBefore a first ha
    obtain ⟨second', hb', -⟩ := hBefore b second hb
    exact h.one_per_host a b first' second' ha' hb'
  case booted =>
    intro a after ha
    obtain ⟨before, ha', -⟩ := hBefore a after ha
    rw [hBooted]
    exact h.booted a before ha'
  case bounded =>
    intro a after nonce opened ha hOpened
    obtain ⟨before, ha', -, hSame, -⟩ := hBefore a after ha
    rw [hClock]
    exact h.bounded a before nonce opened ha' (hSame ▸ hOpened)
  case parties =>
    intro other hOther
    rw [hBooted]
    rcases hMem other hOther with rfl | hOther
    · exact ⟨h.booted _ member hMember, hConsumer⟩
    · exact h.parties other hOther
  case challenged =>
    intro other hOther after hAfter
    obtain ⟨before, hLiveBefore, -, hSame, -⟩ := hBefore _ after hAfter
    rw [hSame]
    rcases hMem other hOther with rfl | hOther
    · exact hChallenge before hLiveBefore
    · exact h.challenged other hOther before hLiveBefore
  case shielded =>
    intro other hOther left hLeft a after ha hHosts
    obtain ⟨before, ha', hQuarantineSame, -, hKept, hSet⟩ := hBefore a after ha
    have hLeft' := hOpen other left hLeft
    rcases hMem other hOther with rfl | hOther
    · have hIssuer : a = other.issuer := h.one_per_host _ _ _ _ ha' hMember hHosts
      obtain ⟨consumer, opened, hLiveConsumer, hOpened, rfl, -⟩ := hLeft'
      have hBound := h.bounded _ consumer other.nonce opened hLiveConsumer hOpened
      refine .inl ⟨deadline, hIssuer, hSet hIssuer, ?_⟩
      rw [hClock, hIssuer]
      linarith
    · by_cases hA : a = grant.issuer
      · rw [hA] at hHosts
        obtain ⟨hValue, hIssuer, hShield⟩ :=
          h.value_eq hMember hQuarantine hReserved hOther hHosts hLeft'
        refine .inl ⟨deadline, hA.trans hIssuer, hValue ▸ hSet hA, ?_⟩
        rw [hClock, hA]
        exact hShield
      · have hShield := h.shielded other hOther left hLeft' a before ha' hHosts
        unfold Shielded at hShield ⊢
        rwa [hClock, hQuarantineSame, hKept hA]
  case exclusive =>
    intro first hFirst second hSecond hHosts left left' hLeft hLeft'
    rcases hMem first hFirst with rfl | hFirst
    · rcases hMem second hSecond with rfl | hSecond
      · rfl
      · exact (h.value_eq hMember hQuarantine hReserved hSecond hHosts (hOpen _ _ hLeft')).1.symm
    · rcases hMem second hSecond with rfl | hSecond
      · exact (h.value_eq hMember hQuarantine hReserved hFirst hHosts.symm (hOpen _ _ hLeft)).1
      · exact h.exclusive first hFirst second hSecond hHosts left left' (hOpen _ _ hLeft)
          (hOpen _ _ hLeft')

theorem Inv.step (h : Inv host lease s) {t : State Node Nonce Value Time}
    (hStep : Step host lease s t) : Inv host lease t := by
  cases hStep with
  | boot node quarantine hHost hFresh hQuarantine =>
      exact h.boot hHost hFresh hQuarantine rfl rfl rfl rfl
  | crash node => exact h.crash node
  | advance elapsed hElapsed => exact h.advance hElapsed
  | challenge node member nonce hLive hFresh => exact h.challenge hLive hFresh rfl rfl rfl rfl
  | reserve grant member deadline grants hLive hQuarantine hReserved hDeadline hConsumer hChallenge
      hGrants =>
      exact h.reserve hLive hQuarantine hReserved hDeadline hConsumer hChallenge rfl rfl rfl hGrants

/-- The hosts in `issuers` granted `value` to the consumer's challenge. -/
def Backed (host : Node → Host) (s : State Node Nonce Value Time) (issuers : Finset Host)
    (consumer : Node) (nonce : Nonce) (value : Value) : Prop :=
  ∀ m ∈ issuers, ∃ issuer, host issuer = m ∧ ⟨issuer, consumer, nonce, value⟩ ∈ s.grants

omit [DecidableEq Node] [DecidableEq Nonce] [IsStrictOrderedRing Time] in
/-- Two open challenges that are both backed by majorities of one roster are
backed for the same value. -/
theorem Inv.majorities_agree [DecidableEq Host] (h : Inv host lease s)
    {roster first second : Finset Host} (hFirst : first ⊆ roster) (hSecond : second ⊆ roster)
    (hMajority : roster.card / 2 < first.card) (hMajority' : roster.card / 2 < second.card)
    {a b : Node} {nonce nonce' : Nonce} {value value' : Value} {left left' : Time}
    (hBacked : Backed host s first a nonce value) (hBacked' : Backed host s second b nonce' value')
    (hOpen : ∀ grant : Grant Node Nonce Value, grant.consumer = a → grant.nonce = nonce →
      Open s grant left)
    (hOpen' : ∀ grant : Grant Node Nonce Value, grant.consumer = b → grant.nonce = nonce' →
      Open s grant left') : value = value' := by
  obtain ⟨m, hm⟩ := Finset.inter_nonempty_of_card_lt_card_add_card hFirst hSecond (by omega)
  obtain ⟨issuer, hIssuer, hGrant⟩ := hBacked m (Finset.mem_inter.mp hm).1
  obtain ⟨issuer', hIssuer', hGrant'⟩ := hBacked' m (Finset.mem_inter.mp hm).2
  exact h.exclusive _ hGrant _ hGrant' (hIssuer.trans hIssuer'.symm) left left'
    (hOpen _ rfl rfl) (hOpen' _ rfl rfl)

end Leases
