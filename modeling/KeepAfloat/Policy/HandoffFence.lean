import KeepAfloat.Policy.Bind
import KeepAfloat.Store.Generation

/-! The handoff fence over whole runs. The state stores a fence only for the
immediately previous holder. The results below say what that gives over a chain
of reassignments, and a run shows what it does not give. -/

namespace KeepAfloat

section Fence

variable {events : List FenceEvent} {i j : Nat}

/-- The last ownership of a node before a later generation. -/
theorem exists_last_ownership (hShort : events.length ≤ Word64.maxWord) (hij : i ≤ j)
    (hj : j ≤ events.length) {first final : VipAssignment}
    (hFirst : (fenceAt events i).assignment = some first)
    (hFinal : (fenceAt events j).assignment = some final)
    (hLt : first.generation < final.generation) :
    ∃ last, first.generation ≤ last ∧ last < final.generation ∧
      (∃ k, i ≤ k ∧ k < j ∧ ∃ owned, (fenceAt events k).assignment = some owned ∧
        owned.generation = last ∧ owned.holder = first.holder) ∧
      (∀ k, k ≤ j → ∀ owned, (fenceAt events k).assignment = some owned →
        last < owned.generation → owned.generation < final.generation →
          owned.holder ≠ first.holder) ∧
      ∀ k, k ≤ j → ∀ successor, (fenceAt events k).assignment = some successor →
        successor.generation = last + 1 → successor.previousHolder = some first.holder := by
  obtain ⟨chain, hLinked, -, -, hOn⟩ := exists_chain hShort j hj
  let Holds (g : Nat) : Prop := (chain.take g).getLast?.map Handoff.holder = some first.holder
  have hHolds : ∀ k, k ≤ j → ∀ owned, (fenceAt events k).assignment = some owned →
      (Holds owned.generation ↔ owned.holder = first.holder) := by
    intro k hk owned hOwned
    obtain ⟨hNumber, hLink⟩ := (hOn k hk).assigned owned hOwned
    rw [← hNumber] at hLink
    simp [Holds, hLink, VipAssignment.handoff]
  have hStart : Holds first.generation := (hHolds i hij first hFirst).mpr rfl
  obtain ⟨last, hBound, hLast, hMax⟩ : ∃ last, last < final.generation ∧ Holds last ∧
      ∀ g, last < g → g < final.generation → ¬Holds g := by
    classical
    refine ⟨Nat.findGreatest Holds (final.generation - 1), ?_, ?_, fun g hg hgLt => ?_⟩
    · have hLe := Nat.findGreatest_le (P := Holds) (final.generation - 1)
      omega
    · exact Nat.findGreatest_spec (P := Holds) (by omega) hStart
    · exact Nat.findGreatest_is_greatest hg (by omega)
  have hFrom : first.generation ≤ last := by
    by_contra hNot
    exact hMax first.generation (by omega) hLt hStart
  refine ⟨last, hFrom, hBound, ?_, fun k hk owned hOwned hAfter hBefore => ?_,
    fun k hk successor hSuccessor hNumber => ?_⟩
  · obtain ⟨k, hk, owned, hOwned, hNumber⟩ := exists_ownership hShort hj
      (show 0 < last by
        rcases Nat.eq_zero_or_pos last with rfl | hPos
        · simp [Holds] at hLast
        · exact hPos)
      (show last ≤ (fenceAt events j).lastGeneration by
        rw [← ((hOn j le_rfl).assigned final hFinal).1]
        exact hBound.le)
    have hCount := ((hOn k hk).assigned owned hOwned).1
    have hCountFirst := ((hOn i hij).assigned first hFirst).1
    have hCountFinal := ((hOn j le_rfl).assigned final hFinal).1
    rcases Nat.lt_or_ge k i with hki | hki
    · have hMono := lastGeneration_mono hki.le (hij.trans hj)
      exact ⟨i, le_rfl, by
        rcases Nat.lt_or_eq_of_le hij with hlt | rfl
        · exact hlt
        · rw [hFirst] at hFinal
          obtain rfl := Option.some.inj hFinal
          omega, first, hFirst, by omega, rfl⟩
    · refine ⟨k, hki, ?_, owned, hOwned, hNumber, ?_⟩
      · rcases Nat.lt_or_eq_of_le hk with hlt | rfl
        · exact hlt
        · rw [hOwned] at hFinal
          obtain rfl := Option.some.inj hFinal
          omega
      · exact (hHolds k hk owned hOwned).mp (hNumber ▸ hLast)
  · exact fun hHolder => hMax owned.generation hAfter hBefore
      ((hHolds k hk owned hOwned).mpr hHolder)
  · obtain ⟨before, hBefore, -, hPrevious⟩ := (hOn k hk).previousHolder_eq hLinked hSuccessor
    have hSame : before = last := by omega
    rw [hPrevious, hSame]
    exact hLast

end Fence

/-- A release of `vip` by `nodeId` under `generation` was applied between two
prefixes, while the assignment of that generation named it as previous holder. -/
def ReleasedBetween (config : StoreConfig) (entries : List Entry) (vip : IpAddr)
    (nodeId generation i j : Nat) : Prop :=
  ∃ k, i ≤ k ∧ k < j ∧ ∃ entry, entries[k]? = some entry ∧
    entry.payload = .normal (.vipReleased nodeId vip generation) ∧
    ∃ standing, (stateAfter config entries k).vipAssignments[vip]? = some standing ∧
      standing.generation = generation ∧ standing.previousHolder = some nodeId

/-- The fence over a chain of reassignments. Let `n` be authorised at `i` and
another node at `j` under a later generation, and let `last` be the last generation
below it that `n` held. Whoever is authorised under the generation after `last` has
the release of `n`, or sees `n` stale. For a later generation whose predecessor in
the chain never activated nothing is said. -/
theorem handoff_fence (config : StoreConfig) (entries : List Entry)
    (hShort : entries.length < 2 ^ 64) (vip : IpAddr) (i j : Nat) (hij : i < j)
    (hj : j ≤ entries.length) (n m : Nat) (hNe : n ≠ m) (g g' : Nat)
    (hFirst : Authorised (stateAfter config entries i) vip n g)
    (hFinal : Authorised (stateAfter config entries j) vip m g') (hLt : g < g') :
    ∃ last, g ≤ last ∧ last < g' ∧
      (∃ k, i ≤ k ∧ k < j ∧ ∃ owned,
        (stateAfter config entries k).vipAssignments[vip]? = some owned ∧
          owned.generation = last ∧ owned.holder = n) ∧
      (∀ k, k ≤ j → ∀ owned, (stateAfter config entries k).vipAssignments[vip]? = some owned →
        last < owned.generation → owned.generation < g' → owned.holder ≠ n) ∧
      ∀ k, k ≤ j → ∀ successor,
        Authorised (stateAfter config entries k) vip successor (last + 1) →
          ReleasedBetween config entries vip n (last + 1) i k ∨
            (stateAfter config entries k).probeFresh n = false := by
  obtain ⟨events, hLength, hKnown, hRun⟩ := exists_fence_run config entries vip
  have hEvents : events.length ≤ Word64.maxWord := by
    rw [hLength, Word64.maxWord]
    omega
  have hAssigned : ∀ k, k ≤ entries.length →
      (stateAfter config entries k).vipAssignments[vip]? = (fenceAt events k).assignment := by
    intro k hk
    rw [← hRun k hk]
    rfl
  obtain ⟨first, hFirstAt, rfl, rfl, -⟩ := hFirst.cases
  obtain ⟨final, hFinalAt, rfl, -⟩ := hFinal.cases
  rw [hAssigned i (by omega)] at hFirstAt
  rw [hAssigned j hj] at hFinalAt
  obtain ⟨last, hFrom, hBound, ⟨k, hik, hkj, owned, hOwned, hOwnedRest⟩, hMax, hNext⟩ :=
    exists_last_ownership hEvents hij.le (hLength ▸ hj) hFirstAt hFinalAt hLt
  refine ⟨last, hFrom, hBound, ⟨k, hik, hkj, owned, ?_, hOwnedRest⟩, ?_, ?_⟩
  · rw [hAssigned k (by omega), hOwned]
  · intro k hk owned hOwned
    rw [hAssigned k (by omega)] at hOwned
    exact hMax k hk owned hOwned
  · intro k hk successor hAuthorised
    obtain ⟨assignment, hAt, hNumber, -, -, hFence⟩ := hAuthorised.cases
    rw [hAssigned k (by omega)] at hAt
    have hPrevious := hNext k hk assignment hAt hNumber
    rcases hFence first.holder hPrevious with hReleased | hStale
    · refine Or.inl ?_
      obtain ⟨p, hp, hpLt, hEvent, standing, hStanding, hStandingNumber, hHandoff⟩ :=
        exists_release k (by omega) hAt hReleased hPrevious
      have hpEntries : p < entries.length := hLength ▸ hpLt
      obtain ⟨event, hEventAt, hExplains⟩ := hKnown p hpEntries
      rw [List.getElem?_eq_getElem hpLt, hEvent] at hEventAt
      obtain rfl := Option.some.inj hEventAt
      have hip : i ≤ p := by
        obtain ⟨chain, -, -, -, hOn⟩ := exists_chain hEvents events.length le_rfl
        have hStandingCount := ((hOn p hpLt.le).assigned standing hStanding).1
        have hFirstCount := ((hOn i (by omega)).assigned first hFirstAt).1
        by_contra hNot
        have hMono : (fenceAt events p).lastGeneration ≤ (fenceAt events i).lastGeneration :=
          lastGeneration_mono (by omega) (by omega)
        omega
      refine ⟨p, hip, hp, entries[p], List.getElem?_eq_getElem hpEntries, ?_, standing, ?_, ?_, ?_⟩
      · rw [hExplains, hNumber]
      · rw [hAssigned p hpEntries.le, hStanding]
      · rw [hStandingNumber, hNumber]
      · exact (congrArg Handoff.previousHolder hHandoff).trans hPrevious
    · exact Or.inr hStale

/-- Node 1 becomes unhealthy and releases the VIP to its direct successor. -/
def releasedLog : List Entry :=
  handoffLog.take 5 ++ [⟨⟨⟨1, handoffReplica 1⟩, 5⟩, .normal (.vipReleased 1 handoffVip 2)⟩,
    ⟨⟨⟨1, handoffReplica 1⟩, 6⟩, .normal (.healthUpdate 1 false)⟩]

/-- The fence of the direct successor is really used: node 1 is fresh when node 2 is authorised
under generation 2, so that node 1 has released it. -/
theorem handoff_fence_run :
    Authorised (stateAfter handoffConfig releasedLog 4) handoffVip 1 1 ∧
      Authorised (stateAfter handoffConfig releasedLog 7) handoffVip 2 2 ∧
      (stateAfter handoffConfig releasedLog 7).probeFresh 1 = true ∧
      ReleasedBetween handoffConfig releasedLog handoffVip 1 2 4 7 := by
  have hFirst : Authorised (stateAfter handoffConfig releasedLog 4) handoffVip 1 1 :=
    ⟨⟨1, 1, none, true, 1⟩, by decide +kernel, rfl, by decide +kernel⟩
  have hFinal : Authorised (stateAfter handoffConfig releasedLog 7) handoffVip 2 2 :=
    ⟨⟨2, 2, some 1, true, 3⟩, by decide +kernel, rfl, by decide +kernel⟩
  have hFresh : (stateAfter handoffConfig releasedLog 7).probeFresh 1 = true := by decide +kernel
  obtain ⟨last, hFrom, hBound, -, -, hNext⟩ := handoff_fence handoffConfig releasedLog (by decide)
    handoffVip 4 7 (by decide) (by decide) 1 2 (by decide) 1 2 hFirst hFinal (by decide)
  obtain rfl : last = 1 := by omega
  refine ⟨hFirst, hFinal, hFresh, (hNext 7 le_rfl 2 hFinal).resolve_right fun hStale => ?_⟩
  rw [hFresh] at hStale
  cases hStale

/-- The stored fence does not reach past the previous generation. Node 1 is
authorised under generation 1, and node 3 under generation 3 after the release of
node 2 alone, while node 1 is fresh and has released nothing. -/
theorem handoff_fence_skips_generation :
    ¬∀ (config : StoreConfig) (entries : List Entry) (vip : IpAddr) (i j n m g g' : Nat),
      i < j → j ≤ entries.length → n ≠ m →
      Authorised (stateAfter config entries i) vip n g →
      Authorised (stateAfter config entries j) vip m g' → g < g' →
        (∃ generation, g < generation ∧ generation ≤ g' ∧
          ReleasedBetween config entries vip n generation i j) ∨
          (stateAfter config entries j).probeFresh n = false := by
  intro hClaim
  have hFirst : Authorised (stateAfter handoffConfig handoffLog 4) handoffVip 1 1 :=
    ⟨⟨1, 1, none, true, 1⟩, by decide +kernel, rfl, by decide +kernel⟩
  have hFinal : Authorised (stateAfter handoffConfig handoffLog 9) handoffVip 3 3 :=
    ⟨⟨3, 3, some 2, true, 3⟩, by decide +kernel, rfl, by decide +kernel⟩
  rcases hClaim handoffConfig handoffLog handoffVip 4 9 1 3 1 3 (by decide) (by decide) (by decide)
    hFirst hFinal (by decide) with ⟨generation, -, -, k, -, hk, entry, hEntry, hPayload, -⟩ | hStale
  · have hOnly : ∀ k < 9, ∀ entry, handoffLog[k]? = some entry →
        ∀ generation, entry.payload ≠ .normal (.vipReleased 1 handoffVip generation) := by
      intro k hk entry hEntry generation
      interval_cases k <;> cases hEntry <;> simp
    exact hOnly k hk entry hEntry generation hPayload
  · exact absurd hStale (by decide +kernel)

end KeepAfloat
