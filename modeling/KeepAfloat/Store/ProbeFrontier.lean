import KeepAfloat.Store.Continuity
import KeepAfloat.Store.LogFloor
import KeepAfloat.Store.SnapshotReplay

/-! The probe frontier. Every accepted health-bearing report moves its node to the
frontier, and the frontier by at most one. A node falls behind only by what the others
report. -/

namespace KeepAfloat

open Std (ExtTreeMap)

/-- Nothing was published: the frontier stands, and ticks are at most removed. -/
structure ProbeView.Silent (view after : ProbeView) : Prop where
  latestProbeTick : after.latestProbeTick = view.latestProbeTick
  nodeProbeTicks : ∀ node tick : Nat, after.nodeProbeTicks[node]? = some tick →
    view.nodeProbeTicks[node]? = some tick

theorem SilentEvent.silent {view after : ProbeView} (h : SilentEvent view after) :
    view.Silent after := by
  cases h with
  | quiet => exact ⟨rfl, fun _ _ hTick => hTick⟩
  | adopt genesis hNone =>
      refine ⟨rfl, fun node tick hTick => ?_⟩
      simp at hTick
  | @membership membership ticks hTicks =>
      refine ⟨rfl, fun node tick hTick => ?_⟩
      have hKept : ticks[node]? = some tick := hTick
      rw [hTicks] at hKept
      split at hKept
      · cases hKept
      · exact hKept

namespace KafStorageState

/-- The node of an accepted health-bearing report. -/
def reporter (state : KafStorageState) (entry : Entry) : Option Nat :=
  if (state.applyOne entry).2 = .ok then entry.payload.reporter else none

theorem probeView_step (state : KafStorageState) (entry : Entry) :
    match state.reporter entry with
    | some node => (state.step entry).probeView = state.probeView.publish node
    | none => state.probeView.Silent (state.step entry).probeView := by
  have hStep : (state.step entry).probeView =
      ({ state with lastAppliedLog := some entry.logId }.dispatch entry).state.probeView :=
    probeView_finish _
  have hAnswer : (state.applyOne entry).2 =
      ({ state with lastAppliedLog := some entry.logId }.dispatch entry).response := rfl
  rw [reporter, hAnswer, hStep]
  rcases probeView_dispatch { state with lastAppliedLog := some entry.logId } entry with
    ⟨hOk, node, hReporter, hPublished⟩ | ⟨hNone, hSilent⟩
  · rw [if_pos hOk, hReporter]
    exact hPublished
  · have hReporter : (if ({ state with lastAppliedLog := some entry.logId }.dispatch entry).response =
        .ok then entry.payload.reporter else none) = none := by
      split
      · next hOk => exact hNone hOk
      · rfl
    rw [hReporter]
    exact hSilent.silent

end KafStorageState

section Run

variable {config : StoreConfig} {entries : List Entry}

/-- The node that the `i`-th entry of a log is an accepted health-bearing report of. -/
def reporterAt (config : StoreConfig) (entries : List Entry) (i : Nat) : Option Nat :=
  entries[i]?.bind (stateAfter config entries i).reporter

/-- How many accepted health-bearing reports of other nodes stand from `i` on before `j`. -/
def othersReports (config : StoreConfig) (entries : List Entry) (node i j : Nat) : Nat :=
  (List.range' i (j - i)).countP fun k =>
    (reporterAt config entries k).any fun other => other ≠ node

theorem othersReports_succ {node i j : Nat} (hij : i ≤ j) :
    othersReports config entries node i (j + 1) = othersReports config entries node i j +
      if (reporterAt config entries j).any (fun other => other ≠ node) then 1 else 0 := by
  have hLast : List.range' i (j + 1 - i) = List.range' i (j - i) ++ [j] := by
    rw [Nat.succ_sub hij, List.range'_1_concat, Nat.add_sub_cancel' hij]
  rw [othersReports, hLast, List.countP_append, List.countP_singleton, ← othersReports]

theorem stateAfter_report {i node : Nat} (hi : i < entries.length)
    (hReporter : reporterAt config entries i = some node) :
    (stateAfter config entries (i + 1)).probeView =
      (stateAfter config entries i).probeView.publish node := by
  rw [reporterAt, List.getElem?_eq_getElem hi, Option.bind_some] at hReporter
  have hStep := KafStorageState.probeView_step (stateAfter config entries i) entries[i]
  rw [hReporter] at hStep
  rw [stateAfter_succ hi]
  exact hStep

theorem stateAfter_silent {i : Nat} (hi : i < entries.length)
    (hReporter : reporterAt config entries i = none) :
    (stateAfter config entries i).probeView.Silent (stateAfter config entries (i + 1)).probeView := by
  rw [reporterAt, List.getElem?_eq_getElem hi, Option.bind_some] at hReporter
  have hStep := KafStorageState.probeView_step (stateAfter config entries i) entries[i]
  rw [hReporter] at hStep
  rw [stateAfter_succ hi]
  exact hStep

/-- The frontier moves by at most one, and never back. -/
theorem frontier_step {i : Nat} (hi : i < entries.length) :
    (stateAfter config entries i).latestProbeTick ≤
        (stateAfter config entries (i + 1)).latestProbeTick ∧
      (stateAfter config entries (i + 1)).latestProbeTick ≤
        (stateAfter config entries i).latestProbeTick + 1 := by
  cases hReporter : reporterAt config entries i with
  | none =>
      have hSame := (stateAfter_silent hi hReporter).latestProbeTick
      exact ⟨hSame.ge, hSame.le.trans (Nat.le_succ _)⟩
  | some node =>
      have hMoved := congrArg ProbeView.latestProbeTick (stateAfter_report hi hReporter)
      have hWithin : (stateAfter config entries i).probeView.Within i := probeView_within i hi.le
      refine ⟨(le_max_right _ _).trans hMoved.ge, hMoved.le.trans ?_⟩
      exact nextProbeTick_le (hWithin.tick node)

/-- A report brings its node to the frontier. -/
theorem tick_report {i node : Nat} (hi : i < entries.length)
    (hReporter : reporterAt config entries i = some node) :
    (stateAfter config entries (i + 1)).nodeProbeTicks[node]? =
      some (stateAfter config entries (i + 1)).latestProbeTick := by
  have hView := stateAfter_report hi hReporter
  have hTick := congrArg (fun view : ProbeView => view.nodeProbeTicks[node]?) hView
  have hMoved := congrArg ProbeView.latestProbeTick hView
  refine hTick.trans (Eq.trans ?_ (congrArg some hMoved.symm))
  exact ExtTreeMap.getElem?_insert_self

/-- Since its last report a node that keeps its tick is behind by at most the reports of
the others. -/
theorem distance_le {i j node tick : Nat} (hij : i + 1 ≤ j) (hj : j ≤ entries.length)
    (hReporter : reporterAt config entries i = some node)
    (hLast : ∀ k, i < k → k < j → reporterAt config entries k ≠ some node)
    (hKept : ∀ k, i < k → k ≤ j → (stateAfter config entries k).nodeProbeTicks[node]? ≠ none)
    (hTick : (stateAfter config entries j).nodeProbeTicks[node]? = some tick) :
    (stateAfter config entries j).latestProbeTick ≤
      tick + othersReports config entries node (i + 1) j := by
  induction j, hij using Nat.le_induction generalizing tick with
  | base =>
      rw [tick_report hj hReporter] at hTick
      obtain rfl := Option.some.inj hTick
      exact Nat.le_add_right _ _
  | succ j hij ih =>
      have hMoved : (stateAfter config entries (j + 1)).latestProbeTick ≤
          (stateAfter config entries j).latestProbeTick + 1 := (frontier_step hj).2
      obtain ⟨before, hBefore⟩ := Option.ne_none_iff_exists'.mp (hKept j hij (by omega))
      have hDistance := ih (by omega) (fun k hk hkj => hLast k hk (by omega))
        (fun k hk hkj => hKept k hk (by omega)) hBefore
      rw [othersReports_succ hij]
      cases hEntry : reporterAt config entries j with
      | none =>
          have hSilent := stateAfter_silent hj hEntry
          have hSame := hSilent.nodeProbeTicks node tick hTick
          have hFrontier := hSilent.latestProbeTick
          obtain rfl := Option.some.inj (hBefore.symm.trans hSame)
          exact hFrontier.le.trans hDistance
      | some other =>
          have hOther : other ≠ node := by
            rintro rfl
            exact hLast j hij (Nat.lt_succ_self j) hEntry
          have hView := stateAfter_report hj hEntry
          have hSame : (stateAfter config entries (j + 1)).nodeProbeTicks[node]? =
              (stateAfter config entries j).nodeProbeTicks[node]? := by
            refine (congrArg (fun view : ProbeView => view.nodeProbeTicks[node]?) hView).trans ?_
            simp only [ProbeView.publish, ExtTreeMap.getElem?_insert, compare_eq_iff_eq, hOther,
              if_false]
            rfl
          obtain rfl := Option.some.inj (hBefore.symm.trans (hSame.symm.trans hTick))
          rw [if_pos (by simp [hOther])]
          omega

end Run

/-- The law of the frontier, in every run from the empty store. -/
theorem probe_frontier (config : StoreConfig) (entries : List Entry) :
    (∀ i < entries.length,
      (stateAfter config entries i).latestProbeTick ≤
          (stateAfter config entries (i + 1)).latestProbeTick ∧
        (stateAfter config entries (i + 1)).latestProbeTick ≤
          (stateAfter config entries i).latestProbeTick + 1) ∧
      (∀ i ≤ entries.length, ∀ node tick : Nat,
        (stateAfter config entries i).nodeProbeTicks[node]? = some tick →
          tick ≤ (stateAfter config entries i).latestProbeTick) ∧
      (∀ i < entries.length, ∀ node : Nat, reporterAt config entries i = some node →
        (stateAfter config entries (i + 1)).nodeProbeTicks[node]? =
          some (stateAfter config entries (i + 1)).latestProbeTick) ∧
      ∀ i j node : Nat, i < j → j ≤ entries.length → reporterAt config entries i = some node →
        (∀ k, i < k → k < j → reporterAt config entries k ≠ some node) →
        (∀ k, i < k → k ≤ j → (stateAfter config entries k).nodeProbeTicks[node]? ≠ none) →
        ∃ tick, (stateAfter config entries j).nodeProbeTicks[node]? = some tick ∧
          (stateAfter config entries j).latestProbeTick - tick ≤
            othersReports config entries node (i + 1) j ∧
          (isNodeProbeFresh node (stateAfter config entries j).nodeProbeTicks
              (stateAfter config entries j).latestProbeTick
              (stateAfter config entries j).staleMissedProbes = false →
            config.staleMissedProbes < othersReports config entries node (i + 1) j) := by
  refine ⟨fun i hi => frontier_step hi, fun i hi node tick hTick => ?_,
    fun i hi node hReporter => tick_report hi hReporter, ?_⟩
  · exact (probeView_within i hi).tick node tick hTick
  · intro i j node hij hj hReporter hLast hKept
    obtain ⟨tick, hTick⟩ := Option.ne_none_iff_exists'.mp (hKept j hij le_rfl)
    have hDistance := distance_le hij hj hReporter hLast hKept hTick
    refine ⟨tick, hTick, by omega, fun hStale => ?_⟩
    rw [isNodeProbeFresh, hTick, decide_eq_false_iff_not] at hStale
    have hConfig : (stateAfter config entries j).staleMissedProbes = config.staleMissedProbes :=
      (KafStorageState.stateAfter_sameConfig config entries j).staleMissedProbes
    omega

/-- Node one reports once, node two five times. -/
def quietLog : List Entry :=
  [1, 2, 2, 2, 2, 2].zipIdx.map fun report =>
    ⟨⟨⟨1, ⟨1, 0⟩⟩, report.2⟩, .normal (.healthUpdate report.1 true)⟩

theorem probe_frontier_silent :
    KafStorageState.sampleStore.staleMissedProbes <
      othersReports KafStorageState.sampleStore quietLog 1 1 6 := by
  have hLast : ∀ k < 6, 0 < k → reporterAt KafStorageState.sampleStore quietLog k ≠ some 1 := by
    decide +kernel
  have hKept : ∀ k < 7, 0 < k →
      (stateAfter KafStorageState.sampleStore quietLog k).nodeProbeTicks[1]? ≠ none := by
    decide +kernel
  obtain ⟨tick, -, -, hStale⟩ := (probe_frontier KafStorageState.sampleStore quietLog).2.2.2 0 6 1
    (by decide) (by decide) (by decide +kernel) (fun k hk hkj => hLast k hkj hk)
    (fun k hk hkj => hKept k (by omega) hk)
  exact hStale (by decide +kernel)

end KeepAfloat
