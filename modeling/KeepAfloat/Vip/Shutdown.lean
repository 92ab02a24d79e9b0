import KeepAfloat.Vip.Release

/-! Graceful shutdown: every worker is dropped at the await where it stands, and the
main task removes the configured VIPs. -/

namespace KeepAfloat

open Async VipState

namespace VipProcess

/-- Drop the worker of one VIP. -/
def dropWorker (process : VipProcess) (state : VipState) (ip : IpAddr) : VipState :=
  (process.pending ip).elim state state.drop

/-- Abort reconciliation: the future that holds the workers is dropped. -/
def abort (process : VipProcess) (table : VipTable) : VipState :=
  table.addrs.foldl process.dropWorker process.state

end VipProcess

/-- The main task after the abort. -/
structure VipShutdown where
  state : VipState
  main : Vip (List IpAddr × Bool)

inductive ShutdownEvent where
  | work (choice : Nat)
  | effect (child : Nat)
  | finish (child : Nat) (result : CommandResult) (reaped : Bool)

namespace VipShutdown

def step (shutdown : VipShutdown) : ShutdownEvent → VipShutdown
  | .work choice =>
      match shutdown.main with
      | .done _ => shutdown
      | .call op next =>
          match shutdown.state.perform op choice with
          | some (answer, after) => ⟨after, next answer⟩
          | none => shutdown
  | .effect child => { shutdown with state := shutdown.state.childEffect child }
  | .finish child result reaped =>
      { shutdown with state := shutdown.state.finish child result reaped }

/-- What the main task returned. -/
def returned (shutdown : VipShutdown) : Option (List IpAddr × Bool) :=
  match shutdown.main with
  | .done value => some value
  | .call _ _ => none

/-- The shutdown of a running process. -/
def begin (dryRun : Bool) (table : VipTable) (process : VipProcess) : VipShutdown :=
  ⟨process.abort table, LocalVip.releaseLocalVips dryRun table.addrs⟩

end VipShutdown

namespace VipProcess

section

variable {dryRun : Bool} {table : VipTable} {ip : IpAddr} {process : VipProcess}

theorem dropWorker_good {state : VipState} (hGood : state.Good) (worker : IpAddr) :
    (process.dropWorker state worker).Good := by
  unfold dropWorker
  cases process.pending worker with
  | none => exact hGood
  | some op => exact hGood.drop op

/-- Dropping the worker of another VIP. -/
theorem dropWorker_others {worker : IpAddr} (hWorker : worker ≠ ip)
    (hOwn : (process.workers worker).Only (Worker.Own worker)) (state : VipState) :
    Others ip state (process.dropWorker state worker) := by
  unfold dropWorker
  cases hPending : process.pending worker with
  | none => exact .refl ip state
  | some op =>
      obtain ⟨await, next, hCall, rfl⟩ := pending_cases hPending
      rw [hCall] at hOwn
      apply drop_others
      exact fun hAddress => hWorker (hOwn.1 ip hAddress).symm

theorem dropWorkers_later (addrs : List IpAddr) (hIp : ip ∉ addrs)
    (hOwn : ∀ other ∈ addrs, (process.workers other).Only (Worker.Own other)) {state : VipState}
    (hGood : state.Good) :
    (workerContract dryRun ip).Later state (addrs.foldl process.dropWorker state) := by
  induction addrs generalizing state with
  | nil => exact .refl
  | cons worker rest ih =>
      have hWorker : worker ≠ ip := fun hSame => hIp (by simp [hSame])
      have hNext := @dropWorker_good process _ hGood worker
      apply Relation.ReflTransGen.head
      · exact ⟨dropWorker_others hWorker (hOwn worker (by simp)) state, hNext⟩
      · exact ih (fun hIn => hIp (by simp [hIn])) (fun other hIn => hOwn other (by simp [hIn])) hNext

theorem dropWorkers_good (addrs : List IpAddr) {state : VipState} (hGood : state.Good) :
    (addrs.foldl process.dropWorker state).Good := by
  induction addrs generalizing state with
  | nil => exact hGood
  | cons worker rest ih => exact ih (dropWorker_good hGood worker)

/-- Aborting a watched process leaves the VIP to cleanup. -/
theorem Watched.abort
    (h : process.Watched table ip (workerContract dryRun ip)
      fun memory => OrLost ip (memory.Idle dryRun ip)) (hIp : ip ∈ table.addrs) :
    (process.abort table).Good ∧ OrLost ip (Left dryRun ip) (process.abort table) := by
  refine ⟨dropWorkers_good table.addrs h.good, ?_⟩
  obtain ⟨before, after, hSplit⟩ := List.mem_iff_append.mp hIp
  have hNodup := table.nodup_addrs
  rw [hSplit, List.nodup_middle, List.nodup_cons, List.mem_append, not_or] at hNodup
  have hOwn : ∀ other ∈ before ++ ip :: after, (process.workers other).Only (Worker.Own other) :=
    hSplit ▸ h.own
  unfold VipProcess.abort
  rw [hSplit, List.foldl_append, List.foldl_cons]
  have hGood := @dropWorkers_good process before _ h.good
  have hReached : (workerContract dryRun ip).Later process.state
      (before.foldl process.dropWorker process.state) :=
    dropWorkers_later before hNodup.1.1 (fun other hIn => hOwn other (by simp [hIn])) h.good
  generalize before.foldl process.dropWorker process.state = reached at hGood hReached
  have hLeft : OrLost ip (Left dryRun ip) (process.dropWorker reached ip) := by
    have hSafe := h.safe
    unfold dropWorker pending
    cases hWorker : process.workers ip with
    | done memory =>
        rw [hWorker] at hSafe
        exact (hSafe reached hReached).imp_right fun hIdle => hIdle.toLeft
    | call await next =>
        rw [hWorker] at hSafe
        exact (hSafe reached hReached).2.1
  have hStable : (workerContract dryRun ip).Stable (OrLost ip (Left dryRun ip)) :=
    Worker.worker_stable (Worker.orLost_others Others.left)
  apply hStable.later (dropWorker_good hGood ip) _ hLeft
  exact dropWorkers_later after hNodup.1.2 (fun other hIn => hOwn other (by simp [hIn]))
    (dropWorker_good hGood ip)

end

end VipProcess

namespace LocalVip

variable {dryRun : Bool} {ip : IpAddr}

/-- What the main task may rely on when it proclaims success. -/
theorem releaseLocalVips_absent {table : List IpAddr} (hIp : ip ∈ table) :
    (vipContract ip fun _ => True).Triple (OrLost ip (Left dryRun ip))
      (releaseLocalVips dryRun table) fun result state =>
        result = ([], true) → state.Absent ip := by
  have hLost : ∀ state : VipState, state.Lost ip → True := fun _ _ => trivial
  have hWait : (vipContract ip fun _ => True).Triple (OrLost ip (Left dryRun ip))
      (Vip.perform .waitSettled) fun settled => OrLost ip (Unbinding dryRun settled false ip none) := by
    apply orLost_triple hLost (@Vip.perform_within ip _ rfl fun _ h => by cases h)
    apply (barring_works.waitSettled (barring_works.stable Others.left) (fun _ _ _ => trivial)
      fun _ hState => hState.quiet).mono
    · exact fun _ _ hState => hState
    · rintro settled state ⟨hState, hAll⟩
      exact ⟨hState.quiet, hState.covered, hState.dry, fun hYes => hAll hYes _ rfl, nofun⟩
  apply Contract.Triple.bind hWait
  intro settledBefore
  have hUnbind : (vipContract ip fun _ => True).Triple
      (OrLost ip (Unbinding dryRun settledBefore false ip none)) (unbindAll dryRun table)
      fun failures => OrLost ip fun state =>
        failures = [] → settledBefore = true → state.Absent ip := by
    apply orLost_triple hLost (unbindAll_within dryRun table)
    apply (unbindAll_unbound barring_works (fun _ _ => trivial) table).mono
    · exact fun _ _ hState => hState
    · exact fun _ _ hState hNil hSettled => (hState.2 hNil hIp).settled hSettled
  apply Contract.Triple.bind hUnbind
  intro failures
  have hAbsent : (vipContract ip fun _ => True).Stable (OrLost ip fun state =>
      failures = [] → settledBefore = true → state.Absent ip) :=
    vipContract_works.stable (Worker.orLost_others fun hOthers hState hNil hSettled =>
      hOthers.absent (hState hNil hSettled))
  cases settledBefore with
  | false => exact .done hAbsent fun _ _ _ hResult => by cases hResult
  | true =>
      have hSettled : (vipContract ip fun _ => True).Triple
          (OrLost ip fun state => failures = [] → true = true → state.Absent ip) Vip.settled
          fun settled state => failures = [] → settled = true → state.Absent ip := by
        apply vipContract_works.operation hAbsent (fun _ _ _ => trivial) rfl (fun _ => rfl)
        · exact fun settled => .imp _ (.imp _ (vipContract_works.stable Others.absent))
        · intro state choice settled after hGood hState _ hPerform hNil hYes
          obtain ⟨rfl, rfl⟩ := Prod.mk.inj (Option.some.inj hPerform)
          exact hState.resolve_left (hGood.not_lost hYes) hNil rfl
      apply Contract.Triple.bind hSettled
      intro settledAfter
      refine .done (.imp _ (.imp _ (vipContract_works.stable Others.absent))) ?_
      intro state _ hState hResult
      obtain ⟨rfl, rfl⟩ := Prod.mk.inj hResult
      exact hState rfl rfl

end LocalVip

namespace VipShutdown

section

variable {ip : IpAddr} {post : List IpAddr × Bool → VipState → Prop}

/-- The main task keeps its contract along its run. -/
structure Watched (ip : IpAddr) (post : List IpAddr × Bool → VipState → Prop)
    (shutdown : VipShutdown) : Prop where
  good : shutdown.state.Good
  safe : (vipContract ip fun _ => True).Safe shutdown.main post shutdown.state

theorem Watched.step {shutdown : VipShutdown} (h : shutdown.Watched ip post)
    (event : ShutdownEvent) : (shutdown.step event).Watched ip post := by
  cases event with
  | work choice =>
      simp only [VipShutdown.step]
      split
      · exact h
      · rename_i op next hMain
        split
        · rename_i answer after hPerform
          have hSafe := h.safe
          rw [hMain] at hSafe
          exact ⟨h.good.perform hPerform,
            (hSafe shutdown.state .refl).2.2 answer after ⟨choice, hPerform⟩⟩
        · exact h
  | effect child =>
      have hGood := h.good.childEffect child
      exact ⟨hGood, h.safe.later (.single ⟨childEffect_others ip h.good child, hGood⟩)⟩
  | finish child result reaped =>
      have hGood := h.good.finish child result reaped
      exact ⟨hGood, h.safe.later (.single ⟨finish_others ip h.good child result reaped, hGood⟩)⟩

end

/-- If the main task returns success, no configured VIP is attached and no command that
is left can attach one. -/
theorem shutdown_removes_vips (dryRun : Bool) (table : VipTable) (start : VipProcess)
    (hStart : start.Starts table) (hAbsent : ∀ ip ∈ table.addrs, start.state.attached ip = false)
    (events : List VipEvent) (i : Nat) (hi : i ≤ events.length) (stopping : List ShutdownEvent)
    (j : Nat) :
    let process := Runs.stateAt (VipProcess.step dryRun table) start events i
    let shutdown := Runs.stateAt step (VipShutdown.begin dryRun table process) stopping j
    shutdown.returned = some ([], true) →
      ∀ ip ∈ table.addrs, shutdown.state.attached ip = false ∧
        ∀ child ∈ shutdown.state.children, child.reaped = false →
          child.command ≠ .replaceAddress ip := by
  intro process shutdown hReturned ip hIp
  obtain ⟨hGood, hLeft⟩ :=
    (VipProcess.watched_release dryRun hStart hIp (hAbsent ip hIp) events hi).abort hIp
  have hWatched : shutdown.Watched ip fun result state => result = ([], true) → state.Absent ip := by
    apply Runs.stateAt_invariant step _ (Watched ip _)
    · exact ⟨hGood, LocalVip.releaseLocalVips_absent hIp _ hGood hLeft⟩
    · exact fun shutdown event h => h.step event
  have hSafe := hWatched.safe
  unfold returned at hReturned
  split at hReturned
  · rename_i value hMain
    rw [hMain] at hSafe
    have hOwed := hSafe shutdown.state .refl (Option.some.inj hReturned)
    exact ⟨hOwed.1, hOwed.no_writer⟩
  · cases hReturned

/-- The address command of a bind has taken effect when the worker is dropped. -/
def abortedBind : List ShutdownEvent :=
  [.finish 1 .failed true, .work 1, .work 1, .work 1, .work 1, .effect 2,
    .finish 2 (.exited true) true, .work 1, .work 1, .effect 3, .finish 3 (.exited true) true,
    .work 1, .work 1, .work 1, .work 1, .work 1]

theorem shutdown_removes_vips_aborted :
    (Runs.stateAt (VipProcess.step false VipProcess.soleTable) VipProcess.soleStart
      VipProcess.revokedBind 21).state.attached VipProcess.soleVip = true ∧
    (Runs.stateAt step (VipShutdown.begin false VipProcess.soleTable (Runs.stateAt
      (VipProcess.step false VipProcess.soleTable) VipProcess.soleStart VipProcess.revokedBind 21))
      abortedBind 16).state.attached VipProcess.soleVip = false :=
  ⟨by decide +kernel, (shutdown_removes_vips false VipProcess.soleTable VipProcess.soleStart
    VipProcess.soleStart_starts (fun _ _ => rfl) VipProcess.revokedBind 21 (by decide) abortedBind 16
    (by decide +kernel) VipProcess.soleVip (by decide)).1⟩

end VipShutdown

end KeepAfloat
