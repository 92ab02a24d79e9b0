import KeepAfloat.Vip.Footprint

/-! Runs of the whole process, watched from one VIP: if its worker keeps a contract round
by round, the contract holds at every moment of every run. -/

namespace KeepAfloat

open Async VipState

/-- A contract for the worker of a VIP in runs whose steps are known to be careful. -/
structure RunsUnder (ip : IpAddr) (careful : VipState → VipOp → Prop)
    {machine : Machine VipOp VipOp.Answer VipState} (contract : Contract machine) : Prop where
  does : ∀ {state : VipState} {op : VipOp} {choice : Nat} {answer : op.Answer} {after : VipState},
    careful state op → state.perform op choice = some (answer, after) →
      machine.does state op answer after
  drop : machine.drop = VipState.drop
  rely : ∀ {state after : VipState}, Others ip state after → contract.rely state after
  good : contract.good = VipState.Good

theorem RunsUnder.drop_good {ip : IpAddr} {careful : VipState → VipOp → Prop}
    {machine : Machine VipOp VipOp.Answer VipState} {contract : Contract machine}
    (runs : RunsUnder ip careful contract) (state : VipState) (op : VipOp)
    (h : contract.good state) : contract.good (machine.drop state op) := by
  rw [runs.good] at h ⊢
  rw [runs.drop]
  exact h.drop op

/-- The worker that goes on. -/
def VipEvent.worker : VipEvent → Option IpAddr
  | work ip _ => some ip
  | _ => none

namespace VipProcess

/-- The operation that the worker of a VIP is about to perform. -/
def pending (process : VipProcess) (ip : IpAddr) : Option VipOp :=
  match process.workers ip with
  | .done _ => none
  | .call await _ => some await.op

theorem pending_cases {process : VipProcess} {ip : IpAddr} {op : VipOp}
    (h : process.pending ip = some op) :
    ∃ (await : Await VipOp) (next : Await.Reply VipOp.Answer await → Loop WorkerMemory),
      process.workers ip = .call await next ∧ await.op = op := by
  unfold pending at h
  split at h
  · cases h
  · rename_i await next hWorker
    exact ⟨await, next, hWorker, Option.some.inj h⟩

/-- A step in which the worker of a VIP takes care. -/
def Careful (careful : VipState → VipOp → Prop) (ip : IpAddr) (process : VipProcess)
    (event : VipEvent) : Prop :=
  event.worker = some ip → ∀ op ∈ process.pending ip, careful process.state op

instance (careful : VipState → VipOp → Prop) [∀ state op, Decidable (careful state op)]
    (ip : IpAddr) (process : VipProcess) (event : VipEvent) :
    Decidable (process.Careful careful ip event) :=
  inferInstanceAs (Decidable (_ → _))

/-- Every worker stays with its own VIP, and the watched one keeps its contract. -/
structure Watched (table : VipTable) (ip : IpAddr)
    {machine : Machine (Await VipOp) (Await.Reply VipOp.Answer) VipState}
    (contract : Contract machine) (between : WorkerMemory → VipState → Prop)
    (process : VipProcess) : Prop where
  good : process.state.Good
  own : ∀ other ∈ table.addrs, (process.workers other).Only (Worker.Own other)
  safe : contract.Safe (process.workers ip) between process.state

section

variable {dryRun : Bool} {table : VipTable} {ip : IpAddr} {careful : VipState → VipOp → Prop}
variable {machine : Machine VipOp VipOp.Answer VipState} {contract : Contract machine}
variable {between : WorkerMemory → VipState → Prop} {process : VipProcess}

theorem resume_own (hOwn : ∀ other ∈ table.addrs, (process.workers other).Only (Worker.Own other))
    {worker : IpAddr} {state : VipState} {rest : Loop WorkerMemory}
    (hRest : rest.Only (Worker.Own worker)) :
    ∀ other ∈ table.addrs, ((process.resume worker state rest).workers other).Only
      (Worker.Own other) := by
  intro other hOther
  by_cases hSame : other = worker
  · subst hSame
    simpa [resume] using hRest
  · simpa [resume, hSame] using hOwn other hOther

/-- A step of another worker. -/
theorem Watched.others (runs : RunsUnder ip careful contract)
    (h : process.Watched table ip (contract.await runs.drop_good) between) {worker : IpAddr}
    (hWorker : worker ≠ ip) {state : VipState} {rest : Loop WorkerMemory}
    (hOthers : Others ip process.state state) (hGood : state.Good)
    (hRest : rest.Only (Worker.Own worker)) :
    (process.resume worker state rest).Watched table ip (contract.await runs.drop_good)
      between where
  good := hGood
  own := resume_own h.own hRest
  safe := by
    simp only [resume, Function.update_of_ne hWorker.symm]
    apply h.safe.later
    exact .single ⟨runs.rely hOthers, by rw [Contract.await, runs.good]; exact hGood⟩

/-- A child takes effect or finishes. -/
theorem Watched.environment (runs : RunsUnder ip careful contract)
    (h : process.Watched table ip (contract.await runs.drop_good) between) {state : VipState}
    (hOthers : Others ip process.state state) (hGood : state.Good) :
    ({ process with state := state } : VipProcess).Watched table ip
      (contract.await runs.drop_good) between where
  good := hGood
  own := h.own
  safe := h.safe.later (.single ⟨runs.rely hOthers, by rw [Contract.await, runs.good]; exact hGood⟩)

theorem Watched.work (runs : RunsUnder ip careful contract)
    (hRound : ∀ memory, (contract.await runs.drop_good).Triple (between memory)
      (Worker.run dryRun ip memory) between)
    (h : process.Watched table ip (contract.await runs.drop_good) between) (worker : IpAddr)
    (choice : Nat) (hCareful : process.Careful careful ip (.work worker choice)) :
    (process.step dryRun table (.work worker choice)).Watched table ip
      (contract.await runs.drop_good) between := by
  simp only [step]
  by_cases hIn : worker ∈ table.addrs
  swap
  · simpa only [hIn, if_false] using h
  simp only [hIn, if_true]
  have hOwn := h.own worker hIn
  have hPerform : ∀ (await : Await VipOp) (next : Await.Reply VipOp.Answer await → Loop WorkerMemory)
      (reply : Await.Reply VipOp.Answer await) (after : VipState)
      (answer : await.op.Answer), process.workers worker = .call await next →
      process.state.perform await.op choice = some (answer, after) →
      (careful process.state await.op → machine.await.does process.state await reply after) →
      (process.resume worker after (next reply)).Watched table ip
        (contract.await runs.drop_good) between := by
    intro await next reply after answer hWorker hAnswer hDoes
    have hGood := h.good.perform hAnswer
    have hRest : (next reply).Only (Worker.Own worker) := by
      rw [hWorker] at hOwn
      exact hOwn.2 reply
    by_cases hSame : worker = ip
    · subst hSame
      refine ⟨hGood, resume_own h.own hRest, ?_⟩
      have hSafe := h.safe
      rw [hWorker] at hSafe
      simp only [resume, Function.update_self]
      exact (hSafe process.state .refl).2.2 reply after
        (hDoes (hCareful rfl await.op (by simp only [pending, hWorker, Option.mem_def])))
    · apply h.others runs hSame _ hGood hRest
      apply perform_others _ hAnswer
      rw [hWorker] at hOwn
      exact fun hAddress => hSame (hOwn.1 ip hAddress).symm
  cases hWorker : process.workers worker with
  | done memory =>
      by_cases hSame : worker = ip
      · subst hSame
        refine ⟨h.good, resume_own h.own (Worker.run_own dryRun memory), ?_⟩
        simp only [resume, Function.update_self]
        have hSafe := h.safe
        rw [hWorker] at hSafe
        apply hRound memory process.state
        · rw [Contract.await, runs.good]
          exact h.good
        · exact hSafe process.state .refl
      · exact h.others runs hSame (.refl ip process.state) h.good (Worker.run_own dryRun memory)
  | call await next =>
      cases await with
      | plain op =>
          simp only
          split
          · rename_i answer after hAnswer
            exact hPerform (.plain op) next answer after answer hWorker hAnswer
              fun hTaken => runs.does hTaken hAnswer
          · exact h
      | droppable op =>
          simp only
          split
          · rename_i answer after hAnswer
            exact hPerform (.droppable op) next (some answer) after answer hWorker hAnswer
              fun hTaken => runs.does hTaken hAnswer
          · exact h

theorem Watched.cancel (runs : RunsUnder ip careful contract)
    (h : process.Watched table ip (contract.await runs.drop_good) between) (worker : IpAddr) :
    (process.step dryRun table (.cancel worker)).Watched table ip
      (contract.await runs.drop_good) between := by
  simp only [step]
  by_cases hIn : worker ∈ table.addrs
  swap
  · simpa only [hIn, if_false] using h
  simp only [hIn, if_true]
  have hOwn := h.own worker hIn
  split
  · rename_i op next hWorker
    rw [hWorker] at hOwn
    have hGood := h.good.drop op
    by_cases hSame : worker = ip
    · subst hSame
      refine ⟨hGood, resume_own h.own (hOwn.2 none), ?_⟩
      have hSafe := h.safe
      rw [hWorker] at hSafe
      simp only [resume, Function.update_self]
      apply (hSafe process.state .refl).2.2 none
      simp only [Machine.await, runs.drop]
    · apply h.others runs hSame _ hGood (hOwn.2 none)
      apply drop_others
      exact fun hAddress => hSame (hOwn.1 ip hAddress).symm
  · exact h

theorem Watched.step (runs : RunsUnder ip careful contract)
    (hRound : ∀ memory, (contract.await runs.drop_good).Triple (between memory)
      (Worker.run dryRun ip memory) between)
    (h : process.Watched table ip (contract.await runs.drop_good) between) (event : VipEvent)
    (hCareful : process.Careful careful ip event) :
    (process.step dryRun table event).Watched table ip (contract.await runs.drop_good) between := by
  cases event with
  | work worker choice => exact h.work runs hRound worker choice hCareful
  | cancel worker => exact h.cancel runs worker
  | effect child => exact h.environment runs (childEffect_others ip h.good child) (h.good.childEffect child)
  | finish child result reaped =>
      exact h.environment runs (finish_others ip h.good child result reaped)
        (h.good.finish child result reaped)

/-- The contract holds all along a careful run. -/
theorem Watched.run (runs : RunsUnder ip careful contract)
    (hRound : ∀ memory, (contract.await runs.drop_good).Triple (between memory)
      (Worker.run dryRun ip memory) between)
    (h : process.Watched table ip (contract.await runs.drop_good) between) {events : List VipEvent}
    (hCareful : ∀ i (hi : i < events.length), (Runs.stateAt (VipProcess.step dryRun table) process
      events i).Careful careful ip events[i]) {i : Nat} (hi : i ≤ events.length) :
    (Runs.stateAt (VipProcess.step dryRun table) process events i).Watched table ip
      (contract.await runs.drop_good) between :=
  Runs.stateAt_indexed _ _ (fun _ (state : VipProcess) => state.Watched table ip
    (contract.await runs.drop_good) between) h (fun i hi hWatched => hWatched.step runs hRound _ (hCareful i hi)) i hi

end

/-- A process that starts is watched, if its first memory is as between two rounds. -/
theorem Starts.watched {table : VipTable} {ip : IpAddr} {process : VipProcess}
    {machine : Machine (Await VipOp) (Await.Reply VipOp.Answer) VipState}
    {contract : Contract machine} {between : WorkerMemory → VipState → Prop}
    (h : process.Starts table) (hIp : ip ∈ table.addrs) (hGood : contract.good process.state)
    (hStable : ∀ memory, contract.Stable (between memory))
    (hBetween : ∀ locked, between ⟨false, false, locked, false⟩ process.state) :
    process.Watched table ip contract between := by
  refine ⟨⟨by simp [h.childless], by simp [h.childless, h.settled]⟩, ?_, ?_⟩
  · intro other hOther
    obtain ⟨locked, hWorker⟩ := h.workers other hOther
    rw [hWorker]
    exact trivial
  · obtain ⟨locked, hWorker⟩ := h.workers ip hIp
    rw [hWorker]
    exact fun after hAfter => (hStable _).later hGood hAfter (hBetween locked)

/-! ### A process with one VIP -/

def soleVip : IpAddr := .v4 0xC000021E

def soleTable : VipTable := ⟨[(⟨soleVip, 24⟩, "eth0")], by decide⟩

def soleStart : VipProcess :=
  ⟨⟨fun _ => false, fun _ => false, fun _ => ∅, [], ⟨0, false⟩⟩,
    fun _ => .done ⟨false, false, false, false⟩⟩

theorem soleStart_starts : soleStart.Starts soleTable :=
  ⟨fun _ => rfl, rfl, rfl, fun _ _ => ⟨false, rfl⟩⟩

/-- The worker goes on for some operations, which all succeed. -/
def goesOn (operations : Nat) : List VipEvent := List.replicate operations (.work soleVip 1)

/-- A command succeeds and is reaped. -/
def succeeds (child : Nat) : List VipEvent := [.effect child, .finish child (.exited true) true]

end VipProcess

end KeepAfloat
