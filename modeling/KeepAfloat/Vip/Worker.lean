import KeepAfloat.Library.Runs
import KeepAfloat.Vip.LocalVip

/-! The reconciliation workers of a process, one for each configured VIP, and the
environment that they run in. What a worker decides on (freshness, health, applied
state, takeover delay) is observed through gates with any answer; what it does to the
kernel and to the tracking is modelled step by step. -/

namespace KeepAfloat

open Async (Prog Await)

abbrev Loop (Value : Type) := Prog (Await VipOp) (Await.Reply VipOp.Answer) Value

/-- What a worker remembers from one round to the next. -/
structure WorkerMemory where
  armed : Bool
  witness : Bool
  cleanupNeeded : Bool
  assignment : Bool
  deriving DecidableEq

namespace Worker

/-- A gate that is asked only under a condition. -/
def observeIf (condition : Bool) : Loop Bool :=
  if condition then (Vip.perform .observe).lift else return false

/-- Acknowledge a release, unless a killed command may still change the address. -/
def maybePublishRelease (ip : IpAddr) : Loop Unit := do
  if ← Vip.settled.lift then
    if ← observeIf true then
      let _ ← (Vip.perform (.submitRelease ip)).lift
      return ()
    else return ()
  else return ()

/-- Remove the address and acknowledge the release that is owed. -/
def cleanUp (dryRun : Bool) (ip : IpAddr) (armed assignment : Bool) : Loop WorkerMemory := do
  let settledBefore ← Vip.settled.lift
  let failures ← (LocalVip.unbindAll dryRun [ip]).lift
  if failures.isEmpty then
    let again ← (Vip.contains .needsRecleanup ip).lift
    if armed && settledBefore && assignment then
      maybePublishRelease ip
      return ⟨armed, false, again, assignment⟩
    else return ⟨armed, false, again, assignment⟩
  else return ⟨armed, false, true, assignment⟩

/-- A binding that was not completed is kept only while an earlier one is retained. -/
def keep (armed witness assignment : Bool) : Loop WorkerMemory := do
  let retained ← observeIf witness
  return ⟨armed, witness, !retained, assignment⟩

/-- Bind, under an authorization that may be lost at any await. -/
def bind (dryRun : Bool) (ip : IpAddr) (armed witness assignment : Bool) : Loop WorkerMemory := do
  match ← (LocalVip.bindKernel dryRun ip).cancellable with
  | some (.ok (some _)) =>
      if ← observeIf true then return ⟨armed, true, false, assignment⟩
      else keep armed witness assignment
  | some (.error _) => return ⟨armed, witness, true, assignment⟩
  | some (.ok none) => keep armed witness assignment
  | none => keep armed witness assignment

/-- Bind if there is a candidate that is ready. -/
def acquire (dryRun : Bool) (ip : IpAddr) (armed witness assignment : Bool) :
    Loop WorkerMemory := do
  if ← observeIf true then
    if ← observeIf true then bind dryRun ip armed witness assignment
    else
      let owed ← observeIf (!witness)
      return ⟨armed, witness, owed, assignment⟩
  else return ⟨armed, witness, false, assignment⟩

/-- One round of the worker of a VIP. -/
def run (dryRun : Bool) (ip : IpAddr) (memory : WorkerMemory) : Loop WorkerMemory := do
  let arms ← observeIf (!memory.armed)
  let retained ← observeIf memory.witness
  let readable ← observeIf true
  let assigned ← observeIf readable
  let shown ← observeIf (readable && memory.witness)
  let armed := memory.armed || arms
  let assignment := if readable then assigned else memory.assignment
  let owed ← observeIf (readable && armed && !memory.witness && assignment)
  if memory.cleanupNeeded || (memory.witness && !retained) ||
      (readable && memory.witness && !shown) || owed then
    cleanUp dryRun ip armed assignment
  else acquire dryRun ip armed memory.witness assignment

end Worker

/-- The running workers over the state that they share. -/
structure VipProcess where
  state : VipState
  workers : IpAddr → Loop WorkerMemory

/-- A worker goes on, a bind is dropped, a child takes effect or its waiter is done. -/
inductive VipEvent where
  | work (ip : IpAddr) (choice : Nat)
  | cancel (ip : IpAddr)
  | effect (child : Nat)
  | finish (child : Nat) (result : CommandResult) (reaped : Bool)

namespace VipProcess

/-- The worker of `ip` stands before this program. -/
def resume (process : VipProcess) (ip : IpAddr) (state : VipState) (rest : Loop WorkerMemory) :
    VipProcess :=
  ⟨state, Function.update process.workers ip rest⟩

variable (dryRun : Bool) (table : VipTable)

/-- What an event makes of the process; one that cannot happen changes nothing. -/
def step (process : VipProcess) : VipEvent → VipProcess
  | .work ip choice =>
      if ip ∈ table.addrs then
        match process.workers ip with
        | .done memory => process.resume ip process.state (Worker.run dryRun ip memory)
        | .call (.plain op) next =>
            match process.state.perform op choice with
            | some (answer, after) => process.resume ip after (next answer)
            | none => process
        | .call (.droppable op) next =>
            match process.state.perform op choice with
            | some (answer, after) => process.resume ip after (next (some answer))
            | none => process
      else process
  | .cancel ip =>
      if ip ∈ table.addrs then
        match process.workers ip with
        | .call (.droppable op) next => process.resume ip (process.state.drop op) (next none)
        | _ => process
      else process
  | .effect child => { process with state := process.state.childEffect child }
  | .finish child result reaped =>
      { process with state := process.state.finish child result reaped }

/-- No command has run yet. A worker whose first look at the tracking finds it locked
cleans up. -/
structure Starts (process : VipProcess) : Prop where
  untracked : ∀ set, process.state.tracked set = ∅
  childless : process.state.children = []
  settled : process.state.tracker = ⟨0, false⟩
  workers : ∀ ip ∈ table.addrs, ∃ locked, process.workers ip = .done ⟨false, false, locked, false⟩

end VipProcess

end KeepAfloat
