import KeepAfloat.Library.Async
import KeepAfloat.Store.State

/-! Child processes that change the kernel. A command can take effect at any moment
between its spawn and its reaping, whatever it reports. A worker binds and unbinds its
VIP with one prefix on one interface, so the address stands for the attachment. The
probes only read and their children are not tracked. -/

namespace KeepAfloat

inductive VipCommand where
  | replaceAddress (ip : IpAddr)
  | deleteAddress (ip : IpAddr)
  | replaceMarker (ip : IpAddr)
  | deleteMarker (ip : IpAddr)
  deriving DecidableEq

def VipCommand.address : VipCommand → IpAddr
  | replaceAddress ip => ip
  | deleteAddress ip => ip
  | replaceMarker ip => ip
  | deleteMarker ip => ip

inductive RunPhase where
  | waitedFor
  | abandoned
  | finished
  deriving DecidableEq

/-- What the waiter of a child answers: an exit status, or an error of the spawn, the
wait, the deadline or the cancellation. -/
inductive CommandResult where
  | exited (success : Bool)
  | failed
  deriving DecidableEq

/-- A child and the waiter that owns it. `result` is read once the waiter is finished. -/
structure Child where
  command : VipCommand
  phase : RunPhase
  effect : Bool
  reaped : Bool
  result : CommandResult
  deriving DecidableEq

/-- Children not yet proven reaped. -/
structure TrackedChildren where
  unsettled : Nat
  lost : Bool
  deriving DecidableEq

namespace TrackedChildren

def begin (tracker : TrackedChildren) : TrackedChildren :=
  { tracker with unsettled := tracker.unsettled + 1 }

def settle (tracker : TrackedChildren) : TrackedChildren :=
  { tracker with unsettled := tracker.unsettled - 1 }

/-- The child's reap failed; it stays counted. -/
def lose (tracker : TrackedChildren) : TrackedChildren := { tracker with lost := true }

def isSettled (tracker : TrackedChildren) : Bool := tracker.unsettled == 0

end TrackedChildren

/-- The sets in which the process tracks its addresses. -/
inductive TrackedSet where
  | bound
  | pendingFirstBind
  | needsRecleanup
  deriving DecidableEq

/-- The part of the kernel that the commands change, and what the process keeps. -/
structure VipState where
  attached : IpAddr → Bool
  marker : IpAddr → Bool
  tracked : TrackedSet → Finset IpAddr
  children : List Child
  tracker : TrackedChildren

namespace VipState

/-- What a command does to the kernel when it takes effect. -/
def takeEffect (state : VipState) : VipCommand → VipState
  | .replaceAddress ip => { state with attached := Function.update state.attached ip true }
  | .deleteAddress ip => { state with attached := Function.update state.attached ip false }
  | .replaceMarker ip => { state with marker := Function.update state.marker ip true }
  | .deleteMarker ip => { state with marker := Function.update state.marker ip false }

/-- A child that is not reaped takes effect. -/
def childEffect (state : VipState) (index : Nat) : VipState :=
  match state.children[index]? with
  | some child =>
      if child.reaped || child.effect then state
      else
        { state.takeEffect child.command with
          children := state.children.set index { child with effect := true } }
  | none => state

/-- The caller stopped waiting before the child finished. -/
def abandon (state : VipState) (index : Nat) : VipState :=
  match state.children[index]? with
  | some child =>
      if child.phase = .waitedFor then
        { state with
          tracker := state.tracker.begin
          children := state.children.set index { child with phase := .abandoned } }
      else state
  | none => state

/-- What the tracker makes of a finished child. -/
def finishedTracker (tracker : TrackedChildren) (phase : RunPhase) (reaped : Bool) :
    TrackedChildren :=
  let counted :=
    match phase, reaped with
    | .abandoned, true => tracker.settle
    | .waitedFor, false => tracker.begin
    | _, _ => tracker
  if reaped then counted else counted.lose

/-- The waiter is done with the child, which is reaped or lost. An exit status comes
with the reaping, and a child that reports success has taken effect. -/
def finish (state : VipState) (index : Nat) (result : CommandResult) (reaped : Bool) : VipState :=
  match state.children[index]? with
  | some child =>
      if child.phase = .finished ∨ (result ≠ .failed ∧ reaped = false) ∨
          (result = .exited true ∧ child.effect = false) then state
      else
        { state with
          tracker := finishedTracker state.tracker child.phase reaped
          children := state.children.set index
            { child with phase := .finished, reaped := reaped, result := result } }
  | none => state

end VipState

/-- What a program of the process can wait for. `authorized` and `observe` stand for
the gates of the worker, which any answer may come from. -/
inductive VipOp where
  | authorized
  | observe
  | contention
  | contains (set : TrackedSet) (ip : IpAddr)
  | insert (set : TrackedSet) (ip : IpAddr)
  | remove (set : TrackedSet) (ip : IpAddr)
  | spawn (command : VipCommand)
  | wait (command : VipCommand) (child : Nat)
  | probeAddress (ip : IpAddr)
  | probeMarker (ip : IpAddr)
  | settled
  | waitSettled
  | submitRelease (ip : IpAddr)
  deriving DecidableEq

namespace VipOp

@[reducible] def Answer : VipOp → Type
  | authorized => Bool
  | observe => Bool
  | contention => Nat
  | contains _ _ => Bool
  | insert _ _ => Unit
  | remove _ _ => Unit
  | spawn _ => Option Nat
  | wait _ _ => CommandResult
  | probeAddress _ => Option Bool
  | probeMarker _ => Option Bool
  | settled => Bool
  | waitSettled => Bool
  | submitRelease _ => Bool

/-- The address that an operation is about. -/
def address : VipOp → Option IpAddr
  | contains _ ip => some ip
  | insert _ ip => some ip
  | remove _ ip => some ip
  | spawn command => some command.address
  | wait command _ => some command.address
  | probeAddress ip => some ip
  | probeMarker ip => some ip
  | submitRelease ip => some ip
  | _ => none

end VipOp

namespace VipState

/-- Perform an operation; `choice` settles what the environment decides. A spawn or a
probe can fail, and a wait blocks until its waiter is finished. -/
def perform (state : VipState) (op : VipOp) (choice : Nat) : Option (op.Answer × VipState) :=
  match op with
  | .authorized => some (choice != 0, state)
  | .observe => some (choice != 0, state)
  | .contention => some (choice, state)
  | .contains set ip => some (decide (ip ∈ state.tracked set), state)
  | .insert set ip => some ((), { state with
      tracked := Function.update state.tracked set (Insert.insert ip (state.tracked set)) })
  | .remove set ip => some ((), { state with
      tracked := Function.update state.tracked set ((state.tracked set).erase ip) })
  | .spawn command =>
      if choice = 0 then some (none, state)
      else
        some (some state.children.length, { state with
          children := state.children ++ [⟨command, .waitedFor, false, false, .failed⟩] })
  | .wait command index =>
      match state.children[index]? with
      | some child =>
          if child.command = command ∧ child.phase = .finished then some (child.result, state)
          else none
      | none => none
  | .probeAddress ip => some (if choice = 0 then none else some (state.attached ip), state)
  | .probeMarker ip => some (if choice = 0 then none else some (state.marker ip), state)
  | .settled => some (state.tracker.isSettled, state)
  | .waitSettled =>
      if choice = 0 then some (false, state)
      else if state.tracker.isSettled then some (true, state) else none
  | .submitRelease _ => some (choice != 0, state)

/-- Dropping a program abandons the child that it waits for. -/
def drop (state : VipState) : VipOp → VipState
  | .wait command index =>
      if (state.children[index]?.map Child.command) = some command then state.abandon index else state
  | _ => state

end VipState

def vipMachine : Async.Machine VipOp VipOp.Answer VipState where
  does state op answer after := ∃ choice, state.perform op choice = some (answer, after)
  drop := VipState.drop

end KeepAfloat
