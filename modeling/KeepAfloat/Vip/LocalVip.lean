import KeepAfloat.Vip.Process
import KeepAfloat.Vip.Takeover

/-! Binding and unbinding of one address, as programs that can be dropped at every
await. Announcements, hooks and log lines change no address and are left out. -/

namespace KeepAfloat

open Async (Prog)

abbrev Vip (Value : Type) := Prog VipOp VipOp.Answer Value

/-- Why an effect failed: a command that could not be run to its end, or one that
reports or leaves something wrong. -/
inductive EffectError where
  | io (operation : String)
  | failed (reason : String)
  deriving DecidableEq, Repr

def EffectError.isIo : EffectError → Bool
  | io _ => true
  | failed _ => false

namespace Vip

def perform (op : VipOp) : Vip op.Answer := Prog.perform op

def authorized : Vip Bool := perform .authorized

def contains (set : TrackedSet) (ip : IpAddr) : Vip Bool := perform (.contains set ip)

def insert (set : TrackedSet) (ip : IpAddr) : Vip Unit := perform (.insert set ip)

def remove (set : TrackedSet) (ip : IpAddr) : Vip Unit := perform (.remove set ip)

def insertIf (condition : Bool) (set : TrackedSet) (ip : IpAddr) : Vip Unit :=
  if condition then insert set ip else pure ()

def removeIf (condition : Bool) (set : TrackedSet) (ip : IpAddr) : Vip Unit :=
  if condition then remove set ip else pure ()

def settled : Vip Bool := perform .settled

/-- Run a tracked command and wait for it. -/
def status (command : VipCommand) : Vip CommandResult := do
  match ← perform (.spawn command) with
  | none => return .failed
  | some child => perform (.wait command child)

end Vip

namespace OwnershipMarker

def replace (ip : IpAddr) : Vip (Except EffectError Unit) := do
  match ← Vip.status (.replaceMarker ip) with
  | .failed => return .error (.io "VIP operation=marker_replace")
  | .exited true => return .ok ()
  | .exited false => return .error (.failed "ip route marker replace failed")

def delete (ip : IpAddr) : Vip (Except EffectError Unit) := do
  match ← Vip.status (.deleteMarker ip) with
  | .failed => return .error (.io "ip route marker del")
  | .exited true => return .ok ()
  | .exited false =>
      match ← Vip.perform (.probeMarker ip) with
      | none => return .error (.failed "ip route marker del failed and presence verification failed")
      | some true => return .error (.failed "ip route marker del failed and the marker is still present")
      | some false => return .ok ()

def removeAfterFailedFirstBind (ip : IpAddr) : Vip (Except EffectError Unit) := do
  match ← Vip.perform (.probeAddress ip) with
  | some false =>
      match ← delete ip with
      | .ok () => return .ok ()
      | .error _ => return .error (.failed "address is absent but ownership marker cleanup failed")
  | _ => return .error (.failed "address absence could not be proven, ownership marker retained")

end OwnershipMarker

namespace LocalVip

/-- The end of a bind: forget the pending first bind while still authorized. The lock
may be contended for any number of rounds. -/
def finishRounds (ip : IpAddr) (firstBind : Bool) : Nat → Vip Bool
  | 0 => do
      if ← Vip.authorized then
        if firstBind then
          Vip.remove .pendingFirstBind ip
          return true
        else return true
      else return false
  | rounds + 1 => do
      if ← Vip.authorized then
        if firstBind then finishRounds ip firstBind rounds else return true
      else return false

def finishBind (ip : IpAddr) (firstBind : Bool) : Vip (Except EffectError (Option Bool)) := do
  let rounds ← Vip.perform .contention
  if ← finishRounds ip firstBind rounds then return .ok (some firstBind) else return .ok none

/-- The address command failed. A failed reassert keeps its tracking and its marker; a
failed first bind is forgotten once the address is proven absent. -/
def failBind (ip : IpAddr) (firstBind : Bool) (error : EffectError) :
    Vip (Except EffectError (Option Bool)) := do
  if firstBind then
    match ← OwnershipMarker.removeAfterFailedFirstBind ip with
    | .error _ => return .error error
    | .ok () =>
        Vip.remove .bound ip
        Vip.remove .pendingFirstBind ip
        return .error error
  else return .error error

/-- The marker command failed. An I/O error may mean that the marker reached the
kernel, so that cleanup stays armed. -/
def failMarker (ip : IpAddr) (wasPending firstBind : Bool) (error : EffectError) :
    Vip (Except EffectError (Option Bool)) := do
  if firstBind then
    if wasPending || error.isIo then
      Vip.insert .pendingFirstBind ip
      return .error error
    else
      Vip.remove .bound ip
      Vip.remove .pendingFirstBind ip
      return .error error
  else return .error error

/-- The marker is in place; attach the address. -/
def bindAddress (ip : IpAddr) (firstBind : Bool) : Vip (Except EffectError (Option Bool)) := do
  match ← Vip.status (.replaceAddress ip) with
  | .exited true => finishBind ip firstBind
  | .exited false => failBind ip firstBind (.failed "ip addr replace failed")
  | .failed => failBind ip firstBind (.io "VIP operation=address_replace")

/-- Marker before address. -/
def bindMarked (ip : IpAddr) (wasPending firstBind : Bool) :
    Vip (Except EffectError (Option Bool)) := do
  match ← OwnershipMarker.replace ip with
  | .error error => failMarker ip wasPending firstBind error
  | .ok () =>
      if ← Vip.authorized then bindAddress ip firstBind else return .ok none

def isFirstBind (wasPending : Bool) (ip : IpAddr) : Vip Bool := do
  if wasPending then return true
  else
    let bound ← Vip.contains .bound ip
    return !bound

/-- Ownership is recorded before the command, so that a program that is dropped leaves
the address to cleanup. -/
def bindTracked (dryRun : Bool) (ip : IpAddr) (wasPending firstBind : Bool) :
    Vip (Except EffectError (Option Bool)) := do
  Vip.insert .bound ip
  Vip.insertIf firstBind .pendingFirstBind ip
  if ← Vip.authorized then
    if dryRun then finishBind ip firstBind else bindMarked ip wasPending firstBind
  else return .ok none

def bindKernel (dryRun : Bool) (ip : IpAddr) : Vip (Except EffectError (Option Bool)) := do
  if ← Vip.authorized then
    let wasPending ← Vip.contains .pendingFirstBind ip
    let firstBind ← isFirstBind wasPending ip
    if ← Vip.authorized then bindTracked dryRun ip wasPending firstBind else return .ok none
  else return .ok none

/-- A failed delete stands only if the address is on no interface. -/
def verifyDeleteResult (ip : IpAddr) (success : Bool) : Vip (Except EffectError Unit) := do
  if success then return .ok ()
  else
    match ← Vip.perform (.probeAddress ip) with
    | none => return .error (.failed "ip addr del failed and presence verification failed")
    | some true => return .error (.failed "ip addr del failed and the address is still present")
    | some false => return .ok ()

/-- Address before marker. -/
def deleteKernel (ip : IpAddr) : Vip (Except EffectError Unit) := do
  match ← Vip.status (.deleteAddress ip) with
  | .failed => return .error (.io "ip addr del")
  | .exited success =>
      match ← verifyDeleteResult ip success with
      | .error error => return .error error
      | .ok () => OwnershipMarker.delete ip

def isTracked (ip : IpAddr) : Vip Bool := do
  if ← Vip.contains .bound ip then return true else Vip.contains .needsRecleanup ip

/-- The address is gone. If a killed writer may still bring it back, that is recorded
before the tracking goes. -/
def forget (ip : IpAddr) (settled : Bool) : Vip (Except EffectError Unit) := do
  Vip.insertIf (!settled) .needsRecleanup ip
  Vip.remove .bound ip
  Vip.remove .pendingFirstBind ip
  Vip.removeIf settled .needsRecleanup ip
  return .ok ()

def unbind (dryRun : Bool) (ip : IpAddr) : Vip (Except EffectError Unit) := do
  let settled ← Vip.settled
  if ← isTracked ip then
    if dryRun then forget ip settled
    else
      match ← deleteKernel ip with
      | .error error => return .error error
      | .ok () => forget ip settled
  else return .ok ()

/-- Immediate retries recover from interrupted commands. -/
def unbindRetrying (dryRun : Bool) (ip : IpAddr) : Nat → Vip (Except EffectError Unit)
  | 0 => unbind dryRun ip
  | retries + 1 => do
      match ← unbind dryRun ip with
      | .ok () => return .ok ()
      | .error _ => unbindRetrying dryRun ip retries

/-- Remove every listed address, and answer the ones that could not be. -/
def unbindAll (dryRun : Bool) : List IpAddr → Vip (List IpAddr)
  | [] => return []
  | ip :: rest => do
      match ← unbindRetrying dryRun ip (shutdownUnbindAttempts - 1) with
      | .ok () => unbindAll dryRun rest
      | .error _ => do
          let failures ← unbindAll dryRun rest
          return ip :: failures

/-- Stop without leaving an address behind: wait for killed writers, remove every
address, and answer the failures and whether releases may be acknowledged. -/
def releaseLocalVips (dryRun : Bool) (table : List IpAddr) : Vip (List IpAddr × Bool) := do
  let settledBefore ← Vip.perform .waitSettled
  let failures ← unbindAll dryRun table
  if settledBefore then
    let settledAfter ← Vip.settled
    return (failures, settledAfter)
  else return (failures, false)

end LocalVip

end KeepAfloat
