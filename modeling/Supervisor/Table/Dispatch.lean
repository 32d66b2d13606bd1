import Supervisor.Table.Release

/-! Dispatch: making an environment current. Dying environments are released on the way. -/

namespace Supervisor.Table

variable {c : Capacity}

/-- What to do after a dispatch. -/
inductive Dispatch where
  /-- The target goes on from its saved frame. -/
  | enter (frame : Frame)
  /-- There is nothing to run, and the scheduler decides what comes next. -/
  | yield
deriving DecidableEq

/-- Takes the processor from the current environment. A dying one is released and its slot given
back; a running one can run again later; any other is left as it is. -/
def preempt : Op c (Option Nat) := do
  let t ← Effect.state
  match t.current with
  | none => pure none
  | some slot => do
    let e ← slotAt slot
    match e.status with
    | .dying => do
      releaseSlot slot
      pure (some slot)
    | .running => do
      moveTo slot .runnable
      pure none
    | _ => pure none

/-- Makes the environment in a slot current and running. -/
def enterSlot (slot : Nat) : Op c Dispatch := do
  let e ← slotAt slot
  Effect.log .debug s!"envrun {e.status}: {slot}"
  Effect.update fun t => { t with current := some slot }
  moveTo slot .running
  changeSlot slot fun e => { e with runs := e.runs + 1 }
  return .enter e.frame

/-- Runs the environment that a handle names, or releases it if it is dying. -/
def dispatch (target : Handle) : Op c Dispatch := do
  let slot ← resolve target false
  let released ← preempt
  if released = some slot then
    return .yield
  else do
    let e ← slotAt slot
    if e.status = .dying then do
      releaseSlot slot
      return .yield
    else
      enterSlot slot

end Supervisor.Table
