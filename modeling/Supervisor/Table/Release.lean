import Supervisor.Table.Lookup

/-! Releasing and destroying environments. One that is not current is only marked when it is
destroyed. -/

namespace Supervisor.Table

variable {c : Capacity}

/-- Puts a slot back on the free list. If it was current, nothing is current any more. The record
keeps the handle, so that the slot's next environment gets another. -/
def releaseSlot (slot : Nat) : Op c Unit := do
  let e ← slotAt slot
  logAs s!"free env {e.handle}"
  moveTo slot .free
  let t ← Effect.state
  changeSlot slot fun e => { e with link := t.freeHead }
  Effect.update fun t =>
    { t with
      freeHead := some slot
      current := if t.current = some slot then none else t.current }

/-- Releases the environment that a handle names, whatever it is doing. -/
def release (h : Handle) : Op c Unit := do
  let slot ← resolve h false
  releaseSlot slot

/-- How an environment was destroyed. -/
inductive Destroyed where
  /-- It is marked, and is released when it is about to run or to give up the processor. -/
  | dying
  /-- It was current and is released. -/
  | releasedCurrent
deriving DecidableEq

/-- Marks the environment in a slot as dying, if it is not already. -/
def markDying (slot : Nat) : Op c Unit := do
  let e ← slotAt slot
  if e.status = .dying then pure () else moveTo slot .dying

def destroy (h : Handle) : Op c Destroyed := do
  let slot ← resolve h false
  markDying slot
  let t ← Effect.state
  if t.current = some slot then do
    releaseSlot slot
    return .releasedCurrent
  else
    return .dying

end Supervisor.Table
