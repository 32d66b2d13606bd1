import Supervisor.Table.Basic

/-! Lookup by handle. The reserved handle stands for the current environment; any other must be
stored in the slot that it names. -/

namespace Supervisor.Table

variable {c : Capacity}

/-- The slot that a handle names. -/
def resolveSlot (h : Handle) : Op c Nat :=
  if h.isReserved then do
    let t ← Effect.state
    match t.current with
    | some slot => pure slot
    | none => Effect.refuse .badEnvironment
  else do
    let slot ← Effect.orFault (h.slot c.size)
    let e ← slotAt slot
    if e.isFree ∨ e.handle ≠ h then Effect.refuse .badEnvironment else pure slot

/-- Refuses a slot that is neither the current environment nor a child of it. -/
def checkPermission (slot : Nat) : Op c Unit := do
  match ← currentHandle with
  | none => Effect.refuse .badEnvironment
  | some caller => do
    let e ← slotAt slot
    if e.handle ≠ caller ∧ e.parent ≠ caller then Effect.refuse .badEnvironment else pure ()

/-- The slot that a handle names, if the current environment may reach it. -/
def resolve (h : Handle) (checked : Bool) : Op c Nat := do
  let slot ← resolveSlot h
  if checked then checkPermission slot
  return slot

def lookup (h : Handle) (checked : Bool) : Op c Environment := do
  let slot ← resolve h checked
  slotAt slot

/-- Changes the status of the environment in a slot. A slot is never freed this way, since it
would not come back on the free list. -/
def setStatusOf (slot : Nat) (status : Status) : Op c Unit :=
  if status = .free then Effect.panic .freeByStatus else moveTo slot status

def setStatus (h : Handle) (checked : Bool) (status : Status) : Op c Unit := do
  let slot ← resolve h checked
  setStatusOf slot status

/-- Changes the status of the current environment. Says whether there is one. -/
def setCurrentStatus (status : Status) : Op c Bool := do
  let t ← Effect.state
  match t.current with
  | none => pure false
  | some slot => do
    setStatusOf slot status
    pure true

/-- Changes the saved frame of the environment that a handle names. -/
def editFrame (h : Handle) (checked : Bool) (edit : Frame → Frame) : Op c Unit := do
  let slot ← resolve h checked
  changeSlot slot fun e => { e with frame := edit e.frame }

/-- Changes the saved frame of the current environment. Says whether there is one. -/
def editCurrentFrame (edit : Frame → Frame) : Op c Bool := do
  let t ← Effect.state
  match t.current with
  | none => pure false
  | some slot => do
    changeSlot slot fun e => { e with frame := edit e.frame }
    pure true

end Supervisor.Table
