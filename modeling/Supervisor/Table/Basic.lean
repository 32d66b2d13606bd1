import Supervisor.Effect
import Supervisor.Environment

/-! The table of environments. Slots and links are plain numbers, and reading a slot that does not
exist panics. -/

namespace Supervisor

structure Table (c : Capacity) where
  slots : Vector Environment c.size
  freeHead : Option Nat
  current : Option Nat
  /-- Where the stack of the next environment ends. -/
  stackTop : UInt64

namespace Table

variable {c : Capacity}

/-- The table with all slots free and listed in ascending order. -/
def new : Table c where
  slots := Vector.ofFn fun i =>
    { Environment.unused with link := if i.val + 1 < c.size then some (i.val + 1) else none }
  freeHead := some 0
  current := none
  stackTop := Layout.stackTop

def capacity (_ : Table c) : Nat := c.size

/-- The environment in a slot, if there is such a slot. -/
def get? (t : Table c) (slot : Nat) : Option Environment := t.slots[slot]?

/-- The slots that a walk along the links passes, at most `fuel` of them. There is no answer when
the walk goes on after that or leaves the table. -/
def walk (t : Table c) : Nat → Option Nat → Option (List Nat)
  | _, none => some []
  | 0, some _ => none
  | fuel + 1, some slot =>
    match t.get? slot with
    | none => none
    | some e => (t.walk fuel e.link).map (slot :: ·)

/-- The free list. A walk that is longer than the table passes a slot twice and never ends, so
there is no answer exactly when the links run in a circle or out of the table. -/
def freeList? (t : Table c) : Option (List Nat) := t.walk c.size t.freeHead

def freeCount? (t : Table c) : Option Nat := t.freeList?.map List.length

/-- The occupied slots in ascending order, each with its environment. -/
def live (t : Table c) : List (Nat × Environment) :=
  (t.slots.toList.zipIdx.filter fun entry => !entry.1.isFree).map fun entry => (entry.2, entry.1)

abbrev Op (c : Capacity) (α : Type) := Effect Error (Table c) α

/-- Back to the table that all begins with. -/
def reset : Op c Unit := Effect.update fun _ => new

/-- The environment in a slot. A slot outside the table is a panic. -/
def slotAt (slot : Nat) : Op c Environment := do
  let t ← Effect.state
  match t.get? slot with
  | some e => pure e
  | none => Effect.panic (.fault (.outOfBounds c.size slot))

/-- Replaces the environment in a slot. A slot outside the table is left alone; every caller has
read the slot before. -/
def setSlot (slot : Nat) (e : Environment) : Op c Unit :=
  Effect.update fun t => { t with slots := t.slots.setIfInBounds slot e }

def changeSlot (slot : Nat) (change : Environment → Environment) : Op c Unit := do
  let e ← slotAt slot
  setSlot slot (change e)

/-- Takes a slot to another status. -/
def moveTo (slot : Nat) (status : Status) : Op c Unit := do
  let e ← slotAt slot
  let status ← Effect.orPanic (e.status.transition status)
  setSlot slot { e with status }

def currentEnvironment : Op c (Option Environment) := do
  let t ← Effect.state
  match t.current with
  | none => pure none
  | some slot => do
    let e ← slotAt slot
    pure (some e)

def currentHandle : Op c (Option Handle) := do
  let e ← currentEnvironment
  return e.map (·.handle)

/-- Makes a log record that starts with the current handle, or the reserved one. -/
def logAs (message : String) : Op c Unit := do
  let current ← currentHandle
  Effect.log .info s!"[{current.getD .reserved}] {message}"

end Table

end Supervisor
