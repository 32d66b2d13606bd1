import Supervisor.Table.Basic

/-! Allocation: a slot comes off the head of the free list, and a stack is laid below the one before
it. -/

namespace Supervisor.Table

variable {c : Capacity}

/-- The place of the stack after the one that ends at an address. There is none without room for a
whole stack. -/
def nextStackTop? (stackTop : UInt64) : Option UInt64 :=
  if Layout.stackSize ≤ stackTop then some (stackTop - Layout.stackSize) else none

/-- Gives a slot and a stack to a new environment. -/
def allocate (build : Build) (parent : Handle) (kind : Kind) : Op c Handle := do
  let t ← Effect.state
  match t.freeHead with
  | none => Effect.refuse .outOfEnvironments
  | some slot =>
    match nextStackTop? t.stackTop with
    | none => Effect.refuse .outOfMemory
    | some stackTop => do
      let old ← slotAt slot
      let generation ← Effect.orFault (old.handle.nextGeneration c.size)
      let handle := Handle.encode generation slot
      let status ← Effect.orPanic (old.status.transition .runnable)
      setSlot slot {
        frame := .initial (.initial build kind) t.stackTop
        link := none
        handle, parent, kind, status
        runs := 0 }
      Effect.update fun t => { t with freeHead := old.link, stackTop }
      logAs s!"new env {handle}"
      return handle

end Supervisor.Table
