import Supervisor.SymbolIndex
import Supervisor.Table.Creation
import Supervisor.Table.Dispatch

/-! The kernel: a table, the machine that runs what the table hands out, and the index of the
functions that environments may call. -/

namespace Supervisor

/-- A kernel whose machines are named by values of `μ`. -/
structure Kernel (c : Capacity) (μ : Type) where
  table : Table c
  machine : Option μ
  symbols : SymbolIndex

namespace Kernel

variable {c : Capacity} {μ α : Type}

/-- A kernel that has no machine yet. -/
def new : Kernel c μ := ⟨.new, none, .empty⟩

/-- The way an operation left the kernel. -/
inductive Departure (μ : Type) where
  | enter (machine : μ) (frame : Frame)
  | yield (machine : μ)

abbrev Op (c : Capacity) (μ α : Type) := Effect Error (Kernel c μ) α

/-- An operation on the table. No other operation comes in between its steps. -/
def onTable (op : Table.Op c α) : Op c μ α :=
  Effect.focus (·.table) (fun table k => { k with table }) op

/-- Resets the table. The machine is kept if there is one already. -/
def boot (machine : μ) : Op c μ Unit := do
  onTable Table.reset
  Effect.update fun k => { k with machine := some (k.machine.getD machine) }

/-- The machine that was given first. -/
def theMachine : Op c μ μ := do
  let k ← Effect.state
  match k.machine with
  | some machine => pure machine
  | none => Effect.panic .noMachine

/-- Creates an environment in an address space that ends before `limit`. -/
def create (build : Build) (file : Buffer) (kind : Kind) (limit : UInt64)
    (resolver : Loading.Resolver) : Op c μ Handle :=
  onTable (Table.create build file kind limit resolver)

/-- Creates an environment that the kernel cannot do without: a refusal is a panic. -/
def createOrPanic (build : Build) (file : Buffer) (kind : Kind) (limit : UInt64)
    (resolver : Loading.Resolver) : Op c μ Handle :=
  if file.size = 0 then Effect.panic .emptyBinary
  else do
    match ← Effect.catchRefusal (create build file kind limit resolver) with
    | .ok handle => pure handle
    | .error .invalidExecutable => Effect.panic .binaryRejected
    | .error error => Effect.panic (.cannotAllocate error)

/-- Creates an environment in the memory below the bound for environments. Its pointers are bound
to the kernel's functions. -/
def createInMemory (build : Build) (file : Buffer) (kind : Kind) : Op c μ Handle := do
  let k ← Effect.state
  createOrPanic build file kind Layout.userTop k.symbols.resolver

/-- Runs an environment. A handle that names none is not forgiven. -/
def run (target : Handle) : Op c μ (Departure μ) := do
  let next ← Effect.catchRefusal (onTable (Table.dispatch target))
  let machine ← theMachine
  match next with
  | .ok (.enter frame) => pure (.enter machine frame)
  | .ok .yield => pure (.yield machine)
  | .error error => do
    Effect.log .error s!"env_run: {target} is not runnable: {error}"
    Effect.panic (.notRunnable target)

/-- Destroys an environment. If it was current there is nothing to come back to, and the kernel is
left. -/
def destroy (target : Handle) : Op c μ (Option (Departure μ)) := do
  match ← onTable (Table.destroy target) with
  | .dying => pure none
  | .releasedCurrent => do
    let machine ← theMachine
    pure (some (.yield machine))

/-- The first step of an exit: whose exit it is. Other operations may come before the second step. -/
def beginExit : Op c μ Handle := do
  match ← onTable Table.currentHandle with
  | some handle => pure handle
  | none => do
    Effect.log .error Panic.nothingToExit.message
    Effect.panic .nothingToExit

/-- The second step of an exit: the environment is destroyed, which must leave the kernel. -/
def finishExit (current : Handle) : Op c μ (Departure μ) := do
  match ← Effect.catchRefusal (destroy current) with
  | .ok (some departure) => pure departure
  | .ok none => Effect.panic (.keptRunning current)
  | .error error => Effect.panic (.cannotDestroy current error)

def exitCurrent : Op c μ (Departure μ) := do
  let current ← beginExit
  finishExit current

/-- Saves the frame of the current environment and leaves the kernel. -/
def yieldCurrent (frame : Frame) : Op c μ (Departure μ) := do
  let saved ← onTable (Table.editCurrentFrame fun _ => frame)
  if saved then do
    let machine ← theMachine
    pure (.yield machine)
  else do
    Effect.log .error Panic.nothingToYield.message
    Effect.panic .nothingToYield

/-- Replaces the index of functions by that of an image and gives the number of functions. An
image that is refused leaves the index as it is. -/
def loadSymbols (file : Buffer) : Op c μ (Except Elf.Error Nat) := do
  match ← Effect.attempt (SymbolIndex.ofImage file) with
  | .error error => pure (.error error)
  | .ok symbols => do
    Effect.update fun k => { k with symbols }
    pure (.ok symbols.count)

end Kernel

end Supervisor
