import Supervisor.SymbolIndex

/-! Two indexes side by side: one that is filled, and that of the running kernel, which is only ever
replaced as a whole. -/

namespace Supervisor

structure SymbolRegistry where
  own : SymbolIndex
  kernel : SymbolIndex

namespace SymbolRegistry

def empty : SymbolRegistry := ⟨.empty, .empty⟩

inductive Command where
  | add (s : FunctionSymbol)
  | loadOwn (file : Buffer)
  | find (address : UInt64)
  | findFunction (name : String)
  | resolve (name : String)
  | count
  | loadKernel (file : Buffer)
  | kernelFind (address : UInt64)
  | kernelFindFunction (name : String)

inductive Answer where
  | loaded (count : Nat)
  | size (count : Nat) (isEmpty : Bool)
  | location (found : Option (FunctionSymbol × UInt64))
  | address (found : Option UInt64)

abbrev Op (α : Type) := Effect Elf.Error SymbolRegistry α

/-- The index of an image, with the log records of reading it. -/
def readImage (file : Buffer) : Op SymbolIndex := do
  match ← Effect.attempt (SymbolIndex.ofImage file) with
  | .ok index => pure index
  | .error error => Effect.refuse error

namespace Command

/-- Carries out a command. An image that is refused leaves both indexes as they are. -/
def perform : Command → Op Answer
  | add s => do
    Effect.update fun r => { r with own := r.own.add s }
    let r ← Effect.state
    return .loaded r.own.count
  | loadOwn file => do
    let index ← readImage file
    Effect.update fun r => { r with own := index }
    return .loaded index.count
  | find address => do
    let r ← Effect.state
    return .location (r.own.find? address)
  | findFunction name => do
    let r ← Effect.state
    return .address (r.own.findFunction? name)
  | resolve name => do
    let r ← Effect.state
    return .address (r.own.resolver name)
  | count => do
    let r ← Effect.state
    return .size r.own.count r.own.isEmpty
  | loadKernel file => do
    let index ← readImage file
    Effect.update fun r => { r with kernel := index }
    return .loaded index.count
  | kernelFind address => do
    let r ← Effect.state
    return .location (r.kernel.find? address)
  | kernelFindFunction name => do
    let r ← Effect.state
    return .address (r.kernel.findFunction? name)

end Command

/-- The result of a command with its log records. -/
structure Report where
  result : Except (Stop Elf.Error) Answer
  log : Array Log.Record

def step (r : SymbolRegistry) (command : Command) : Report × SymbolRegistry :=
  match command.perform ⟨r, .empty⟩ with
  | .ok answer s => (⟨.ok answer, s.trace.log⟩, s.state)
  | .error stop s => (⟨.error stop, s.trace.log⟩, s.state)

def session (r : SymbolRegistry) : List Command → List Report
  | [] => []
  | command :: rest =>
    let (report, next) := step r command
    report :: session next rest

end SymbolRegistry

end Supervisor
