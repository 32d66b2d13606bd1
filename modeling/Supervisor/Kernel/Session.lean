import Supervisor.Device.DescriptorTable
import Supervisor.Kernel.Basic
import Supervisor.Table.Command
import Supervisor.Table.Workload

/-! Sessions: a list of commands given to a kernel, with a report on each of them up to the first
panic. -/

namespace Supervisor.Kernel

variable {c : Capacity} {μ α : Type}

inductive Command (μ : Type) where
  | table (command : Table.Command)
  | currentEnvironment
  | slotContent (slot : Nat)
  | capacity
  | fill (rounds : Nat) (parent : Handle) (kind : Kind)
  | churn (rounds : Nat) (parent : Handle) (kind : Kind)
  | boot (machine : μ)
  /-- Boots and sets up the descriptor table. -/
  | start (machine : μ)
  | createOrPanic (file : Buffer) (kind : Kind) (limit : UInt64) (resolver : Loading.Resolver)
  | createInMemory (file : Buffer) (kind : Kind)
  | loadSymbols (file : Buffer)
  | run (target : Handle)
  | destroy (target : Handle)
  | exitCurrent
  /-- The current environment yields with its frame changed, or with a changed zero frame. -/
  | yieldCurrent (edit : Frame → Frame)

inductive Answer (μ : Type) where
  | table (answer : Table.Answer)
  | done
  | environment (found : Option Environment)
  | number (n : Nat)
  | issued (handle : Handle)
  | progress (p : Table.Progress)
  | hardware (events : List Device.Event)
  | symbols (count : Except Elf.Error Nat)
  | departed (departure : Departure μ)

namespace Command

def perform (build : Build) : Command μ → Op c μ (Answer μ)
  | table command => do
    let answer ← onTable (command.perform build)
    return .table answer
  | currentEnvironment => do
    let found ← onTable Table.currentEnvironment
    return .environment found
  | slotContent slot => do
    let k ← Effect.state
    return .environment (k.table.get? slot)
  | capacity => do
    let k ← Effect.state
    return .number k.table.capacity
  | fill rounds parent kind => do
    let p ← Effect.quietly (onTable (Table.fill build parent kind .start rounds))
    return .progress p
  | churn rounds parent kind => do
    let p ← Effect.quietly (onTable (Table.churn build parent kind .start rounds))
    return .progress p
  | boot machine => do
    Kernel.boot machine
    return .done
  | start machine => do
    Kernel.boot machine
    return .hardware Device.DescriptorTable.load
  | createOrPanic file kind limit resolver => do
    let handle ← Kernel.createOrPanic build file kind limit resolver
    return .issued handle
  | createInMemory file kind => do
    let handle ← Kernel.createInMemory build file kind
    return .issued handle
  | loadSymbols file => do
    let count ← Kernel.loadSymbols file
    return .symbols count
  | run target => do
    let departure ← Kernel.run target
    return .departed departure
  | destroy target => do
    match ← Kernel.destroy target with
    | none => return .done
    | some departure => return .departed departure
  | exitCurrent => do
    let departure ← Kernel.exitCurrent
    return .departed departure
  | yieldCurrent edit => do
    let current ← onTable Table.currentEnvironment
    let departure ← Kernel.yieldCurrent (edit ((current.map (·.frame)).getD .zero))
    return .departed departure

end Command

/-- What can be seen of a table from outside. -/
structure View where
  current : Option Handle
  freeCount : Option Nat
  live : List (Nat × Environment)

def View.of (t : Table c) : View where
  current := (t.current.bind t.get?).map (·.handle)
  freeCount := t.freeCount?
  live := t.live

/-- How a command ended, what it did apart from that, and the table after it. -/
structure Report (μ : Type) where
  result : Except (Stop Error) (Answer μ)
  trace : Trace
  view : View

def step (build : Build) (k : Kernel c μ) (command : Command μ) : Report μ × Kernel c μ :=
  match command.perform build ⟨k, .empty⟩ with
  | .ok answer s => (⟨.ok answer, s.trace, .of s.state.table⟩, s.state)
  | .error stop s => (⟨.error stop, s.trace, .of s.state.table⟩, s.state)

namespace Report

def halts (r : Report μ) : Bool :=
  match r.result with
  | .error (.panicked _) => true
  | _ => false

end Report

/-- Carries out commands in order, up to the first that panics. -/
def session (build : Build) (k : Kernel c μ) : List (Command μ) → List (Report μ)
  | [] => []
  | command :: rest =>
    let (report, next) := step build k command
    report :: if report.halts then [] else session build next rest

end Supervisor.Kernel
