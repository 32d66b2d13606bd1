import Supervisor.Log
import Supervisor.Memory
import Supervisor.Panic

/-! Operations on a state, with the trace that they leave. What was done before a refusal or a panic
stays done. -/

namespace Supervisor

/-- What an operation did apart from changing its state. -/
structure Trace where
  writes : Array Write
  log : Array Log.Record

namespace Trace

def empty : Trace := ⟨#[], #[]⟩

end Trace

/-- A state together with the trace of what led to it. -/
structure Traced (σ : Type) where
  state : σ
  trace : Trace

/-- An operation on a state `σ` that may be refused with an error of type `ε`. -/
abbrev Effect (ε σ α : Type) := EStateM (Stop ε) (Traced σ) α

namespace Effect

variable {ε δ σ τ α : Type}

def refuse (error : ε) : Effect ε σ α := throw (.refused error)

def panic (cause : Panic) : Effect ε σ α := throw (.panicked cause)

/-- Goes on with a computed result, or ends as the computation did. -/
def lift : Except (Stop ε) α → Effect ε σ α
  | .ok a => pure a
  | .error stop => throw stop

/-- Goes on with a computed result, or panics with the cause found. -/
def orPanic : Except Panic α → Effect ε σ α
  | .ok a => pure a
  | .error cause => panic cause

/-- Goes on with a computed result, or panics with the fault found. -/
def orFault : Except Fault α → Effect ε σ α
  | .ok a => pure a
  | .error fault => panic (.fault fault)

def state : Effect ε σ σ := fun s => .ok s.state s

def update (change : σ → σ) : Effect ε σ Unit := fun s => .ok () { s with state := change s.state }

def log (level : Log.Level) (message : String) : Effect ε σ Unit := fun s =>
  .ok () { s with trace := { s.trace with log := s.trace.log.push ⟨level, message⟩ } }

def write (w : Write) : Effect ε σ Unit := fun s =>
  .ok () { s with trace := { s.trace with writes := s.trace.writes.push w } }

/-- Runs an operation on a part of the state. -/
def focus (get : σ → τ) (set : τ → σ → σ) (op : Effect ε τ α) : Effect ε σ α := fun s =>
  match op ⟨get s.state, s.trace⟩ with
  | .ok a t => .ok a ⟨set t.state s.state, t.trace⟩
  | .error stop t => .error stop ⟨set t.state s.state, t.trace⟩

/-- Runs an operation that has no state and turns its refusal into a value. A panic stays a panic. -/
def attempt (op : Effect δ Unit α) : Effect ε σ (Except δ α) := fun s =>
  match op ⟨(), s.trace⟩ with
  | .ok a t => .ok (.ok a) ⟨s.state, t.trace⟩
  | .error (.refused error) t => .ok (.error error) ⟨s.state, t.trace⟩
  | .error (.panicked cause) t => .error (.panicked cause) ⟨s.state, t.trace⟩

/-- Runs an operation and turns its refusal into a value, which keeps what it did to the state. -/
def catchRefusal (op : Effect δ σ α) : Effect ε σ (Except δ α) := fun s =>
  match op s with
  | .ok a t => .ok (.ok a) t
  | .error (.refused error) t => .ok (.error error) t
  | .error (.panicked cause) t => .error (.panicked cause) t

/-- Runs an operation without its log records. -/
def quietly (op : Effect ε σ α) : Effect ε σ α := fun s =>
  let hush (t : Traced σ) : Traced σ := { t with trace := { t.trace with log := s.trace.log } }
  match op s with
  | .ok a t => .ok a (hush t)
  | .error stop t => .error stop (hush t)

end Effect

end Supervisor
