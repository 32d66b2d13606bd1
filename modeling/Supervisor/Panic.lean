import Supervisor.Error
import Supervisor.Fault
import Supervisor.Handle
import Supervisor.Status

/-! The causes that stop the supervisor for good, and operations that end without a result. -/

namespace Supervisor

inductive Panic where
  | fault (cause : Fault)
  /-- A status was about to change in a step that is not allowed. -/
  | illegalTransition (source target : Status)
  /-- A slot was about to be marked free without going back on the free list. -/
  | freeByStatus
  | noMachine
  | notRunnable (target : Handle)
  | nothingToExit
  | cannotDestroy (current : Handle) (error : Error)
  /-- A destroyed environment went on running. -/
  | keptRunning (current : Handle)
  | nothingToYield
  | emptyBinary
  | binaryRejected
  | cannotAllocate (error : Error)
deriving DecidableEq

namespace Panic

def message : Panic → String
  | fault cause => cause.message
  | illegalTransition source target => s!"illegal env transition {source} -> {target}"
  | freeByStatus => "use EnvTable::free to release a slot"
  | noMachine => "env: no machine registered"
  | notRunnable target => s!"env_run: bad target {target}"
  | nothingToExit => "env_exit: no current environment"
  | cannotDestroy current error => s!"env_exit: cannot destroy {current}: {error}"
  | keptRunning current =>
    "internal error: entered unreachable code: " ++
      s!"env_exit: destroyed environment {current} kept running"
  | nothingToYield => "env_yield: no current environment"
  | emptyBinary => "env_create: empty binary"
  | binaryRejected => "env_create: Can't load ELF image"
  | cannotAllocate error => s!"env_create: Can't allocate new environment: {error}"

end Panic

/-- Why an operation ended without a result. -/
inductive Stop (ε : Type) where
  | refused (error : ε)
  | panicked (cause : Panic)
deriving DecidableEq

namespace Stop

def ofFault {ε α : Type} : Except Fault α → Except (Stop ε) α
  | .ok a => .ok a
  | .error fault => .error (.panicked (.fault fault))

/-- Refuses with the given error unless the condition holds. -/
def require {ε : Type} (condition : Bool) (error : ε) : Except (Stop ε) Unit :=
  if condition then .ok () else .error (.refused error)

/-- The value of an option, or a refusal with the given error. -/
def ofOption {ε α : Type} (error : ε) : Option α → Except (Stop ε) α
  | some a => .ok a
  | none => .error (.refused error)

end Stop

namespace Status

/-- The new status, if the step from the old one is allowed. -/
def transition (source target : Status) : Except Panic Status :=
  if source.allows target then .ok target else .error (.illegalTransition source target)

/-- The outcomes of taking a status through others in order, up to the first step that is not
allowed. -/
def trail (source : Status) : List Status → List (Except Panic Status)
  | [] => []
  | target :: rest =>
    match source.transition target with
    | .ok status => .ok status :: trail status rest
    | .error cause => [.error cause]

end Status

end Supervisor
