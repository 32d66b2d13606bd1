import Supervisor.Loading.Binding
import Supervisor.Table.Allocation

/-! Creation: an executable is loaded first and gets an environment afterwards. -/

namespace Supervisor.Table

variable {c : Capacity}

/-- Loads an executable and allocates an environment that starts at its entry point. The pointers
of the executable are bound only in a shared space. What was written stays written if the
executable turns out to be invalid, or if there is no room for the environment. -/
def create (build : Build) (file : Buffer) (kind : Kind) (limit : UInt64)
    (resolver : Loading.Resolver) : Op c Handle := do
  let resolve? := if build.sharedSpace then some resolver else none
  match ← Effect.attempt (Loading.loadExecutable file limit resolve?) with
  | .error error => do
    Effect.log .warn s!"Rejected executable: {error}"
    Effect.refuse error.report
  | .ok span => do
    let handle ← allocate build .reserved kind
    let slot ← Effect.orFault (handle.slot c.size)
    changeSlot slot fun e => { e with frame := e.frame.set .rip span.entry }
    return handle

end Supervisor.Table
