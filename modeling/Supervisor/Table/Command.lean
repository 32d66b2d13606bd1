import Supervisor.Table.Creation
import Supervisor.Table.Dispatch

/-! Everything that can be asked of a table, as data. -/

namespace Supervisor.Table

variable {c : Capacity}

inductive Command where
  | reset
  | allocate (parent : Handle) (kind : Kind)
  | create (file : Buffer) (kind : Kind) (limit : UInt64) (resolver : Loading.Resolver)
  | release (target : Handle)
  | destroy (target : Handle)
  | dispatch (target : Handle)
  | lookup (target : Handle) (checked : Bool)
  | setStatus (target : Handle) (checked : Bool) (status : Status)
  | setCurrentStatus (status : Status)
  | editFrame (target : Handle) (checked : Bool) (edit : Frame → Frame)
  | editCurrentFrame (edit : Frame → Frame)

inductive Answer where
  | done
  | issued (handle : Handle)
  | destroyed (outcome : Destroyed)
  | dispatched (next : Dispatch)
  | found (environment : Environment)
  /-- Whether there was a current environment to change. -/
  | changed (current : Bool)

namespace Command

def perform (build : Build) : Command → Op c Answer
  | reset => do
    Table.reset
    return .done
  | allocate parent kind => do
    let handle ← Table.allocate build parent kind
    return .issued handle
  | create file kind limit resolver => do
    let handle ← Table.create build file kind limit resolver
    return .issued handle
  | release target => do
    Table.release target
    return .done
  | destroy target => do
    let outcome ← Table.destroy target
    return .destroyed outcome
  | dispatch target => do
    let next ← Table.dispatch target
    return .dispatched next
  | lookup target checked => do
    let e ← Table.lookup target checked
    return .found e
  | setStatus target checked status => do
    Table.setStatus target checked status
    return .done
  | setCurrentStatus status => do
    let current ← Table.setCurrentStatus status
    return .changed current
  | editFrame target checked edit => do
    Table.editFrame target checked edit
    return .done
  | editCurrentFrame edit => do
    let current ← Table.editCurrentFrame edit
    return .changed current

end Command

end Supervisor.Table
