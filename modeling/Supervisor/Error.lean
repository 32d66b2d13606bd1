/-! The ways in which a request is refused, and the negative codes that report them. -/

namespace Supervisor

inductive Error where
  /-- The handle names no environment, or none that the caller may touch. -/
  | badEnvironment
  | outOfEnvironments
  | outOfMemory
  | invalidExecutable
deriving DecidableEq

namespace Error

def code : Error → Int
  | badEnvironment => -2
  | outOfMemory => -4
  | outOfEnvironments => -5
  | invalidExecutable => -8

def message : Error → String
  | badEnvironment => "bad environment"
  | outOfEnvironments => "out of environments"
  | outOfMemory => "out of memory"
  | invalidExecutable => "invalid executable"

instance : ToString Error := ⟨message⟩

end Error

end Supervisor
