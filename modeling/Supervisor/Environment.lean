import Supervisor.Frame
import Supervisor.Handle
import Supervisor.Layout
import Supervisor.Status

/-! Environments: the units that the supervisor runs, and the records it keeps of them. -/

namespace Supervisor

/-- The privilege of an environment. -/
inductive Kind where
  | kernel | user
deriving DecidableEq

namespace Kind

def name : Kind → String
  | kernel => "Kernel"
  | user => "User"

end Kind

/-- The selectors that an environment starts with. In a shared space every environment has the
supervisor's own. -/
def Segments.initial (build : Build) (kind : Kind) : Segments :=
  if build.sharedSpace || kind == .kernel then .kernel else .user

/-- What a slot of the table holds. A free slot still holds the handle of its last environment,
from which the next one is counted. -/
structure Environment where
  frame : Frame
  /-- The slot after this one on the free list. -/
  link : Option Nat
  handle : Handle
  parent : Handle
  kind : Kind
  status : Status
  /-- How often the environment was entered, modulo 2^32. -/
  runs : UInt32
deriving DecidableEq

namespace Environment

/-- A slot that no environment has used. -/
def unused : Environment where
  frame := .zero
  link := none
  handle := .reserved
  parent := .reserved
  kind := .user
  status := .free
  runs := 0

def isFree (e : Environment) : Bool := e.status == .free

end Environment

end Supervisor
