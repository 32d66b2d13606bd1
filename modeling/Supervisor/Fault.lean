/-! Faults of machine arithmetic and of array access. A result that does not fit is a fault and
never wraps. -/

namespace Supervisor

inductive Arithmetic where
  | add | subtract | multiply
deriving DecidableEq

namespace Arithmetic

def name : Arithmetic → String
  | add => "add"
  | subtract => "subtract"
  | multiply => "multiply"

end Arithmetic

inductive Fault where
  /-- The result of an operation does not fit its word. -/
  | overflow (operation : Arithmetic)
  /-- An index is not below the number of elements. -/
  | outOfBounds (size index : Nat)
  /-- A range ends before it starts. -/
  | rangeOrder (start stop : Nat)
  /-- A range ends after the last element. -/
  | rangeEnd (stop size : Nat)
deriving DecidableEq

namespace Fault

def message : Fault → String
  | overflow operation => "attempt to " ++ operation.name ++ " with overflow"
  | outOfBounds size index => s!"index out of bounds: the len is {size} but the index is {index}"
  | rangeOrder start stop => s!"slice index starts at {start} but ends at {stop}"
  | rangeEnd stop size => s!"range end index {stop} out of range for slice of length {size}"

end Fault

namespace Checked

/-- The sum, unless it needs more than 64 bits. -/
def add (a b : UInt64) : Except Fault UInt64 :=
  if a.toNat + b.toNat < UInt64.size then .ok (a + b) else .error (.overflow .add)

/-- The difference, unless it is negative. -/
def sub (a b : UInt64) : Except Fault UInt64 :=
  if b ≤ a then .ok (a - b) else .error (.overflow .subtract)

/-- The product, unless it needs more than 64 bits. -/
def mul (a b : UInt64) : Except Fault UInt64 :=
  if a.toNat * b.toNat < UInt64.size then .ok (a * b) else .error (.overflow .multiply)

end Checked

end Supervisor
