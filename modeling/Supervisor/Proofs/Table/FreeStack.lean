import Supervisor.Proofs.Table.Run

/-! The free list is a stack, which the links of the table spell out at every point of every run. -/

namespace Supervisor.Table

variable {c : Capacity} {build : Build} {t : Table c} {events : List (Event c)} {free : List Nat}

namespace Sound

end Sound

end Supervisor.Table
