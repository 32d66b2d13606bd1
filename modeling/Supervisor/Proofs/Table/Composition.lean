import Supervisor.Proofs.Loading.Contents
import Supervisor.Proofs.Table.Run

/-! Creation is loading followed by allocation. The table differs from that of an allocation in the
entry point of one record. -/

namespace Supervisor.Table

open Effect

variable {c : Capacity} {build : Build} {t : Table c} {events : List (Event c)}

namespace Sample

open Loading.Sample (ordered parsed parse_ordered loadable_ordered eq_ok_of_toOption)

end Sample

end Supervisor.Table
