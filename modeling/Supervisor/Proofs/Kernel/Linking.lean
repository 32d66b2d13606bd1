import Supervisor.Proofs.Kernel.Run
import Supervisor.Proofs.Loading.Pointers
import Supervisor.Proofs.SymbolIndex
import Supervisor.Proofs.Table.Stacks

/-! What environments are linked to: the functions that the kernel loaded last, whatever it has done
since. -/

namespace Supervisor.Kernel

open Effect Elf

variable {c : Capacity} {μ α : Type} {build : Build} {k : Kernel c μ} {calls : List (Call c μ)}
  {command : Command μ}

open Loading (symbolsThat symbolText? isBindable loadSegments)

variable {file loaded : Buffer} {kind : Kind} {limit : UInt64} {handle : Handle}
  {resolver : Loading.Resolver}

namespace Sample

open Loading.Sample (linked)
open Table.Sample (pair)

end Sample

end Supervisor.Kernel
