import Supervisor.Device.Clock
import Supervisor.Device.Serial
import Supervisor.Kernel.Session
import Supervisor.Processor
import Supervisor.SymbolRegistry
import Supervisor.Proofs.Outcome
import Supervisor.Proofs.Table.Slot
import Supervisor.Proofs.Table.FreeList
import Supervisor.Proofs.Handle.Numbering
import Supervisor.Proofs.Table.Resolution
import Supervisor.Proofs.Table.Lifecycle
import Supervisor.Proofs.Loading.Image
import Supervisor.Proofs.Loading.Segments
import Supervisor.Proofs.Loading.Binding
import Supervisor.Proofs.Loading.Safety
import Supervisor.Proofs.Loading.Contents
import Supervisor.Proofs.Table.Creation
import Supervisor.Proofs.Table.Change
import Supervisor.Proofs.Table.Dispatch
import Supervisor.Proofs.Table.Event
import Supervisor.Proofs.Table.History
import Supervisor.Proofs.Table.Run
import Supervisor.Proofs.Table.FreeStack
import Supervisor.Proofs.Table.HandleSafety
import Supervisor.Proofs.Table.Refusal
import Supervisor.Proofs.Table.Dying
import Supervisor.Proofs.Loading.Tightness
import Supervisor.Proofs.Table.SavedFrame
import Supervisor.Proofs.Kernel.Operations
import Supervisor.Proofs.Processor
import Supervisor.Proofs.Kernel.Run
import Supervisor.Proofs.Kernel.Resumption
import Supervisor.Proofs.Table.Panicking
import Supervisor.Proofs.Table.Runner
import Supervisor.Proofs.Elf.Format
import Supervisor.Proofs.Table.Confinement
import Supervisor.Proofs.Table.Stacks
import Supervisor.Proofs.Elf.Symbols
import Supervisor.Proofs.Loading.Traversal
import Supervisor.Proofs.Loading.Pointers
import Supervisor.Proofs.SymbolIndex
import Supervisor.Proofs.Kernel.Linking
import Supervisor.Proofs.Loading.Extension
import Supervisor.Proofs.SymbolIndex.Order
import Supervisor.Proofs.SymbolIndex.Search
import Supervisor.Proofs.Table.Handover
import Supervisor.Proofs.Kernel.Destruction
import Supervisor.Proofs.Kernel.Exit
import Supervisor.Proofs.SymbolIndex.Reordering
import Supervisor.Proofs.Loading.Refusal
import Supervisor.Proofs.Table.Composition
import Supervisor.Proofs.Kernel.Functions
import Supervisor.Proofs.Table.RecordHistory
import Supervisor.Proofs.Table.ReservedHandle
import Supervisor.Proofs.Elf.Tables
import Supervisor.Proofs.Elf.Names
import Supervisor.Proofs.Handle.Succession
