import Supervisor.Loading.Binding

/-! An index of functions in two directions: from a name to an address, and from an address to the
function around it. -/

namespace Supervisor

/-- A function and the addresses it occupies. -/
structure FunctionSymbol where
  name : String
  address : UInt64
  size : UInt64
deriving DecidableEq

namespace FunctionSymbol

/-- Whether an address lies in the function. A function of size zero still has its first address. -/
def contains (s : FunctionSymbol) (address : UInt64) : Bool :=
  s.address ≤ address && address - s.address < max s.size 1

end FunctionSymbol

structure SymbolIndex where
  /-- All functions, sorted by address; of equal addresses the one added first comes first. -/
  sorted : List FunctionSymbol
  /-- Names and addresses in the order in which they were added, the newest first. -/
  byName : List (String × UInt64)

namespace SymbolIndex

def empty : SymbolIndex := ⟨[], []⟩

/-- The functions that start at or before an address. -/
def upTo (index : SymbolIndex) (address : UInt64) : List FunctionSymbol :=
  index.sorted.takeWhile (·.address ≤ address)

/-- The functions that start after an address. -/
def beyond (index : SymbolIndex) (address : UInt64) : List FunctionSymbol :=
  index.sorted.dropWhile (·.address ≤ address)

/-- Adds a function behind all that start at or before its address. -/
def add (index : SymbolIndex) (s : FunctionSymbol) : SymbolIndex where
  sorted := index.upTo s.address ++ s :: index.beyond s.address
  byName := (s.name, s.address) :: index.byName

/-- The last function that starts at or before an address, with the distance from its start, if
the address lies in it. No function before that one is looked at. -/
def find? (index : SymbolIndex) (address : UInt64) : Option (FunctionSymbol × UInt64) :=
  match (index.upTo address).getLast? with
  | none => none
  | some s => if s.contains address then some (s, address - s.address) else none

/-- The address of the function last added under a name. -/
def findFunction? (index : SymbolIndex) (name : String) : Option UInt64 := index.byName.lookup name

def count (index : SymbolIndex) : Nat := index.sorted.length

def isEmpty (index : SymbolIndex) : Bool := index.sorted.isEmpty

def resolver (index : SymbolIndex) : Loading.Resolver := index.findFunction?

open Loading (Load)
open Elf (Image Section StringTable Symbol)

/-- Adds an entry of a symbol table if it is a function with an address. Its name must be valid;
one that is not text is passed over. -/
def addEntry (names : StringTable) (index : SymbolIndex) (s : Symbol) : Load SymbolIndex :=
  if !s.isFunction || s.value == 0 then pure index
  else do
    let name ← Effect.lift (Stop.ofOption .invalidSymbolName (names.get? s.name))
    match Loading.nameText? name with
    | none => pure index
    | some name => pure (index.add ⟨name, s.value, s.size⟩)

def addTable (image : Image) (names : StringTable) (index : SymbolIndex) (table : Section) :
    Load SymbolIndex := do
  let symbols ← Effect.lift (image.symbols table)
  symbols.foldlM (addEntry names) index

/-- The functions of an image. An image without names of symbols has none. -/
def ofImage (file : Buffer) : Load SymbolIndex := do
  let image ← Effect.lift (Image.parse file)
  match ← Effect.lift image.symbolNames with
  | none => pure empty
  | some names =>
    let index ← image.symbolTables.foldlM (addTable image names) empty
    Effect.log .debug s!"symbols: loaded {index.count} functions"
    return index

end SymbolIndex

end Supervisor
