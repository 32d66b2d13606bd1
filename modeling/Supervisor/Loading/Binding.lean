import Supervisor.Loading.Segments

/-! Binding: the addresses of the supervisor's functions are written into the pointers of an image
that bear their names. -/

namespace Supervisor.Loading

open Elf (Image Section StringTable Symbol)

/-- Finds the address of a function by name. -/
abbrev Resolver := String → Option UInt64

namespace Resolver

/-- The resolver of a list of names. Of two entries with one name the first counts. -/
def ofList (entries : List (String × UInt64)) : Resolver :=
  fun name => entries.lookup name

end Resolver

def pointerSize : UInt64 := 8

/-- Whether a symbol is a pointer that may be bound. -/
def isBindable (s : Symbol) : Bool :=
  s.isGlobal && s.isObject && s.isVisible && s.size == pointerSize

/-- The text that bytes stand for, if they are valid UTF-8. -/
def nameText? (bytes : Array UInt8) : Option String := String.fromUTF8? ⟨bytes⟩

/-- Binds one pointer. Gives the number of pointers bound so far. -/
def bindSymbol (names : StringTable) (span : Span) (resolve : Resolver) (bound : Nat) (s : Symbol) :
    Load Nat := do
  let name ← Effect.lift (Stop.ofOption .invalidSymbolName (names.get? s.name))
  Effect.lift (Stop.require (span.contains s.value pointerSize) .symbolOutsideImage)
  match nameText? name with
  | none => pure bound
  | some name =>
    match resolve name with
    | none => pure bound
    | some address => do
      Effect.log .debug s!"Bind function '{name}' to {Hex.marked address.toNat}"
      Effect.write (.word s.value address)
      pure (bound + 1)

def bindTable (image : Image) (names : StringTable) (span : Span) (resolve : Resolver)
    (bound : Nat) (table : Section) : Load Nat := do
  let symbols ← Effect.lift (image.symbols table)
  (symbols.filter isBindable).foldlM (bindSymbol names span resolve) bound

/-- Binds the pointers of an image and gives their number. -/
def bindFunctions (image : Image) (span : Span) (resolve : Resolver) : Load Nat := do
  match ← Effect.lift image.symbolNames with
  | none =>
    Effect.log .debug "String table is absent"
    pure 0
  | some names => image.symbolTables.foldlM (bindTable image names span resolve) 0

/-- Checks a file and binds its pointers, as if it were loaded at the given span. -/
def bindExecutable (file : Buffer) (span : Span) (resolve : Resolver) : Load Nat := do
  let image ← Effect.lift (Image.parse file)
  bindFunctions image span resolve

/-- Checks a file, loads it and binds its pointers. Gives the span and the number of pointers
bound. -/
def loadAndBind (file : Buffer) (limit : UInt64) (resolve : Resolver) : Load (Span × Nat) := do
  let image ← Effect.lift (Image.parse file)
  let span ← loadSegments image limit
  let bound ← bindFunctions image span resolve
  return (span, bound)

/-- Checks a file, loads it and, if there is a resolver, binds its pointers. -/
def loadExecutable (file : Buffer) (limit : UInt64) (resolve? : Option Resolver) : Load Span := do
  let image ← Effect.lift (Image.parse file)
  let span ← loadSegments image limit
  match resolve? with
  | none => pure ()
  | some resolve => do
    let _ ← bindFunctions image span resolve
  Effect.log .debug s!"Program entry point {Hex.marked span.entry.toNat}"
  return span

end Supervisor.Loading
