import Supervisor.Bytes
import Supervisor.Text.Flags

/-! The records of a 64-bit image: the file header, the headers of segments and sections, and
symbols. -/

namespace Supervisor.Elf

open Packed (field)

structure Header where
  /-- The sixteen bytes that identify the kind of file. -/
  identity : List UInt8
  type : UInt16
  machine : UInt16
  version : UInt32
  entry : UInt64
  segmentTable : UInt64
  sectionTable : UInt64
  flags : UInt32
  headerSize : UInt16
  segmentHeaderSize : UInt16
  segmentCount : UInt16
  sectionHeaderSize : UInt16
  sectionCount : UInt16
  /-- The index of the section that holds the names of sections. -/
  nameSection : UInt16
deriving DecidableEq

instance : Packed Header where
  width := 64
  decode bytes := {
    identity := bytes.take 16
    type := (field bytes 16 2).toUInt16
    machine := (field bytes 18 2).toUInt16
    version := (field bytes 20 4).toUInt32
    entry := (field bytes 24 8).toUInt64
    segmentTable := (field bytes 32 8).toUInt64
    sectionTable := (field bytes 40 8).toUInt64
    flags := (field bytes 48 4).toUInt32
    headerSize := (field bytes 52 2).toUInt16
    segmentHeaderSize := (field bytes 54 2).toUInt16
    segmentCount := (field bytes 56 2).toUInt16
    sectionHeaderSize := (field bytes 58 2).toUInt16
    sectionCount := (field bytes 60 2).toUInt16
    nameSection := (field bytes 62 2).toUInt16 }

/-- A segment: bytes of the file and where they go in memory. -/
structure Segment where
  type : UInt32
  flags : UInt32
  offset : UInt64
  virtualAddress : UInt64
  physicalAddress : UInt64
  fileSize : UInt64
  memorySize : UInt64
  alignment : UInt64
deriving DecidableEq

instance : Packed Segment where
  width := 56
  decode bytes := {
    type := (field bytes 0 4).toUInt32
    flags := (field bytes 4 4).toUInt32
    offset := (field bytes 8 8).toUInt64
    virtualAddress := (field bytes 16 8).toUInt64
    physicalAddress := (field bytes 24 8).toUInt64
    fileSize := (field bytes 32 8).toUInt64
    memorySize := (field bytes 40 8).toUInt64
    alignment := (field bytes 48 8).toUInt64 }

namespace Segment

def isLoadable (s : Segment) : Bool := s.type == 1

/-- The number of bytes taken from the file, never more than the segment has room for. -/
def sourceSize (s : Segment) : UInt64 := min s.fileSize s.memorySize

/-- The access that the segment asks for. Other bits are not shown. -/
def flagsText (s : Segment) : String :=
  Flags.text "SegmentFlags" [(1, "EXECUTE"), (2, "WRITE"), (4, "READ")] (s.flags.toNat &&& 7)

end Segment

/-- A section: a part of the file with a name and a kind. -/
structure Section where
  name : UInt32
  type : UInt32
  flags : UInt64
  address : UInt64
  offset : UInt64
  size : UInt64
  link : UInt32
  info : UInt32
  alignment : UInt64
  entrySize : UInt64
deriving DecidableEq

instance : Packed Section where
  width := 64
  decode bytes := {
    name := (field bytes 0 4).toUInt32
    type := (field bytes 4 4).toUInt32
    flags := (field bytes 8 8).toUInt64
    address := (field bytes 16 8).toUInt64
    offset := (field bytes 24 8).toUInt64
    size := (field bytes 32 8).toUInt64
    link := (field bytes 40 4).toUInt32
    info := (field bytes 44 4).toUInt32
    alignment := (field bytes 48 8).toUInt64
    entrySize := (field bytes 56 8).toUInt64 }

namespace Section

def isSymbolTable (s : Section) : Bool := s.type == 2

def isStringTable (s : Section) : Bool := s.type == 3

end Section

structure Symbol where
  name : UInt32
  info : UInt8
  other : UInt8
  sectionIndex : UInt16
  value : UInt64
  size : UInt64
deriving DecidableEq

instance : Packed Symbol where
  width := 24
  decode bytes := {
    name := (field bytes 0 4).toUInt32
    info := (field bytes 4 1).toUInt8
    other := (field bytes 5 1).toUInt8
    sectionIndex := (field bytes 6 2).toUInt16
    value := (field bytes 8 8).toUInt64
    size := (field bytes 16 8).toUInt64 }

namespace Symbol

def binding (s : Symbol) : UInt8 := s.info >>> 4

def kind (s : Symbol) : UInt8 := s.info &&& 0xF

def visibility (s : Symbol) : UInt8 := s.other &&& 3

def isGlobal (s : Symbol) : Bool := s.binding == 1

def isObject (s : Symbol) : Bool := s.kind == 1

def isFunction (s : Symbol) : Bool := s.kind == 2

def isVisible (s : Symbol) : Bool := s.visibility == 0

/-- So many entries from a place on, or fewer if the bytes end before. The place after an entry is a
machine word; one that does not fit is a fault. -/
def readFrom (bytes : Array UInt8) : Nat → UInt64 → Except Fault (List Symbol)
  | 0, _ => .ok []
  | count + 1, place =>
    match Packed.read? Symbol bytes place.toNat with
    | none => .ok []
    | some entry => do
      let next ← Checked.add place (Packed.width Symbol).toUInt64
      let rest ← readFrom bytes count next
      return entry :: rest

/-- All entries of a table. Bytes at the end that do not make up an entry are left out. -/
def readTable (bytes : Array UInt8) : Except Fault (List Symbol) :=
  readFrom bytes (bytes.size / Packed.width Symbol) 0

end Symbol

end Supervisor.Elf
