import Supervisor.Elf.StringTable

/-! Images: files whose header and tables were checked. The accessors give out only what lies inside
the file. -/

namespace Supervisor.Elf

structure Image where
  file : Buffer
  header : Header
  sectionNames : StringTable
deriving DecidableEq

namespace Header

/-- The checks that look at the header alone. The first that fails is reported. -/
def check (h : Header) : Except (Stop Error) Unit := do
  Stop.require (h.identity.take 4 == [0x7F, 0x45, 0x4C, 0x46]) .invalidMagic
  Stop.require (h.identity[4]? == some 2) .invalidClass
  Stop.require (h.identity[5]? == some 1) .invalidEncoding
  Stop.require (h.identity[6]? == some 1) .invalidVersion
  Stop.require (h.type == 2) .invalidType
  Stop.require (h.machine == 62) .invalidMachine
  Stop.require (Packed.width Header ≤ h.headerSize.toNat) .invalidHeaderSize
  Stop.require (h.sectionHeaderSize.toNat == Packed.width Section) .invalidSectionHeaderSize
  Stop.require (h.segmentHeaderSize.toNat == Packed.width Segment) .invalidProgramHeaderSize

/-- The header of the section with an index, if all of it lies in the file. The index is not
compared with the number of sections. -/
def sectionAt? (h : Header) (file : Buffer) (index : Nat) : Option Section :=
  Packed.read? Section file.bytes (h.sectionTable.toNat + index * Packed.width Section)

end Header

namespace Image

/-- Checks a file. -/
def parse (file : Buffer) : Except (Stop Error) Image := do
  let header ← Stop.ofOption .tooSmall (Packed.read? Header file.bytes 0)
  header.check
  Stop.require (header.nameSection < header.sectionCount) .invalidNameIndex
  let sectionBytes ← Stop.ofFault
    (Checked.mul header.sectionCount.toUInt64 (Packed.width Section).toUInt64)
  let _ ← Stop.ofOption .sectionTableOutOfBounds
    (Range.within? header.sectionTable sectionBytes file.size)
  let segmentBytes ← Stop.ofFault
    (Checked.mul header.segmentCount.toUInt64 (Packed.width Segment).toUInt64)
  let _ ← Stop.ofOption .programTableOutOfBounds
    (Range.within? header.segmentTable segmentBytes file.size)
  let names ← Stop.ofOption .sectionTableOutOfBounds
    (header.sectionAt? file header.nameSection.toNat)
  Stop.require names.isStringTable .notStringTable
  let sectionNames ← StringTable.ofSection file names
  return ⟨file, header, sectionNames⟩

def entry (image : Image) : UInt64 := image.header.entry

/-- The section with an index below the number of sections. -/
def getSection? (image : Image) (index : Nat) : Option Section :=
  if index < image.header.sectionCount.toNat then image.header.sectionAt? image.file index else none

/-- The sections in the order of the table. -/
def sections (image : Image) : List Section :=
  (List.range image.header.sectionCount.toNat).filterMap image.getSection?

/-- The header of the segment with an index, if all of it lies in the file. The place of the
header is a machine word; one that does not fit is a fault. -/
def segmentAt (image : Image) (index : Nat) : Except Fault (Option Segment) := do
  let distance ← Checked.mul index.toUInt64 (Packed.width Segment).toUInt64
  let start ← Checked.add image.header.segmentTable distance
  return Packed.read? Segment image.file.bytes start.toNat

/-- The segments in the order of the table. -/
def segments (image : Image) : Except Fault (List Segment) := do
  let found ← (List.range image.header.segmentCount.toNat).mapM image.segmentAt
  return found.filterMap id

def sectionName (image : Image) (s : Section) : Except (Stop Error) (Array UInt8) :=
  Stop.ofOption .invalidSectionName (image.sectionNames.get? s.name)

/-- The bytes of the text `.strtab`. -/
def symbolNamesSection : Array UInt8 := #[0x2E, 0x73, 0x74, 0x72, 0x74, 0x61, 0x62]

/-- Goes through sections up to the one that holds the names of symbols. A section without a valid
name on the way is an error. -/
def symbolNamesIn (image : Image) : List Section → Except (Stop Error) (Option StringTable)
  | [] => .ok none
  | s :: rest => do
    let name ← image.sectionName s
    if s.isStringTable && name == symbolNamesSection then
      let names ← StringTable.ofSection image.file s
      return some names
    else image.symbolNamesIn rest

/-- The names of symbols, if the image has any. -/
def symbolNames (image : Image) : Except (Stop Error) (Option StringTable) :=
  image.symbolNamesIn image.sections

def symbolTables (image : Image) : List Section := image.sections.filter Section.isSymbolTable

def symbols (image : Image) (s : Section) : Except (Stop Error) (List Symbol) := do
  let range ← Stop.ofOption .symbolTableOutOfBounds (Range.within? s.offset s.size image.file.size)
  let width := (Packed.width Symbol).toUInt64
  Stop.require (s.entrySize == width && s.size % width == 0) .invalidSymbolSize
  let bytes ← Stop.ofFault (image.file.slice range)
  Stop.ofFault (Symbol.readTable bytes)

end Image

end Supervisor.Elf
