import Supervisor.Error

/-! What can be wrong with an executable image. -/

namespace Supervisor.Elf

inductive Error where
  | tooSmall
  | invalidMagic
  | invalidClass
  | invalidEncoding
  | invalidVersion
  | invalidType
  | invalidMachine
  | invalidHeaderSize
  | invalidSectionHeaderSize
  | invalidProgramHeaderSize
  | invalidNameIndex
  | sectionTableOutOfBounds
  | programTableOutOfBounds
  | notStringTable
  | stringTableOutOfBounds
  | stringTableEmpty
  | stringTableNotTerminated
  | invalidSectionName
  | segmentOutOfBounds
  | segmentAboveLimit
  | invalidMappings
  | entryOutsideImage
  | symbolTableOutOfBounds
  | invalidSymbolSize
  | invalidSymbolName
  | symbolOutsideImage
deriving DecidableEq

namespace Error

def message : Error → String
  | tooSmall => "file is too small"
  | invalidMagic => "bad magic"
  | invalidClass => "not a 64-bit image"
  | invalidEncoding => "not little endian"
  | invalidVersion => "unknown ELF version"
  | invalidType => "not an executable"
  | invalidMachine => "not an x86_64 image"
  | invalidHeaderSize => "ELF header is too small"
  | invalidSectionHeaderSize => "unexpected section header size"
  | invalidProgramHeaderSize => "unexpected program header size"
  | invalidNameIndex => "string section index overflows section count"
  | sectionTableOutOfBounds => "section table exceeds file contents"
  | programTableOutOfBounds => "program header table exceeds file contents"
  | notStringTable => "string section has wrong type"
  | stringTableOutOfBounds => "string table exceeds file contents"
  | stringTableEmpty => "string table is empty"
  | stringTableNotTerminated => "string table is not NUL-terminated"
  | invalidSectionName => "section name exceeds string table"
  | segmentOutOfBounds => "segment contents exceed file size"
  | segmentAboveLimit => "segment exceeds user memory"
  | invalidMappings => "invalid memory mappings"
  | entryOutsideImage => "entry point is outside program data"
  | symbolTableOutOfBounds => "symbol table exceeds file contents"
  | invalidSymbolSize => "unexpected symbol size"
  | invalidSymbolName => "symbol name exceeds string table"
  | symbolOutsideImage => "symbol value points outside program image"

instance : ToString Error := ⟨message⟩

def report : Error → Supervisor.Error
  | _ => .invalidExecutable

end Error

end Supervisor.Elf
