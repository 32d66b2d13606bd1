import Supervisor.Proofs.Loading.Binding
import Supervisor.Proofs.Loading.Contents
import Supervisor.Proofs.Loading.Traversal

/-! What binding writes, pointer by pointer: one word for each with a known name, in the order of
the way through the symbols. -/

namespace Supervisor.Loading

open Effect Elf

variable {image : Image} {names : StringTable} {span : Span} {resolve : Resolver}

section Named

variable (hNames : image.symbolNames = .ok (some names))

include hNames

end Named

namespace Sample

def nameBytes : List UInt8 :=
  [0, 0x2E, 0x73, 0x74, 0x72, 0x74, 0x61, 0x62, 0, 0x66, 0, 0x67, 0]

def namesHeader : Section := ⟨1, 3, 0, 0, 248, 13, 0, 0, 1, 0⟩

def symbolsHeader : Section := ⟨0, 2, 0, 0, 261, 96, 0, 0, 1, 24⟩

def zeros : Segment := ⟨1, 6, 0, 0x1000, 0x1000, 0, 0x20, 1⟩

def functionF : Symbol := ⟨9, 0x12, 0, 1, 0x1000, 8⟩

def laterF : Symbol := ⟨9, 0x12, 0, 1, 0x1008, 8⟩

def pointerF : Symbol := ⟨9, 0x11, 0, 1, 0x1010, 8⟩

def pointerG : Symbol := ⟨11, 0x11, 0, 1, 0x1018, 8⟩

def sectionBytes (s : Section) : List UInt8 :=
  fields [(4, s.name.toNat), (4, s.type.toNat), (8, s.flags.toNat), (8, s.address.toNat),
    (8, s.offset.toNat), (8, s.size.toNat), (4, s.link.toNat), (4, s.info.toNat),
    (8, s.alignment.toNat), (8, s.entrySize.toNat)]

def symbolBytes (s : Symbol) : List UInt8 :=
  fields [(4, s.name.toNat), (1, s.info.toNat), (1, s.other.toNat), (2, s.sectionIndex.toNat),
    (8, s.value.toNat), (8, s.size.toNat)]

/-- Two functions of the name `f` at different addresses, and pointers of the names `f` and `g`. -/
def linkedBytes : List UInt8 :=
  identity ++
    fields [(2, 2), (2, 62), (4, 1), (8, 0x1000), (8, 192), (8, 64), (4, 0), (2, 64), (2, 56),
      (2, 1), (2, 64), (2, 2), (2, 0)] ++
    sectionBytes namesHeader ++ sectionBytes symbolsHeader ++ segmentBytes zeros ++ nameBytes ++
    [functionF, laterF, pointerF, pointerG].flatMap symbolBytes

def linked : Buffer := ⟨linkedBytes.toArray, by decide +kernel⟩

theorem parse_linked : Image.parse linked = .ok (.ofFile linked) := by
  rw [Image.parse_eq, checkAll_eq_ok.mpr (by decide +kernel)]
  rfl

theorem symbolNames_linked :
    (Image.ofFile linked).symbolNames = .ok (some ⟨nameBytes.toArray⟩) :=
  eq_ok_of_toOption (by decide +kernel)

end Sample

end Supervisor.Loading
