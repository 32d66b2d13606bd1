import Mathlib.Data.List.Basic
import Supervisor.Proofs.Elf.Symbols
import Supervisor.Proofs.Loading.Pointers

/-! The tables of an image are complete. Parsing has checked them as a whole, so the accessors leave
nothing out. -/

namespace Supervisor.Elf

variable {file : Buffer} {image : Image} {index place : Nat}

/-- The segment header has the numbers that stand at a place of the file. -/
structure Segment.Spelled (s : Segment) (file : Buffer) (place : Nat) : Prop where
  type : s.type.toNat = number file place 4
  flags : s.flags.toNat = number file (place + 4) 4
  offset : s.offset.toNat = number file (place + 8) 8
  virtualAddress : s.virtualAddress.toNat = number file (place + 16) 8
  physicalAddress : s.physicalAddress.toNat = number file (place + 24) 8
  fileSize : s.fileSize.toNat = number file (place + 32) 8
  memorySize : s.memorySize.toNat = number file (place + 40) 8
  alignment : s.alignment.toNat = number file (place + 48) 8

/-- The symbol has the numbers that stand at a place of the file. -/
structure Symbol.Spelled (s : Symbol) (file : Buffer) (place : Nat) : Prop where
  name : s.name.toNat = number file place 4
  info : s.info.toNat = number file (place + 4) 1
  other : s.other.toNat = number file (place + 5) 1
  sectionIndex : s.sectionIndex.toNat = number file (place + 6) 2
  value : s.value.toNat = number file (place + 8) 8
  size : s.size.toNat = number file (place + 16) 8

theorem Segment.spelled_decode (file : Buffer) (place : Nat) :
    (Packed.decode (file.bytes.extract place (place + 56)).toList : Segment).Spelled file place := by
  have hField (start count : Nat) (hInside : start + count ≤ 56) :
      Packed.field (file.bytes.extract place (place + 56)).toList start count =
        number file (place + start) count :=
    Packed.field_extract hInside
  exact {
    type := Packed.toNat_field_four.trans (hField 0 4 (by decide))
    flags := Packed.toNat_field_four.trans (hField 4 4 (by decide))
    offset := Packed.toNat_field_eight.trans (hField 8 8 (by decide))
    virtualAddress := Packed.toNat_field_eight.trans (hField 16 8 (by decide))
    physicalAddress := Packed.toNat_field_eight.trans (hField 24 8 (by decide))
    fileSize := Packed.toNat_field_eight.trans (hField 32 8 (by decide))
    memorySize := Packed.toNat_field_eight.trans (hField 40 8 (by decide))
    alignment := Packed.toNat_field_eight.trans (hField 48 8 (by decide)) }

theorem Symbol.spelled_readAt (file : Buffer) (place : Nat) :
    (readAt file.bytes place).Spelled file place := by
  have hField (start count : Nat) (hInside : start + count ≤ 24) :
      Packed.field (file.bytes.extract place (place + 24)).toList start count =
        number file (place + start) count :=
    Packed.field_extract hInside
  exact {
    name := Packed.toNat_field_four.trans (hField 0 4 (by decide))
    info := Packed.toNat_field_one.trans (hField 4 1 (by decide))
    other := Packed.toNat_field_one.trans (hField 5 1 (by decide))
    sectionIndex := Packed.toNat_field_two.trans (hField 6 2 (by decide))
    value := Packed.toNat_field_eight.trans (hField 8 8 (by decide))
    size := Packed.toNat_field_eight.trans (hField 16 8 (by decide)) }

namespace Image

/-- The header of an image that was parsed has the numbers at the start of its file. -/
theorem header_spelled (hParse : parse file = .ok image) : image.header.Spelled file := by
  rw [parse_eq, bind_eq_ok] at hParse
  obtain ⟨_, hChecked, hImage⟩ := hParse
  have hSize : 64 ≤ file.size := by
    simpa using checkAll_eq_ok.mp hChecked _ (List.mem_cons_self ..)
  have hRead : Packed.read? Header file.bytes 0 = some image.header := by
    rw [← Except.ok.inj hImage, Packed.read?]
    exact if_pos ((Nat.zero_add 64).symm ▸ hSize)
  exact Header.spelled_of_read? hRead

/-- The section header that the bytes at a place of the table spell. -/
def sectionHeader (image : Image) (index : Nat) : Section :=
  let start := image.header.sectionTable.toNat + index * Packed.width Section
  Packed.decode (image.file.bytes.extract start (start + Packed.width Section)).toList

theorem getSection?_eq (fits : image.Fits) (hIndex : index < image.header.sectionCount.toNat) :
    image.getSection? index = some (image.sectionHeader index) := by
  rw [getSection?, if_pos hIndex]
  exact if_pos (fits.section_le hIndex)

theorem sections_eq (fits : image.Fits) : image.sections =
    (List.range image.header.sectionCount.toNat).map image.sectionHeader :=
  List.filterMap_eq_map_iff_forall_eq_some.mpr fun _ hMem =>
    getSection?_eq fits (List.mem_range.mp hMem)

theorem spelled_sectionHeader (fits : image.Fits)
    (hIndex : index < image.header.sectionCount.toNat) :
    (image.sectionHeader index).Spelled image.file
      (image.header.sectionTable.toNat + index * 64) :=
  Section.spelled_of_read? (if_pos (fits.section_le hIndex))

variable {s : Section}

theorem symbols_outside (hOutside : image.file.size < s.offset.toNat + s.size.toNat) :
    image.symbols s = .error (.refused .symbolTableOutOfBounds) := by
  rw [symbols_eq, symbolTableRequirements, checkAll_of_fails (by simpa using hOutside)]
  rfl

theorem symbols_misfit (hFits : s.offset.toNat + s.size.toNat ≤ image.file.size)
    (hSize : ¬ (s.entrySize.toNat = 24 ∧ s.size.toNat % 24 = 0)) :
    image.symbols s = .error (.refused .invalidSymbolSize) := by
  rw [symbols_eq, symbolTableRequirements, checkAll_of_holds (by simpa using hFits),
    checkAll_of_fails (by simpa using hSize)]
  rfl

theorem symbols_whole (hFits : s.offset.toNat + s.size.toNat ≤ image.file.size)
    (hSize : s.entrySize.toNat = 24 ∧ s.size.toNat % 24 = 0) :
    image.symbols s = .ok (s.entries image.file) := by
  rw [symbols_eq, symbolTableRequirements, checkAll_of_holds (by simpa using hFits),
    checkAll_of_holds (by simpa using hSize)]
  rfl

theorem getElem?_entries (hIndex : index < s.size.toNat / 24) :
    (s.entries file)[index]? = some (Symbol.readAt file.bytes (s.offset.toNat + 24 * index)) := by
  rw [Section.entries, List.getElem?_map, List.getElem?_range' hIndex, Option.map_some]

/-- Sections and segments are as many as the header says and have the numbers that the file spells
at their places. A symbol table is refused for its place or its size, or else gives as many entries
as fit, each spelled at its place. -/
theorem tables_complete (hParse : parse file = .ok image) :
    (image.sections.length = number file 60 2 ∧
      (∀ index, index < number file 60 2 →
        let place := number file 40 8 + 64 * index
        place + 64 ≤ file.size ∧ ∃ s, image.sections[index]? = some s ∧
          image.getSection? index = some s ∧ s.Spelled file place) ∧
      ∀ index, number file 60 2 ≤ index → image.getSection? index = none) ∧
    (∃ segments, image.segments = .ok segments ∧ segments.length = number file 56 2 ∧
      ∀ index, index < number file 56 2 →
        let place := number file 32 8 + 56 * index
        place + 56 ≤ file.size ∧ ∃ s, segments[index]? = some s ∧ s.Spelled file place) ∧
    ∀ s : Section,
      let start := s.offset.toNat
      let size := s.size.toNat
      (image.symbols s = .error (.refused .symbolTableOutOfBounds) ↔ file.size < start + size) ∧
      (image.symbols s = .error (.refused .invalidSymbolSize) ↔
        start + size ≤ file.size ∧ (s.entrySize.toNat ≠ 24 ∨ size % 24 ≠ 0)) ∧
      (start + size ≤ file.size → s.entrySize.toNat = 24 → size % 24 = 0 →
        ∃ entries, image.symbols s = .ok entries ∧ entries.length = size / 24 ∧
          ∀ index, index < size / 24 →
            ∃ entry, entries[index]? = some entry ∧ entry.Spelled file (start + 24 * index)) := by
  have spelled := header_spelled hParse
  obtain ⟨rfl, fits⟩ := parse_eq_ok hParse
  refine ⟨⟨?_, ?_, ?_⟩, ?_, ?_⟩
  · rw [sections_eq fits, List.length_map, List.length_range, spelled.sectionCount]
  · intro index hIndex place
    rw [← spelled.sectionCount] at hIndex
    have hPlace : image.header.sectionTable.toNat + index * 64 = place := by
      rw [spelled.sectionTable, Nat.mul_comm]
    refine ⟨?_, image.sectionHeader index, ?_, getSection?_eq fits hIndex, ?_⟩
    · rw [← hPlace]
      exact fits.section_le hIndex
    · rw [sections_eq fits, List.getElem?_map, List.getElem?_range hIndex, Option.map_some]
    · rw [← hPlace]
      exact spelled_sectionHeader fits hIndex
  · intro index hIndex
    rw [← spelled.sectionCount] at hIndex
    exact if_neg (Nat.not_lt.mpr hIndex)
  · refine ⟨_, segments_eq fits, ?_, ?_⟩
    · rw [List.length_map, List.length_range, spelled.segmentCount]
    · intro index hIndex place
      rw [← spelled.segmentCount] at hIndex
      have hPlace : image.header.segmentTable.toNat + index * 56 = place := by
        rw [spelled.segmentTable, Nat.mul_comm]
      refine ⟨?_, image.segmentHeader index, ?_, ?_⟩
      · rw [← hPlace]
        exact fits.segment_le hIndex
      · rw [List.getElem?_map, List.getElem?_range hIndex, Option.map_some]
      · rw [← hPlace]
        exact Segment.spelled_decode _ _
  · intro s start size
    by_cases hFits : start + size ≤ image.file.size
    · by_cases hSize : s.entrySize.toNat = 24 ∧ size % 24 = 0
      · have hSymbols := symbols_whole hFits hSize
        rw [hSymbols]
        refine ⟨by simp [hFits], by simp [hFits, hSize], fun _ _ _ => ⟨_, rfl, ?_, ?_⟩⟩
        · rw [Section.entries, List.length_map, List.length_range']
        · exact fun index hIndex => ⟨_, getElem?_entries hIndex, Symbol.spelled_readAt _ _⟩
      · have hSymbols := symbols_misfit hFits hSize
        rw [hSymbols]
        refine ⟨by simp [hFits], ?_, fun _ hEntry hWhole => absurd ⟨hEntry, hWhole⟩ hSize⟩
        exact ⟨fun _ => ⟨hFits, Decidable.not_and_iff_not_or_not.mp hSize⟩, fun _ => rfl⟩
    · have hSymbols := symbols_outside (Nat.not_le.mp hFits)
      rw [hSymbols]
      exact ⟨by simpa using hFits, by simp [hFits], fun hInside => absurd hInside hFits⟩

/-- The sample has two sections, one segment and four symbols. An index is out of range also if the
place of its header would not be a word. -/
theorem tables_complete_linked :
    parse Loading.Sample.linked = .ok (.ofFile Loading.Sample.linked) ∧
      let image := ofFile Loading.Sample.linked
      image.sections.length = 2 ∧ image.getSection? 0x1000000000000000 = none ∧
      (∃ segments, image.segments = .ok segments ∧ segments.length = 1) ∧
      ∃ entries, image.symbols Loading.Sample.symbolsHeader = .ok entries ∧ entries.length = 4 := by
  have hSections : number Loading.Sample.linked 60 2 = 2 := by decide +kernel
  have hSegments : number Loading.Sample.linked 56 2 = 1 := by decide +kernel
  obtain ⟨⟨hLength, -, hNone⟩, ⟨segments, hSome, hCount, -⟩, hSymbols⟩ :=
    tables_complete Loading.Sample.parse_linked
  obtain ⟨-, -, hEntries⟩ := hSymbols Loading.Sample.symbolsHeader
  obtain ⟨entries, hFound, hFour, -⟩ := hEntries (by decide +kernel) (by decide) (by decide)
  exact ⟨Loading.Sample.parse_linked, hLength.trans hSections,
    hNone _ (by rw [hSections]; decide), ⟨segments, hSome, hCount.trans hSegments⟩, entries, hFound,
    hFour⟩

end Image

end Supervisor.Elf
