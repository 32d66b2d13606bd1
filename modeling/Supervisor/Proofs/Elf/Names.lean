import Supervisor.Proofs.Elf.Symbols
import Supervisor.Proofs.Loading.Pointers

/-! Names in string tables, and the search for the names of symbols. The first section that is
without a name or holds those names decides the search. -/

namespace Supervisor.Elf

variable {file : Buffer} {image : Image} {names : StringTable} {s : Section}

/-- From a place on there are so many bytes, and none of them is zero. -/
def ZeroFree (bytes : Array UInt8) (start length : Nat) : Prop :=
  ∀ i, i < length → ∃ b, bytes[start + i]? = some b ∧ b ≠ 0

/-- The name that starts at a place is the longest run of bytes without a zero from there on, and
the zero that ends it comes before another place. -/
structure NameAt (bytes : Array UInt8) (start stop : Nat) (name : Array UInt8) : Prop where
  spelled : name = bytes.extract start (start + name.size)
  zeroFree : ZeroFree bytes start name.size
  longest : ∀ length, ZeroFree bytes start length → length ≤ name.size
  ended : bytes[start + name.size]? = some 0
  inside : start + name.size < stop

section Names

variable {bytes : Array UInt8} {start stop length : Nat} {name : Array UInt8}

/-- A run without a zero ends before any zero. -/
theorem ZeroFree.le_of_zero {place : Nat} (free : ZeroFree bytes start length)
    (hZero : bytes[start + place]? = some 0) : length ≤ place := by
  refine Nat.not_lt.mp fun hInside => ?_
  obtain ⟨b, hByte, hNonzero⟩ := free place hInside
  rw [hZero] at hByte
  exact hNonzero (Option.some.inj hByte).symm

/-- A run without a zero is the longest if a zero follows. -/
theorem nameAt_iff : NameAt bytes start stop name ↔ ∃ length, start + length < stop ∧
    ZeroFree bytes start length ∧ bytes[start + length]? = some 0 ∧
    bytes.extract start (start + length) = name := by
  constructor
  · intro named
    exact ⟨name.size, named.inside, named.zeroFree, named.ended, named.spelled.symm⟩
  · rintro ⟨length, hInside, hFree, hZero, rfl⟩
    obtain ⟨hLast, -⟩ := Array.getElem?_eq_some_iff.mp hZero
    have hSize : (bytes.extract start (start + length)).size = length := by
      rw [Array.size_extract]
      omega
    exact {
      spelled := by rw [hSize]
      zeroFree := by rwa [hSize]
      longest := fun longer hLonger => by
        rw [hSize]
        exact hLonger.le_of_zero hZero
      ended := by rwa [hSize]
      inside := by rwa [hSize] }

/-- The first zero in a part of the bytes ends the run at the start of the part. -/
theorem findIdx?_part (hStop : stop ≤ bytes.size) :
    (bytes.extract start stop).findIdx? (· == 0) = some length ↔
      start + length < stop ∧ ZeroFree bytes start length ∧ bytes[start + length]? = some 0 := by
  have hSize : (bytes.extract start stop).size = stop - start := by
    rw [Array.size_extract, Nat.min_eq_left hStop]
  rw [Array.findIdx?_eq_some_iff_getElem]
  constructor
  · rintro ⟨hLength, hZero, hBefore⟩
    rw [Array.getElem_extract, beq_iff_eq] at hZero
    have hInside : start + length < stop := by omega
    refine ⟨hInside, fun i hIndex => ?_, ?_⟩
    · have hNonzero := hBefore i hIndex
      rw [Array.getElem_extract, beq_iff_eq] at hNonzero
      exact ⟨_, Array.getElem?_eq_getElem (by omega), hNonzero⟩
    · rw [Array.getElem?_eq_getElem (by omega), hZero]
  · rintro ⟨hInside, hFree, hZero⟩
    obtain ⟨hLast, hZero⟩ := Array.getElem?_eq_some_iff.mp hZero
    refine ⟨by omega, ?_, fun i hIndex => ?_⟩
    · rw [Array.getElem_extract, beq_iff_eq, hZero]
    · obtain ⟨b, hByte, hNonzero⟩ := hFree i hIndex
      obtain ⟨_, rfl⟩ := Array.getElem?_eq_some_iff.mp hByte
      rw [Array.getElem_extract, beq_iff_eq]
      exact hNonzero

theorem StringTable.size_part (hFits : start + length ≤ bytes.size) :
    (StringTable.mk (bytes.extract start (start + length))).size = length := by
  rw [StringTable.size, Array.size_extract, Nat.min_eq_left hFits, Nat.add_sub_cancel_left]

/-- What is looked up in a part of the bytes is the name that they spell there. -/
theorem StringTable.get?_part {place : UInt32} (hFits : start + length ≤ bytes.size) :
    (StringTable.mk (bytes.extract start (start + length))).get? place = some name ↔
      NameAt bytes (start + place.toNat) (start + length) name := by
  rw [nameAt_iff, get?, size_part hFits]
  by_cases hPlace : place.toNat ≤ length
  · rw [if_pos hPlace, Array.extract_extract, Nat.min_self, Option.map_eq_some_iff]
    constructor
    · rintro ⟨found, hFound, rfl⟩
      obtain ⟨hInside, hFree, hZero⟩ := (findIdx?_part hFits).mp hFound
      refine ⟨found, hInside, hFree, hZero, ?_⟩
      rw [Array.extract_extract, Nat.add_zero, Nat.min_eq_left (Nat.le_of_lt hInside)]
    · rintro ⟨found, hInside, hFree, hZero, rfl⟩
      refine ⟨found, (findIdx?_part hFits).mpr ⟨hInside, hFree, hZero⟩, ?_⟩
      rw [Array.extract_extract, Nat.add_zero, Nat.min_eq_left (Nat.le_of_lt hInside)]
  · rw [if_neg hPlace]
    constructor
    · intro hNone
      cases hNone
    · rintro ⟨found, hInside, -⟩
      omega

end Names

namespace StringTable

/-- The four ways in which a section can be taken for a string table, in the order of the checks. -/
theorem ofSection_cases (file : Buffer) (s : Section) :
    let start := s.offset.toNat
    let size := s.size.toNat
    let last := file.bytes[start + size - 1]?
    let result := ofSection file s
    (file.size < start + size ∧ result = .error (.refused .stringTableOutOfBounds)) ∨
      (start + size ≤ file.size ∧ size = 0 ∧ result = .error (.refused .stringTableEmpty)) ∨
      (start + size ≤ file.size ∧ 0 < size ∧ last ≠ some 0 ∧
        result = .error (.refused .stringTableNotTerminated)) ∨
      (start + size ≤ file.size ∧ 0 < size ∧ last = some 0 ∧
        result = .ok ⟨file.bytes.extract start (start + size)⟩) := by
  intro start size last result
  have hResult : result = _ := ofSection_eq file s
  by_cases hFits : start + size ≤ file.size
  · rw [stringTableRequirements, checkAll_of_holds (by simpa using hFits)] at hResult
    rcases Nat.eq_zero_or_pos size with hEmpty | hSize
    · rw [checkAll_of_fails (by simp [size, ← hEmpty])] at hResult
      exact .inr (.inl ⟨hFits, hEmpty, hResult⟩)
    · rw [checkAll_of_holds (by simpa using hSize)] at hResult
      by_cases hLast : last = some 0
      · rw [checkAll_of_holds (by simpa using hLast)] at hResult
        exact .inr (.inr (.inr ⟨hFits, hSize, hLast, hResult⟩))
      · rw [checkAll_of_fails (by simpa using hLast)] at hResult
        exact .inr (.inr (.inl ⟨hFits, hSize, hLast, hResult⟩))
  · rw [stringTableRequirements, checkAll_of_fails (by simpa using hFits)] at hResult
    exact .inl ⟨Nat.not_le.mp hFits, hResult⟩

/-- A string table is refused for its own sake only. -/
theorem ofSection_ne_invalidSectionName (file : Buffer) (s : Section) :
    ofSection file s ≠ .error (.refused .invalidSectionName) := by
  rcases ofSection_cases file s with
    ⟨-, hResult⟩ | ⟨-, -, hResult⟩ | ⟨-, -, -, hResult⟩ | ⟨-, -, -, hResult⟩ <;>
  simp [hResult]

end StringTable

namespace Image

/-- The section is a string table with the name of the table that holds the names of symbols. -/
def HoldsSymbolNames (image : Image) (s : Section) : Prop :=
  s.type = 3 ∧ image.sectionNames.get? s.name = some ".strtab".toUTF8.data

instance (image : Image) : DecidablePred image.HoldsSymbolNames := fun s =>
  inferInstanceAs (Decidable (s.type = 3 ∧ _))

/-- A section whose name would start after all names comes before any that holds the names of
symbols. -/
def Overruns (image : Image) (sections : List Section) : Prop :=
  ∃ before s after, sections = before ++ s :: after ∧
    image.sectionNames.size ≤ s.name.toNat ∧ ∀ earlier ∈ before, ¬ image.HoldsSymbolNames earlier

variable {rest : List Section}

theorem overruns_cons : image.Overruns (s :: rest) ↔
    image.sectionNames.size ≤ s.name.toNat ∨ ¬ image.HoldsSymbolNames s ∧ image.Overruns rest := by
  constructor
  · rintro ⟨before, overrun, after, hSplit, hName, hBefore⟩
    cases before with
    | nil =>
        cases hSplit
        exact .inl hName
    | cons first before =>
        cases hSplit
        obtain ⟨hFirst, hBefore⟩ := List.forall_mem_cons.mp hBefore
        exact .inr ⟨hFirst, before, overrun, after, rfl, hName, hBefore⟩
  · rintro (hName | ⟨hFirst, before, overrun, after, rfl, hName, hBefore⟩)
    · exact ⟨[], s, rest, rfl, hName, by simp⟩
    · exact ⟨s :: before, overrun, after, rfl, hName, List.forall_mem_cons.mpr ⟨hFirst, hBefore⟩⟩

section Search

variable (terminated : image.sectionNames.Terminated)

include terminated

theorem symbolNamesIn_unnamed (hName : image.sectionNames.size ≤ s.name.toNat) :
    image.symbolNamesIn (s :: rest) = .error (.refused .invalidSectionName) := by
  have hNone : image.sectionNames.get? s.name = none := by
    rw [← Option.not_isSome_iff_eq_none, StringTable.get?_isSome_iff terminated]
    exact Nat.not_lt.mpr hName
  rw [symbolNamesIn, sectionName, hNone]
  rfl

/-- A section with a name ends the search or is passed by. -/
theorem symbolNamesIn_named (hName : s.name.toNat < image.sectionNames.size) :
    image.symbolNamesIn (s :: rest) =
      if image.HoldsSymbolNames s then (StringTable.ofSection image.file s).map some
      else image.symbolNamesIn rest := by
  obtain ⟨name, hFound⟩ := Option.isSome_iff_exists.mp
    ((StringTable.get?_isSome_iff terminated).mpr hName)
  have hSame : (s.isStringTable && name == symbolNamesSection) = true ↔
      image.HoldsSymbolNames s := by
    rw [HoldsSymbolNames, hFound, Section.isStringTable, Bool.and_eq_true, beq_iff_eq, beq_iff_eq,
      Option.some.injEq]
    rfl
  rw [symbolNamesIn, sectionName, hFound, ofOption_bind]
  by_cases hHolds : image.HoldsSymbolNames s
  · rw [if_pos hHolds, if_pos (hSame.mpr hHolds)]
    cases StringTable.ofSection image.file s <;> rfl
  · rw [if_neg hHolds, if_neg (mt hSame.mp hHolds)]

theorem symbolNamesIn_overruns {sections : List Section} (hOverruns : image.Overruns sections) :
    image.symbolNamesIn sections = .error (.refused .invalidSectionName) := by
  induction sections with
  | nil =>
      obtain ⟨before, s, after, hSplit, -⟩ := hOverruns
      simp at hSplit
  | cons s rest ih =>
      rcases Nat.lt_or_ge s.name.toNat image.sectionNames.size with hName | hName
      · rcases overruns_cons.mp hOverruns with hOver | ⟨hFirst, hRest⟩
        · exact absurd hName (Nat.not_lt.mpr hOver)
        · rw [symbolNamesIn_named terminated hName, if_neg hFirst, ih hRest]
      · exact symbolNamesIn_unnamed terminated hName

/-- Without an overrun the first section that holds the names of symbols is found. -/
theorem symbolNamesIn_found {sections : List Section} (hWithin : ¬ image.Overruns sections) :
    (∀ s, sections.find? (image.HoldsSymbolNames ·) = some s →
      image.symbolNamesIn sections = (StringTable.ofSection image.file s).map some) ∧
      (sections.find? (image.HoldsSymbolNames ·) = none →
        image.symbolNamesIn sections = .ok none) := by
  induction sections with
  | nil => simp [symbolNamesIn]
  | cons s rest ih =>
      rw [overruns_cons, not_or, Nat.not_le] at hWithin
      obtain ⟨hName, hRest⟩ := hWithin
      rw [symbolNamesIn_named terminated hName]
      by_cases hHolds : image.HoldsSymbolNames s
      · simp [hHolds]
      · simpa [hHolds] using ih fun hOverruns => hRest ⟨hHolds, hOverruns⟩

end Search

/-- A section is refused as a string table for one of three reasons and in no other case, and an
accepted table gives the names that the file spells. The search for the names of symbols is decided
by the first section that is without a name or holds them. -/
theorem names_exact (file : Buffer) :
    (∀ s : Section,
      let start := s.offset.toNat
      let size := s.size.toNat
      let last := file.bytes[start + size - 1]?
      let result := StringTable.ofSection file s
      (result = .error (.refused .stringTableOutOfBounds) ↔ file.size < start + size) ∧
        (result = .error (.refused .stringTableEmpty) ↔ start + size ≤ file.size ∧ size = 0) ∧
        (result = .error (.refused .stringTableNotTerminated) ↔
          start + size ≤ file.size ∧ 0 < size ∧ last ≠ some 0) ∧
        (start + size ≤ file.size → 0 < size → last = some 0 →
          ∃ names, result = .ok names ∧ names.size = size ∧ ∀ place : UInt32,
            ((names.get? place).isSome ↔ place.toNat < size) ∧
            ∀ name, names.get? place = some name ↔
              NameAt file.bytes (start + place.toNat) (start + size) name)) ∧
      ∀ image, parse file = .ok image →
        (∃ s, image.getSection? image.header.nameSection.toNat = some s ∧
          StringTable.ofSection file s = .ok image.sectionNames) ∧
        (image.symbolNames = .error (.refused .invalidSectionName) ↔
          image.Overruns image.sections) ∧
        (¬ image.Overruns image.sections →
          (∀ s, image.sections.find? (image.HoldsSymbolNames ·) = some s →
            image.symbolNames = (StringTable.ofSection file s).map some) ∧
          (image.sections.find? (image.HoldsSymbolNames ·) = none →
            image.symbolNames = .ok none)) := by
  constructor
  · intro s start size last result
    have hCases : (file.size < start + size ∧ result = _) ∨
        (start + size ≤ file.size ∧ size = 0 ∧ result = _) ∨
        (start + size ≤ file.size ∧ 0 < size ∧ last ≠ some 0 ∧ result = _) ∨
        (start + size ≤ file.size ∧ 0 < size ∧ last = some 0 ∧ result = _) :=
      StringTable.ofSection_cases file s
    rcases hCases with ⟨hOutside, hResult⟩ | ⟨hFits, hEmpty, hResult⟩ |
      ⟨hFits, hSize, hLast, hResult⟩ | ⟨hFits, hSize, hLast, hResult⟩
    case inl =>
      have hNotFits : ¬ start + size ≤ file.size := Nat.not_le.mpr hOutside
      simp [hResult, hOutside, hNotFits]
    case inr.inl =>
      have hInside : ¬ file.size < start + size := Nat.not_lt.mpr hFits
      have hNotPos : ¬ 0 < size := Nat.not_lt.mpr (Nat.le_of_eq hEmpty)
      exact ⟨by simp [hResult, hInside], ⟨fun _ => ⟨hFits, hEmpty⟩, fun _ => hResult⟩,
        by simp [hResult, hNotPos], fun _ hPos => absurd hPos hNotPos⟩
    case inr.inr.inl =>
      have hInside : ¬ file.size < start + size := Nat.not_lt.mpr hFits
      have hNotEmpty : size ≠ 0 := Nat.pos_iff_ne_zero.mp hSize
      simp [hResult, hFits, hInside, hSize, hNotEmpty, hLast]
    case inr.inr.inr =>
      have hInside : ¬ file.size < start + size := Nat.not_lt.mpr hFits
      have hNotEmpty : size ≠ 0 := Nat.pos_iff_ne_zero.mp hSize
      have hTable : StringTable.size ⟨file.bytes.extract start (start + size)⟩ = size :=
        StringTable.size_part hFits
      refine ⟨by simp [hResult, hInside], by simp [hResult, hNotEmpty], by simp [hResult, hLast],
        fun _ _ _ => ⟨_, hResult, hTable, fun place => ⟨?_, ?_⟩⟩⟩
      · rw [StringTable.get?_isSome_iff (StringTable.terminated_of_section hResult), hTable]
      · exact fun name => StringTable.get?_part hFits
  · intro image hParse
    obtain ⟨rfl, -, s, hSection, hNames⟩ := parse_found hParse
    have hTerminated := StringTable.terminated_of_section hNames
    refine ⟨⟨s, hSection, hNames⟩, ⟨fun hError => ?_, symbolNamesIn_overruns hTerminated⟩,
      symbolNamesIn_found hTerminated⟩
    refine Classical.byContradiction fun hWithin => ?_
    obtain ⟨hHeld, hNone⟩ := symbolNamesIn_found hTerminated hWithin
    cases hFirst : image.sections.find? (image.HoldsSymbolNames ·) with
    | none =>
        have hNothing := hNone hFirst
        rw [← symbolNames, hError] at hNothing
        cases hNothing
    | some first =>
        have hFound := hHeld first hFirst
        rw [← symbolNames, hError, eq_comm, map_eq_error] at hFound
        exact StringTable.ofSection_ne_invalidSectionName image.file first hFound

namespace Sample

open Loading.Sample

/-- The sample with another name for the section whose header is at a place. -/
def renamed (place : Nat) : Buffer where
  bytes := (linkedBytes.set place 13).toArray
  size_lt := by
    rw [List.size_toArray, List.length_set]
    exact linked.size_lt

theorem parse_renamed_first : parse (renamed 64) = .ok (.ofFile (renamed 64)) := by
  rw [parse_eq, checkAll_eq_ok.mpr (by decide +kernel)]
  rfl

theorem parse_renamed_second : parse (renamed 128) = .ok (.ofFile (renamed 128)) := by
  rw [parse_eq, checkAll_eq_ok.mpr (by decide +kernel)]
  rfl

theorem overruns_first : (ofFile (renamed 64)).Overruns (ofFile (renamed 64)).sections := by
  have hSections : (ofFile (renamed 64)).sections =
      [{ namesHeader with name := 13 }, symbolsHeader] := by
    decide +kernel
  exact ⟨[], _, _, hSections, by decide +kernel, by simp⟩

theorem sections_second : (ofFile (renamed 128)).sections =
    [namesHeader, { symbolsHeader with name := 13 }] := by
  decide +kernel

theorem holds_second : (ofFile (renamed 128)).HoldsSymbolNames namesHeader := by
  decide +kernel

theorem find?_second : (ofFile (renamed 128)).sections.find?
    ((ofFile (renamed 128)).HoldsSymbolNames ·) = some namesHeader := by
  rw [sections_second]
  exact List.find?_cons_of_pos (decide_eq_true holds_second)

theorem not_overruns_second : ¬ (ofFile (renamed 128)).Overruns (ofFile (renamed 128)).sections := by
  rw [sections_second, overruns_cons]
  rintro (hName | ⟨hHolds, -⟩)
  · exact absurd hName (by decide +kernel)
  · exact hHolds holds_second

end Sample

theorem names_exact_renamed :
    parse (Sample.renamed 64) = .ok (ofFile (Sample.renamed 64)) ∧
      (ofFile (Sample.renamed 64)).symbolNames = .error (.refused .invalidSectionName) ∧
      parse (Sample.renamed 128) = .ok (ofFile (Sample.renamed 128)) ∧
      ∃ names, (ofFile (Sample.renamed 128)).symbolNames = .ok (some names) ∧
        (names.get? 12).isSome ∧ ¬ (names.get? 13).isSome := by
  obtain ⟨-, hFirst⟩ := names_exact (Sample.renamed 64)
  obtain ⟨hTable, hSecond⟩ := names_exact (Sample.renamed 128)
  obtain ⟨-, hError, -⟩ := hFirst _ Sample.parse_renamed_first
  obtain ⟨-, -, hFound⟩ := hSecond _ Sample.parse_renamed_second
  obtain ⟨-, -, -, hWhole⟩ := hTable Loading.Sample.namesHeader
  obtain ⟨names, hNames, -, hGet⟩ := hWhole (by decide +kernel) (by decide) (by decide +kernel)
  have hHeld := (hFound Sample.not_overruns_second).1 _ Sample.find?_second
  refine ⟨Sample.parse_renamed_first, hError.mpr Sample.overruns_first,
    Sample.parse_renamed_second, names, ?_, (hGet 12).1.mpr (by decide), ?_⟩
  · rw [hHeld, hNames]
    rfl
  · rw [(hGet 13).1]
    decide

end Image

end Supervisor.Elf
