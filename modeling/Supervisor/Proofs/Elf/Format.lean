import Supervisor.Proofs.Loading.Image

/-! The format of an executable as a list of requirements over natural numbers, where no sum wraps.
Parsing reports the first that fails. -/

namespace Supervisor

theorem LittleEndian.decode_lt (bytes : List UInt8) : decode bytes < Nat.pow 256 bytes.length := by
  induction bytes with
  | nil => decide
  | cons b rest ih =>
      have hByte := b.toNat_lt
      rw [decode, List.length_cons, Nat.pow_eq, Nat.pow_succ]
      rw [Nat.pow_eq] at ih
      omega

namespace Packed

variable {bytes : List UInt8} {start count : Nat}

theorem field_lt (bytes : List UInt8) (start count : Nat) :
    field bytes start count < Nat.pow 256 count := by
  have hLength : ((bytes.drop start).take count).length ≤ count := List.length_take_le ..
  exact Nat.lt_of_lt_of_le (LittleEndian.decode_lt _) (Nat.pow_le_pow_right (by decide) hLength)

theorem toNat_field_one : (field bytes start 1).toUInt8.toNat = field bytes start 1 :=
  UInt8.toNat_ofNat_of_lt' (field_lt bytes start 1)

/-- A field of two bytes is kept by a number of 16 bits. -/
theorem toNat_field_two : (field bytes start 2).toUInt16.toNat = field bytes start 2 :=
  UInt16.toNat_ofNat_of_lt' (field_lt bytes start 2)

theorem toNat_field_four : (field bytes start 4).toUInt32.toNat = field bytes start 4 :=
  UInt32.toNat_ofNat_of_lt' (field_lt bytes start 4)

theorem toNat_field_eight : (field bytes start 8).toUInt64.toNat = field bytes start 8 :=
  UInt64.toNat_ofNat_of_lt' (field_lt bytes start 8)

theorem read?_eq_none_iff {α : Type} [Packed α] {file : Array UInt8} {place : Nat} :
    read? α file place = none ↔ file.size < place + width α := by
  simp [read?]

/-- A field of a record is found in the array that the record was read from. -/
theorem field_extract {file : Array UInt8} {place width : Nat} (hInside : start + count ≤ width) :
    field (file.extract place (place + width)).toList start count =
      field file.toList (place + start) count := by
  have hRoom : count ≤ width - start := by omega
  simp only [field, Array.toList_extract, List.extract_eq_take_drop, Nat.add_sub_cancel_left,
    List.drop_take, List.drop_drop, List.take_take, Nat.min_eq_left hRoom]

end Packed

/-- A condition, and the error that reports that it fails. -/
structure Requirement (ε : Type) where
  error : ε
  holds : Bool

variable {ε α β : Type} {r : Requirement ε} {checks rest : List (Requirement ε)}

/-- Goes through requirements and reports the first that fails. -/
def checkAll : List (Requirement ε) → Except (Stop ε) Unit
  | [] => .ok ()
  | r :: rest => do
    Stop.require r.holds r.error
    checkAll rest

theorem checkAll_of_holds (hHolds : r.holds) : checkAll (r :: rest) = checkAll rest := by
  rw [checkAll, Stop.require, if_pos hHolds]
  rfl

theorem checkAll_of_fails (hFails : ¬ r.holds) :
    checkAll (r :: rest) = .error (.refused r.error) := by
  rw [checkAll, Stop.require, if_neg hFails]
  rfl

theorem checkAll_append (first second : List (Requirement ε)) :
    checkAll (first ++ second) = (do checkAll first; checkAll second) := by
  induction first with
  | nil => rfl
  | cons r rest ih => simp only [List.cons_append, checkAll, ih, bind_assoc]

theorem checkAll_eq_ok : checkAll checks = .ok () ↔ ∀ r ∈ checks, r.holds := by
  induction checks with
  | nil => simp [checkAll]
  | cons r rest ih =>
      rw [List.forall_mem_cons]
      by_cases hHolds : r.holds
      · simp [checkAll_of_holds hHolds, ih, hHolds]
      · simp [checkAll_of_fails hHolds, hHolds]

/-- What is reported belongs to the first requirement that fails. -/
theorem checkAll_eq_error {stop : Stop ε} : checkAll checks = .error stop ↔
    ∃ met r unmet, checks = met ++ r :: unmet ∧ (∀ m ∈ met, m.holds) ∧ ¬ r.holds ∧
      .refused r.error = stop := by
  induction checks with
  | nil => simp [checkAll]
  | cons r rest ih =>
      by_cases hHolds : r.holds
      · rw [checkAll_of_holds hHolds, ih]
        constructor
        · rintro ⟨met, failed, unmet, rfl, hMet, hFails⟩
          exact ⟨r :: met, failed, unmet, rfl, List.forall_mem_cons.mpr ⟨hHolds, hMet⟩, hFails⟩
        · rintro ⟨met, failed, unmet, hSplit, hMet, hFails⟩
          cases met with
          | nil =>
              cases hSplit
              exact absurd hHolds hFails.1
          | cons m met =>
              cases hSplit
              exact ⟨met, failed, unmet, rfl, (List.forall_mem_cons.mp hMet).2, hFails⟩
      · rw [checkAll_of_fails hHolds]
        constructor
        · intro hError
          exact ⟨[], r, rest, rfl, by simp, hHolds, Except.error.inj hError⟩
        · rintro ⟨met, failed, unmet, hSplit, hMet, hFails⟩
          cases met with
          | nil =>
              cases hSplit
              exact congrArg Except.error hFails.2
          | cons m met =>
              cases hSplit
              exact absurd (hMet r (List.mem_cons_self ..)) hHolds

/-- The error of the first requirement that fails. -/
def unmet? (checks : List (Requirement ε)) : Option ε :=
  (checks.find? fun r => !r.holds).map (·.error)

theorem unmet?_cons (r : Requirement ε) (rest : List (Requirement ε)) :
    unmet? (r :: rest) = if r.holds then unmet? rest else some r.error := by
  by_cases hHolds : r.holds <;> simp [unmet?, hHolds]

theorem unmet?_eq_none_iff : unmet? checks = none ↔ ∀ r ∈ checks, r.holds := by
  simp [unmet?]

theorem unmet?_of_split {met unmet : List (Requirement ε)} (hMet : ∀ m ∈ met, m.holds)
    (hFails : ¬ r.holds) : unmet? (met ++ r :: unmet) = some r.error := by
  induction met with
  | nil => exact (unmet?_cons r unmet).trans (if_neg hFails)
  | cons m met ih =>
      obtain ⟨hHere, hLater⟩ := List.forall_mem_cons.mp hMet
      rw [List.cons_append, unmet?_cons, if_pos hHere, ih hLater]

theorem checkAll_eq_passing (checks : List (Requirement ε)) :
    checkAll checks = (Effect.passing (unmet? checks) ()).mapError .refused := by
  induction checks with
  | nil => rfl
  | cons r rest ih =>
      rw [unmet?_cons]
      by_cases hHolds : r.holds
      · rw [checkAll_of_holds hHolds, if_pos hHolds, ih]
      · rw [checkAll_of_fails hHolds, if_neg hHolds]
        rfl

theorem require_ok (condition : Bool) (error : ε) :
    (do Stop.require condition error; .ok ()) = Stop.require condition error := by
  cases condition <;> rfl

theorem ofFault_bind (a : α) (f : α → Except (Stop ε) β) :
    (Stop.ofFault (.ok a) >>= f) = f a :=
  rfl

theorem ofOption_bind (error : ε) (a : α) (f : α → Except (Stop ε) β) :
    (Stop.ofOption error (some a) >>= f) = f a :=
  rfl

/-- A step of a program goes with the next requirement, and what follows is compared only where that
one holds. -/
theorem require_checks {condition : Bool} {f g : Except (Stop ε) α} (hSame : condition = r.holds)
    (hRest : r.holds → f = (do checkAll rest; g)) :
    (do Stop.require condition r.error; f) = (do checkAll (r :: rest); g) := by
  by_cases hHolds : r.holds
  · rw [checkAll_of_holds hHolds, ← hRest hHolds, hSame, Stop.require, if_pos hHolds]
    rfl
  · rw [checkAll_of_fails hHolds, hSame, Stop.require, if_neg hHolds]
    rfl

/-- A step that finds something exactly if the requirement holds. -/
theorem find_checks {x : Option β} {f : β → Except (Stop ε) α} {g : Except (Stop ε) α}
    (hNone : x = none ↔ ¬ r.holds)
    (hRest : ∀ found, x = some found → f found = (do checkAll rest; g)) :
    (Stop.ofOption r.error x >>= f) = (do checkAll (r :: rest); g) := by
  cases hFound : x with
  | none =>
      rw [checkAll_of_fails (hNone.mp hFound)]
      rfl
  | some found =>
      have hHolds : r.holds := by simpa [hFound] using hNone
      rw [checkAll_of_holds hHolds, ← hRest found hFound]
      rfl

namespace Elf

/-- The number in so many bytes at a place of a file, the least significant byte first. -/
def number (file : Buffer) (start count : Nat) : Nat := Packed.field file.bytes.toList start count

/-- What the header must say of the kind of file. -/
def headerRequirements (file : Buffer) : List (Requirement Error) :=
  [⟨.invalidMagic, file.bytes.toList.take 4 = [0x7F, 0x45, 0x4C, 0x46]⟩,
    ⟨.invalidClass, file.bytes[4]? = some 2⟩,
    ⟨.invalidEncoding, file.bytes[5]? = some 1⟩,
    ⟨.invalidVersion, file.bytes[6]? = some 1⟩,
    ⟨.invalidType, number file 16 2 = 2⟩,
    ⟨.invalidMachine, number file 18 2 = 62⟩,
    ⟨.invalidHeaderSize, 64 ≤ number file 52 2⟩,
    ⟨.invalidSectionHeaderSize, number file 58 2 = 64⟩,
    ⟨.invalidProgramHeaderSize, number file 54 2 = 56⟩]

/-- Where the tables of sections and segments must lie. -/
def tableRequirements (file : Buffer) : List (Requirement Error) :=
  [⟨.invalidNameIndex, number file 62 2 < number file 60 2⟩,
    ⟨.sectionTableOutOfBounds, number file 40 8 + 64 * number file 60 2 ≤ file.size⟩,
    ⟨.programTableOutOfBounds, number file 32 8 + 56 * number file 56 2 ≤ file.size⟩]

/-- What is required of a string table of `length` bytes at a place. -/
def stringTableRequirements (file : Buffer) (start length : Nat) : List (Requirement Error) :=
  [⟨.stringTableOutOfBounds, start + length ≤ file.size⟩,
    ⟨.stringTableEmpty, 0 < length⟩,
    ⟨.stringTableNotTerminated, file.bytes[start + length - 1]? = some 0⟩]

/-- The place of the header of the section that holds the names of sections. -/
def namesPlace (file : Buffer) : Nat := number file 40 8 + 64 * number file 62 2

/-- The format of an executable, in the order in which it is checked. -/
def requirements (file : Buffer) : List (Requirement Error) :=
  ⟨.tooSmall, 64 ≤ file.size⟩ :: (headerRequirements file ++ (tableRequirements file ++
    ⟨.notStringTable, number file (namesPlace file + 4) 4 = 3⟩ ::
      stringTableRequirements file (number file (namesPlace file + 24) 8)
        (number file (namesPlace file + 32) 8)))

/-- The header has the numbers that stand at their places at the start of the file. -/
structure Header.Spelled (h : Header) (file : Buffer) : Prop where
  identity : h.identity = file.bytes.toList.take 16
  type : h.type.toNat = number file 16 2
  machine : h.machine.toNat = number file 18 2
  segmentTable : h.segmentTable.toNat = number file 32 8
  sectionTable : h.sectionTable.toNat = number file 40 8
  headerSize : h.headerSize.toNat = number file 52 2
  segmentHeaderSize : h.segmentHeaderSize.toNat = number file 54 2
  segmentCount : h.segmentCount.toNat = number file 56 2
  sectionHeaderSize : h.sectionHeaderSize.toNat = number file 58 2
  sectionCount : h.sectionCount.toNat = number file 60 2
  nameSection : h.nameSection.toNat = number file 62 2

theorem Header.spelled_of_read? {h : Header} {file : Buffer}
    (hRead : Packed.read? Header file.bytes 0 = some h) : h.Spelled file := by
  have hField (start count : Nat) (hInside : start + count ≤ 64) :
      Packed.field (file.bytes.extract 0 (0 + 64)).toList start count =
        number file start count := by
    rw [Packed.field_extract hInside, Nat.zero_add, number]
  simp only [Packed.read?, Option.ite_none_right_eq_some, Option.some.injEq] at hRead
  obtain ⟨-, rfl⟩ := hRead
  exact {
    identity := by simp [Packed.decode, Packed.width, List.extract_eq_take_drop, List.take_take]
    type := Packed.toNat_field_two.trans (hField 16 2 (by decide))
    machine := Packed.toNat_field_two.trans (hField 18 2 (by decide))
    segmentTable := Packed.toNat_field_eight.trans (hField 32 8 (by decide))
    sectionTable := Packed.toNat_field_eight.trans (hField 40 8 (by decide))
    headerSize := Packed.toNat_field_two.trans (hField 52 2 (by decide))
    segmentHeaderSize := Packed.toNat_field_two.trans (hField 54 2 (by decide))
    segmentCount := Packed.toNat_field_two.trans (hField 56 2 (by decide))
    sectionHeaderSize := Packed.toNat_field_two.trans (hField 58 2 (by decide))
    sectionCount := Packed.toNat_field_two.trans (hField 60 2 (by decide))
    nameSection := Packed.toNat_field_two.trans (hField 62 2 (by decide)) }

/-- The section header has the numbers that stand at a place of the file. -/
structure Section.Spelled (s : Section) (file : Buffer) (place : Nat) : Prop where
  name : s.name.toNat = number file place 4
  type : s.type.toNat = number file (place + 4) 4
  flags : s.flags.toNat = number file (place + 8) 8
  address : s.address.toNat = number file (place + 16) 8
  offset : s.offset.toNat = number file (place + 24) 8
  size : s.size.toNat = number file (place + 32) 8
  link : s.link.toNat = number file (place + 40) 4
  info : s.info.toNat = number file (place + 44) 4
  alignment : s.alignment.toNat = number file (place + 48) 8
  entrySize : s.entrySize.toNat = number file (place + 56) 8

theorem Section.spelled_of_read? {s : Section} {file : Buffer} {place : Nat}
    (hRead : Packed.read? Section file.bytes place = some s) : s.Spelled file place := by
  have hField (start count : Nat) (hInside : start + count ≤ 64) :
      Packed.field (file.bytes.extract place (place + 64)).toList start count =
        number file (place + start) count :=
    Packed.field_extract hInside
  simp only [Packed.read?, Option.ite_none_right_eq_some, Option.some.injEq] at hRead
  obtain ⟨-, rfl⟩ := hRead
  exact {
    name := Packed.toNat_field_four.trans (hField 0 4 (by decide))
    type := Packed.toNat_field_four.trans (hField 4 4 (by decide))
    flags := Packed.toNat_field_eight.trans (hField 8 8 (by decide))
    address := Packed.toNat_field_eight.trans (hField 16 8 (by decide))
    offset := Packed.toNat_field_eight.trans (hField 24 8 (by decide))
    size := Packed.toNat_field_eight.trans (hField 32 8 (by decide))
    link := Packed.toNat_field_four.trans (hField 40 4 (by decide))
    info := Packed.toNat_field_four.trans (hField 44 4 (by decide))
    alignment := Packed.toNat_field_eight.trans (hField 48 8 (by decide))
    entrySize := Packed.toNat_field_eight.trans (hField 56 8 (by decide)) }

variable {file : Buffer}

/-- The checks of the header are the requirements on it. -/
theorem Header.check_eq {h : Header} (spelled : h.Spelled file) :
    h.check = checkAll (headerRequirements file) := by
  have hMagic : h.identity.take 4 = file.bytes.toList.take 4 := by
    rw [spelled.identity, List.take_take]
    rfl
  have hIdentity (index : Nat) (hIndex : index < 16) : h.identity[index]? = file.bytes[index]? := by
    rw [spelled.identity, List.getElem?_take_of_lt hIndex, Array.getElem?_toList]
  have hType : h.type = 2 ↔ number file 16 2 = 2 := by
    rw [← spelled.type, ← UInt16.toNat_inj]
    rfl
  have hMachine : h.machine = 62 ↔ number file 18 2 = 62 := by
    rw [← spelled.machine, ← UInt16.toNat_inj]
    rfl
  simp only [check, Bool.beq_eq_decide_eq, hMagic, hIdentity 4 (by decide),
    hIdentity 5 (by decide), hIdentity 6 (by decide), hType, hMachine, spelled.headerSize,
    spelled.sectionHeaderSize, spelled.segmentHeaderSize, headerRequirements, checkAll,
    require_ok]
  rfl

/-- The last byte of a part of a file. -/
theorem back?_part {bytes : Array UInt8} {start length : Nat}
    (hFits : start + length ≤ bytes.size) : (bytes.extract start (start + length)).back? =
      if 0 < length then bytes[start + length - 1]? else none := by
  rw [Array.back?_eq_getElem?, Array.size_extract, Nat.min_eq_left hFits, Nat.add_sub_cancel_left,
    Array.getElem?_extract, Nat.min_eq_left hFits, Nat.add_sub_cancel_left]
  by_cases hPos : 0 < length
  · rw [if_pos hPos, if_pos (by omega), Nat.add_sub_assoc hPos]
  · rw [if_neg hPos, if_neg (by omega)]

/-- A string table is checked against the requirements on it, and is the part of the file. -/
theorem StringTable.ofSection_eq (file : Buffer) (s : Section) : ofSection file s =
    (do
      checkAll (stringTableRequirements file s.offset.toNat s.size.toNat)
      .ok ⟨file.bytes.extract s.offset.toNat (s.offset.toNat + s.size.toNat)⟩) := by
  refine find_checks (r := ⟨_, _⟩) ?_ fun range hRange => ?_
  · rw [Range.within?_eq_none_iff]
    simp
  · have hFits : s.offset.toNat + s.size.toNat ≤ file.bytes.size :=
      (Range.within?_eq_some_iff.mp hRange).1
    rw [Buffer.slice_of_within? hRange, ofFault_bind, back?_part hFits]
    by_cases hPos : 0 < s.size.toNat
    · have hInside : s.offset.toNat + s.size.toNat - 1 < file.bytes.size := by omega
      rw [if_pos hPos, checkAll_of_holds (decide_eq_true hPos), Array.getElem?_eq_getElem hInside]
      by_cases hLast : file.bytes[s.offset.toNat + s.size.toNat - 1] = 0
      · rw [checkAll_of_holds (by simp [hLast])]
        exact if_pos hLast
      · rw [checkAll_of_fails (by simp [hLast])]
        exact if_neg hLast
    · rw [if_neg hPos, checkAll_of_fails (by simpa using hPos)]
      rfl

/-- A name section below the number of sections has its header in the table, so it is always
found. -/
theorem Header.exists_sectionAt {h : Header} (hIndex : h.nameSection.toNat < h.sectionCount.toNat)
    (hTable : h.sectionTable.toNat + 64 * h.sectionCount.toNat ≤ file.size) :
    ∃ s, h.sectionAt? file h.nameSection.toNat = some s := by
  have hRoom : h.sectionTable.toNat + h.nameSection.toNat * 64 + 64 ≤ file.bytes.size := by
    unfold Buffer.size at hTable
    omega
  exact ⟨_, if_pos hRoom⟩

namespace Image

/-- The image that a file of the format spells. -/
def ofFile (file : Buffer) : Image where
  file
  header := Packed.decode (file.bytes.extract 0 64).toList
  sectionNames :=
    let start := number file (namesPlace file + 24) 8
    ⟨file.bytes.extract start (start + number file (namesPlace file + 32) 8)⟩

/-- Parsing checks the requirements in their order. -/
theorem parse_eq (file : Buffer) : parse file =
    (do
      checkAll (requirements file)
      .ok (ofFile file)) := by
  -- Each step goes past one check of the parser and the requirement that it decides.
  refine find_checks (r := ⟨_, _⟩) ?_ fun header hRead => ?_
  · rw [Packed.read?_eq_none_iff, decide_eq_true_iff, Nat.not_le]
    rfl
  have hSpelled := Header.spelled_of_read? hRead
  rw [Header.check_eq hSpelled, checkAll_append, bind_assoc]
  refine bind_congr fun _ => ?_
  obtain ⟨hSections, hSectionBytes⟩ := Checked.mul_count header.sectionCount (Packed.width Section)
    (by decide)
  obtain ⟨hSegments, hSegmentBytes⟩ := Checked.mul_count header.segmentCount (Packed.width Segment)
    (by decide)
  refine require_checks (r := ⟨_, _⟩) ?_ fun hIndex => ?_
  · simp [UInt16.lt_iff_toNat_lt, hSpelled.nameSection, hSpelled.sectionCount]
  rw [hSections, ofFault_bind]
  refine find_checks (r := ⟨_, _⟩) ?_ fun _ hSectionTable => ?_
  · rw [Range.within?_eq_none_iff, hSectionBytes, hSpelled.sectionTable, hSpelled.sectionCount,
      Nat.mul_comm, decide_eq_true_iff, Nat.not_le]
    rfl
  rw [hSegments, ofFault_bind]
  refine find_checks (r := ⟨_, _⟩) ?_ fun _ hSegmentTable => ?_
  · rw [Range.within?_eq_none_iff, hSegmentBytes, hSpelled.segmentTable, hSpelled.segmentCount,
      Nat.mul_comm, decide_eq_true_iff, Nat.not_le]
    rfl
  have hFits := (Range.within?_eq_some_iff.mp hSectionTable).1
  rw [hSectionBytes, Nat.mul_comm] at hFits
  have hBelow : header.nameSection.toNat < header.sectionCount.toNat := by
    simpa [hSpelled.nameSection, hSpelled.sectionCount] using hIndex
  obtain ⟨names, hNames⟩ := Header.exists_sectionAt hBelow hFits
  rw [hNames, ofOption_bind]
  have hPlace : header.sectionTable.toNat + header.nameSection.toNat * 64 = namesPlace file := by
    rw [hSpelled.sectionTable, hSpelled.nameSection, Nat.mul_comm, namesPlace]
  have hNamesSpelled : names.Spelled file (namesPlace file) := by
    rw [← hPlace]
    exact Section.spelled_of_read? hNames
  refine require_checks (r := ⟨_, _⟩) ?_ fun _ => ?_
  · rw [Section.isStringTable, Bool.beq_eq_decide_eq, ← hNamesSpelled.type]
    simp [← UInt32.toNat_inj]
  rw [StringTable.ofSection_eq, bind_assoc, hNamesSpelled.offset, hNamesSpelled.size]
  refine bind_congr fun _ => ?_
  simp only [Packed.read?, Option.ite_none_right_eq_some, Option.some.injEq] at hRead
  rw [← hRead.2]
  rfl

/-- Parsing gives the image that the file spells exactly if the file meets all requirements, and
otherwise reports the first in their order that it does not meet. It never panics, and the look for
the header of the name section never reports anything. -/
theorem parse_reports_first (file : Buffer) :
    (∀ image, parse file = .ok image ↔
      image = ofFile file ∧ ∀ r ∈ requirements file, r.holds) ∧
      (∀ error, parse file = .error (.refused error) ↔ ∃ met r unmet,
        requirements file = met ++ r :: unmet ∧ (∀ m ∈ met, m.holds) ∧ ¬ r.holds ∧
          r.error = error) ∧
      (∀ cause, parse file ≠ .error (.panicked cause)) ∧
      ∀ header : Header, header.nameSection < header.sectionCount →
        header.sectionTable.toNat + 64 * header.sectionCount.toNat ≤ file.size →
          header.sectionAt? file header.nameSection.toNat ≠ none := by
  refine ⟨?_, ?_, quiet_parse file, ?_⟩
  · intro image
    rw [← checkAll_eq_ok, parse_eq, bind_eq_ok]
    constructor
    · rintro ⟨_, hChecked, hImage⟩
      exact ⟨(Except.ok.inj hImage).symm, hChecked⟩
    · rintro ⟨rfl, hChecked⟩
      exact ⟨(), hChecked, rfl⟩
  · intro error
    have hError : parse file = .error (.refused error) ↔
        checkAll (requirements file) = .error (.refused error) := by
      rw [parse_eq]
      cases checkAll (requirements file) <;> simp [bind, Except.bind]
    rw [hError, checkAll_eq_error]
    simp only [Stop.refused.injEq]
  · intro header hIndex hTable
    obtain ⟨s, hFound⟩ := Header.exists_sectionAt (UInt16.lt_iff_toNat_lt.mp hIndex) hTable
    simp [hFound]

end Image

end Elf

end Supervisor
