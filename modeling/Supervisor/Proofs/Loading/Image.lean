import Supervisor.Elf.Image
import Supervisor.Proofs.Outcome

/-! Reading a hostile file. `parse` and the accessors give a result or refuse, but no file makes
them fault. -/

namespace Supervisor

variable {ε α β : Type}

/-- A computation that gives a result or is refused. -/
def Quiet (r : Except (Stop ε) α) : Prop := ∀ cause, r ≠ .error (.panicked cause)

theorem Quiet.ok (a : α) : Quiet (.ok a : Except (Stop ε) α) := by
  intro cause h
  cases h

theorem Quiet.refused (error : ε) : Quiet (.error (.refused error) : Except (Stop ε) α) := by
  intro cause h
  cases h

theorem Quiet.bind {x : Except (Stop ε) α} {f : α → Except (Stop ε) β} (hFirst : Quiet x)
    (hRest : ∀ a, x = .ok a → Quiet (f a)) : Quiet (x >>= f) := by
  cases x with
  | ok a => exact hRest a rfl
  | error stop =>
      intro cause h
      exact hFirst cause (by cases h; rfl)

/-- A quiet computation is one that knows refusals only. -/
theorem Quiet.exists_eq {r : Except (Stop ε) α} (quiet : Quiet r) :
    ∃ r' : Except ε α, r = r'.mapError .refused := by
  cases r with
  | ok a => exact ⟨.ok a, rfl⟩
  | error stop =>
      cases stop with
      | refused error => exact ⟨.error error, rfl⟩
      | panicked cause => exact absurd rfl (quiet cause)

theorem Quiet.exists_refused {r : Except (Stop ε) α} {stop : Stop ε} (quiet : Quiet r)
    (hStop : r = .error stop) : ∃ error, stop = .refused error := by
  cases stop with
  | refused error => exact ⟨error, rfl⟩
  | panicked cause => exact absurd hStop (quiet cause)

namespace Stop

theorem quiet_require (condition : Bool) (error : ε) : Quiet (require condition error) := by
  cases condition
  · exact Quiet.refused error
  · exact Quiet.ok ()

theorem quiet_ofOption (error : ε) (x : Option α) : Quiet (ofOption error x) := by
  cases x with
  | none => exact Quiet.refused error
  | some a => exact Quiet.ok a

theorem ofOption_eq_ok {error : ε} {x : Option α} {a : α} :
    ofOption error x = .ok a ↔ x = some a := by
  cases x <;> simp [ofOption]

theorem ofFault_eq_ok {x : Except Fault α} {a : α} :
    (ofFault x : Except (Stop ε) α) = .ok a ↔ x = .ok a := by
  cases x <;> simp [ofFault]

theorem refused_eq_ok {x : Except ε α} {a : α} : x.mapError refused = .ok a ↔ x = .ok a := by
  cases x with
  | ok b => exact ⟨fun h => (by cases h; rfl), fun h => (by cases h; rfl)⟩
  | error e => exact ⟨fun h => (by cases h), fun h => (by cases h)⟩

theorem refused_eq_error {x : Except ε α} {error : ε} :
    x.mapError refused = .error (.refused error) ↔ x = .error error := by
  cases x with
  | ok b => exact ⟨fun h => (by cases h), fun h => (by cases h)⟩
  | error e => exact ⟨fun h => (by cases h; rfl), fun h => (by cases h; rfl)⟩

end Stop

theorem bind_eq_ok {x : Except ε α} {f : α → Except ε β} {b : β} :
    (x >>= f) = .ok b ↔ ∃ a, x = .ok a ∧ f a = .ok b := by
  cases x with
  | ok a => exact ⟨fun h => ⟨a, rfl, h⟩, fun ⟨_, hEq, h⟩ => by cases hEq; exact h⟩
  | error e => exact ⟨fun h => (by cases h), fun ⟨_, hEq, _⟩ => (by cases hEq)⟩

theorem map_eq_error {f : α → β} {x : Except ε α} {error : ε} :
    x.map f = .error error ↔ x = .error error := by
  cases x <;> simp [Except.map]

/-- A list whose elements all give a result is gone through without an error. -/
theorem mapM_eq_ok {f : α → Except ε β} {g : α → β} {l : List α}
    (hAll : ∀ a ∈ l, f a = .ok (g a)) : l.mapM f = .ok (l.map g) := by
  induction l with
  | nil => rfl
  | cons a rest ih =>
      rw [List.mapM_cons, hAll a (List.mem_cons_self ..),
        ih fun b hMem => hAll b (List.mem_cons_of_mem _ hMem)]
      rfl

namespace Checked

theorem add_eq_ok {a b : UInt64} (hFits : a.toNat + b.toNat < UInt64.size) :
    add a b = .ok (a + b) :=
  if_pos hFits

theorem sub_eq_ok {a b : UInt64} (hLe : b ≤ a) : sub a b = .ok (a - b) := if_pos hLe

theorem mul_eq_ok {a b : UInt64} (hFits : a.toNat * b.toNat < UInt64.size) :
    mul a b = .ok (a * b) :=
  if_pos hFits

/-- A count of 16 bits times the width of a record is a word. -/
theorem mul_count (count : UInt16) (width : Nat) (hWidth : width ≤ 64) :
    mul count.toUInt64 width.toUInt64 = .ok (count.toUInt64 * width.toUInt64) ∧
      (count.toUInt64 * width.toUInt64).toNat = count.toNat * width := by
  have hCount := count.toNat_lt
  have hWord : width.toUInt64.toNat = width :=
    UInt64.toNat_ofNat_of_lt' (by simp only [UInt64.size]; omega)
  have hProduct : count.toNat * width < UInt64.size := by
    have hLe := Nat.mul_le_mul (Nat.le_of_lt hCount) hWidth
    simp only [UInt64.size]
    omega
  refine ⟨mul_eq_ok ?_, ?_⟩
  · rw [UInt16.toNat_toUInt64, hWord]
    exact hProduct
  · rw [UInt64.toNat_mul, UInt16.toNat_toUInt64, hWord]
    exact Nat.mod_eq_of_lt hProduct

/-- The place of a record in a table, computed in words, where it is below the size of a word. -/
theorem place_eq (table : UInt64) (index width : Nat) (hWidth : 0 < width)
    (hPlace : table.toNat + index * width + width ≤ UInt64.size) :
    mul index.toUInt64 width.toUInt64 = .ok (index.toUInt64 * width.toUInt64) ∧
      add table (index.toUInt64 * width.toUInt64) =
        .ok (table + index.toUInt64 * width.toUInt64) ∧
      (table + index.toUInt64 * width.toUInt64).toNat = table.toNat + index * width := by
  have hIndexLe : index ≤ index * width := Nat.le_mul_of_pos_right index hWidth
  have hIndex : index.toUInt64.toNat = index := UInt64.toNat_ofNat_of_lt' (by omega)
  have hWord : width.toUInt64.toNat = width % UInt64.size := UInt64.toNat_ofNat'
  have hProduct : index.toUInt64.toNat * width.toUInt64.toNat ≤ index * width := by
    rw [hIndex, hWord]
    exact Nat.mul_le_mul_left index (Nat.mod_le _ _)
  have hDistance : (index.toUInt64 * width.toUInt64).toNat = index * width := by
    rw [UInt64.toNat_mul, hIndex, hWord]
    show index * (width % UInt64.size) % UInt64.size = index * width
    rw [Nat.mul_mod_mod]
    exact Nat.mod_eq_of_lt (by omega)
  refine ⟨mul_eq_ok (by omega), add_eq_ok (by omega), ?_⟩
  rw [UInt64.toNat_add, hDistance]
  exact Nat.mod_eq_of_lt (show _ < UInt64.size by omega)

end Checked

theorem Range.within?_eq_some_iff {start length : UInt64} {size : Nat} {r : Range} :
    within? start length size = some r ↔
      start.toNat + length.toNat ≤ size ∧ r = ⟨start.toNat, start.toNat + length.toNat⟩ := by
  simp [within?, eq_comm]

namespace Elf

/-- A string table is refused or is the bytes of its section. No section makes this fault. -/
theorem StringTable.quiet_ofSection (file : Buffer) (s : Section) :
    Quiet (StringTable.ofSection file s) := by
  refine (Stop.quiet_ofOption _ _).bind fun range hRange => ?_
  rw [Buffer.slice_of_within? (Stop.ofOption_eq_ok.mp hRange)]
  refine (Quiet.ok _).bind fun bytes _ => ?_
  cases bytes.back? with
  | none => exact Quiet.refused _
  | some last =>
      show Quiet (if last = 0 then _ else _)
      split
      · exact Quiet.ok _
      · exact Quiet.refused _

/-- The entry that the bytes at a place spell. -/
def Symbol.readAt (bytes : Array UInt8) (place : Nat) : Symbol :=
  Packed.decode (bytes.extract place (place + Packed.width Symbol)).toList

/-- The place after an entry never needs more than a word, since the entry is in the table. -/
theorem Symbol.readFrom_eq {bytes : Array UInt8} (hSize : bytes.size < UInt64.size) {count : Nat}
    {place : UInt64} (hRoom : place.toNat + count * Packed.width Symbol ≤ bytes.size) :
    readFrom bytes count place =
      .ok ((List.range' place.toNat count (Packed.width Symbol)).map (readAt bytes)) := by
  induction count generalizing place with
  | zero => rfl
  | succ count ih =>
      rw [Nat.succ_mul] at hRoom
      have hFirst : place.toNat + Packed.width Symbol ≤ bytes.size := by omega
      have hNext : Checked.add place (Packed.width Symbol).toUInt64 = .ok _ :=
        Checked.add_eq_ok (Nat.lt_of_le_of_lt hFirst hSize)
      have hPlace : (place + (Packed.width Symbol).toUInt64).toNat =
          place.toNat + Packed.width Symbol := by
        rw [UInt64.toNat_add]
        exact Nat.mod_eq_of_lt (Nat.lt_of_le_of_lt hFirst hSize)
      have hRest : readFrom bytes count (place + (Packed.width Symbol).toUInt64) = .ok _ :=
        ih (by omega)
      rw [hPlace] at hRest
      rw [readFrom, Packed.read?, if_pos hFirst]
      exact bind_eq_ok.mpr ⟨_, hNext, bind_eq_ok.mpr ⟨_, hRest, rfl⟩⟩

theorem Symbol.readTable_eq {bytes : Array UInt8} (hSize : bytes.size < UInt64.size) :
    readTable bytes = .ok ((List.range' 0 (bytes.size / Packed.width Symbol)
      (Packed.width Symbol)).map (readAt bytes)) := by
  have hRoom := Nat.div_mul_le_self bytes.size (Packed.width Symbol)
  have hFrom : readFrom bytes (bytes.size / Packed.width Symbol) 0 = .ok _ :=
    readFrom_eq hSize (by rw [UInt64.toNat_zero, Nat.zero_add]; exact hRoom)
  exact hFrom

theorem Header.quiet_check (h : Header) : Quiet h.check := by
  refine (Stop.quiet_require _ _).bind fun _ _ => ?_
  refine (Stop.quiet_require _ _).bind fun _ _ => ?_
  refine (Stop.quiet_require _ _).bind fun _ _ => ?_
  refine (Stop.quiet_require _ _).bind fun _ _ => ?_
  refine (Stop.quiet_require _ _).bind fun _ _ => ?_
  refine (Stop.quiet_require _ _).bind fun _ _ => ?_
  refine (Stop.quiet_require _ _).bind fun _ _ => ?_
  refine (Stop.quiet_require _ _).bind fun _ _ => ?_
  exact Stop.quiet_require _ _

namespace Image

variable {file : Buffer} {image : Image}

theorem quiet_parse (file : Buffer) : Quiet (parse file) := by
  refine (Stop.quiet_ofOption _ _).bind fun header _ => ?_
  refine header.quiet_check.bind fun _ _ => ?_
  refine (Stop.quiet_require _ _).bind fun _ _ => ?_
  rw [(Checked.mul_count header.sectionCount _ (by decide)).1]
  refine (Quiet.ok _).bind fun _ _ => (Stop.quiet_ofOption _ _).bind fun _ _ => ?_
  rw [(Checked.mul_count header.segmentCount _ (by decide)).1]
  refine (Quiet.ok _).bind fun _ _ => (Stop.quiet_ofOption _ _).bind fun _ _ => ?_
  refine (Stop.quiet_ofOption _ _).bind fun names _ => ?_
  refine (Stop.quiet_require _ _).bind fun _ _ => ?_
  exact (StringTable.quiet_ofSection file names).bind fun _ _ => Quiet.ok _

/-- Both tables of an image lie inside its file. -/
structure Fits (image : Image) : Prop where
  sections : image.header.sectionTable.toNat +
    image.header.sectionCount.toNat * Packed.width Section ≤ image.file.size
  segments : image.header.segmentTable.toNat +
    image.header.segmentCount.toNat * Packed.width Segment ≤ image.file.size

/-- In a table of records of one width each record ends no later than the table. -/
theorem record_le (start width : Nat) {index count : Nat} (hIndex : index < count) :
    start + index * width + width ≤ start + count * width := by
  have hRoom := Nat.mul_le_mul_right width (Nat.succ_le_of_lt hIndex)
  rw [Nat.succ_mul] at hRoom
  omega

theorem Fits.section_le (fits : image.Fits) {index : Nat}
    (hIndex : index < image.header.sectionCount.toNat) :
    image.header.sectionTable.toNat + index * Packed.width Section + Packed.width Section ≤
      image.file.bytes.size :=
  Nat.le_trans (record_le _ _ hIndex) fits.sections

theorem Fits.segment_le (fits : image.Fits) {index : Nat}
    (hIndex : index < image.header.segmentCount.toNat) :
    image.header.segmentTable.toNat + index * Packed.width Segment + Packed.width Segment ≤
      image.file.bytes.size :=
  Nat.le_trans (record_le _ _ hIndex) fits.segments

/-- What is known of an image because it was parsed. The names of its sections are those of the
section that its header gives the index of. -/
theorem parse_found (hParse : parse file = .ok image) : image.file = file ∧ image.Fits ∧
    ∃ s, image.getSection? image.header.nameSection.toNat = some s ∧
      StringTable.ofSection file s = .ok image.sectionNames := by
  obtain ⟨header, _, hParse⟩ := bind_eq_ok.mp hParse
  obtain ⟨_, _, hParse⟩ := bind_eq_ok.mp hParse
  obtain ⟨_, hIndex, hParse⟩ := bind_eq_ok.mp hParse
  obtain ⟨hSections, hSectionBytes⟩ := Checked.mul_count header.sectionCount 64 (by decide)
  obtain ⟨hSegments, hSegmentBytes⟩ := Checked.mul_count header.segmentCount 56 (by decide)
  obtain ⟨sectionBytes, hEq, hParse⟩ := bind_eq_ok.mp hParse
  cases hSections.symm.trans (Stop.ofFault_eq_ok.mp hEq)
  obtain ⟨_, hSectionTable, hParse⟩ := bind_eq_ok.mp hParse
  obtain ⟨segmentBytes, hEq, hParse⟩ := bind_eq_ok.mp hParse
  cases hSegments.symm.trans (Stop.ofFault_eq_ok.mp hEq)
  obtain ⟨_, hSegmentTable, hParse⟩ := bind_eq_ok.mp hParse
  obtain ⟨s, hSection, hParse⟩ := bind_eq_ok.mp hParse
  obtain ⟨_, _, hParse⟩ := bind_eq_ok.mp hParse
  obtain ⟨sectionNames, hNames, hParse⟩ := bind_eq_ok.mp hParse
  cases hParse
  have hBelow : header.nameSection < header.sectionCount := by
    simpa [Stop.require] using hIndex
  have hSectionsFit := (Range.within?_eq_some_iff.mp (Stop.ofOption_eq_ok.mp hSectionTable)).1
  have hSegmentsFit := (Range.within?_eq_some_iff.mp (Stop.ofOption_eq_ok.mp hSegmentTable)).1
  rw [hSectionBytes] at hSectionsFit
  rw [hSegmentBytes] at hSegmentsFit
  refine ⟨rfl, ⟨hSectionsFit, hSegmentsFit⟩, s, ?_, hNames⟩
  exact (if_pos (UInt16.lt_iff_toNat_lt.mp hBelow)).trans (Stop.ofOption_eq_ok.mp hSection)

theorem parse_eq_ok (hParse : parse file = .ok image) : image.file = file ∧ image.Fits :=
  (parse_found hParse).imp_right And.left

/-- The segment that the bytes at a place of the table spell. -/
def segmentHeader (image : Image) (index : Nat) : Segment :=
  let start := image.header.segmentTable.toNat + index * Packed.width Segment
  Packed.decode (image.file.bytes.extract start (start + Packed.width Segment)).toList

theorem segmentAt_eq (fits : image.Fits) {index : Nat}
    (hIndex : index < image.header.segmentCount.toNat) :
    image.segmentAt index = .ok (some (image.segmentHeader index)) := by
  have hFile := fits.segment_le hIndex
  obtain ⟨hProduct, hSum, hStart⟩ := Checked.place_eq image.header.segmentTable index
    (Packed.width Segment) (by decide) (Nat.le_trans hFile (Nat.le_of_lt image.file.size_lt))
  refine bind_eq_ok.mpr ⟨_, hProduct, bind_eq_ok.mpr ⟨_, hSum, ?_⟩⟩
  rw [hStart, Packed.read?, if_pos hFile]
  rfl

theorem segments_eq (fits : image.Fits) : image.segments =
    .ok ((List.range image.header.segmentCount.toNat).map image.segmentHeader) := by
  have hAll : (List.range image.header.segmentCount.toNat).mapM image.segmentAt =
      .ok ((List.range image.header.segmentCount.toNat).map (some ∘ image.segmentHeader)) :=
    mapM_eq_ok fun index hMem => segmentAt_eq fits (List.mem_range.mp hMem)
  refine bind_eq_ok.mpr ⟨_, hAll, ?_⟩
  rw [← List.map_map, List.filterMap_map]
  simp [pure, Except.pure]

theorem quiet_symbolNamesIn (image : Image) (sections : List Section) :
    Quiet (image.symbolNamesIn sections) := by
  induction sections with
  | nil => exact Quiet.ok none
  | cons s rest ih =>
      refine (Stop.quiet_ofOption _ _).bind fun name _ => ?_
      show Quiet (if _ then _ else _)
      split
      · exact (StringTable.quiet_ofSection image.file s).bind fun _ _ => Quiet.ok _
      · exact ih

theorem quiet_symbolNames (image : Image) : Quiet image.symbolNames :=
  image.quiet_symbolNamesIn image.sections

/-- The part of a file that a section names is no longer than the file. -/
theorem size_part (file : Buffer) (s : Section) :
    (file.bytes.extract s.offset.toNat (s.offset.toNat + s.size.toNat)).size ≤ file.size := by
  rw [Array.size_extract]
  exact Nat.le_trans (Nat.sub_le _ _) (Nat.min_le_right _ _)

theorem quiet_symbols (image : Image) (s : Section) : Quiet (image.symbols s) := by
  refine (Stop.quiet_ofOption _ _).bind fun range hRange => ?_
  refine (Stop.quiet_require _ _).bind fun _ _ => ?_
  rw [Buffer.slice_of_within? (Stop.ofOption_eq_ok.mp hRange)]
  refine (Quiet.ok _).bind fun bytes hBytes => ?_
  cases hBytes
  rw [Symbol.readTable_eq (Nat.lt_of_le_of_lt (size_part image.file s) image.file.size_lt)]
  exact Quiet.ok _

/-- A symbol table has no more entries than the file has room for. -/
theorem symbols_eq_ok {s : Section} {entries : List Symbol}
    (hEntries : image.symbols s = .ok entries) :
    Packed.width Symbol * entries.length ≤ image.file.size := by
  obtain ⟨range, hRange, hEntries⟩ := bind_eq_ok.mp hEntries
  obtain ⟨_, _, hEntries⟩ := bind_eq_ok.mp hEntries
  obtain ⟨bytes, hBytes, hEntries⟩ := bind_eq_ok.mp hEntries
  rw [Buffer.slice_of_within? (Stop.ofOption_eq_ok.mp hRange)] at hBytes
  cases hBytes
  rw [Symbol.readTable_eq (Nat.lt_of_le_of_lt (size_part image.file s) image.file.size_lt)]
    at hEntries
  cases hEntries
  rw [List.length_map, List.length_range']
  exact Nat.le_trans (Nat.mul_div_le _ _) (size_part image.file s)

end Image

end Elf

end Supervisor
