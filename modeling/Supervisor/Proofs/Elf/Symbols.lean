import Supervisor.Proofs.Elf.Format

/-! Symbol tables and the names of symbols. A table that was accepted has the entries that the file
spells, and a name at every place inside it. -/

namespace Supervisor.Elf

variable {file : Buffer} {image : Image} {names : StringTable}

/-- What is required of a section that holds symbols. -/
def symbolTableRequirements (file : Buffer) (s : Section) : List (Requirement Error) :=
  [⟨.symbolTableOutOfBounds, s.offset.toNat + s.size.toNat ≤ file.size⟩,
    ⟨.invalidSymbolSize, s.entrySize.toNat = 24 ∧ s.size.toNat % 24 = 0⟩]

/-- The entries that the file spells where a section is, one after the other. -/
def Section.entries (s : Section) (file : Buffer) : List Symbol :=
  (List.range' s.offset.toNat (s.size.toNat / 24) 24).map (Symbol.readAt file.bytes)

/-- An entry of a part of a file is one of the file. -/
theorem Symbol.readAt_extract {bytes : Array UInt8} {start stop place : Nat}
    (hInside : place + 24 ≤ stop - start) :
    readAt (bytes.extract start stop) place = readAt bytes (start + place) := by
  have hStop : min (start + (place + 24)) stop = start + place + 24 := by omega
  simp only [readAt, Packed.width, Array.extract_extract, hStop]

/-- The entries of a table that lies in the file. -/
theorem Section.readTable_eq {s : Section} (hFits : s.offset.toNat + s.size.toNat ≤ file.size) :
    Symbol.readTable (file.bytes.extract s.offset.toNat (s.offset.toNat + s.size.toNat)) =
      .ok (s.entries file) := by
  have hSize : (file.bytes.extract s.offset.toNat (s.offset.toNat + s.size.toNat)).size =
      s.size.toNat := by
    unfold Buffer.size at hFits
    rw [Array.size_extract, Nat.min_eq_left hFits, Nat.add_sub_cancel_left]
  rw [Symbol.readTable_eq (by rw [hSize]; exact s.size.toNat_lt), hSize, Section.entries]
  have hPlaces := List.map_add_range' (a := s.offset.toNat) 0 (s.size.toNat / 24) 24
  rw [Nat.add_zero] at hPlaces
  rw [← hPlaces, List.map_map]
  congr 1
  apply List.map_congr_left
  intro place hMem
  obtain ⟨i, hIndex, rfl⟩ := List.mem_range'.mp hMem
  have hRoom := Nat.div_mul_le_self s.size.toNat 24
  have hEntry : i < s.size.toNat / 24 := hIndex
  refine Symbol.readAt_extract ?_
  show 0 + 24 * i + 24 ≤ _
  omega

/-- A symbol table is checked against the requirements on it, and its entries are those that the
file spells. -/
theorem Image.symbols_eq (image : Image) (s : Section) : image.symbols s =
    (do
      checkAll (symbolTableRequirements image.file s)
      .ok (s.entries image.file)) := by
  refine find_checks (r := ⟨_, _⟩) ?_ fun range hRange => ?_
  · rw [Range.within?_eq_none_iff]
    simp
  · refine require_checks (r := ⟨_, _⟩) ?_ fun _ => ?_
    · simp only [Packed.width, Bool.beq_eq_decide_eq, ← UInt64.toNat_inj, Bool.decide_and,
        UInt64.toNat_mod]
      rfl
    · rw [Buffer.slice_of_within? hRange, ofFault_bind,
        Section.readTable_eq (Range.within?_eq_some_iff.mp hRange).1]
      rfl

namespace StringTable

/-- The table is not empty and its last byte is zero. -/
def Terminated (t : StringTable) : Prop := t.bytes.back? = some 0

theorem terminated_of_section {s : Section} (hNames : ofSection file s = .ok names) :
    names.Terminated := by
  rw [ofSection_eq, bind_eq_ok] at hNames
  obtain ⟨_, hChecked, hNames⟩ := hNames
  have hHolds := checkAll_eq_ok.mp hChecked
  simp only [stringTableRequirements, List.forall_mem_cons, decide_eq_true_eq] at hHolds
  obtain ⟨hFits, hPos, hLast, -⟩ := hHolds
  rw [← Except.ok.inj hNames, Terminated, back?_part hFits, if_pos hPos, hLast]

/-- A name starts exactly at the places inside a table that ends in a zero byte. -/
theorem get?_isSome_iff (terminated : names.Terminated) {start : UInt32} :
    (names.get? start).isSome ↔ start.toNat < names.size := by
  rw [Terminated, Array.back?_eq_getElem?, Array.getElem?_eq_some_iff] at terminated
  obtain ⟨hLast, hZero⟩ := terminated
  rw [get?]
  constructor
  · intro hSome
    by_cases hInside : start.toNat < names.size
    · exact hInside
    · by_cases hEnd : start.toNat ≤ names.size
      · have hStart : start.toNat = names.bytes.size := by
          unfold size at hInside hEnd
          omega
        simp [hStart, size] at hSome
      · simp [hEnd] at hSome
  · intro hInside
    have hMem : (0 : UInt8) ∈ names.bytes.extract start.toNat names.size := by
      rw [Array.mem_extract_iff_getElem]
      unfold size at hInside ⊢
      refine ⟨names.bytes.size - 1 - start.toNat, by omega, ?_⟩
      simpa [Nat.add_sub_cancel' (show start.toNat ≤ names.bytes.size - 1 by omega)] using hZero
    rw [if_pos (Nat.le_of_lt hInside), Option.isSome_map, Array.findIdx?_isSome,
      Array.any_eq_true']
    exact ⟨0, hMem, rfl⟩

end StringTable

namespace Image

theorem terminated_of_symbolNamesIn {sections : List Section}
    (hNames : image.symbolNamesIn sections = .ok (some names)) : names.Terminated := by
  induction sections with
  | nil => cases hNames
  | cons s rest ih =>
      obtain ⟨name, -, hRest⟩ := bind_eq_ok.mp hNames
      split at hRest
      · obtain ⟨found, hFound, hSame⟩ := bind_eq_ok.mp hRest
        cases hSame
        exact StringTable.terminated_of_section hFound
      · exact ih hRest

theorem terminated_of_symbolNames (hNames : image.symbolNames = .ok (some names)) :
    names.Terminated :=
  terminated_of_symbolNamesIn hNames

end Image

end Supervisor.Elf
