import Supervisor.Loading.Segments
import Supervisor.Proofs.Loading.Image

/-! What loading the segments of an image does. One that passes its two checks makes two writes, one
that fails makes none and is the end of it. -/

namespace Supervisor

namespace Elf.Segment

variable {file : Buffer} {limit : UInt64} {s : Segment}

/-- What the segment takes from the file lies inside it. -/
abbrev InFile (s : Segment) (file : Buffer) : Prop :=
  s.offset.toNat + s.sourceSize.toNat ≤ file.size

/-- The segment ends in memory before or at the bound. -/
abbrev Below (s : Segment) (limit : UInt64) : Prop :=
  s.virtualAddress.toNat + s.memorySize.toNat ≤ limit.toNat

/-- The first check that the segment fails. -/
def fault? (s : Segment) (file : Buffer) (limit : UInt64) : Option Error :=
  if ¬ s.InFile file then some .segmentOutOfBounds
  else if ¬ s.Below limit then some .segmentAboveLimit
  else none

/-- The bytes that the segment takes from the file. -/
def source (s : Segment) (file : Buffer) : Array UInt8 :=
  file.bytes.extract s.offset.toNat (s.offset.toNat + s.sourceSize.toNat)

/-- The writes of a segment: its bytes, and zeros after them. -/
def copyAndZero (s : Segment) (file : Buffer) : List Write :=
  [.copy s.virtualAddress (s.source file),
    .zero (s.virtualAddress + s.sourceSize) (s.memorySize - s.sourceSize)]

/-- The writes of a segment, none if it fails a check. -/
def writes (file : Buffer) (limit : UInt64) (s : Segment) : List Write :=
  if (s.fault? file limit).isNone then s.copyAndZero file else []

theorem fault?_eq_none_iff : s.fault? file limit = none ↔ s.InFile file ∧ s.Below limit := by
  by_cases hFile : s.InFile file
  · by_cases hBelow : s.Below limit <;> simp [fault?, hFile, hBelow]
  · simp [fault?, hFile]

theorem sourceSize_le (s : Segment) : s.sourceSize ≤ s.memorySize := by
  show (if s.fileSize ≤ s.memorySize then s.fileSize else s.memorySize) ≤ s.memorySize
  split
  · assumption
  · exact UInt64.le_refl _

theorem size_source (hFile : s.InFile file) : (s.source file).size = s.sourceSize.toNat := by
  have hFits : s.offset.toNat + s.sourceSize.toNat ≤ file.bytes.size := hFile
  rw [source, Array.size_extract, Nat.min_eq_left hFits, Nat.add_sub_cancel_left]

/-- Below the bound no sum of the segment's places needs more than a word. -/
theorem toNat_stop (hBelow : s.Below limit) :
    (s.virtualAddress + s.memorySize).toNat = s.virtualAddress.toNat + s.memorySize.toNat := by
  have hLimit := limit.toNat_lt
  rw [UInt64.toNat_add]
  exact Nat.mod_eq_of_lt (by omega)

theorem toNat_sourceStop (hBelow : s.Below limit) :
    (s.virtualAddress + s.sourceSize).toNat = s.virtualAddress.toNat + s.sourceSize.toNat := by
  have hLimit := limit.toNat_lt
  have hLe := UInt64.le_iff_toNat_le.mp s.sourceSize_le
  rw [UInt64.toNat_add]
  exact Nat.mod_eq_of_lt (by omega)

theorem toNat_rest (s : Segment) :
    (s.memorySize - s.sourceSize).toNat = s.memorySize.toNat - s.sourceSize.toNat :=
  UInt64.toNat_sub_of_le _ _ s.sourceSize_le

theorem copyAndZero_below {w : Write} (hFile : s.InFile file) (hBelow : s.Below limit)
    (hMem : w ∈ s.copyAndZero file) : w.start + w.length ≤ limit.toNat := by
  have hLe := UInt64.le_iff_toNat_le.mp s.sourceSize_le
  simp only [copyAndZero, List.mem_cons, List.not_mem_nil, or_false] at hMem
  rcases hMem with hCopy | hZero
  · rw [hCopy, Write.start, Write.length, size_source hFile]
    omega
  · rw [hZero, Write.start, Write.length, toNat_sourceStop hBelow, toNat_rest]
    omega

end Elf.Segment

namespace Loading

open Effect Elf
open Elf.Segment (fault? writes)

variable {image : Image} {limit : UInt64} {s : Segment}

theorem sourceRange_ends (hFile : s.InFile image.file) : (sourceRange image s).Ends () []
    (.ok ⟨s.offset.toNat, s.offset.toNat + s.sourceSize.toNat⟩) () := by
  unfold sourceRange
  rw [Range.within?_eq_some_iff.mpr ⟨hFile, rfl⟩]
  exact Ends.pure _ ()

theorem sourceRange_refuses (hFile : ¬ s.InFile image.file) :
    (sourceRange image s).Ends () [] (.error (.refused .segmentOutOfBounds)) () := by
  unfold sourceRange
  rw [Range.within?_eq_none_iff.mpr (Nat.lt_of_not_le hFile)]
  exact (ends_log _ _ ()).andThen (ends_refuse _ ())

theorem targetStop_ends (hBelow : s.Below limit) :
    (targetStop limit s).Ends () [] (.ok (s.virtualAddress + s.memorySize)) () := by
  rw [targetStop, if_pos hBelow]
  exact Ends.pure _ ()

theorem targetStop_refuses (hBelow : ¬ s.Below limit) :
    (targetStop limit s).Ends () [] (.error (.refused .segmentAboveLimit)) () := by
  rw [targetStop, if_neg hBelow]
  exact (ends_log _ _ ()).andThen (ends_refuse _ ())

theorem loadSegment_ends (image : Image) (limit : UInt64) (s : Segment) :
    (loadSegment image limit s).Ends () (s.writes image.file limit)
      ((passing (s.fault? image.file limit) (s.virtualAddress + s.memorySize)).mapError .refused)
      () := by
  unfold writes fault?
  by_cases hFile : s.InFile image.file
  · by_cases hBelow : s.Below limit
    · have hLimit := limit.toNat_lt
      have hLe := UInt64.le_iff_toNat_le.mp s.sourceSize_le
      have hStart : Checked.add s.virtualAddress s.sourceSize = .ok _ :=
        Checked.add_eq_ok (by simp only [UInt64.size]; omega)
      have hRest : Checked.sub s.memorySize s.sourceSize = .ok _ :=
        Checked.sub_eq_ok s.sourceSize_le
      rw [if_neg (not_not_intro hFile), if_neg (not_not_intro hBelow)]
      refine (sourceRange_ends hFile).andThen ((targetStop_ends hBelow).andThen ?_)
      apply (ends_log _ _ ()).andThen
      rw [Buffer.slice_of_within? (Range.within?_eq_some_iff.mpr ⟨hFile, rfl⟩), hStart, hRest]
      refine (ends_orFault (.ok _) ()).andThen ((ends_write _ ()).bind ?_)
      refine (ends_orFault (.ok _) ()).andThen ((ends_orFault (.ok _) ()).andThen ?_)
      exact (ends_write _ ()).bind (Ends.pure _ ())
    · rw [if_neg (not_not_intro hFile), if_pos hBelow]
      exact (sourceRange_ends hFile).andThen (targetStop_refuses hBelow).bind_stop
  · rw [if_pos hFile]
    exact (sourceRange_refuses hFile).bind_stop

/-- The bounds when a segment is taken in. -/
def Bounds.include (b : Bounds) (s : Segment) : Bounds :=
  b.extend s.virtualAddress (s.virtualAddress + s.memorySize)

/-- The span that an image with these bounds is given, or the reason why there is none. -/
def verdict (image : Image) (limit : UInt64) (b : Bounds) : Except Elf.Error Span :=
  if b.stop ≤ b.start ∨ limit ≤ b.stop then .error .invalidMappings
  else if image.entry < b.start ∨ b.stop ≤ image.entry then .error .entryOutsideImage
  else .ok ⟨image.entry, b.start, b.stop⟩

theorem verdict_eq_ok {b : Bounds} {span : Span} : verdict image limit b = .ok span ↔
    (b.start < b.stop ∧ b.stop < limit) ∧ (b.start ≤ image.entry ∧ image.entry < b.stop) ∧
      span = ⟨image.entry, b.start, b.stop⟩ := by
  unfold verdict
  by_cases hEmpty : b.stop ≤ b.start ∨ limit ≤ b.stop
  · have hNot : ¬ (b.start < b.stop ∧ b.stop < limit) := by
      rintro ⟨hSome, hBelow⟩
      exact hEmpty.elim (UInt64.not_le.mpr hSome) (UInt64.not_le.mpr hBelow)
    simp only [hEmpty, hNot, if_true, reduceCtorEq, false_and]
  · have hBounds : b.start < b.stop ∧ b.stop < limit := by
      simpa only [not_or, UInt64.not_le] using hEmpty
    by_cases hOutside : image.entry < b.start ∨ b.stop ≤ image.entry
    · have hNot : ¬ (b.start ≤ image.entry ∧ image.entry < b.stop) := by
        rintro ⟨hStart, hStop⟩
        exact hOutside.elim (UInt64.not_lt.mpr hStart) (UInt64.not_le.mpr hStop)
      simp only [hEmpty, hOutside, hNot, if_true, if_false, reduceCtorEq, false_and, and_false]
    · have hInside : b.start ≤ image.entry ∧ image.entry < b.stop := by
        simpa only [not_or, UInt64.not_le, UInt64.not_lt] using hOutside
      simp only [hEmpty, hOutside, if_false, Except.ok.injEq, eq_comm, hBounds, hInside,
        and_self, true_and]

theorem judge_ends (image : Image) (limit : UInt64) (b : Bounds) :
    (judge image limit b).Ends () [] ((verdict image limit b).mapError .refused) () := by
  unfold judge verdict
  by_cases hEmpty : b.stop ≤ b.start ∨ limit ≤ b.stop
  · rw [if_pos hEmpty, if_pos hEmpty]
    exact (ends_log _ _ ()).andThen (ends_refuse _ ())
  · rw [if_neg hEmpty, if_neg hEmpty]
    by_cases hOutside : image.entry < b.start ∨ b.stop ≤ image.entry
    · rw [if_pos hOutside, if_pos hOutside]
      exact (ends_log _ _ ()).andThen (ends_refuse _ ())
    · rw [if_neg hOutside, if_neg hOutside]
      exact Ends.pure _ ()

/-- The segments of an image that are to be loaded, in the order of the table. -/
def loadable (image : Image) : List Segment :=
  match image.segments with
  | .ok segments => segments.filter Segment.isLoadable
  | .error _ => []

/-- The writes of loading: those of the segments before the first that fails a check. -/
def segmentWrites (image : Image) (limit : UInt64) : List Write :=
  emitted (·.fault? image.file limit) (writes image.file limit) (loadable image)

/-- What loading gives: the first failure of a segment, or else the judgement on all of them. -/
def segmentSpan (image : Image) (limit : UInt64) : Except Elf.Error Span :=
  match (loadable image).findSome? (·.fault? image.file limit) with
  | some error => .error error
  | none => verdict image limit ((loadable image).foldl Bounds.include (.initial limit))

/-- Loading gives a span when every segment passes and the judgement on all of them is good. -/
theorem segmentSpan_eq_ok {span : Span} : segmentSpan image limit = .ok span ↔
    (∀ s ∈ loadable image, s.fault? image.file limit = none) ∧
      verdict image limit ((loadable image).foldl Bounds.include (.initial limit)) = .ok span := by
  unfold segmentSpan
  cases hFault : (loadable image).findSome? (·.fault? image.file limit) with
  | none => exact (and_iff_right (List.findSome?_eq_none_iff.mp hFault)).symm
  | some error =>
      have hNot : ¬ ∀ s ∈ loadable image, s.fault? image.file limit = none := by
        rw [← List.findSome?_eq_none_iff, hFault]
        exact Option.some_ne_none error
      simp only [hNot, reduceCtorEq, false_and]

theorem segmentWrites_below {w : Write} (hMem : w ∈ segmentWrites image limit) :
    w.start + w.length ≤ limit.toNat := by
  obtain ⟨s, -, hWrite⟩ := mem_emitted _ _ hMem
  unfold writes at hWrite
  cases hFault : s.fault? image.file limit with
  | none =>
      obtain ⟨hFile, hBelow⟩ := Segment.fault?_eq_none_iff.mp hFault
      rw [hFault] at hWrite
      exact Segment.copyAndZero_below hFile hBelow hWrite
  | some error =>
      rw [hFault] at hWrite
      cases hWrite

theorem load_ends (image : Image) (limit : UInt64) (b : Bounds) (s : Segment) :
    (b.load image limit s).Ends () (s.writes image.file limit)
      ((passing (s.fault? image.file limit) (b.include s)).mapError .refused) () := by
  have hLoad := loadSegment_ends image limit s
  cases hFault : s.fault? image.file limit with
  | none =>
      rw [hFault] at hLoad
      rw [← List.append_nil (s.writes image.file limit)]
      exact hLoad.bind (Ends.pure _ ())
  | some error =>
      rw [hFault] at hLoad
      exact hLoad.bind_stop

theorem loadSegments_ends (fits : image.Fits) (limit : UInt64) :
    (loadSegments image limit).Ends () (segmentWrites image limit)
      ((segmentSpan image limit).mapError .refused) () := by
  have hFold := foldlM_ends (·.fault? image.file limit) (writes image.file limit)
    (load_ends image limit) (loadable image) (.initial limit)
  obtain ⟨headers, hHeaders⟩ : ∃ headers, image.segments = .ok headers :=
    ⟨_, image.segments_eq fits⟩
  have hLoadable : loadable image = headers.filter Segment.isLoadable := by
    rw [loadable, hHeaders]
  unfold loadSegments segmentSpan
  rw [hHeaders]
  apply (ends_orFault (.ok _) ()).andThen
  rw [← hLoadable]
  cases hFault : (loadable image).findSome? (·.fault? image.file limit) with
  | some error =>
      rw [hFault] at hFold
      exact hFold.bind_stop
  | none =>
      rw [hFault] at hFold
      rw [← List.append_nil (segmentWrites image limit)]
      exact hFold.bind (judge_ends image limit _)

end Loading

end Supervisor
