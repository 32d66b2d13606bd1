import Supervisor.Proofs.Loading.Safety

/-! What an image looks like in memory. The segments are changes to it, the last of which counts at
each address. -/

namespace Supervisor

namespace Memory

theorem after_append (m : Memory) (w₁ w₂ : List Write) :
    m.after (w₁ ++ w₂) = (m.after w₁).after w₂ :=
  List.foldl_append

end Memory

namespace Elf.Segment

variable {file : Buffer} {limit : UInt64} {s : Segment} {a : Nat}

/-- The segment has a byte at the address. -/
def Covers (s : Segment) (a : Nat) : Prop :=
  s.virtualAddress.toNat ≤ a ∧ a < s.virtualAddress.toNat + s.memorySize.toNat

instance (s : Segment) (a : Nat) : Decidable (s.Covers a) :=
  inferInstanceAs (Decidable (_ ∧ _))

/-- Neither segment has a byte where the other has one. -/
def Disjoint (s t : Segment) : Prop := ∀ a, s.Covers a → ¬ t.Covers a

/-- The byte of a segment at an address that it covers. -/
def byteAt (file : Buffer) (s : Segment) (a : Nat) : UInt8 :=
  if a - s.virtualAddress.toNat < s.sourceSize.toNat then
    (file.bytes[s.offset.toNat + (a - s.virtualAddress.toNat)]?).getD 0
  else 0

theorem getElem?_source (file : Buffer) {i : Nat} (hIndex : i < s.sourceSize.toNat) :
    (s.source file)[i]? = file.bytes[s.offset.toNat + i]? := by
  rw [source, Array.getElem?_extract]
  by_cases hFile : s.offset.toNat + i < file.bytes.size
  · rw [if_pos (by omega)]
  · rw [if_neg (by omega), Array.getElem?_eq_none (by omega)]

theorem byteAt?_copy (hFile : s.InFile file) :
    (Write.copy s.virtualAddress (s.source file)).byteAt? a =
      if s.virtualAddress.toNat ≤ a ∧ a < s.virtualAddress.toNat + s.sourceSize.toNat then
        file.bytes[s.offset.toNat + (a - s.virtualAddress.toNat)]?
      else none := by
  simp only [Write.byteAt?, Write.start, Write.length, size_source hFile]
  by_cases hHere : s.virtualAddress.toNat ≤ a ∧ a < s.virtualAddress.toNat + s.sourceSize.toNat
  · rw [if_pos hHere, if_pos hHere, getElem?_source file (by omega)]
  · rw [if_neg hHere, if_neg hHere]

theorem byteAt?_zero (hBelow : s.Below limit) :
    (Write.zero (s.virtualAddress + s.sourceSize) (s.memorySize - s.sourceSize)).byteAt? a =
      if s.virtualAddress.toNat + s.sourceSize.toNat ≤ a ∧
        a < s.virtualAddress.toNat + s.memorySize.toNat then some 0 else none := by
  have hLe := UInt64.le_iff_toNat_le.mp s.sourceSize_le
  have hStop : s.virtualAddress.toNat + s.sourceSize.toNat +
      (s.memorySize.toNat - s.sourceSize.toNat) =
        s.virtualAddress.toNat + s.memorySize.toNat := by omega
  simp only [Write.byteAt?, Write.start, Write.length, toNat_sourceStop hBelow, toNat_rest, hStop]

/-- The two writes of a segment change what it covers and nothing else. -/
theorem after_copyAndZero (hFile : s.InFile file) (hBelow : s.Below limit) (m : Memory) (a : Nat) :
    m.after (s.copyAndZero file) a = if s.Covers a then s.byteAt file a else m a := by
  have hLe := UInt64.le_iff_toNat_le.mp s.sourceSize_le
  have hSize : s.offset.toNat + s.sourceSize.toNat ≤ file.bytes.size := hFile
  show ((Write.zero _ _).byteAt? a).getD (((Write.copy _ _).byteAt? a).getD (m a)) = _
  rw [byteAt?_zero hBelow, byteAt?_copy hFile]
  unfold byteAt
  by_cases hCovers : s.Covers a
  · rw [if_pos hCovers]
    obtain ⟨hStart, hStop⟩ := hCovers
    by_cases hSource : a - s.virtualAddress.toNat < s.sourceSize.toNat
    · rw [if_neg (by omega), if_pos (by omega), if_pos hSource,
        Array.getElem?_eq_getElem (by omega)]
      rfl
    · rw [if_pos (by omega), if_neg hSource]
      rfl
  · have hOutside : ¬ (s.virtualAddress.toNat ≤ a ∧
        a < s.virtualAddress.toNat + s.memorySize.toNat) := hCovers
    rw [if_neg (by omega), if_neg (by omega), if_neg hCovers]
    rfl

theorem byteAt_spec (hFile : s.InFile file) (a : Nat) :
    if a - s.virtualAddress.toNat < s.sourceSize.toNat then
      file.bytes[s.offset.toNat + (a - s.virtualAddress.toNat)]? = some (s.byteAt file a)
    else s.byteAt file a = 0 := by
  have hSize : s.offset.toNat + s.sourceSize.toNat ≤ file.bytes.size := hFile
  unfold byteAt
  by_cases hSource : a - s.virtualAddress.toNat < s.sourceSize.toNat
  · rw [if_pos hSource, if_pos hSource, Array.getElem?_eq_getElem (by omega)]
    rfl
  · rw [if_neg hSource, if_neg hSource]

theorem toNat_sourceSize (s : Segment) :
    s.sourceSize.toNat = min s.fileSize.toNat s.memorySize.toNat := by
  show (if s.fileSize ≤ s.memorySize then s.fileSize else s.memorySize).toNat = _
  simp only [UInt64.le_iff_toNat_le]
  split <;> omega

theorem Disjoint.symm {s t : Segment} (h : s.Disjoint t) : t.Disjoint s :=
  fun a hCovers hOther => h a hOther hCovers

variable {segments before later : List Segment}

/-- All that loading a list of segments writes, when each of them passes. -/
theorem flatMap_writes (hPass : ∀ s ∈ segments, s.fault? file limit = none) :
    segments.flatMap (writes file limit) = segments.flatMap (copyAndZero · file) := by
  induction segments with
  | nil => rfl
  | cons s rest ih =>
      have hHead : writes file limit s = s.copyAndZero file := by
        rw [writes, hPass s (List.mem_cons_self ..)]
        rfl
      rw [List.flatMap_cons, List.flatMap_cons, hHead,
        ih fun t hMem => hPass t (List.mem_cons_of_mem _ hMem)]

theorem after_of_not_covers (hPass : ∀ s ∈ segments, s.fault? file limit = none) (m : Memory)
    (hNone : ∀ s ∈ segments, ¬ s.Covers a) :
    m.after (segments.flatMap (copyAndZero · file)) a = m a := by
  induction segments generalizing m with
  | nil => rfl
  | cons s rest ih =>
      obtain ⟨hFile, hBelow⟩ := fault?_eq_none_iff.mp (hPass s (List.mem_cons_self ..))
      rw [List.flatMap_cons, Memory.after_append,
        ih (fun t hMem => hPass t (List.mem_cons_of_mem _ hMem)) _
          (fun t hMem => hNone t (List.mem_cons_of_mem _ hMem)),
        after_copyAndZero hFile hBelow, if_neg (hNone s (List.mem_cons_self ..))]

/-- The last segment that covers an address decides what is there. -/
theorem after_of_covers (hPass : ∀ t ∈ before ++ s :: later, t.fault? file limit = none)
    (m : Memory) (hCovers : s.Covers a) (hLast : ∀ t ∈ later, ¬ t.Covers a) :
    m.after ((before ++ s :: later).flatMap (copyAndZero · file)) a = s.byteAt file a := by
  obtain ⟨hFile, hBelow⟩ := fault?_eq_none_iff.mp
    (hPass s (List.mem_append_right _ (List.mem_cons_self ..)))
  rw [List.flatMap_append, List.flatMap_cons, Memory.after_append, Memory.after_append,
    after_of_not_covers (fun t hMem => hPass t
      (List.mem_append_right _ (List.mem_cons_of_mem _ hMem))) _ hLast,
    after_copyAndZero hFile hBelow, if_pos hCovers]

/-- Where segments are disjoint, any that covers an address is the last to do so. -/
theorem after_of_disjoint (hPass : ∀ t ∈ segments, t.fault? file limit = none) (m : Memory)
    (hDisjoint : segments.Pairwise Disjoint) (hMem : s ∈ segments) (hCovers : s.Covers a) :
    m.after (segments.flatMap (copyAndZero · file)) a = s.byteAt file a := by
  obtain ⟨before, later, hSplit⟩ := List.append_of_mem hMem
  rw [hSplit] at hPass hDisjoint ⊢
  apply after_of_covers hPass m hCovers
  intro t hLater
  have hTail := (List.pairwise_append.mp hDisjoint).2.1
  exact (List.pairwise_cons.mp hTail).1 t hLater a hCovers

end Elf.Segment

namespace Loading

open Effect Elf
open Elf.Segment (copyAndZero)

variable {file file₂ : Buffer} {image image₂ : Image} {limit : UInt64} {span : Span}

namespace Bounds

private theorem max_eq_or (x y : UInt64) : max x y = x ∨ max x y = y := by
  show (if x ≤ y then y else x) = x ∨ (if x ≤ y then y else x) = y
  split
  · exact .inr rfl
  · exact .inl rfl

private theorem max_le_iff (x y z : UInt64) : max x y ≤ z ↔ x ≤ z ∧ y ≤ z := by
  show (if x ≤ y then y else x) ≤ z ↔ _
  simp only [UInt64.le_iff_toNat_le]
  split <;> omega

theorem le_start_iff (l : List Segment) (b : Bounds) (x : UInt64) :
    x ≤ (l.foldl Bounds.include b).start ↔ x ≤ b.start ∧ ∀ s ∈ l, x ≤ s.virtualAddress := by
  induction l generalizing b with
  | nil => simp
  | cons s rest ih =>
      rw [List.foldl_cons, ih, List.forall_mem_cons, ← and_assoc]
      exact and_congr_left fun _ => Std.le_min_iff

theorem stop_le_iff (l : List Segment) (b : Bounds) (x : UInt64) :
    (l.foldl Bounds.include b).stop ≤ x ↔
      b.stop ≤ x ∧ ∀ s ∈ l, s.virtualAddress + s.memorySize ≤ x := by
  induction l generalizing b with
  | nil => simp
  | cons s rest ih =>
      rw [List.foldl_cons, ih, List.forall_mem_cons, ← and_assoc]
      exact and_congr_left fun _ => max_le_iff _ _ _

theorem start_attained (l : List Segment) (b : Bounds) :
    (l.foldl Bounds.include b).start = b.start ∨
      ∃ s ∈ l, (l.foldl Bounds.include b).start = s.virtualAddress := by
  induction l generalizing b with
  | nil => exact .inl rfl
  | cons s rest ih =>
      rcases ih (b.include s) with hHere | ⟨t, hMem, hEq⟩
      · rcases Std.MinEqOr.min_eq_or b.start s.virtualAddress with hOld | hNew
        · exact .inl (hHere.trans hOld)
        · exact .inr ⟨s, List.mem_cons_self .., hHere.trans hNew⟩
      · exact .inr ⟨t, List.mem_cons_of_mem _ hMem, hEq⟩

theorem stop_attained (l : List Segment) (b : Bounds) :
    (l.foldl Bounds.include b).stop = b.stop ∨
      ∃ s ∈ l, (l.foldl Bounds.include b).stop = s.virtualAddress + s.memorySize := by
  induction l generalizing b with
  | nil => exact .inl rfl
  | cons s rest ih =>
      rcases ih (b.include s) with hHere | ⟨t, hMem, hEq⟩
      · rcases max_eq_or b.stop (s.virtualAddress + s.memorySize) with hOld | hNew
        · exact .inl (hHere.trans hOld)
        · exact .inr ⟨s, List.mem_cons_self .., hHere.trans hNew⟩
      · exact .inr ⟨t, List.mem_cons_of_mem _ hMem, hEq⟩

/-- The bounds of segments do not depend on their order. -/
theorem foldl_perm {l₁ l₂ : List Segment} (hPerm : l₁.Perm l₂) (b : Bounds) :
    l₁.foldl Bounds.include b = l₂.foldl Bounds.include b := by
  have hStart (x : UInt64) : x ≤ (l₁.foldl Bounds.include b).start ↔
      x ≤ (l₂.foldl Bounds.include b).start := by
    simp only [le_start_iff, hPerm.mem_iff]
  have hStop (x : UInt64) : (l₁.foldl Bounds.include b).stop ≤ x ↔
      (l₂.foldl Bounds.include b).stop ≤ x := by
    simp only [stop_le_iff, hPerm.mem_iff]
  have hStartEq := UInt64.le_antisymm ((hStart _).mp (UInt64.le_refl _))
    ((hStart _).mpr (UInt64.le_refl _))
  have hStopEq := UInt64.le_antisymm ((hStop _).mpr (UInt64.le_refl _))
    ((hStop _).mp (UInt64.le_refl _))
  cases hFirst : l₁.foldl Bounds.include b
  cases hSecond : l₂.foldl Bounds.include b
  rw [hFirst, hSecond] at hStartEq hStopEq
  exact congr (congrArg Bounds.mk hStartEq) hStopEq

end Bounds

/-- The span of an image is that of its lowest segment to its highest. -/
theorem span_tight (hSpan : segmentSpan image limit = .ok span) :
    span.entry = image.entry ∧
      ((∃ s ∈ loadable image, span.start = s.virtualAddress) ∧
        ∀ s ∈ loadable image, span.start ≤ s.virtualAddress) ∧
      ((∃ s ∈ loadable image,
          span.stop.toNat = s.virtualAddress.toNat + s.memorySize.toNat) ∧
        ∀ s ∈ loadable image,
          s.virtualAddress.toNat + s.memorySize.toNat ≤ span.stop.toNat) := by
  obtain ⟨hPass, hVerdict⟩ := segmentSpan_eq_ok.mp hSpan
  obtain ⟨⟨hSome, hBelow⟩, -, hEq⟩ := verdict_eq_ok.mp hVerdict
  have hEnd (s : Segment) (hMem : s ∈ loadable image) :
      (s.virtualAddress + s.memorySize).toNat = s.virtualAddress.toNat + s.memorySize.toNat :=
    Segment.toNat_stop (Segment.fault?_eq_none_iff.mp (hPass s hMem)).2
  have hLower := (Bounds.le_start_iff (loadable image) (.initial limit) _).mp (UInt64.le_refl _)
  have hUpper := (Bounds.stop_le_iff (loadable image) (.initial limit) _).mp (UInt64.le_refl _)
  rw [hEq]
  refine ⟨rfl, ⟨?_, hLower.2⟩, ?_, ?_⟩
  · rcases Bounds.start_attained (loadable image) (.initial limit) with hNone | hSegment
    · rw [hNone] at hSome
      exact absurd hBelow (UInt64.not_lt.mpr (UInt64.le_of_lt hSome))
    · exact hSegment
  · rcases Bounds.stop_attained (loadable image) (.initial limit) with hNone | ⟨s, hMem, hStop⟩
    · rw [hNone] at hSome
      exact absurd hSome (UInt64.not_lt.mpr UInt64.zero_le)
    · exact ⟨s, hMem, by rw [hStop, hEnd s hMem]⟩
  · intro s hMem
    rw [← hEnd s hMem]
    exact UInt64.le_iff_toNat_le.mp (hUpper.2 s hMem)

theorem segmentWrites_eq (hPass : ∀ s ∈ loadable image, s.fault? image.file limit = none) :
    segmentWrites image limit = (loadable image).flatMap (copyAndZero · image.file) := by
  rw [segmentWrites, emitted_eq_flatMap _ _ (List.findSome?_eq_none_iff.mpr hPass),
    Segment.flatMap_writes hPass]

theorem outcome_unresolved (hParse : Image.parse file = .ok image) (limit : UInt64) :
    (loadExecutable file limit none).outcome () =
      ⟨segmentWrites image limit, (segmentSpan image limit).mapError .refused, ()⟩ := by
  rw [(loadExecutable_ends hParse limit none).outcome_eq]
  congr 1
  · exact List.append_nil _
  · rw [loadedSpan]
    cases segmentSpan image limit <;> rfl

theorem fault?_of_size (hSize : file₂.size = file.size) (s : Segment) :
    s.fault? file₂ limit = s.fault? file limit := by
  simp only [Segment.fault?, Segment.InFile, hSize]

/-- An image with the same segments in another order is given the same span. -/
theorem segmentSpan_perm (hSize : image₂.file.size = image.file.size)
    (hEntry : image₂.entry = image.entry) (hPerm : (loadable image₂).Perm (loadable image))
    (hSpan : segmentSpan image limit = .ok span) : segmentSpan image₂ limit = .ok span := by
  obtain ⟨hPass, hVerdict⟩ := segmentSpan_eq_ok.mp hSpan
  refine segmentSpan_eq_ok.mpr ⟨?_, ?_⟩
  · intro s hMem
    rw [fault?_of_size hSize]
    exact hPass s (hPerm.mem_iff.mp hMem)
  · rw [Bounds.foldl_perm hPerm]
    unfold verdict at hVerdict ⊢
    rw [hEntry]
    exact hVerdict

theorem outcome_of_span (hParse : Image.parse file = .ok image)
    (hSpan : segmentSpan image limit = .ok span) :
    (∀ s ∈ loadable image, s.fault? file limit = none) ∧
      (loadExecutable file limit none).outcome () =
        ⟨(loadable image).flatMap (copyAndZero · file), .ok span, ()⟩ := by
  obtain ⟨hFile, -⟩ := Image.parse_eq_ok hParse
  have hPass := (segmentSpan_eq_ok.mp hSpan).1
  rw [outcome_unresolved hParse, hSpan, segmentWrites_eq hPass, hFile]
  rw [hFile] at hPass
  exact ⟨hPass, rfl⟩

theorem span_of_outcome (hParse : Image.parse file = .ok image)
    (hLoad : ((loadExecutable file limit none).outcome ()).result = .ok span) :
    segmentSpan image limit = .ok span := by
  rw [outcome_unresolved hParse] at hLoad
  exact Stop.refused_eq_ok.mp hLoad

/-- At each address the last loadable segment that covers it decides what is in memory. The span
runs from the lowest start to the highest end. A file whose segments are disjoint may list them in
any order. -/
theorem loadExecutable_contents (hParse : Image.parse file = .ok image)
    (hLoad : ((loadExecutable file limit none).outcome ()).result = .ok span) (memory : Memory) :
    let final := memory.after ((loadExecutable file limit none).outcome ()).writes
    (∀ a, (∀ s ∈ loadable image, ¬ s.Covers a) → final a = memory a) ∧
      (∀ before s later, loadable image = before ++ s :: later →
        ∀ a, s.Covers a → (∀ t ∈ later, ¬ t.Covers a) →
          if a - s.virtualAddress.toNat < min s.fileSize.toNat s.memorySize.toNat then
            file.bytes[s.offset.toNat + (a - s.virtualAddress.toNat)]? = some (final a)
          else final a = 0) ∧
      (span.entry = image.entry ∧
        ((∃ s ∈ loadable image, span.start = s.virtualAddress) ∧
          ∀ s ∈ loadable image, span.start ≤ s.virtualAddress) ∧
        ((∃ s ∈ loadable image,
            span.stop.toNat = s.virtualAddress.toNat + s.memorySize.toNat) ∧
          ∀ s ∈ loadable image,
            s.virtualAddress.toNat + s.memorySize.toNat ≤ span.stop.toNat)) ∧
      ∀ file₂ image₂, Image.parse file₂ = .ok image₂ → file₂.size = file.size →
        image₂.entry = image.entry → (loadable image₂).Perm (loadable image) →
        (loadable image).Pairwise Segment.Disjoint →
          let load₂ := (loadExecutable file₂ limit none).outcome ()
          load₂.result = .ok span ∧
            ∀ a, (∀ s ∈ loadable image, s.Covers a → s.byteAt file₂ a = s.byteAt file a) →
              memory.after load₂.writes a = final a := by
  intro final
  have hSpan := span_of_outcome hParse hLoad
  obtain ⟨hPass, hOutcome⟩ := outcome_of_span hParse hSpan
  have hFinal : final = memory.after ((loadable image).flatMap (copyAndZero · file)) :=
    congrArg (fun load : Outcome Elf.Error Unit Span => memory.after load.writes) hOutcome
  refine ⟨?_, ?_, span_tight hSpan, ?_⟩
  · intro a hNone
    rw [hFinal]
    exact Segment.after_of_not_covers hPass memory hNone
  · intro before s later hSplit a hCovers hLast
    have hMem : s ∈ loadable image := by
      rw [hSplit]
      exact List.mem_append_right _ (List.mem_cons_self ..)
    have hByte : final a = s.byteAt file a := by
      rw [hFinal, hSplit]
      exact Segment.after_of_covers (hSplit ▸ hPass) memory hCovers hLast
    rw [hByte, ← Segment.toNat_sourceSize]
    exact Segment.byteAt_spec (Segment.fault?_eq_none_iff.mp (hPass s hMem)).1 a
  · intro file₂ image₂ hParse₂ hSize hEntry hPerm hDisjoint load₂
    have hSizes : image₂.file.size = image.file.size := by
      rw [(Image.parse_eq_ok hParse₂).1, (Image.parse_eq_ok hParse).1, hSize]
    obtain ⟨hPass₂, hOutcome₂⟩ :=
      outcome_of_span hParse₂ (segmentSpan_perm hSizes hEntry hPerm hSpan)
    have hLoad₂ : load₂ = ⟨(loadable image₂).flatMap (copyAndZero · file₂), .ok span, ()⟩ :=
      hOutcome₂
    rw [hLoad₂, hFinal]
    refine ⟨rfl, ?_⟩
    intro a hSame
    by_cases hSome : ∃ s ∈ loadable image, s.Covers a
    · obtain ⟨s, hMem, hCovers⟩ := hSome
      have hDisjoint₂ := hPerm.symm.pairwise hDisjoint Segment.Disjoint.symm
      rw [Segment.after_of_disjoint hPass memory hDisjoint hMem hCovers,
        Segment.after_of_disjoint hPass₂ memory hDisjoint₂ (hPerm.mem_iff.mpr hMem) hCovers,
        hSame s hMem hCovers]
    · have hNone : ∀ s ∈ loadable image, ¬ s.Covers a := by
        intro s hMem hCovers
        exact hSome ⟨s, hMem, hCovers⟩
      rw [Segment.after_of_not_covers hPass memory hNone,
        Segment.after_of_not_covers hPass₂ memory fun s hMem =>
          hNone s (hPerm.mem_iff.mp hMem)]

namespace Sample

/-- The bytes of fields, each given by its width and its value. -/
def fields (values : List (Nat × Nat)) : List UInt8 :=
  values.flatMap fun (width, value) => LittleEndian.encode width value

def segmentBytes (s : Segment) : List UInt8 :=
  fields [(4, s.type.toNat), (4, s.flags.toNat), (8, s.offset.toNat),
    (8, s.virtualAddress.toNat), (8, s.physicalAddress.toNat), (8, s.fileSize.toNat),
    (8, s.memorySize.toNat), (8, s.alignment.toNat)]

def identity : List UInt8 := [0x7F, 0x45, 0x4C, 0x46, 2, 1, 1] ++ List.replicate 9 0

/-- A header, one section, two segments, the names of sections, and four bytes to copy. -/
def bytes (first second : Segment) : List UInt8 :=
  identity ++
    fields [(2, 2), (2, 62), (4, 1), (8, 0x1001), (8, 128), (8, 64), (4, 0), (2, 64), (2, 56),
      (2, 2), (2, 64), (2, 1), (2, 0)] ++
    fields [(4, 0), (4, 3), (8, 0), (8, 0), (8, 240), (8, 1), (4, 0), (4, 0), (8, 1), (8, 0)] ++
    segmentBytes first ++ segmentBytes second ++ [0, 0xA0, 0xA1, 0xA2, 0xA3]

/-- Two bytes of the file and two zeros. -/
def low : Segment := ⟨1, 5, 241, 0x1000, 0x1000, 2, 4, 1⟩

def high : Segment := ⟨1, 5, 243, 0x1004, 0x1004, 2, 2, 1⟩

theorem length_bytes (first second : Segment) : (bytes first second).length = 245 := by
  simp [bytes, fields, segmentBytes, identity]

def build (first second : Segment) : Buffer where
  bytes := (bytes first second).toArray
  size_lt := by
    rw [List.size_toArray, length_bytes]
    decide

def ordered : Buffer := build low high

def swapped : Buffer := build high low

def header : Header := ⟨identity, 2, 62, 1, 0x1001, 128, 64, 0, 64, 56, 2, 64, 1, 0⟩

def parsed (file : Buffer) : Image := ⟨file, header, ⟨#[0]⟩⟩

theorem eq_ok_of_toOption {ε α : Type} {r : Except ε α} {a : α} (h : r.toOption = some a) :
    r = .ok a := by
  cases r with
  | ok b => exact congrArg Except.ok (Option.some.inj h)
  | error e => cases h

theorem parse_eq {file : Buffer}
    (h : (Image.parse file).toOption.map (fun image => (image.header, image.sectionNames)) =
      some (header, ⟨#[0]⟩)) : Image.parse file = .ok (parsed file) := by
  obtain ⟨found, hFound, hParts⟩ := Option.map_eq_some_iff.mp h
  have hParse := eq_ok_of_toOption hFound
  have hFile := (Image.parse_eq_ok hParse).1
  rw [hParse]
  cases found
  cases hFile
  cases hParts
  rfl

theorem parse_ordered : Image.parse ordered = .ok (parsed ordered) :=
  parse_eq (by decide +kernel)

theorem parse_swapped : Image.parse swapped = .ok (parsed swapped) :=
  parse_eq (by decide +kernel)

theorem loadable_ordered : loadable (parsed ordered) = [low, high] := by decide +kernel

theorem loadable_swapped : loadable (parsed swapped) = [high, low] := by decide +kernel

theorem disjoint : Segment.Disjoint low high := by
  rintro a ⟨-, hLow⟩ ⟨hHigh, -⟩
  have hLowEnd : low.virtualAddress.toNat + low.memorySize.toNat = 0x1004 := by decide
  have hHighStart : high.virtualAddress.toNat = 0x1004 := by decide
  omega

theorem loadExecutable_contents_ordered :
    Image.parse ordered = .ok (parsed ordered) ∧
      ((loadExecutable ordered 0x2000 none).outcome ()).result =
        .ok ⟨0x1001, 0x1000, 0x1006⟩ ∧
      let load := (loadExecutable ordered 0x2000 none).outcome ()
      let final := (Memory.filled 7).after load.writes
      final 0x1001 = 0xA1 ∧ final 0x1002 = 0 ∧ final 0x1006 = 7 ∧
        let other := (loadExecutable swapped 0x2000 none).outcome ()
        other.result = .ok ⟨0x1001, 0x1000, 0x1006⟩ ∧
          (Memory.filled 7).after other.writes 0x1001 = final 0x1001 := by
  have hLoad : ((loadExecutable ordered 0x2000 none).outcome ()).result =
      .ok ⟨0x1001, 0x1000, 0x1006⟩ := eq_ok_of_toOption (by decide +kernel)
  obtain ⟨hNone, hLast, -, hOrder⟩ :=
    loadExecutable_contents parse_ordered hLoad (Memory.filled 7)
  have hSplit : loadable (parsed ordered) = [] ++ low :: [high] := loadable_ordered
  have hCopied := hLast
  specialize hCopied [] low [high] hSplit 0x1001 (by decide +kernel) (by decide +kernel)
  have hZeroed := hLast
  specialize hZeroed [] low [high] hSplit 0x1002 (by decide +kernel) (by decide +kernel)
  rw [if_pos (by decide +kernel)] at hCopied
  rw [if_neg (by decide +kernel)] at hZeroed
  have hByte : ordered.bytes[low.offset.toNat + (0x1001 - low.virtualAddress.toNat)]? =
      some 0xA1 := by decide +kernel
  have hUnchanged := hNone 0x1006 (by rw [loadable_ordered]; decide +kernel)
  have hPerm : (loadable (parsed swapped)).Perm (loadable (parsed ordered)) := by
    rw [loadable_ordered, loadable_swapped]
    exact List.Perm.swap ..
  have hDisjoint : (loadable (parsed ordered)).Pairwise Segment.Disjoint := by
    rw [loadable_ordered]
    exact List.pairwise_pair.mpr disjoint
  obtain ⟨hSpan, hSame⟩ :=
    hOrder swapped (parsed swapped) parse_swapped (by decide +kernel) rfl hPerm hDisjoint
  refine ⟨parse_ordered, hLoad, ?_, hZeroed, hUnchanged, hSpan, ?_⟩
  · exact Option.some.inj (hCopied.symm.trans hByte)
  · apply hSame 0x1001
    rw [loadable_ordered]
    decide +kernel

end Sample

end Loading

end Supervisor
