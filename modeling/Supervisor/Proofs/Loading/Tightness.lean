import Supervisor.Proofs.Loading.Contents

/-! How well a span fits what was loaded. A segment without bytes counts for the span like any
other, so the span may reach past all loaded bytes. -/

namespace Supervisor

/-- One of the writes has a byte at the address. -/
def Loaded (writes : List Write) (a : Nat) : Prop :=
  ∃ w ∈ writes, w.start ≤ a ∧ a < w.start + w.length

/-- The span begins with the lowest byte that was written and ends after the highest. -/
structure Span.Tight (span : Span) (writes : List Write) : Prop where
  start_loaded : Loaded writes span.start.toNat
  start_le : ∀ a, Loaded writes a → span.start.toNat ≤ a
  last_loaded : ∃ a, Loaded writes a ∧ a + 1 = span.stop.toNat
  lt_stop : ∀ a, Loaded writes a → a < span.stop.toNat

namespace Elf.Segment

variable {file : Buffer} {limit : UInt64} {s : Segment} {segments : List Segment} {a : Nat}

def IsEmpty (s : Segment) : Prop := s.memorySize = 0

/-- The segment lies between two that have bytes, which may be one and the same. -/
def Enclosed (segments : List Segment) (s : Segment) : Prop :=
  (∃ u ∈ segments, ¬ u.IsEmpty ∧ u.virtualAddress ≤ s.virtualAddress) ∧
    ∃ u ∈ segments, ¬ u.IsEmpty ∧
      s.virtualAddress.toNat ≤ u.virtualAddress.toNat + u.memorySize.toNat

theorem isEmpty_iff : s.IsEmpty ↔ s.memorySize.toNat = 0 := UInt64.toNat_inj.symm

theorem stop_of_isEmpty (hEmpty : s.IsEmpty) :
    s.virtualAddress + s.memorySize = s.virtualAddress := by
  rw [hEmpty, UInt64.add_zero]

theorem not_isEmpty_iff : ¬ s.IsEmpty ↔ ∃ a, s.Covers a := by
  rw [isEmpty_iff]
  constructor
  · intro hSome
    exact ⟨s.virtualAddress.toNat, Nat.le_refl _, by omega⟩
  · rintro ⟨a, hStart, hStop⟩
    omega

theorem loaded_copyAndZero (hFile : s.InFile file) (hBelow : s.Below limit) :
    Loaded (s.copyAndZero file) a ↔ s.Covers a := by
  have hLe := UInt64.le_iff_toNat_le.mp s.sourceSize_le
  simp only [Loaded, copyAndZero, List.mem_cons, List.not_mem_nil, or_false, exists_eq_or_imp,
    exists_eq_left, Write.start, Write.length, size_source hFile, toNat_sourceStop hBelow,
    toNat_rest, Covers]
  omega

/-- What a list of segments loads is what they cover. -/
theorem loaded_flatMap (hPass : ∀ s ∈ segments, s.fault? file limit = none) :
    Loaded (segments.flatMap (copyAndZero · file)) a ↔ ∃ s ∈ segments, s.Covers a := by
  have hOne (s : Segment) (hMem : s ∈ segments) :
      Loaded (s.copyAndZero file) a ↔ s.Covers a := by
    obtain ⟨hFile, hBelow⟩ := fault?_eq_none_iff.mp (hPass s hMem)
    exact loaded_copyAndZero hFile hBelow
  constructor
  · rintro ⟨w, hWrite, hHere⟩
    obtain ⟨s, hMem, hOf⟩ := List.mem_flatMap.mp hWrite
    exact ⟨s, hMem, (hOne s hMem).mp ⟨w, hOf, hHere⟩⟩
  · rintro ⟨s, hMem, hCovers⟩
    obtain ⟨w, hOf, hHere⟩ := (hOne s hMem).mpr hCovers
    exact ⟨w, List.mem_flatMap.mpr ⟨s, hMem, hOf⟩, hHere⟩

end Elf.Segment

namespace Loading

open Effect Elf
open Elf.Segment (Enclosed)

variable {file : Buffer} {image : Image} {limit : UInt64} {span : Span} {a : Nat}

theorem loaded_segmentWrites (hPass : ∀ s ∈ loadable image, s.fault? image.file limit = none) :
    Loaded (segmentWrites image limit) a ↔ ∃ s ∈ loadable image, s.Covers a := by
  rw [segmentWrites_eq hPass]
  exact Segment.loaded_flatMap hPass

/-- Something was loaded exactly if some segment has bytes. -/
theorem exists_loaded_iff (hPass : ∀ s ∈ loadable image, s.fault? image.file limit = none) :
    (∃ a, Loaded (segmentWrites image limit) a) ↔ ∃ s ∈ loadable image, ¬ s.IsEmpty := by
  simp only [loaded_segmentWrites hPass, Segment.not_isEmpty_iff]
  constructor
  · rintro ⟨a, s, hMem, hCovers⟩
    exact ⟨s, hMem, a, hCovers⟩
  · rintro ⟨s, hMem, a, hCovers⟩
    exact ⟨a, s, hMem, hCovers⟩

/-- Nothing is loaded outside the span. -/
theorem loaded_within (hSpan : segmentSpan image limit = .ok span)
    (hLoaded : Loaded (segmentWrites image limit) a) :
    span.start.toNat ≤ a ∧ a < span.stop.toNat := by
  obtain ⟨-, ⟨-, hLower⟩, -, hUpper⟩ := span_tight hSpan
  obtain ⟨s, hMem, hStart, hStop⟩ :=
    (loaded_segmentWrites (segmentSpan_eq_ok.mp hSpan).1).mp hLoaded
  have hFirst := UInt64.le_iff_toNat_le.mp (hLower s hMem)
  have hLast := hUpper s hMem
  omega

/-- A span begins with a segment that has bytes if the empty segments are enclosed: the lowest one
may be empty, and then one with bytes begins at the same address. -/
theorem exists_first (hSpan : segmentSpan image limit = .ok span)
    (hEnclosed : ∀ s ∈ loadable image, s.IsEmpty → Enclosed (loadable image) s) :
    ∃ u ∈ loadable image, ¬ u.IsEmpty ∧ u.virtualAddress = span.start := by
  obtain ⟨-, ⟨⟨low, hLow, hStart⟩, hLower⟩, -⟩ := span_tight hSpan
  by_cases hEmpty : low.IsEmpty
  · obtain ⟨⟨u, hMem, hSome, hLe⟩, -⟩ := hEnclosed low hLow hEmpty
    rw [← hStart] at hLe
    exact ⟨u, hMem, hSome, UInt64.le_antisymm hLe (hLower u hMem)⟩
  · exact ⟨low, hLow, hEmpty, hStart.symm⟩

/-- Likewise a span ends with a segment that has bytes. -/
theorem exists_last (hSpan : segmentSpan image limit = .ok span)
    (hEnclosed : ∀ s ∈ loadable image, s.IsEmpty → Enclosed (loadable image) s) :
    ∃ u ∈ loadable image, ¬ u.IsEmpty ∧
      u.virtualAddress.toNat + u.memorySize.toNat = span.stop.toNat := by
  obtain ⟨-, -, ⟨high, hHigh, hStop⟩, hUpper⟩ := span_tight hSpan
  by_cases hEmpty : high.IsEmpty
  · obtain ⟨-, u, hMem, hSome, hLe⟩ := hEnclosed high hHigh hEmpty
    rw [Segment.isEmpty_iff] at hEmpty
    have hUpperEnd := hUpper u hMem
    exact ⟨u, hMem, hSome, by omega⟩
  · exact ⟨high, hHigh, hEmpty, hStop.symm⟩

/-- The span is tight exactly if every segment without bytes is enclosed by segments with some. -/
theorem tight_iff (hSpan : segmentSpan image limit = .ok span) :
    span.Tight (segmentWrites image limit) ↔
      ∀ s ∈ loadable image, s.IsEmpty → Enclosed (loadable image) s := by
  have hPass := (segmentSpan_eq_ok.mp hSpan).1
  obtain ⟨-, ⟨-, hLower⟩, -, hUpper⟩ := span_tight hSpan
  constructor
  · rintro ⟨hFirst, -, ⟨last, hLast, hEnd⟩, -⟩ s hMem -
    obtain ⟨u, hFirstMem, hFirst⟩ := (loaded_segmentWrites hPass).mp hFirst
    obtain ⟨v, hLastMem, hLast⟩ := (loaded_segmentWrites hPass).mp hLast
    refine ⟨⟨u, hFirstMem, Segment.not_isEmpty_iff.mpr ⟨_, hFirst⟩, ?_⟩,
      v, hLastMem, Segment.not_isEmpty_iff.mpr ⟨_, hLast⟩, ?_⟩
    · exact UInt64.le_trans (UInt64.le_iff_toNat_le.mpr hFirst.1) (hLower s hMem)
    · have hEnds := hUpper s hMem
      have hLastStop := hLast.2
      omega
  · intro hEnclosed
    obtain ⟨u, hFirstMem, hFirstSome, hFirstStart⟩ := exists_first hSpan hEnclosed
    obtain ⟨v, hLastMem, hLastSome, hLastStop⟩ := exists_last hSpan hEnclosed
    rw [Segment.isEmpty_iff] at hFirstSome hLastSome
    refine ⟨?_, fun a hLoaded => (loaded_within hSpan hLoaded).1, ?_,
      fun a hLoaded => (loaded_within hSpan hLoaded).2⟩
    · refine (loaded_segmentWrites hPass).mpr ⟨u, hFirstMem, ?_⟩
      rw [← hFirstStart]
      exact ⟨Nat.le_refl _, by omega⟩
    · refine ⟨span.stop.toNat - 1, (loaded_segmentWrites hPass).mpr ⟨v, hLastMem, ?_⟩, by omega⟩
      exact ⟨by omega, by omega⟩

theorem verdict_eq_invalid {b : Bounds} :
    verdict image limit b = .error .invalidMappings ↔ b.stop ≤ b.start ∨ limit ≤ b.stop := by
  unfold verdict
  by_cases hEmpty : b.stop ≤ b.start ∨ limit ≤ b.stop
  · simp [hEmpty]
  · simp only [hEmpty, if_false, iff_false]
    split <;> simp

/-- Segments without bytes span no address exactly if they begin at one address. -/
theorem hollow_degenerate_iff {l : List Segment} (hHollow : ∀ s ∈ l, s.IsEmpty)
    (hBelow : ∀ s ∈ l, s.virtualAddress ≤ limit) :
    (l.foldl Bounds.include (.initial limit)).stop ≤
        (l.foldl Bounds.include (.initial limit)).start ↔
      ∀ s ∈ l, ∀ t ∈ l, s.virtualAddress = t.virtualAddress := by
  rw [Bounds.stop_le_iff]
  simp only [Bounds.le_start_iff]
  constructor
  · rintro ⟨-, hLe⟩ s hMem t hOther
    have hFirst := (hLe s hMem).2 t hOther
    have hSecond := (hLe t hOther).2 s hMem
    rw [Segment.stop_of_isEmpty (hHollow s hMem)] at hFirst
    rw [Segment.stop_of_isEmpty (hHollow t hOther)] at hSecond
    exact UInt64.le_antisymm hFirst hSecond
  · intro hSame
    refine ⟨⟨UInt64.zero_le, fun _ _ => UInt64.zero_le⟩, fun s hMem => ?_⟩
    rw [Segment.stop_of_isEmpty (hHollow s hMem)]
    exact ⟨hBelow s hMem, fun t hOther => UInt64.le_of_eq (hSame s hMem t hOther)⟩

/-- A file whose segments all pass and have no bytes is refused for its mappings exactly if its
segments begin at one address, or one of them begins at the bound of the address space. -/
theorem hollow_invalid_iff (hPass : ∀ s ∈ loadable image, s.fault? image.file limit = none)
    (hHollow : ∀ s ∈ loadable image, s.IsEmpty) :
    segmentSpan image limit = .error .invalidMappings ↔
      (∀ s ∈ loadable image, ∀ t ∈ loadable image, s.virtualAddress = t.virtualAddress) ∨
        ∃ s ∈ loadable image, s.virtualAddress = limit := by
  have hSpan : segmentSpan image limit =
      verdict image limit ((loadable image).foldl Bounds.include (.initial limit)) := by
    rw [segmentSpan, List.findSome?_eq_none_iff.mpr hPass]
  have hBelow (s : Segment) (hMem : s ∈ loadable image) : s.virtualAddress ≤ limit := by
    have hFits := (Segment.fault?_eq_none_iff.mp (hPass s hMem)).2
    rw [UInt64.le_iff_toNat_le]
    omega
  rw [hSpan, verdict_eq_invalid, hollow_degenerate_iff hHollow hBelow]
  constructor
  · rintro (hSame | hLimit)
    · exact .inl hSame
    · rcases Bounds.stop_attained (loadable image) (.initial limit) with
        hNone | ⟨s, hMem, hStop⟩
      · -- The bound is zero then, and so is every address.
        rw [hNone] at hLimit
        refine .inl fun s hMem t hOther => ?_
        have hZero (u : Segment) (hMem : u ∈ loadable image) : u.virtualAddress = 0 :=
          UInt64.le_antisymm (UInt64.le_trans (hBelow u hMem) hLimit) UInt64.zero_le
        rw [hZero s hMem, hZero t hOther]
      · rw [hStop, Segment.stop_of_isEmpty (hHollow s hMem)] at hLimit
        exact .inr ⟨s, hMem, UInt64.le_antisymm (hBelow s hMem) hLimit⟩
  · rintro (hSame | ⟨s, hMem, hLimit⟩)
    · exact .inl hSame
    · have hReached :=
        (Bounds.stop_le_iff (loadable image) (.initial limit) _).mp (UInt64.le_refl _)
      have hStop := hReached.2 s hMem
      rw [Segment.stop_of_isEmpty (hHollow s hMem), hLimit] at hStop
      exact .inr hStop

/-- Every byte that is loaded lies in the span, which is tight exactly if every segment without
bytes is enclosed by segments with some. If no byte is loaded and no segment fails, the mappings are
invalid exactly if all segments begin at one address, or one at the bound. -/
theorem loadSegments_tight (hParse : Image.parse file = .ok image) (limit : UInt64) :
    let load := (loadSegments image limit).outcome ()
    (∀ span, load.result = .ok span →
      (∀ a, Loaded load.writes a → span.start.toNat ≤ a ∧ a < span.stop.toNat) ∧
        ((∃ a, Loaded load.writes a) ↔ ∃ s ∈ loadable image, ¬ s.IsEmpty) ∧
        (span.Tight load.writes ↔
          ∀ s ∈ loadable image, s.IsEmpty → Enclosed (loadable image) s)) ∧
      ((∀ s ∈ loadable image, s.fault? file limit = none) → (∀ a, ¬ Loaded load.writes a) →
        (load.result = .error (.refused .invalidMappings) ↔
          (∀ s ∈ loadable image, ∀ t ∈ loadable image, s.virtualAddress = t.virtualAddress) ∨
            ∃ s ∈ loadable image, s.virtualAddress = limit)) := by
  intro load
  obtain ⟨hFile, fits⟩ := Image.parse_eq_ok hParse
  have hLoad :
      load = ⟨segmentWrites image limit, (segmentSpan image limit).mapError .refused, ()⟩ :=
    (loadSegments_ends fits limit).outcome_eq
  rw [hLoad, ← hFile]
  refine ⟨?_, ?_⟩
  · intro span hResult
    have hSpan : segmentSpan image limit = .ok span := Stop.refused_eq_ok.mp hResult
    exact ⟨fun a => loaded_within hSpan, exists_loaded_iff (segmentSpan_eq_ok.mp hSpan).1,
      tight_iff hSpan⟩
  · intro hPass hNone
    have hHollow : ∀ s ∈ loadable image, s.IsEmpty := by
      intro s hMem
      by_cases hEmpty : s.IsEmpty
      · exact hEmpty
      · obtain ⟨a, hLoaded⟩ := (exists_loaded_iff hPass).mpr ⟨s, hMem, hEmpty⟩
        exact absurd hLoaded (hNone a)
    rw [← hollow_invalid_iff hPass hHollow]
    exact Stop.refused_eq_error

namespace Sample

def lowEmpty : Segment := ⟨1, 5, 0, 0x1000, 0x1000, 0, 0, 1⟩

def highEmpty : Segment := ⟨1, 5, 0, 0x1004, 0x1004, 0, 0, 1⟩

def hollow : Buffer := build lowEmpty highEmpty

theorem parse_hollow : Image.parse hollow = .ok (parsed hollow) := parse_eq (by decide +kernel)

theorem loadable_hollow : loadable (parsed hollow) = [lowEmpty, highEmpty] := by decide +kernel

theorem loadSegments_hollow :
    Image.parse hollow = .ok (parsed hollow) ∧
      let load := (loadSegments (parsed hollow) 0x2000).outcome ()
      load.result = .ok ⟨0x1001, 0x1000, 0x1004⟩ ∧ ∀ a, ¬ Loaded load.writes a := by
  have hLoad := (loadSegments_ends (Image.parse_eq_ok parse_hollow).2 0x2000).outcome_eq
  have hSpan : segmentSpan (parsed hollow) 0x2000 = .ok ⟨0x1001, 0x1000, 0x1004⟩ :=
    eq_ok_of_toOption (by decide +kernel)
  have hNone (a : Nat) : ¬ Loaded (segmentWrites (parsed hollow) 0x2000) a := by
    intro hLoaded
    obtain ⟨s, hMem, hSome⟩ := (exists_loaded_iff (segmentSpan_eq_ok.mp hSpan).1).mp ⟨a, hLoaded⟩
    rw [loadable_hollow] at hMem
    rcases List.mem_cons.mp hMem with rfl | hMem
    · exact hSome rfl
    · cases List.mem_singleton.mp hMem
      exact hSome rfl
  have hResult := Stop.refused_eq_ok.mpr hSpan
  simp only [hLoad]
  exact ⟨parse_hollow, hResult, hNone⟩

theorem loadSegments_tight_ordered :
    Image.parse ordered = .ok (parsed ordered) ∧
      let load := (loadSegments (parsed ordered) 0x2000).outcome ()
      load.result = .ok ⟨0x1001, 0x1000, 0x1006⟩ ∧
        Span.Tight ⟨0x1001, 0x1000, 0x1006⟩ load.writes := by
  have hResult : ((loadSegments (parsed ordered) 0x2000).outcome ()).result =
      .ok ⟨0x1001, 0x1000, 0x1006⟩ := eq_ok_of_toOption (by decide +kernel)
  obtain ⟨-, -, hTight⟩ := (loadSegments_tight parse_ordered 0x2000).1 _ hResult
  refine ⟨parse_ordered, hResult, hTight.mpr fun s hMem hEmpty => ?_⟩
  rw [loadable_ordered] at hMem
  rcases List.mem_cons.mp hMem with rfl | hMem
  · exact absurd (Segment.isEmpty_iff.mp hEmpty) (by decide)
  · cases List.mem_singleton.mp hMem
    exact absurd (Segment.isEmpty_iff.mp hEmpty) (by decide)

end Sample

end Loading

end Supervisor
