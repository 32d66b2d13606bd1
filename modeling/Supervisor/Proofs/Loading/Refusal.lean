import Supervisor.Proofs.Loading.Contents

/-! What a load leaves behind that is refused. The segments before the first that fails a check are
in memory, and nothing of those behind it. -/

namespace Supervisor.Loading

open Effect Elf
open Elf.Segment (copyAndZero)

variable {file : Buffer} {image : Image} {limit : UInt64} {resolve? : Option Resolver}
  {s : Segment} {after : List Segment} {error : Elf.Error}

/-- The segments to be loaded that come before the first which fails a check. -/
def accepted (image : Image) (limit : UInt64) : List Segment :=
  (loadable image).takeWhile fun s => s.InFile image.file ∧ s.Below limit

theorem isNone_fault? (s : Segment) (file : Buffer) (limit : UInt64) :
    (s.fault? file limit).isNone = decide (s.InFile file ∧ s.Below limit) := by
  rw [Bool.eq_iff_iff, Option.isNone_iff_eq_none, Segment.fault?_eq_none_iff, decide_eq_true_iff]

theorem fault?_of_fails (hFails : ¬ (s.InFile file ∧ s.Below limit)) : s.fault? file limit =
    some (if s.InFile file then .segmentAboveLimit else .segmentOutOfBounds) := by
  by_cases hFile : s.InFile file
  · have hAbove : ¬ s.Below limit := fun hBelow => hFails ⟨hFile, hBelow⟩
    simp [Segment.fault?, hFile, hAbove]
  · simp [Segment.fault?, hFile]

theorem passes_of_accepted (hMem : s ∈ accepted image limit) :
    s.InFile image.file ∧ s.Below limit :=
  of_decide_eq_true (List.all_eq_true.mp List.all_takeWhile s hMem)

/-- Either all segments are accepted, or one that fails comes next. -/
theorem accepted_cases (image : Image) (limit : UInt64) :
    loadable image = accepted image limit ∨
      ∃ s after, loadable image = accepted image limit ++ s :: after ∧
        ¬ (s.InFile image.file ∧ s.Below limit) := by
  have hParts := List.takeWhile_append_dropWhile (l := loadable image)
    (p := fun s => decide (s.InFile image.file ∧ s.Below limit))
  have hHead := List.head?_dropWhile_not (fun s => decide (s.InFile image.file ∧ s.Below limit))
    (loadable image)
  cases hRest : (loadable image).dropWhile
      fun s => decide (s.InFile image.file ∧ s.Below limit) with
  | nil =>
      rw [hRest, List.append_nil] at hParts
      exact .inl hParts.symm
  | cons s after =>
      rw [hRest] at hParts hHead
      exact .inr ⟨s, after, hParts.symm, of_decide_eq_false (by simpa using hHead)⟩

theorem segmentWrites_eq_accepted (image : Image) (limit : UInt64) :
    segmentWrites image limit = (accepted image limit).flatMap (copyAndZero · image.file) := by
  have hSilent (s : Segment) (error : Elf.Error) (hFault : s.fault? image.file limit = some error) :
      s.writes image.file limit = [] := by
    rw [Segment.writes, hFault]
    rfl
  have hPass (s : Segment) (hMem : s ∈ accepted image limit) :
      s.fault? image.file limit = none :=
    Segment.fault?_eq_none_iff.mpr (passes_of_accepted hMem)
  rw [segmentWrites, emitted_eq_takeWhile _ _ hSilent, ← Segment.flatMap_writes hPass]
  simp only [isNone_fault?]
  rfl

theorem length_flatMap_copyAndZero (segments : List Segment) (file : Buffer) :
    (segments.flatMap (copyAndZero · file)).length = 2 * segments.length := by
  induction segments with
  | nil => rfl
  | cons s rest ih =>
      rw [List.flatMap_cons, List.length_append, ih, List.length_cons]
      show 2 + _ = _
      omega

/-- The first segment that fails is reported. -/
theorem segmentSpan_of_first (hSplit : loadable image = accepted image limit ++ s :: after)
    (hFails : ¬ (s.InFile image.file ∧ s.Below limit)) : segmentSpan image limit =
      .error (if s.InFile image.file then .segmentAboveLimit else .segmentOutOfBounds) := by
  have hFirst : (loadable image).findSome? (·.fault? image.file limit) = some _ :=
    List.findSome?_eq_some_iff.mpr ⟨_, s, after, hSplit, fault?_of_fails hFails,
      fun t hMem => Segment.fault?_eq_none_iff.mpr (passes_of_accepted hMem)⟩
  rw [segmentSpan, hFirst]

/-- Where no segment fails, only the span can be refused. -/
theorem segmentSpan_of_accepted (hAll : loadable image = accepted image limit) :
    (∃ span, segmentSpan image limit = .ok span) ∨
      segmentSpan image limit = .error .invalidMappings ∨
      segmentSpan image limit = .error .entryOutsideImage := by
  have hPass : (loadable image).findSome? (·.fault? image.file limit) = none := by
    rw [List.findSome?_eq_none_iff, hAll]
    exact fun t hMem => Segment.fault?_eq_none_iff.mpr (passes_of_accepted hMem)
  rw [segmentSpan, hPass]
  simp only [verdict]
  split
  · exact .inr (.inl rfl)
  · split
    · exact .inr (.inr rfl)
    · exact .inl ⟨_, rfl⟩

/-- When the segments are refused, that is the end of loading: nothing is bound. -/
theorem loadExecutable_of_refused (hParse : Image.parse file = .ok image)
    (hRefused : segmentSpan image limit = .error error) :
    (loadExecutable file limit resolve?).outcome () =
      ⟨segmentWrites image limit, .error (.refused error), ()⟩ := by
  have fits := (Image.parse_eq_ok hParse).2
  have hBinding : bindingWrites image limit resolve? = [] := by
    cases resolve? with
    | none => rfl
    | some resolve => rw [bindingWrites_eq fits, hRefused]
  rw [(loadExecutable_ends hParse limit resolve?).outcome_eq, hBinding, List.append_nil,
    loadedSpan, hRefused]
  rfl

/-- Each segment before the first that fails a check is copied and zeroed by two writes, and there
are no other writes of segments. The first that fails is reported, and only where none fails can the
span be refused. -/
theorem refused_load_leaves (file : Buffer) (limit : UInt64) (resolve? : Option Resolver) :
    let load := (loadExecutable file limit resolve?).outcome ()
    (∀ stop, Image.parse file = .error stop → load = ⟨[], .error stop, ()⟩) ∧
      ∀ image, Image.parse file = .ok image →
        let segments := (loadSegments image limit).outcome ()
        let done := accepted image limit
        (segments.writes = done.flatMap (copyAndZero · file) ∧
          segments.writes.length = 2 * done.length) ∧
        (∀ s ∈ done, s.InFile file ∧ s.Below limit ∧
          let copied := min s.fileSize.toNat s.memorySize.toNat
          (s.source file).size = copied ∧
            (s.virtualAddress + s.sourceSize).toNat = s.virtualAddress.toNat + copied ∧
            (s.memorySize - s.sourceSize).toNat = s.memorySize.toNat - copied) ∧
        ((loadable image = done ∧ ((∃ span, segments.result = .ok span) ∨
            segments.result = .error (.refused .invalidMappings) ∨
            segments.result = .error (.refused .entryOutsideImage))) ∨
          ∃ s after, loadable image = done ++ s :: after ∧ ¬ (s.InFile file ∧ s.Below limit) ∧
            segments.result = .error (.refused
              (if s.InFile file then .segmentAboveLimit else .segmentOutOfBounds))) ∧
        (∀ error, error = .invalidMappings ∨ error = .entryOutsideImage →
          segments.result = .error (.refused error) → loadable image = done) ∧
        ∀ error, segments.result = .error (.refused error) →
          load = ⟨segments.writes, .error (.refused error), ()⟩ := by
  intro load
  refine ⟨fun stop hParse => (loadExecutable_stops hParse limit resolve?).outcome_eq, ?_⟩
  intro image hParse segments done
  obtain ⟨hFile, fits⟩ := Image.parse_eq_ok hParse
  have hSegments :
      segments = ⟨segmentWrites image limit, (segmentSpan image limit).mapError .refused, ()⟩ :=
    (loadSegments_ends fits limit).outcome_eq
  have hWrites : segments.writes = done.flatMap (copyAndZero · file) := by
    rw [hSegments, ← hFile]
    exact segmentWrites_eq_accepted image limit
  have hOutcomes : (loadable image = done ∧ ((∃ span, segmentSpan image limit = .ok span) ∨
        segmentSpan image limit = .error .invalidMappings ∨
        segmentSpan image limit = .error .entryOutsideImage)) ∨
      ∃ s after, loadable image = done ++ s :: after ∧ ¬ (s.InFile file ∧ s.Below limit) ∧
        segmentSpan image limit =
          .error (if s.InFile file then .segmentAboveLimit else .segmentOutOfBounds) := by
    rw [← hFile]
    rcases accepted_cases image limit with hAll | ⟨s, after, hSplit, hFails⟩
    · exact .inl ⟨hAll, segmentSpan_of_accepted hAll⟩
    · exact .inr ⟨s, after, hSplit, hFails, segmentSpan_of_first hSplit hFails⟩
  refine ⟨⟨hWrites, ?_⟩, ?_, ?_, ?_, ?_⟩
  · rw [hWrites, length_flatMap_copyAndZero]
  · intro s hMem
    obtain ⟨hSource, hBelow⟩ := passes_of_accepted hMem
    rw [hFile] at hSource
    rw [← Segment.toNat_sourceSize]
    exact ⟨hSource, hBelow, Segment.size_source hSource, Segment.toNat_sourceStop hBelow,
      s.toNat_rest⟩
  · simp only [hSegments, Stop.refused_eq_ok, Stop.refused_eq_error]
    exact hOutcomes
  · intro error hSpan hResult
    rw [hSegments] at hResult
    rcases hOutcomes with ⟨hAll, -⟩ | ⟨s, after, -, -, hFirst⟩
    · exact hAll
    · have hReported := hFirst.symm.trans (Stop.refused_eq_error.mp hResult)
      rcases hSpan with rfl | rfl <;> split at hReported <;> cases hReported
  · intro error hResult
    rw [hSegments] at hResult ⊢
    exact loadExecutable_of_refused hParse (Stop.refused_eq_error.mp hResult)

namespace Sample

def topmost : Segment :=
  ⟨1, 5, 0xFFFFFFFFFFFFFFFF, 0xFFFFFFFFFFFFFFFF, 0xFFFFFFFFFFFFFFFF, 2, 4, 1⟩

def wrapping : Buffer := build low topmost

theorem parse_wrapping : Image.parse wrapping = .ok (parsed wrapping) :=
  parse_eq (by decide +kernel)

theorem loadable_wrapping : loadable (parsed wrapping) = [low, topmost] := by decide +kernel

theorem accepted_wrapping : accepted (parsed wrapping) 0x2000 = [low] := by
  rw [accepted, loadable_wrapping]
  decide +kernel

theorem refused_load_leaves_first :
    Image.parse wrapping = .ok (parsed wrapping) ∧
      (loadExecutable wrapping 0x2000 none).outcome () =
        ⟨[.copy 0x1000 #[0xA0, 0xA1], .zero 0x1002 2],
          .error (.refused .segmentOutOfBounds), ()⟩ := by
  obtain ⟨-, hParsed⟩ := refused_load_leaves wrapping 0x2000 none
  obtain ⟨⟨hWrites, -⟩, -, hOutcome, -, hLoad⟩ := hParsed _ parse_wrapping
  have hLow : low.copyAndZero wrapping = [.copy 0x1000 #[0xA0, 0xA1], .zero 0x1002 2] := by
    decide +kernel
  have hOutside : ¬ topmost.InFile wrapping := by decide +kernel
  rw [loadable_wrapping, accepted_wrapping] at hOutcome
  rw [accepted_wrapping, List.flatMap_singleton, hLow] at hWrites
  refine ⟨parse_wrapping, ?_⟩
  rcases hOutcome with ⟨hAll, -⟩ | ⟨s, after, hSplit, -, hResult⟩
  · cases hAll
  · cases hSplit
    rw [if_neg hOutside] at hResult
    rw [hLoad _ hResult, hWrites]

end Sample

end Supervisor.Loading
