import Supervisor.Proofs.Loading.Pointers

/-! Loading reads only what the headers of a file declare. Bytes that follow the file and a higher
bound leave an accepted load as it is. -/

namespace Supervisor

section Upheld

variable {ε α β : Type}

/-- Whatever the first computation gives, the second gives too. -/
def Upheld (r r' : Except ε α) : Prop := ∀ a, r = .ok a → r' = .ok a

theorem Upheld.refl (r : Except ε α) : Upheld r r := fun _ h => h

theorem Upheld.bind {r r' : Except ε α} {f f' : α → Except ε β} (hFirst : Upheld r r')
    (hRest : ∀ a, r = .ok a → Upheld (f a) (f' a)) : Upheld (r >>= f) (r' >>= f') := by
  intro b hBind
  obtain ⟨a, hGiven, hThen⟩ := bind_eq_ok.mp hBind
  exact bind_eq_ok.mpr ⟨a, hFirst a hGiven, hRest a hGiven b hThen⟩

theorem upheld_ofOption {x x' : Option α} (error : ε) (hFound : ∀ a, x = some a → x' = some a) :
    Upheld (Stop.ofOption error x) (Stop.ofOption error x') := by
  intro a hGiven
  exact Stop.ofOption_eq_ok.mpr (hFound a (Stop.ofOption_eq_ok.mp hGiven))

theorem upheld_ofFault {x x' : Except Fault α} (hGiven : Upheld x x') :
    Upheld (Stop.ofFault x : Except (Stop ε) α) (Stop.ofFault x') := by
  intro a h
  exact Stop.ofFault_eq_ok.mpr (hGiven a (Stop.ofFault_eq_ok.mp h))

end Upheld

namespace Effect

variable {ε σ α β : Type}

/-- Where the first operation gives a result, the second does all that it does and gives the
same. -/
def Extends (op op' : Effect ε σ α) : Prop := ∀ s a s', op s = .ok a s' → op' s = .ok a s'

theorem Extends.refl (op : Effect ε σ α) : op.Extends op := fun _ _ _ h => h

theorem Extends.bind {op op' : Effect ε σ α} {f f' : α → Effect ε σ β} (hFirst : op.Extends op')
    (hRest : ∀ a, (f a).Extends (f' a)) : (op >>= f).Extends (op' >>= f') := by
  intro s b s'' hBind
  change EStateM.bind op f s = _ at hBind
  show EStateM.bind op' f' s = _
  rw [EStateM.bind] at hBind ⊢
  cases hRun : op s with
  | ok a s' =>
      rw [hRun] at hBind
      rw [hFirst s a s' hRun]
      exact hRest a s' b s'' hBind
  | error stop s' =>
      rw [hRun] at hBind
      cases hBind

/-- What gives no result is extended by anything. -/
theorem extends_of_stop {op op' : Effect ε Unit α} {writes : List Write} {stop : Stop ε}
    (hEnds : op.Ends () writes (.error stop) ()) : op.Extends op' := by
  rintro ⟨⟨⟩, trace⟩ a s' hRun
  obtain ⟨log, hStopped⟩ := hEnds trace
  cases hRun.symm.trans hStopped

theorem extends_lift {r r' : Except (Stop ε) α} (hGiven : Upheld r r') :
    (lift r : Effect ε σ α).Extends (lift r') := by
  intro s a s' hRun
  cases r with
  | ok b =>
      rw [hGiven b rfl]
      exact hRun
  | error stop => cases hRun

theorem extends_orFault {x x' : Except Fault α} (hGiven : Upheld x x') :
    (orFault x : Effect ε σ α).Extends (orFault x') := by
  intro s a s' hRun
  cases x with
  | ok b =>
      rw [hGiven b rfl]
      exact hRun
  | error fault => cases hRun

theorem Extends.foldlM {f f' : β → α → Effect ε σ β} (hEach : ∀ b a, (f b a).Extends (f' b a))
    (l : List α) (b : β) : (l.foldlM f b).Extends (l.foldlM f' b) := by
  induction l generalizing b with
  | nil => exact Extends.refl _
  | cons a rest ih =>
      rw [List.foldlM_cons, List.foldlM_cons]
      exact (hEach b a).bind ih

/-- An operation that extends another has the same outcome where that one gives a result. -/
theorem Extends.outcome_eq {op op' : Effect ε σ α} (hExtends : op.Extends op') {s : σ} {a : α}
    (hResult : (op.outcome s).result = .ok a) : op'.outcome s = op.outcome s := by
  unfold outcome at hResult ⊢
  cases hRun : op ⟨s, .empty⟩ with
  | ok b s' => rw [hExtends _ b s' hRun]
  | error stop s' =>
      rw [hRun] at hResult
      cases hResult

end Effect

namespace Buffer

variable {file longer : Buffer}

/-- The bytes of the first buffer are those at the start of the second. -/
def Begins (file longer : Buffer) : Prop := ∃ tail, longer.bytes = file.bytes ++ tail

namespace Begins

theorem size_le (begins : file.Begins longer) : file.size ≤ longer.size := by
  obtain ⟨tail, hBytes⟩ := begins
  rw [size, size, hBytes, Array.size_append]
  exact Nat.le_add_right _ _

theorem extract_eq (begins : file.Begins longer) {start stop : Nat} (hStop : stop ≤ file.size) :
    longer.bytes.extract start stop = file.bytes.extract start stop := by
  obtain ⟨tail, hBytes⟩ := begins
  have hNone : stop - file.bytes.size = 0 := Nat.sub_eq_zero_of_le hStop
  rw [hBytes, Array.extract_append, hNone, Array.extract_zero, Array.append_empty]

theorem read?_eq {α : Type} [Packed α] (begins : file.Begins longer) {place : Nat} {record : α}
    (hRead : Packed.read? α file.bytes place = some record) :
    Packed.read? α longer.bytes place = some record := by
  simp only [Packed.read?, Option.ite_none_right_eq_some] at hRead ⊢
  obtain ⟨hRoom, hRecord⟩ := hRead
  rw [begins.extract_eq hRoom]
  exact ⟨Nat.le_trans hRoom begins.size_le, hRecord⟩

theorem within?_eq (begins : file.Begins longer) {start length : UInt64} {range : Range}
    (hRange : Range.within? start length file.size = some range) :
    Range.within? start length longer.size = some range := by
  rw [Range.within?_eq_some_iff] at hRange ⊢
  exact ⟨Nat.le_trans hRange.1 begins.size_le, hRange.2⟩

theorem slice_eq (begins : file.Begins longer) (range : Range) :
    Upheld (file.slice range) (longer.slice range) := by
  intro bytes hSlice
  unfold slice at hSlice ⊢
  split at hSlice
  · cases hSlice
  · next hOrder =>
      split at hSlice
      · cases hSlice
      · next hEnd =>
          have hStop : range.stop ≤ file.size := Nat.le_of_not_lt hEnd
          rw [if_neg hOrder, if_neg (Nat.not_lt.mpr (Nat.le_trans hStop begins.size_le)),
            begins.extract_eq hStop]
          exact hSlice

end Begins

end Buffer

namespace Elf

variable {file longer : Buffer} {image : Image}

theorem StringTable.ofSection_upheld (begins : file.Begins longer) (s : Section) :
    Upheld (ofSection file s) (ofSection longer s) :=
  (upheld_ofOption _ fun _ => begins.within?_eq).bind fun range _ =>
    (upheld_ofFault (begins.slice_eq range)).bind fun _ _ => Upheld.refl _

namespace Image

/-- The image with the same header, read from another file. -/
def withFile (image : Image) (file : Buffer) : Image := { image with file }

/-- A file that is an executable stays the same executable whatever follows it. -/
theorem parse_withFile (begins : file.Begins longer) (hParse : parse file = .ok image) :
    parse longer = .ok (image.withFile longer) := by
  obtain ⟨header, hHeader, hRest⟩ := bind_eq_ok.mp hParse
  obtain ⟨_, hCheck, hRest⟩ := bind_eq_ok.mp hRest
  obtain ⟨_, hIndex, hRest⟩ := bind_eq_ok.mp hRest
  obtain ⟨sectionBytes, hSectionBytes, hRest⟩ := bind_eq_ok.mp hRest
  obtain ⟨sectionRange, hSections, hRest⟩ := bind_eq_ok.mp hRest
  obtain ⟨segmentBytes, hSegmentBytes, hRest⟩ := bind_eq_ok.mp hRest
  obtain ⟨segmentRange, hSegments, hRest⟩ := bind_eq_ok.mp hRest
  obtain ⟨names, hNames, hRest⟩ := bind_eq_ok.mp hRest
  obtain ⟨_, hKind, hRest⟩ := bind_eq_ok.mp hRest
  obtain ⟨sectionNames, hTable, hImage⟩ := bind_eq_ok.mp hRest
  cases hImage
  refine bind_eq_ok.mpr ⟨header, upheld_ofOption _ (fun _ => begins.read?_eq) _ hHeader, ?_⟩
  refine bind_eq_ok.mpr ⟨(), hCheck, bind_eq_ok.mpr ⟨(), hIndex, ?_⟩⟩
  refine bind_eq_ok.mpr ⟨sectionBytes, hSectionBytes, ?_⟩
  refine bind_eq_ok.mpr
    ⟨sectionRange, upheld_ofOption _ (fun _ => begins.within?_eq) _ hSections, ?_⟩
  refine bind_eq_ok.mpr ⟨segmentBytes, hSegmentBytes, ?_⟩
  refine bind_eq_ok.mpr
    ⟨segmentRange, upheld_ofOption _ (fun _ => begins.within?_eq) _ hSegments, ?_⟩
  refine bind_eq_ok.mpr ⟨names, upheld_ofOption _ (fun _ => begins.read?_eq) _ hNames, ?_⟩
  refine bind_eq_ok.mpr ⟨(), hKind, bind_eq_ok.mpr ⟨sectionNames, ?_, rfl⟩⟩
  exact StringTable.ofSection_upheld begins names _ hTable

theorem fits_withFile (begins : image.file.Begins longer) (fits : image.Fits) :
    (image.withFile longer).Fits where
  sections := Nat.le_trans fits.sections begins.size_le
  segments := Nat.le_trans fits.segments begins.size_le

theorem segments_withFile (begins : image.file.Begins longer) (fits : image.Fits) :
    (image.withFile longer).segments = image.segments := by
  rw [segments_eq fits, segments_eq (fits_withFile begins fits)]
  refine congrArg Except.ok (List.map_congr_left fun index hMem => ?_)
  have hFile := fits.segment_le (List.mem_range.mp hMem)
  simp only [segmentHeader, withFile]
  rw [begins.extract_eq hFile]

theorem getSection?_withFile (begins : image.file.Begins longer) (fits : image.Fits) :
    (image.withFile longer).getSection? = image.getSection? := by
  funext index
  show (if index < image.header.sectionCount.toNat then _ else none) = _
  rw [getSection?]
  split
  · next hIndex =>
      obtain ⟨s, hFound⟩ : ∃ s, image.header.sectionAt? image.file index = some s :=
        ⟨_, if_pos (fits.section_le hIndex)⟩
      rw [hFound]
      exact begins.read?_eq hFound
  · rfl

theorem sections_withFile (begins : image.file.Begins longer) (fits : image.Fits) :
    (image.withFile longer).sections = image.sections := by
  rw [sections, sections, getSection?_withFile begins fits]
  rfl

theorem symbolNamesIn_upheld (begins : image.file.Begins longer) (sections : List Section) :
    Upheld (image.symbolNamesIn sections) ((image.withFile longer).symbolNamesIn sections) := by
  induction sections with
  | nil => exact Upheld.refl _
  | cons s rest ih =>
      refine (Upheld.refl (image.sectionName s)).bind fun name _ => ?_
      show Upheld (if _ then _ else _) (if _ then _ else _)
      split
      · exact (StringTable.ofSection_upheld begins s).bind fun names _ => Upheld.refl _
      · exact ih

theorem symbols_upheld (begins : image.file.Begins longer) (s : Section) :
    Upheld (image.symbols s) ((image.withFile longer).symbols s) :=
  (upheld_ofOption _ fun _ => begins.within?_eq).bind fun range _ =>
    (Upheld.refl _).bind fun _ _ =>
      (upheld_ofFault (begins.slice_eq range)).bind fun _ _ => Upheld.refl _

end Image

end Elf

namespace Loading

open Effect Elf

variable {file longer : Buffer} {image : Image} {limit higher : UInt64} {span : Span}

theorem sourceRange_extends (begins : image.file.Begins longer) (s : Segment) :
    (sourceRange image s).Extends (sourceRange (image.withFile longer) s) := by
  by_cases hFile : s.InFile image.file
  · have hLonger : s.InFile longer := Nat.le_trans hFile begins.size_le
    unfold sourceRange
    rw [Range.within?_eq_some_iff.mpr ⟨hFile, rfl⟩]
    rw [show Range.within? s.offset s.sourceSize (image.withFile longer).file.size = some _ from
      Range.within?_eq_some_iff.mpr ⟨hLonger, rfl⟩]
    exact Extends.refl _
  · exact extends_of_stop (sourceRange_refuses hFile)

theorem targetStop_extends (hLimit : limit ≤ higher) (s : Segment) :
    (targetStop limit s).Extends (targetStop higher s) := by
  by_cases hBelow : s.Below limit
  · have hHigher : s.Below higher := Nat.le_trans hBelow (UInt64.le_iff_toNat_le.mp hLimit)
    rw [targetStop, targetStop, if_pos hBelow, if_pos hHigher]
    exact Extends.refl _
  · exact extends_of_stop (targetStop_refuses hBelow)

theorem loadSegment_extends (begins : image.file.Begins longer) (hLimit : limit ≤ higher)
    (s : Segment) :
    (loadSegment image limit s).Extends (loadSegment (image.withFile longer) higher s) :=
  (sourceRange_extends begins s).bind fun range =>
    (targetStop_extends hLimit s).bind fun _ =>
      (Extends.refl _).bind fun _ =>
        (extends_orFault (begins.slice_eq range)).bind fun _ => Extends.refl _

/-- The first segment takes the start of the bounds down to its own, wherever they began. -/
theorem extend_initial {start stop : UInt64} (hStart : start ≤ limit) :
    (Bounds.initial limit).extend start stop = ⟨start, max 0 stop⟩ := by
  have hMin : min limit start = start := by
    show (if limit ≤ start then limit else start) = start
    split
    · next hLe => exact UInt64.le_antisymm hLe hStart
    · rfl
  rw [Bounds.extend, Bounds.initial, hMin]

theorem firstLoad_extends (begins : image.file.Begins longer) (hLimit : limit ≤ higher)
    (s : Segment) : ((Bounds.initial limit).load image limit s).Extends
      ((Bounds.initial higher).load (image.withFile longer) higher s) := by
  by_cases hBelow : s.Below limit
  · have hStart : s.virtualAddress ≤ limit :=
      UInt64.le_iff_toNat_le.mpr (Nat.le_trans (Nat.le_add_right _ _) hBelow)
    refine (loadSegment_extends begins hLimit s).bind fun stop => ?_
    rw [extend_initial hStart, extend_initial (UInt64.le_trans hStart hLimit)]
    exact Extends.refl _
  · have hEnds := load_ends image limit (.initial limit) s
    cases hFault : s.fault? image.file limit with
    | none => exact absurd (Segment.fault?_eq_none_iff.mp hFault).2 hBelow
    | some error =>
        rw [hFault] at hEnds
        exact extends_of_stop hEnds

theorem judge_extends (hLimit : limit ≤ higher) (b : Bounds) :
    (judge image limit b).Extends (judge (image.withFile longer) higher b) := by
  by_cases hBad : b.stop ≤ b.start ∨ limit ≤ b.stop
  · have hRefused : verdict image limit b = .error .invalidMappings := if_pos hBad
    have hEnds := judge_ends image limit b
    rw [hRefused] at hEnds
    exact extends_of_stop hEnds
  · have hGood : ¬ (b.stop ≤ b.start ∨ higher ≤ b.stop) := by
      rintro (hEmpty | hHigh)
      · exact hBad (.inl hEmpty)
      · exact hBad (.inr (UInt64.le_trans hLimit hHigh))
    rw [judge, judge, if_neg hBad, if_neg hGood]
    exact Extends.refl _

theorem loadSegments_extends (begins : image.file.Begins longer) (fits : image.Fits)
    (hLimit : limit ≤ higher) :
    (loadSegments image limit).Extends (loadSegments (image.withFile longer) higher) := by
  unfold loadSegments
  rw [Image.segments_withFile begins fits]
  refine (Extends.refl _).bind fun segments => ?_
  cases segments.filter Segment.isLoadable with
  | nil =>
      have hEmpty : verdict image limit (.initial limit) = .error .invalidMappings :=
        if_pos (.inl (UInt64.le_iff_toNat_le.mpr (Nat.zero_le _)))
      have hEnds := judge_ends image limit (.initial limit)
      rw [hEmpty] at hEnds
      exact extends_of_stop hEnds
  | cons s rest =>
      have hEach (b : Bounds) (s : Segment) :
          (b.load image limit s).Extends (b.load (image.withFile longer) higher s) :=
        (loadSegment_extends begins hLimit s).bind fun _ => Extends.refl _
      have hFold : ((s :: rest).foldlM (Bounds.load image limit) (.initial limit)).Extends
          ((s :: rest).foldlM (Bounds.load (image.withFile longer) higher) (.initial higher)) := by
        rw [List.foldlM_cons, List.foldlM_cons]
        exact (firstLoad_extends begins hLimit s).bind fun b => Extends.foldlM hEach rest b
      exact hFold.bind (judge_extends hLimit)

theorem bindFunctions_extends (begins : image.file.Begins longer) (fits : image.Fits) (span : Span)
    (resolve : Resolver) :
    (bindFunctions image span resolve).Extends
      (bindFunctions (image.withFile longer) span resolve) := by
  have hSections := Image.sections_withFile begins fits
  have hNames : Upheld image.symbolNames (image.withFile longer).symbolNames := by
    unfold Image.symbolNames
    rw [hSections]
    exact Image.symbolNamesIn_upheld begins image.sections
  have hTables : (image.withFile longer).symbolTables = image.symbolTables := by
    rw [Image.symbolTables, Image.symbolTables, hSections]
  unfold bindFunctions
  refine (extends_lift hNames).bind fun names? => ?_
  cases names? with
  | none => exact Extends.refl _
  | some names =>
      simp only [hTables]
      refine Extends.foldlM (fun bound table => ?_) image.symbolTables 0
      exact (extends_lift (Image.symbols_upheld begins table)).bind fun _ => Extends.refl _

theorem loadExecutable_extends (begins : file.Begins longer) (hLimit : limit ≤ higher)
    (resolve? : Option Resolver) :
    (loadExecutable file limit resolve?).Extends (loadExecutable longer higher resolve?) := by
  cases hParse : Image.parse file with
  | error stop => exact extends_of_stop (loadExecutable_stops hParse limit resolve?)
  | ok image =>
      obtain ⟨rfl, fits⟩ := Image.parse_eq_ok hParse
      unfold loadExecutable
      rw [hParse, Image.parse_withFile begins hParse]
      show Extends (loadSegments image limit >>= _)
        (loadSegments (image.withFile longer) higher >>= _)
      refine (loadSegments_extends begins fits hLimit).bind fun span => ?_
      cases resolve? with
      | none => exact Extends.refl _
      | some resolve =>
          have hBind := bindFunctions_extends begins fits span resolve
          exact hBind.bind fun _ => Extends.refl _

/-- What follows a file that is accepted, and room above the image it becomes, change neither what
is written for it nor the span it is given. -/
theorem loading_ignores_tail {file longer : Buffer} {tail : Array UInt8} {limit higher : UInt64}
    {resolve? : Option Resolver} {writes : List Write} {span : Span}
    (hTail : longer.bytes = file.bytes ++ tail) (hLimit : limit ≤ higher)
    (hLoaded : (loadExecutable file limit resolve?).outcome () = ⟨writes, .ok span, ()⟩) :
    (loadExecutable longer higher resolve?).outcome () = ⟨writes, .ok span, ()⟩ := by
  have hExtends := loadExecutable_extends ⟨tail, hTail⟩ hLimit resolve?
  have hResult : ((loadExecutable file limit resolve?).outcome ()).result = .ok span :=
    congrArg Outcome.result hLoaded
  exact (hExtends.outcome_eq hResult).trans hLoaded

namespace Sample

theorem length_linkedBytes : linkedBytes.length = 357 := by decide +kernel

/-- The file with symbols and one byte after it. -/
def followed : Buffer :=
  ⟨linked.bytes ++ #[1], by simp [linked, length_linkedBytes, UInt64.size]⟩

/-- What loading the file with symbols writes if only `f` is known: the segment, which takes nothing
from the file, and one pointer. -/
def linkedWrites : List Write := [.copy 0x1000 #[], .zero 0x1000 0x20, .word 0x1010 0x1008]

theorem loadExecutable_linked :
    (loadExecutable linked 0x2000 (some (.ofList [("f", 0x1008)]))).outcome () =
      ⟨linkedWrites, .ok ⟨0x1000, 0x1000, 0x1020⟩, ()⟩ := by
  -- Writes and result are compared at once, so that the file is loaded only once.
  have hBoth :
      let load := (loadExecutable linked 0x2000 (some (.ofList [("f", 0x1008)]))).outcome ()
      load.writes = linkedWrites ∧ load.result.toOption = some ⟨0x1000, 0x1000, 0x1020⟩ := by
    decide +kernel
  exact Outcome.eq_mk hBoth.1 (eq_ok_of_toOption hBoth.2)

end Sample

theorem loading_ignores_tail_followed :
    (loadExecutable Sample.linked 0x2000 (some (.ofList [("f", 0x1008)]))).outcome () =
        ⟨Sample.linkedWrites, .ok ⟨0x1000, 0x1000, 0x1020⟩, ()⟩ ∧
      (loadExecutable Sample.followed 0x3000 (some (.ofList [("f", 0x1008)]))).outcome () =
        ⟨Sample.linkedWrites, .ok ⟨0x1000, 0x1000, 0x1020⟩, ()⟩ :=
  ⟨Sample.loadExecutable_linked,
    loading_ignores_tail rfl (by decide) Sample.loadExecutable_linked⟩

end Loading

end Supervisor
