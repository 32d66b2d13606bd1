import Supervisor.Proofs.Loading.Binding

/-! Loading a hostile file is safe. It never panics and writes nothing past the bound of the address
space, even when the file turns out to be bad later. -/

namespace Supervisor

namespace Loading

open Effect Elf

variable {file : Buffer} {image : Image} {limit : UInt64} {resolve? : Option Resolver}

/-- The writes that binding adds once the segments are loaded. -/
def bindingWrites (image : Image) (limit : UInt64) (resolve? : Option Resolver) : List Write :=
  match resolve?, ((loadSegments image limit).outcome ()).result with
  | some resolve, .ok span => ((bindFunctions image span resolve).outcome ()).writes
  | _, _ => []

/-- What loading gives: the span, if neither the segments nor the pointers fail. -/
def loadedSpan (image : Image) (limit : UInt64) (resolve? : Option Resolver) :
    Except Elf.Error Span := do
  let span ← segmentSpan image limit
  match resolve? with
  | none => return span
  | some resolve =>
    let _ ← boundCount image span resolve
    return span

theorem bindingWrites_eq (fits : image.Fits) (resolve : Resolver) :
    bindingWrites image limit (some resolve) =
      match segmentSpan image limit with
      | .ok span => boundWrites image span resolve
      | .error _ => [] := by
  unfold bindingWrites
  rw [(loadSegments_ends fits limit).outcome_eq]
  cases segmentSpan image limit with
  | error error => rfl
  | ok span => exact congrArg Outcome.writes (bindFunctions_ends image span resolve).outcome_eq

theorem loadExecutable_ends (hParse : Image.parse file = .ok image) (limit : UInt64)
    (resolve? : Option Resolver) :
    (loadExecutable file limit resolve?).Ends ()
      (segmentWrites image limit ++ bindingWrites image limit resolve?)
      ((loadedSpan image limit resolve?).mapError .refused) () := by
  have fits := (Image.parse_eq_ok hParse).2
  have hSegments := loadSegments_ends fits limit
  unfold loadExecutable
  rw [hParse]
  apply (ends_lift (.ok image) ()).andThen
  cases hResolve : resolve? with
  | none =>
      unfold loadedSpan bindingWrites
      cases hSpan : segmentSpan image limit with
      | error error =>
          rw [hSpan] at hSegments
          rw [List.append_nil]
          exact hSegments.bind_stop
      | ok span =>
          rw [hSpan] at hSegments
          apply hSegments.bind
          exact (ends_log _ _ ()).andThen (Ends.pure span ())
  | some resolve =>
      rw [bindingWrites_eq fits]
      unfold loadedSpan
      cases hSpan : segmentSpan image limit with
      | error error =>
          rw [hSpan] at hSegments
          rw [List.append_nil]
          exact hSegments.bind_stop
      | ok span =>
          rw [hSpan] at hSegments
          apply hSegments.bind
          have hBind := bindFunctions_ends image span resolve
          show Ends (bindFunctions image span resolve >>= _) () (boundWrites image span resolve)
            ((boundCount image span resolve >>= fun _ => pure span).mapError .refused) ()
          cases hCount : boundCount image span resolve with
          | error error =>
              rw [hCount] at hBind
              exact hBind.bind_stop
          | ok count =>
              rw [hCount] at hBind
              rw [← List.append_nil (boundWrites image span resolve)]
              exact hBind.bind ((ends_log _ _ ()).andThen (Ends.pure span ()))

/-- A file that does not parse ends loading before anything is written. -/
theorem loadExecutable_stops {stop : Stop Elf.Error} (hParse : Image.parse file = .error stop)
    (limit : UInt64) (resolve? : Option Resolver) :
    (loadExecutable file limit resolve?).Ends () [] (.error stop) () := by
  unfold loadExecutable
  rw [hParse]
  exact (ends_lift (.error stop) ()).bind_stop

/-- Loading makes its writes and gives a span or is refused. -/
theorem loadExecutable_quiet (file : Buffer) (limit : UInt64) (resolve? : Option Resolver) :
    ∃ writes r, (loadExecutable file limit resolve?).Ends () writes
      ((r : Except Elf.Error Span).mapError .refused) () := by
  cases hParse : Image.parse file with
  | ok image => exact ⟨_, _, loadExecutable_ends hParse limit resolve?⟩
  | error stop =>
      obtain ⟨r, hQuiet⟩ := (Image.quiet_parse file).exists_eq
      cases r with
      | ok image =>
          rw [hParse] at hQuiet
          cases hQuiet
      | error error =>
          exact ⟨[], .error error, loadExecutable_stops hQuiet limit resolve?⟩

theorem loadedSpan_eq_ok {span : Span} (hSpan : loadedSpan image limit resolve? = .ok span) :
    segmentSpan image limit = .ok span := by
  obtain ⟨found, hFound, hRest⟩ := bind_eq_ok.mp hSpan
  cases resolve? with
  | none =>
      cases hRest
      exact hFound
  | some resolve =>
      obtain ⟨_, _, hRest⟩ := bind_eq_ok.mp hRest
      cases hRest
      exact hFound

theorem bindingWrites_within (fits : image.Fits) {w : Write}
    (hMem : w ∈ bindingWrites image limit resolve?) :
    ∃ span, segmentSpan image limit = .ok span ∧ w.Within span := by
  cases resolve? with
  | none => cases hMem
  | some resolve =>
      rw [bindingWrites_eq fits] at hMem
      cases hSpan : segmentSpan image limit with
      | error error =>
          rw [hSpan] at hMem
          cases hMem
      | ok span =>
          rw [hSpan] at hMem
          exact ⟨span, rfl, boundWrites_within hMem⟩

theorem length_bindingWrites_le (fits : image.Fits) :
    (bindingWrites image limit resolve?).length ≤
      65535 * (image.file.size / Packed.width Symbol) := by
  cases resolve? with
  | none => exact Nat.zero_le _
  | some resolve =>
      rw [bindingWrites_eq fits]
      cases segmentSpan image limit with
      | error error => exact Nat.zero_le _
      | ok span => exact length_boundWrites_le image span resolve

/-- The entry point of a span is that of the header. -/
theorem entry_of_span {span : Span} (hSpan : segmentSpan image limit = .ok span) :
    span.entry = image.entry := by
  obtain ⟨-, -, hEq⟩ := verdict_eq_ok.mp (segmentSpan_eq_ok.mp hSpan).2
  rw [hEq]

/-- A span that was computed is not empty and ends below the bound. -/
theorem segmentSpan_proper {span : Span} (hSpan : segmentSpan image limit = .ok span) :
    span.start ≤ span.entry ∧ span.entry < span.stop ∧ span.stop < limit := by
  obtain ⟨⟨-, hBelow⟩, ⟨hStart, hStop⟩, hEq⟩ := verdict_eq_ok.mp (segmentSpan_eq_ok.mp hSpan).2
  rw [hEq]
  exact ⟨hStart, hStop, hBelow⟩

/-- Loading never panics, each write ends at or below the bound, also one before a refusal, and the
entry point lies in the span. Binding writes inside the span, and its count is a word for every file
of less than 2^52 bytes. -/
theorem loadExecutable_safe (file : Buffer) (limit : UInt64) (resolve? : Option Resolver) :
    let load := (loadExecutable file limit resolve?).outcome ()
    (∀ cause, load.result ≠ .error (.panicked cause)) ∧
      (∀ w ∈ load.writes, w.start + w.length ≤ limit.toNat) ∧
      (∀ span, load.result = .ok span →
        span.start ≤ span.entry ∧ span.entry < span.stop ∧ span.stop < limit) ∧
      (∀ stop, Image.parse file = .error stop → load.writes = []) ∧
      ∀ image, Image.parse file = .ok image →
        let segments := (loadSegments image limit).outcome ()
        let binding := bindingWrites image limit resolve?
        load.writes = segments.writes ++ binding ∧
          (∀ w ∈ binding, ∃ span, segments.result = .ok span ∧ w.Within span) ∧
          binding.length ≤ 65535 * (file.size / Packed.width Symbol) ∧
          (file.size < UInt64.size / 4096 → binding.length < UInt64.size) := by
  intro load
  cases hParse : Image.parse file with
  | error stop =>
      have hLoad : load = ⟨[], .error stop, ()⟩ :=
        (loadExecutable_stops hParse limit resolve?).outcome_eq
      have hQuiet := Image.quiet_parse file
      rw [hParse] at hQuiet
      rw [hLoad]
      refine ⟨?_, ?_, ?_, ?_, ?_⟩
      · intro cause hPanic
        cases hPanic
        exact hQuiet cause rfl
      · intro w hMem
        cases hMem
      · intro span hOk
        cases hOk
      · intro _ _
        rfl
      · intro image hImage
        cases hImage
  | ok image =>
      obtain ⟨hFile, fits⟩ := Image.parse_eq_ok hParse
      have hLoad :
          load = ⟨segmentWrites image limit ++ bindingWrites image limit resolve?, _, ()⟩ :=
        (loadExecutable_ends hParse limit resolve?).outcome_eq
      rw [hLoad]
      refine ⟨?_, ?_, ?_, ?_, ?_⟩
      · intro cause hPanic
        cases hSpan : loadedSpan image limit resolve? <;> rw [hSpan] at hPanic <;> cases hPanic
      · intro w hMem
        rcases List.mem_append.mp hMem with hSegment | hBinding
        · exact segmentWrites_below hSegment
        · obtain ⟨span, hSpan, -, hStop⟩ := bindingWrites_within fits hBinding
          have hBelow := UInt64.lt_iff_toNat_lt.mp (segmentSpan_proper hSpan).2.2
          omega
      · intro span hOk
        cases hSpan : loadedSpan image limit resolve? with
        | error error =>
            rw [hSpan] at hOk
            cases hOk
        | ok found =>
            rw [hSpan] at hOk
            cases hOk
            exact segmentSpan_proper (loadedSpan_eq_ok hSpan)
      · intro stop hStop
        cases hStop
      · intro parsed hParsed
        cases hParsed
        rw [(loadSegments_ends fits limit).outcome_eq, ← hFile]
        have hCount : (bindingWrites image limit resolve?).length ≤
            65535 * (image.file.size / Packed.width Symbol) := length_bindingWrites_le fits
        refine ⟨rfl, ?_, hCount, ?_⟩
        · intro w hMem
          obtain ⟨span, hSpan, hWithin⟩ := bindingWrites_within fits hMem
          exact ⟨span, by rw [hSpan]; rfl, hWithin⟩
        · intro hSmall
          have hWidth : Packed.width Symbol = 24 := rfl
          rw [hWidth] at hCount
          unfold UInt64.size at hSmall ⊢
          omega

end Loading

end Supervisor
