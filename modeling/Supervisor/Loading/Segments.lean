import Supervisor.Effect
import Supervisor.Elf.Image
import Supervisor.Loading.Span
import Supervisor.Text.Hex

/-! Loading the segments of an image in their order. Each is checked before anything is written for
it. -/

namespace Supervisor.Loading

open Elf (Image Segment)

/-- Loading has no state. What it does shows in its trace. -/
abbrev Load (α : Type) := Effect Elf.Error Unit α

/-- The place in the file of what a segment takes from it. -/
def sourceRange (image : Image) (s : Segment) : Load Range :=
  match Range.within? s.offset s.sourceSize image.file.size with
  | some range => pure range
  | none => do
    let stop := min (s.offset.toNat + s.sourceSize.toNat) (UInt64.size - 1)
    Effect.log .warn
      s!"Segment contents exceed file size: {Hex.marked stop} > {Hex.marked image.file.size}"
    Effect.refuse .segmentOutOfBounds

/-- The end of a segment in memory. It may reach the bound but not pass it. -/
def targetStop (limit : UInt64) (s : Segment) : Load UInt64 :=
  if s.virtualAddress.toNat + s.memorySize.toNat ≤ limit.toNat then
    pure (s.virtualAddress + s.memorySize)
  else do
    let start := Hex.marked s.virtualAddress.toNat
    Effect.log .warn s!"Segment at {start} exceeds user memory {Hex.marked limit.toNat}"
    Effect.refuse .segmentAboveLimit

/-- Writes a segment: what it takes from the file, and zeros up to its size in memory. Gives its
end. -/
def loadSegment (image : Image) (limit : UInt64) (s : Segment) : Load UInt64 := do
  let source ← sourceRange image s
  let stop ← targetStop limit s
  let size := Hex.marked s.sourceSize.toNat 8
  let start := Hex.marked s.virtualAddress.toNat
  Effect.log .debug s!"Loading segment of size {size} to {start} ({s.flagsText})"
  let bytes ← Effect.orFault (image.file.slice source)
  Effect.write (.copy s.virtualAddress bytes)
  let zeroStart ← Effect.orFault (Checked.add s.virtualAddress s.sourceSize)
  let zeroLength ← Effect.orFault (Checked.sub s.memorySize s.sourceSize)
  Effect.write (.zero zeroStart zeroLength)
  return stop

/-- Lowest start and highest end of what has been loaded. -/
structure Bounds where
  start : UInt64
  stop : UInt64

namespace Bounds

/-- Nothing is loaded yet: the start is as high and the end as low as they can be. -/
def initial (limit : UInt64) : Bounds := ⟨limit, 0⟩

def extend (b : Bounds) (start stop : UInt64) : Bounds := ⟨min b.start start, max b.stop stop⟩

/-- Loads a segment and takes it into the bounds. -/
def load (image : Image) (limit : UInt64) (b : Bounds) (s : Segment) : Load Bounds := do
  let stop ← loadSegment image limit s
  return b.extend s.virtualAddress stop

end Bounds

/-- The span of an image whose segments are loaded. Bounds that hold no address or reach the limit
are refused, and so is an entry point outside them. -/
def judge (image : Image) (limit : UInt64) (b : Bounds) : Load Span :=
  if b.stop ≤ b.start ∨ limit ≤ b.stop then do
    Effect.log .warn
      s!"Invalid memory mappings {Hex.marked b.start.toNat}..{Hex.marked b.stop.toNat}"
    Effect.refuse .invalidMappings
  else if image.entry < b.start ∨ b.stop ≤ image.entry then do
    let entry := Hex.marked image.entry.toNat
    Effect.log .warn s!"Program entry point {entry} is outside program data"
    Effect.refuse .entryOutsideImage
  else
    pure ⟨image.entry, b.start, b.stop⟩

/-- Loads all segments that ask for it into an address space that ends before `limit`. -/
def loadSegments (image : Image) (limit : UInt64) : Load Span := do
  let segments ← Effect.orFault image.segments
  let loadable := segments.filter Segment.isLoadable
  let bounds ← loadable.foldlM (Bounds.load image limit) (.initial limit)
  judge image limit bounds

end Supervisor.Loading
