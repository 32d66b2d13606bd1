/-! The span of a loaded image: its entry point, and the addresses from its lowest segment to the
end of its highest. -/

namespace Supervisor

structure Span where
  entry : UInt64
  start : UInt64
  /-- One past the last address. -/
  stop : UInt64
deriving DecidableEq

namespace Span

/-- Whether so many bytes from an address on lie in the span. An address inside the span, or right
at its end, counts as a place for no bytes. -/
def contains (s : Span) (address length : UInt64) : Bool :=
  s.start ≤ address && address.toNat + length.toNat ≤ s.stop.toNat

end Span

end Supervisor
