/-! Hexadecimal text in lower-case digits, padded on the left with zeros. -/

namespace Supervisor.Hex

/-- The digits of a number, at least `width` of them. -/
def digits (n : Nat) (width : Nat := 1) : String :=
  let ds := Nat.toDigits 16 n
  String.ofList (List.replicate (width - ds.length) '0' ++ ds)

/-- The digits after the mark `0x`. -/
def marked (n : Nat) (width : Nat := 1) : String :=
  "0x" ++ digits n width

end Supervisor.Hex
