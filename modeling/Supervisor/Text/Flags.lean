import Supervisor.Text.Hex

/-! The text of a set of bits: the names of those that are set, and the rest as one hexadecimal
number. -/

namespace Supervisor.Flags

/-- The names of the set bits; bits without a name follow as one number. -/
def parts (names : List (Nat × String)) (bits : Nat) : List String :=
  let named := names.filter fun entry => bits &&& entry.1 != 0
  let unnamed := names.foldl (fun rest entry => rest &&& (rest ^^^ entry.1)) bits
  named.map Prod.snd ++ (if unnamed = 0 then [] else [Hex.marked unnamed])

/-- The set in brackets after the name of its kind. The empty set is written as the number zero. -/
def text (kind : String) (names : List (Nat × String)) (bits : Nat) : String :=
  let inner := match parts names bits with
    | [] => Hex.marked 0
    | ps => String.intercalate " | " ps
  kind ++ "(" ++ inner ++ ")"

end Supervisor.Flags
