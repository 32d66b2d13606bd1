/-! Log records: a message with a level. -/

namespace Supervisor.Log

inductive Level where
  | error | warn | info | debug | trace
deriving DecidableEq

namespace Level

def name : Level → String
  | error => "ERROR"
  | warn => "WARN"
  | info => "INFO"
  | debug => "DEBUG"
  | trace => "TRACE"

/-- Less severe levels rank higher. -/
def rank : Level → Nat
  | error => 1
  | warn => 2
  | info => 3
  | debug => 4
  | trace => 5

end Level

/-- The least severe level that is let through; `none` lets nothing through. -/
abbrev Filter := Option Level

namespace Filter

def rank (f : Filter) : Nat := (f.map Level.rank).getD 0

def name (f : Filter) : String := (f.map Level.name).getD "OFF"

/-- A record passes when its level is at least as severe as the filter's. -/
def admits (f : Filter) (level : Level) : Bool := level.rank ≤ rank f

end Filter

structure Record where
  level : Level
  message : String
deriving DecidableEq

/-- A record as one line of text. -/
def Record.text (r : Record) : String := r.level.name ++ " " ++ r.message

end Supervisor.Log
