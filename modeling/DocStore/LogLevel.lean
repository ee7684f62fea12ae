/-!
# Log levels

Messages are logged at a level and shown if it is at most the level in force.
-/

set_option autoImplicit false

namespace DocStore

/-- The level of a message, the most urgent first. -/
inductive LogLevel where
  | error
  | warn
  | info
  | debug
  | trace
deriving DecidableEq, Repr

namespace LogLevel

/-- The name of a level. -/
def name : LogLevel → String
  | error => "ERROR"
  | warn => "WARN"
  | info => "INFO"
  | debug => "DEBUG"
  | trace => "TRACE"

/-- All levels. -/
def all : List LogLevel := [error, warn, info, debug, trace]

/-- The upper case of a character as far as names of levels need it. Besides the ASCII letters, the
dotless i alone goes to a letter of them. -/
def upperCase (c : Char) : Char := if c = 'ı' then 'I' else c.toUpper

/-- The level of a name in any case. -/
def parse? (s : String) : Option LogLevel :=
  let upper := String.ofList (s.toList.map upperCase)
  all.find? fun level => level.name == upper

/-- The urgency of a level, the most urgent being 0. -/
def rank : LogLevel → Nat
  | error => 0
  | warn => 1
  | info => 2
  | debug => 3
  | trace => 4

/-- Whether a message of a level is shown when another is in force. -/
def shown (level current : LogLevel) : Bool := level.rank ≤ current.rank

end LogLevel

/-- A logged message. -/
structure LogEntry where
  level : LogLevel
  message : String

/-- The entries that are shown at a level. -/
def LogEntry.shownAt (current : LogLevel) (entries : List LogEntry) : List LogEntry :=
  entries.filter fun e => e.level.shown current

end DocStore
