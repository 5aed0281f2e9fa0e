/-!
# Log — levels and formats

How grave a record is, and how much of its origin a line shows.
-/

namespace Rulebook.Log

inductive Level
  | trace | debug | info | success | warning | error | critical
  deriving DecidableEq, Repr

namespace Level

def all : List Level := [.trace, .debug, .info, .success, .warning, .error, .critical]

def name : Level → String
  | .trace => "TRACE"
  | .debug => "DEBUG"
  | .info => "INFO"
  | .success => "SUCCESS"
  | .warning => "WARNING"
  | .error => "ERROR"
  | .critical => "CRITICAL"

def severity : Level → Nat
  | .trace => 5
  | .debug => 10
  | .info => 20
  | .success => 25
  | .warning => 30
  | .error => 40
  | .critical => 50

def ofName? (s : String) : Option Level := all.find? (·.name == s)

end Level

/-- A short line names the function a record comes from, a full line also its module and place. -/
inductive Format
  | short | full
  deriving DecidableEq, Repr

namespace Format

def name : Format → String
  | .short => "short"
  | .full => "full"

def ofName? (s : String) : Option Format := [short, full].find? (·.name == s)

end Format

end Rulebook.Log
