/-!
Reports that do not stop the work, each of a level.
-/

namespace LinkedJson

inductive Level where
  | notSet
  | debug
  | info
  | warning
  | error
  | critical
  deriving DecidableEq, Repr

namespace Level

def all : List Level := [.notSet, .debug, .info, .warning, .error, .critical]

def name : Level → String
  | .notSet => "NOTSET"
  | .debug => "DEBUG"
  | .info => "INFO"
  | .warning => "WARNING"
  | .error => "ERROR"
  | .critical => "CRITICAL"

/-- How grave a report of the level is. -/
def rank : Level → Nat
  | .notSet => 0
  | .debug => 10
  | .info => 20
  | .warning => 30
  | .error => 40
  | .critical => 50

end Level

structure Notice where
  level : Level
  message : String
  deriving DecidableEq, Repr

namespace Notice

def info (message : String) : Notice := ⟨.info, message⟩

def warn (message : String) : Notice := ⟨.warning, message⟩

def error (message : String) : Notice := ⟨.error, message⟩

/-- The notice is at least as grave as a level. -/
def reaches (n : Notice) (threshold : Level) : Bool := threshold.rank ≤ n.level.rank

/-- The notice as a line. -/
def line (n : Notice) : String := n.level.name ++ " - " ++ n.message

end Notice

end LinkedJson
