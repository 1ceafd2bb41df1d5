import FaultBench.Text.Digits

/-! Diagnostic log entries: a level, a message and named values. -/
namespace FaultBench.Log

inductive Level where
  | trace
  | debug
  | info
  | warn
  | error
  deriving DecidableEq, Repr

def Level.name : Level → String
  | .trace => "TRACE"
  | .debug => "DEBUG"
  | .info => "INFO"
  | .warn => "WARN"
  | .error => "ERROR"

/-- Higher levels are more urgent. -/
def Level.rank : Level → Nat
  | .trace => 0
  | .debug => 1
  | .info => 2
  | .warn => 3
  | .error => 4

structure Entry where
  level : Level
  message : String
  fields : List (String × String) := []
  deriving DecidableEq, Repr

def count (name : String) (n : Nat) : String × String := (name, Text.decimal n)

def trace (message : String) (fields : List (String × String) := []) : Entry :=
  ⟨.trace, message, fields⟩

def debug (message : String) (fields : List (String × String) := []) : Entry :=
  ⟨.debug, message, fields⟩

def info (message : String) (fields : List (String × String) := []) : Entry :=
  ⟨.info, message, fields⟩

def warn (message : String) (fields : List (String × String) := []) : Entry :=
  ⟨.warn, message, fields⟩

def error (message : String) (fields : List (String × String) := []) : Entry :=
  ⟨.error, message, fields⟩

/-- One line: the level, the message and the values, separated by blanks. -/
def Entry.render (e : Entry) : String :=
  e.fields.foldl (fun line field => line ++ " " ++ field.1 ++ "=" ++ field.2)
    (e.level.name ++ " " ++ e.message)

end FaultBench.Log
