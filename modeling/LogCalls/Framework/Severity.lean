import LogCalls.Error

/-! # Severities

The tiers of severity that logging frameworks share, from least to most severe. -/

namespace LogCalls

/-- Tiers of severity. -/
inductive Severity where
  | trace
  | debug
  | info
  | warn
  | error
  | fatal
  deriving DecidableEq, Repr

namespace Severity

/-- All tiers, from least to most severe. -/
def all : List Severity := [trace, debug, info, warn, error, fatal]

/-- The place of a tier in the order of severity. -/
def rank : Severity → Nat
  | trace => 0
  | debug => 1
  | info => 2
  | warn => 3
  | error => 4
  | fatal => 5

/-- The name of a tier. -/
def name : Severity → String
  | trace => "trace"
  | debug => "debug"
  | info => "info"
  | warn => "warn"
  | error => "error"
  | fatal => "fatal"

/-- The tier with exactly this name. -/
def ofName? (text : String) : Option Severity := all.find? (·.name == text)

/-- The tier that a user names; case does not matter, and `warning` is a second name. -/
def parse (text : String) : Except Error Severity :=
  let lower := text.map Char.toLower
  match ofName? (if lower = "warning" then "warn" else lower) with
  | some severity => .ok severity
  | none => .error (.unknownSeverity text)

@[simp] theorem mem_all (severity : Severity) : severity ∈ all := by cases severity <;> decide

@[simp] theorem ofName?_name (severity : Severity) : ofName? severity.name = some severity := by
  cases severity <;> decide

end Severity

end LogCalls
