import LogCalls.Configuration
import LogCalls.Engine.Pass

/-! # The engine

Rules are run over a unit, pass after pass, until a pass changes nothing. A unit that still changes
when the budget of passes is used up is an error, and nothing of it is kept. -/

namespace LogCalls

/-- What it took to transform units. -/
structure Summary where
  unitsChanged : Nat := 0
  replacements : Nat := 0
  /-- The passes that were made, with the last one that changed nothing. -/
  cycles : Nat := 0
  errors : List String := []
  deriving DecidableEq, Repr

namespace Summary

/-- The summary of two parts together. -/
def merge (summary later : Summary) : Summary where
  unitsChanged := summary.unitsChanged + later.unitsChanged
  replacements := summary.replacements + later.replacements
  cycles := max summary.cycles later.cycles
  errors := summary.errors ++ later.errors

/-- Nothing went wrong. -/
def success (summary : Summary) : Bool := summary.errors.isEmpty

end Summary

/-- A transformed unit, and what it took. -/
structure Outcome where
  unit : CompilationUnit
  summary : Summary
  deriving DecidableEq

/-- The name that a unit goes by in messages. -/
def CompilationUnit.displayName (unit : CompilationUnit) : String :=
  (unit.sourcePath.or (unit.classes.head?.map (·.fqn))).getD "<unnamed>"

/-- Rules and a budget of passes. -/
structure Engine where
  rules : List Rule
  maxCycles : Nat := 10
  /-- How much deeper the rules may nest the blocks of a body in one pass. A pass in which they nest
  them even deeper fails. -/
  slack : Nat := 100

namespace Engine

/-- The engine that a configuration describes. -/
def ofConfiguration (configuration : Configuration) : Except Error Engine := do
  let rules ← configuration.buildRules
  return { rules := Rule.byPriority rules, maxCycles := configuration.maxCycles }

/-- The statistics that the engine starts with. -/
def startStatistics (engine : Engine) : Statistics := .start (engine.rules.map (·.name))

/-- One pass: the unit after it and the number of replacements, or an error; and the statistics. -/
def cycle (engine : Engine) (statistics : Statistics) (unit : CompilationUnit) :
    Except Error (CompilationUnit × Nat) × Statistics :=
  match (Pass.visitUnit engine.rules engine.slack unit).run { statistics } with
  | .ok unit progress => (.ok (unit, progress.replacements), progress.statistics)
  | .error error progress => (.error error, progress.statistics)

/-- Passes until one changes nothing. `remaining` is what is left of the budget, `replacements` the
number of replacements so far. -/
def transformFrom (engine : Engine) (initial : CompilationUnit) :
    (remaining : Nat) → Statistics → CompilationUnit → (replacements : Nat) →
      Except Error Outcome × Statistics
  | 0, statistics, _, _ =>
    (.error (.nonConvergence initial.displayName engine.maxCycles), statistics)
  | remaining + 1, statistics, unit, replacements =>
    match engine.cycle statistics unit with
    | (.error error, statistics) => (.error error, statistics)
    | (.ok (unit, 0), statistics) =>
      (.ok {
        unit
        summary := {
          unitsChanged := if unit = initial then 0 else 1
          replacements, cycles := engine.maxCycles - remaining } },
      statistics)
    | (.ok (unit, count), statistics) =>
      transformFrom engine initial remaining statistics unit (replacements + count)

/-- Transform a unit until nothing changes. -/
def transform (engine : Engine) (statistics : Statistics) (unit : CompilationUnit) :
    Except Error Outcome × Statistics :=
  engine.transformFrom unit engine.maxCycles statistics unit 0

end Engine

end LogCalls
