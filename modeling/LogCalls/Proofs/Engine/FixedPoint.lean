import LogCalls.Engine.Basic
import LogCalls.Proofs.Engine.IdlePass
import LogCalls.Rule.Elementary
import Mathlib.Logic.Relation

/-! # Outcomes are fixed points

An engine stops at a unit that a pass has left alone. It leaves that unit alone whenever it is given
it again, since what a pass does to a unit does not depend on what has been counted before. -/

namespace LogCalls

/-- Results can be compared if their values and errors can. -/
instance decidableEqExcept {ε α : Type} [DecidableEq ε] [DecidableEq α] : DecidableEq (Except ε α)
  | .ok first, .ok second => decidable_of_iff (first = second) ⟨congrArg _, Except.ok.inj⟩
  | .error first, .error second => decidable_of_iff (first = second) ⟨congrArg _, Except.error.inj⟩
  | .ok _, .error _ => .isFalse nofun
  | .error _, .ok _ => .isFalse nofun

namespace Engine

variable {engine : Engine} {unit : CompilationUnit} {statistics : Statistics} {outcome : Outcome}

/-- The passes of an engine that succeed, from the visit of the unit. -/
theorem cycle_eq_ok {visited : CompilationUnit} {count : Nat} :
    (engine.cycle statistics unit).1 = .ok (visited, count) ↔
      ∃ after, (Pass.visitUnit engine.rules engine.slack unit).run { statistics } = .ok visited after ∧
        after.replacements = count := by
  unfold cycle
  cases (Pass.visitUnit engine.rules engine.slack unit).run { statistics } with
  | ok visited after => simp [and_assoc]
  | error error after => simp

/-- **A pass without replacements is idle.** It returns the unit that it was given, and so does every
other pass over this unit. -/
theorem cycle_idle {visited : CompilationUnit}
    (idle : (engine.cycle statistics unit).1 = .ok (visited, 0)) :
    visited = unit ∧ ∀ counted, (engine.cycle counted unit).1 = .ok (unit, 0) := by
  obtain ⟨after, run, unchanged⟩ := cycle_eq_ok.mp idle
  obtain ⟨same, again⟩ := Pass.idle_visitUnit run unchanged
  exact ⟨same, fun counted => cycle_eq_ok.mpr (again counted)⟩

/-- **Where an engine stops.** If some budget is enough to transform a unit, the outcome is a unit
over which a pass makes no replacement. -/
theorem transformFrom_stops {initial : CompilationUnit} (remaining : Nat) :
    ∀ (statistics : Statistics) (unit : CompilationUnit) (replacements : Nat),
      (engine.transformFrom initial remaining statistics unit replacements).1 = .ok outcome →
      ∃ counted, (engine.cycle counted outcome.unit).1 = .ok (outcome.unit, 0) := by
  induction remaining with
  | zero =>
    intro statistics unit replacements converged
    simp [transformFrom] at converged
  | succ remaining later =>
    intro statistics unit replacements converged
    rw [transformFrom] at converged
    split at converged
    · cases converged
    · -- The pass made no replacement: its unit is the outcome.
      rename_i visited counted pass
      have idle : (engine.cycle statistics unit).1 = .ok (visited, 0) := by rw [pass]
      obtain ⟨rfl, -⟩ := cycle_idle idle
      cases converged
      exact ⟨statistics, idle⟩
    · exact later _ _ _ converged

/-- **What passes do, an engine does.** A relation between units that every pass keeps to, and that can
be put together, holds between a unit and what the engine makes of it. -/
theorem transformFrom_related {engine : Engine} {initial : CompilationUnit} {outcome : Outcome}
    {related : CompilationUnit → CompilationUnit → Prop}
    (trans : ∀ {first second third}, related first second → related second third →
      related first third)
    (pass : ∀ {statistics unit visited count},
      (engine.cycle statistics unit).1 = .ok (visited, count) → related unit visited)
    (remaining : Nat) :
    ∀ (statistics : Statistics) (unit : CompilationUnit) (replacements : Nat),
      (engine.transformFrom initial remaining statistics unit replacements).1 = .ok outcome →
      related unit outcome.unit := by
  induction remaining with
  | zero =>
    intro statistics unit replacements converged
    simp [transformFrom] at converged
  | succ remaining later =>
    intro statistics unit replacements converged
    rw [transformFrom] at converged
    split at converged
    · cases converged
    · -- The last pass made no replacement, but it is a pass like any other.
      rename_i visited counted made
      cases converged
      exact pass (congrArg Prod.fst made)
    · rename_i visited count counted made
      exact trans (pass (congrArg Prod.fst made)) (later _ _ _ converged)

/-- A pass makes the second unit of the first. -/
def Step (engine : Engine) (unit visited : CompilationUnit) : Prop :=
  ∃ statistics count, (engine.cycle statistics unit).1 = .ok (visited, count)

/-- Passes make the second unit of the first. -/
def Reaches (engine : Engine) : CompilationUnit → CompilationUnit → Prop :=
  Relation.ReflTransGen engine.Step

theorem reaches_of_transform (converged : (engine.transform statistics unit).1 = .ok outcome) :
    engine.Reaches unit outcome.unit :=
  transformFrom_related .trans (fun made => .single ⟨_, _, made⟩) _ _ _ _ converged

/-- An engine that has an outcome makes at least one pass. -/
theorem maxCycles_pos (converged : (engine.transform statistics unit).1 = .ok outcome) :
    0 < engine.maxCycles := by
  rw [transform] at converged
  cases budget : engine.maxCycles with
  | zero => simp [budget, transformFrom] at converged
  | succ remaining => exact Nat.succ_pos remaining

/-- A unit over which a pass makes no replacement is its own outcome, after that one pass. -/
theorem transform_of_idle (budget : 0 < engine.maxCycles)
    (statistics : Statistics) (idle : (engine.cycle statistics unit).1 = .ok (unit, 0)) :
    (engine.transform statistics unit).1 =
      .ok { unit, summary := { unitsChanged := 0, replacements := 0, cycles := 1 } } := by
  obtain ⟨remaining, enough⟩ := Nat.exists_eq_add_of_lt budget
  rw [Nat.zero_add] at enough
  rw [transform]
  cases pass : engine.cycle statistics unit with
  | mk result counted =>
    rw [pass] at idle
    cases idle
    simp [enough, transformFrom, pass]

/-- **Outcomes are fixed points.** Whatever the rules and the budget, and however deep the rules may nest
blocks, a unit that an engine has transformed to its end is left as it is when it is transformed again:
the one pass that this takes makes no replacement. -/
theorem transform_transform (engine : Engine) (statistics counted : Statistics)
    (unit : CompilationUnit) (outcome : Outcome)
    (converged : (engine.transform statistics unit).1 = .ok outcome) :
    (engine.transform counted outcome.unit).1 =
      .ok { unit := outcome.unit
            summary := { unitsChanged := 0, replacements := 0, cycles := 1, errors := [] } } := by
  obtain ⟨before, idle⟩ := transformFrom_stops _ _ _ _ converged
  obtain ⟨-, again⟩ := cycle_idle idle
  exact transform_of_idle (maxCycles_pos converged) counted (again counted)

/-- A renaming that needs an import and a field, inside a lambda: the outcome is a fixed point. -/
theorem transform_transform_rename : let rename := Rule.rename "rename" 100 "a" "b" {
      addImports := ["x.Y"], field := some ("log", .slf4j) }
    let engine : Engine := { rules := [rename], maxCycles := 3 }
    let request : FieldRequest := { ownerType := "C", fieldName := "log", framework := .slf4j }
    let declared (fields : List FieldDecl) (name : String) : ClassDecl :=
      .decl { name := "C", fqn := "C" } fields
        [{ name := "m", body := [.expression (.lambda [] [.returning (some (.identifier name none))])] }]
        []
    let unit : CompilationUnit := { classes := [declared [] "a"] }
    let outcome : Outcome := {
      unit := {
        imports := [{ typeName := "x.Y" }, { typeName := "org.slf4j.Logger" },
          { typeName := "org.slf4j.LoggerFactory" }]
        classes := [declared [request.declaration] "b"] }
      summary := { unitsChanged := 1, replacements := 1, cycles := 2 } }
    (engine.transform {} unit).1 = .ok outcome ∧
      (engine.transform {} outcome.unit).1 =
        .ok { unit := outcome.unit
              summary := { unitsChanged := 0, replacements := 0, cycles := 1, errors := [] } } := by
  intro rename engine request declared unit outcome
  have converged : (engine.transform {} unit).1 = .ok outcome := by decide
  exact ⟨converged, transform_transform engine {} {} unit outcome converged⟩

/-- What a rule puts into a block of its own is visited in the same pass, so two passes are enough for a
rule that nests `a` as `b` and one that renames `b`. -/
example :
    let name (text : String) : Statement := .expression (.identifier text none)
    let nest : Rule := {
      name := "nest", description := "", priority := 100
      applies := fun _ _ => false
      onExpr := fun _ _ => .ok none
      onBlock := fun block _ => .ok
        (if block = [name "a"] then some { statements := [.block [name "b"]] } else none) }
    let engine : Engine := { rules := [nest, .rename "rename" 100 "b" "c" {}], maxCycles := 2 }
    let unit (body : List Statement) : CompilationUnit :=
      { classes := [.decl { name := "C", fqn := "C" } [] [{ name := "m", body }] []] }
    (engine.transform {} (unit [name "a"])).1 = .ok {
      unit := unit [.block [name "c"]]
      summary := { unitsChanged := 1, replacements := 2, cycles := 2 } } := by
  decide

end Engine

end LogCalls
