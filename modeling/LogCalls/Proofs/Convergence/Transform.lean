import LogCalls.Proofs.Convergence.Rules
import LogCalls.Proofs.Engine.FixedPoint

/-! # Transformations come to an end

Every pass takes the number of its replacements off the weight of a unit, so as many passes as the unit
weighs are enough, and one more that changes nothing. -/

namespace LogCalls

namespace Engine

variable {engine : Engine} {tariff : Tariff}

/-- A pass of rules that suit makes the unit lighter by the number of its replacements. -/
theorem cycle_eases (suits : ∀ owner, ∀ rule ∈ engine.rules, (tariff.within owner).Suits rule)
    (statistics : Statistics) (unit : CompilationUnit) :
    ∃ visited count counted, engine.cycle statistics unit = (.ok (visited, count), counted) ∧
      tariff.Eases CompilationUnit.hollowAccessors tariff.unitWeight count unit visited := by
  obtain ⟨visited, after, run⟩ := Pass.succeeds_visitUnit
    (fun rule member => (suits "" rule member).answers) unit { statistics }
  obtain ⟨-, count, counted, eases⟩ := Tariff.eases_visitUnit suits unit _ _ _ trivial run
  rw [Nat.zero_add] at counted
  refine ⟨visited, count, after.statistics, ?_, eases⟩
  rw [cycle, run, ← counted]

/-- **Weights bound the passes.** An engine whose rules suit transforms every unit that weighs less
than its budget. -/
theorem transformFrom_of_weight
    (suits : ∀ owner, ∀ rule ∈ engine.rules, (tariff.within owner).Suits rule)
    (initial : CompilationUnit) (remaining : Nat) :
    ∀ (statistics : Statistics) (unit : CompilationUnit) (replacements : Nat),
      tariff.Admits unit.hollowAccessors → tariff.unitWeight unit < remaining →
      ∃ outcome,
        (engine.transformFrom initial remaining statistics unit replacements).1 = .ok outcome := by
  induction remaining with
  | zero => exact fun _ _ _ _ light => absurd light (Nat.not_lt_zero _)
  | succ remaining later =>
    intro statistics unit replacements admits light
    obtain ⟨visited, count, counted, pass, eases⟩ := cycle_eases suits statistics unit
    rw [transformFrom, pass]
    cases count with
    | zero => exact ⟨_, rfl⟩
    | succ count =>
      have := eases.lighter admits
      exact later counted visited _
        (fun completes spreads => eases.sound (admits completes spreads)) (by omega)

/-- **Transformations come to an end.** Whatever rules a configuration names, every unit has a budget
that is enough for it. If exceptions are passed where only their message was, and arrays of parameters
are spread, this takes that no hollow array is asked for a message as exceptions are. -/
theorem transform_converges (configuration : Configuration) (rules : List Rule)
    (unit : CompilationUnit) (built : configuration.buildRules = .ok rules)
    (solid : "complete-exception" ∈ configuration.rules →
      "array-to-varargs" ∈ configuration.rules → unit.hollowAccessors = 0) :
    ∃ bound, ∀ maxCycles ≥ bound, ∃ engine,
      ofConfiguration { configuration with maxCycles } = .ok engine ∧
      ∀ statistics, ∃ outcome, (engine.transform statistics unit).1 = .ok outcome := by
  refine ⟨configuration.tariff.unitWeight unit + 1, fun maxCycles enough => ?_⟩
  let engine : Engine := { rules := Rule.byPriority rules, maxCycles }
  have made : ofConfiguration { configuration with maxCycles } = .ok engine := by
    have same : Configuration.buildRules { configuration with maxCycles } = .ok rules := built
    rw [ofConfiguration, same]
    rfl
  have suits : ∀ owner, ∀ rule ∈ engine.rules,
      (configuration.tariff.within owner).Suits rule := by
    intro owner rule member
    obtain ⟨name, listed, known⟩ :=
      Configuration.exists_of_mem_buildRules built (List.mem_mergeSort.mp member)
    exact Configuration.suits_of_buildRule listed known owner
  have admits : configuration.tariff.Admits unit.hollowAccessors := fun completes spreads =>
    solid (List.contains_iff_mem.mp completes) (List.contains_iff_mem.mp spreads)
  exact ⟨engine, made, fun statistics =>
    transformFrom_of_weight suits unit maxCycles statistics unit 0 admits enough⟩

/-- With both rules the array is spread, and the request that then comes last gives way to the
exception. -/
theorem transform_converges_spread :
    let configuration : Configuration := { rules := ["complete-exception", "array-to-varargs"] }
    let rules := [CompleteException.rule, SpreadArray.rule]
    let error := Expr.ident "e" (.named ClassName.throwable)
    let asked := Expr.call error "getMessage" []
      (.onInstanceReturning ClassName.throwable "getMessage" .string)
    let call := Expr.call (.ident "logger" (.named "org.slf4j.Logger")) "info"
      [.string "\x7b\x7d", .objectArray [asked, asked]] (.onInstance "org.slf4j.Logger" "info")
    let unit : CompilationUnit := {
      classes := [.decl { name := "C", fqn := "C" } []
        [{ name := "m", body := [.expression call] }] []] }
    configuration.buildRules = .ok rules ∧ unit.hollowAccessors = 0 ∧
      ∃ bound, ∀ maxCycles ≥ bound, ∃ engine,
        ofConfiguration { configuration with maxCycles } = .ok engine ∧
        ∀ statistics, ∃ outcome, (engine.transform statistics unit).1 = .ok outcome := by
  intro configuration rules error asked call unit
  have built : configuration.buildRules = .ok rules := rfl
  have solid : unit.hollowAccessors = 0 := rfl
  exact ⟨built, solid, transform_converges configuration rules unit built fun _ _ => solid⟩

/-- A pass that makes replacements and ends where it began is made over and over. -/
theorem transform_of_loop {unit : CompilationUnit} {count : Nat}
    (loop : ∀ statistics, (engine.cycle statistics unit).1 = .ok (unit, count + 1))
    (statistics : Statistics) :
    (engine.transform statistics unit).1 =
      .error (.nonConvergence unit.displayName engine.maxCycles) := by
  have from_ (remaining : Nat) : ∀ statistics replacements,
      (engine.transformFrom unit remaining statistics unit replacements).1 =
        .error (.nonConvergence unit.displayName engine.maxCycles) := by
    induction remaining with
    | zero => exact fun _ _ => rfl
    | succ remaining later =>
      intro statistics replacements
      have looped := loop statistics
      cases pass : engine.cycle statistics unit with
      | mk result counted =>
        rw [pass] at looped
        cases looped
        rw [transformFrom, pass]
        exact later counted _
  exact from_ engine.maxCycles statistics 0

/-- An empty array that is asked for a message is passed after the request, and is spread into nothing
again: no budget is enough. -/
theorem transform_oscillates :
    let asked := Expr.call (.objectArray []) "getMessage" []
      (.onInstanceReturning ClassName.throwable "getMessage" .string)
    let call := Expr.call (.ident "logger" (.named "org.slf4j.Logger")) "info"
      [.string "\x7b\x7d", asked] (.onInstance "org.slf4j.Logger" "info")
    let unit : CompilationUnit := {
      classes := [.decl { name := "C", fqn := "C" } []
        [{ name := "m", body := [.expression call] }] []] }
    ∀ maxCycles, ∃ engine,
      ofConfiguration { rules := ["complete-exception", "array-to-varargs"], maxCycles } =
          .ok engine ∧
        ∀ statistics,
          (engine.transform statistics unit).1 = .error (.nonConvergence "C" maxCycles) := by
  intro asked call unit maxCycles
  let engine : Engine := { rules := [CompleteException.rule, SpreadArray.rule], maxCycles }
  have sorted : Rule.byPriority [CompleteException.rule, SpreadArray.rule] =
      [CompleteException.rule, SpreadArray.rule] :=
    List.mergeSort_of_pairwise (by simp [CompleteException.rule, SpreadArray.rule])
  have made : ofConfiguration { rules := ["complete-exception", "array-to-varargs"], maxCycles } =
      .ok engine := by
    have step : ofConfiguration { rules := ["complete-exception", "array-to-varargs"], maxCycles } =
        .ok { rules := Rule.byPriority [CompleteException.rule, SpreadArray.rule], maxCycles } := rfl
    rw [step, sorted]
  have loop : ∀ statistics, (engine.cycle statistics unit).1 = .ok (unit, 1 + 1) := fun _ => rfl
  exact ⟨engine, made, transform_of_loop loop⟩

end Engine

end LogCalls
