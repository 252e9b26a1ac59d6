import LogCalls.Proofs.Engine.FixedPoint
import Mathlib.Algebra.BigOperators.Ring.Finset

/-! # Accounts of replacements

An engine counts for the names of its rules how often they had a say, changed something and failed, and
it reports how many replacements it has made. The two are kept apart: the counts go on from unit to unit
and survive a failure, while the report is put together from the passes over one unit. They agree, since
whatever happens to the counts is one of three steps, and only one of these is a replacement. -/

namespace LogCalls

namespace RuleStatistics

/-- The rule changed something or failed at most as often as it had a say. -/
def Consistent (counts : RuleStatistics) : Prop :=
  counts.transformations + counts.errors ≤ counts.applications

instance (counts : RuleStatistics) : Decidable counts.Consistent := Nat.decLe _ _

namespace Consistent

variable {counts : RuleStatistics}

/-- A rule that applied is counted well. -/
theorem applied (held : counts.Consistent) : counts.applied.Consistent := Nat.le_succ_of_le held

/-- So is one that made a change. -/
theorem transformed (held : counts.Consistent) : counts.transformed.Consistent := by
  simp only [Consistent, RuleStatistics.transformed] at held ⊢
  omega

/-- So is one that failed. -/
theorem failed (held : counts.Consistent) : counts.failed.Consistent := Nat.succ_le_succ held

end Consistent

end RuleStatistics

namespace Statistics

/-- The counts that go by a name, which start at zero. -/
def counts (statistics : Statistics) (name : String) : RuleStatistics :=
  (statistics.entries.lookup name).getD {}

section Update

variable (name other : String) (change : RuleStatistics → RuleStatistics)

/-- The first entry is looked at first. -/
theorem getD_lookup_cons (found : RuleStatistics) (rest : List (String × RuleStatistics)) :
    (((name, found) :: rest).lookup other).getD {} =
      if other = name then found else (rest.lookup other).getD {} := by
  by_cases same : other = name
  · rw [if_pos same, same, List.lookup_cons_self]
    rfl
  · rw [if_neg same, List.lookup_cons, beq_false_of_ne same]

/-- An update changes the entry of one name. -/
theorem getD_lookup_updateEntries : ∀ entries : List (String × RuleStatistics),
    ((updateEntries name change entries).lookup other).getD {} =
      if other = name then change ((entries.lookup name).getD {}) else (entries.lookup other).getD {}
  | [] => getD_lookup_cons name other (change {}) []
  | (first, found) :: rest => by
    rw [updateEntries]
    split
    · rename_i here
      subst here
      simp only [getD_lookup_cons, if_true]
      split <;> rfl
    · rename_i elsewhere
      rw [getD_lookup_cons, getD_lookup_cons, getD_lookup_cons, getD_lookup_updateEntries rest,
        if_neg (Ne.symm elsewhere)]
      by_cases same : other = first
      · subst same
        rw [if_pos rfl, if_neg elsewhere, if_pos rfl]
      · rw [if_neg same, if_neg same]

/-- An update changes the counts of one name. -/
theorem counts_update (statistics : Statistics) : (statistics.update name change).counts other =
    if other = name then change (statistics.counts name) else statistics.counts other :=
  getD_lookup_updateEntries name other change statistics.entries

variable {name other change} {statistics : Statistics}

/-- An update keeps counts consistent. -/
theorem consistent_update (held : (statistics.counts other).Consistent)
    (keeps : ∀ {counts : RuleStatistics}, counts.Consistent → (change counts).Consistent) :
    ((statistics.update name change).counts other).Consistent := by
  rw [counts_update]
  split
  · rename_i same
    exact keeps (same ▸ held)
  · exact held

/-- What is counted for one of the names is added to the sum over all of them. -/
theorem sum_transformations_update {names : Finset String} (member : name ∈ names)
    (change : RuleStatistics → RuleStatistics) (increase : Nat)
    (adds : ∀ counts, (change counts).transformations = counts.transformations + increase) :
    ∑ each ∈ names, ((statistics.update name change).counts each).transformations =
      ∑ each ∈ names, (statistics.counts each).transformations + increase := by
  have grown (each : String) : ((statistics.update name change).counts each).transformations =
      (statistics.counts each).transformations + if each = name then increase else 0 := by
    rw [counts_update]
    split
    · rename_i same
      rw [adds, same]
    · rfl
  simp only [grown, Finset.sum_add_distrib, Finset.sum_ite_eq', if_pos member]

end Update

/-- The second counts come from the first by offers to the rules, of which `count` were replaced. -/
inductive Records (rules : List Rule) (before : Statistics) : Statistics → Nat → Prop where
  | start : Records rules before before 0
  | applied {after : Statistics} {count : Nat} {rule : Rule} : rule ∈ rules →
      Records rules before after count →
        Records rules before (after.update rule.name RuleStatistics.applied) count
  | transformed {after : Statistics} {count : Nat} {rule : Rule} : rule ∈ rules →
      Records rules before after count →
        Records rules before (after.update rule.name RuleStatistics.transformed) (count + 1)
  | failed {after : Statistics} {count : Nat} {rule : Rule} : rule ∈ rules →
      Records rules before after count →
        Records rules before (after.update rule.name RuleStatistics.failed) count

namespace Records

variable {rules : List Rule} {before middle after : Statistics} {count more : Nat}

/-- Records of two runs add up. -/
theorem trans (first : Records rules before middle count) (second : Records rules middle after more) :
    Records rules before after (count + more) := by
  induction second with
  | start => exact first
  | applied member _ recorded => exact .applied member recorded
  | transformed member _ recorded => exact .transformed member recorded
  | failed member _ recorded => exact .failed member recorded

/-- Nothing is recorded for other names than those of the rules. -/
theorem counts_eq (recorded : Records rules before after count) {name : String}
    (other : ∀ rule ∈ rules, rule.name ≠ name) : after.counts name = before.counts name := by
  have kept {rule : Rule} (member : rule ∈ rules) (change : RuleStatistics → RuleStatistics)
      (statistics : Statistics) :
      (statistics.update rule.name change).counts name = statistics.counts name := by
    rw [counts_update, if_neg (other rule member).symm]
  induction recorded with
  | start => rfl
  | applied member _ same => rw [kept member, same]
  | transformed member _ same => rw [kept member, same]
  | failed member _ same => rw [kept member, same]

/-- No rule changes and fails more often than it has a say, if it did not before. -/
theorem consistent (recorded : Records rules before after count) {name : String}
    (held : (before.counts name).Consistent) : (after.counts name).Consistent := by
  induction recorded with
  | start => exact held
  | applied _ _ held => exact consistent_update held .applied
  | transformed _ _ held => exact consistent_update held .transformed
  | failed _ _ held => exact consistent_update held .failed

/-- **The names together have changed as much as was replaced.** -/
theorem sum_transformations (recorded : Records rules before after count) (names : Finset String)
    (all : ∀ rule ∈ rules, rule.name ∈ names) :
    ∑ name ∈ names, (after.counts name).transformations =
      ∑ name ∈ names, (before.counts name).transformations + count := by
  induction recorded with
  | start => rfl
  | applied member _ total =>
    rw [sum_transformations_update (all _ member) RuleStatistics.applied 0 fun _ => rfl, total,
      Nat.add_zero]
  | transformed member _ total =>
    rw [sum_transformations_update (all _ member) RuleStatistics.transformed 1 fun _ => rfl, total,
      Nat.add_assoc]
  | failed member _ total =>
    rw [sum_transformations_update (all _ member) RuleStatistics.failed 0 fun _ => rfl, total,
      Nat.add_zero]

end Records

end Statistics

/-! ## Passes -/

namespace Progress

/-- Collecting effects counts nothing. -/
@[simp] theorem statistics_collect (progress : Progress) (effects : Effects) :
    (progress.collect effects).statistics = progress.statistics := rfl

/-- To request a field counts for no rule. -/
@[simp] theorem statistics_request (progress : Progress) (request : FieldRequest) :
    (progress.request request).statistics = progress.statistics := by
  unfold Progress.request
  split <;> rfl

/-- To collect effects counts for no rule. -/
@[simp] theorem statistics_absorb (progress : Progress) (effects : Effects) :
    (progress.absorb effects).statistics = progress.statistics := by
  unfold absorb
  cases effects.field <;> simp

/-- What is counted between the two, by name and in all, agrees. -/
def Accounts (rules : List Rule) (before after : Progress) : Prop :=
  ∃ count, after.replacements = before.replacements + count ∧
    Statistics.Records rules before.statistics after.statistics count

namespace Accounts

variable {rules : List Rule} {rule : Rule} {before middle after : Progress}

/-- Progress that differs in neither is accounted for. -/
theorem of_eq (replacements : after.replacements = before.replacements)
    (statistics : after.statistics = before.statistics) : Accounts rules before after :=
  ⟨0, replacements, statistics ▸ .start⟩

/-- Accounts follow each other. -/
theorem trans (first : Accounts rules before middle) (second : Accounts rules middle after) :
    Accounts rules before after := by
  obtain ⟨count, replaced, recorded⟩ := first
  obtain ⟨more, replacedMore, recordedMore⟩ := second
  exact ⟨count + more, by omega, recorded.trans recordedMore⟩

/-- To note that a rule applied is accounted for. -/
theorem applied (member : rule ∈ rules) :
    Accounts rules before (before.count rule RuleStatistics.applied) :=
  ⟨0, rfl, .applied member .start⟩

/-- So is a failure. -/
theorem failed (member : rule ∈ rules) :
    Accounts rules before (before.count rule RuleStatistics.failed) :=
  ⟨0, rfl, .failed member .start⟩

/-- So is a replacement. -/
theorem countReplacement (member : rule ∈ rules) :
    Accounts rules before (before.countReplacement rule) :=
  ⟨1, rfl, .transformed member .start⟩

/-- So is one with a field. -/
theorem absorb (member : rule ∈ rules) (effects : Effects) :
    Accounts rules before ((before.countReplacement rule).absorb effects) :=
  (countReplacement member).trans (of_eq (by simp) (by simp))

/-- So is one with effects. -/
theorem collect (member : rule ∈ rules) (effects : Effects) :
    Accounts rules before ((before.countReplacement rule).collect effects) :=
  (countReplacement member).trans (of_eq rfl rfl)

end Accounts

end Progress

namespace Pass

variable {α β : Type} {rules : List Rule}

/-- The progress in which an action ends, whether it succeeds or fails. -/
def ending : EStateM.Result Error Progress α → Progress
  | .ok _ progress => progress
  | .error _ progress => progress

/-- Whether the action succeeds or fails, what it counts agrees. -/
def Accountable (rules : List Rule) (action : PassM α) : Prop :=
  ∀ progress : Progress, progress.Accounts rules (ending (action.run progress))

/-- Accountable actions follow each other. -/
theorem accountable_bind {action : PassM α} {next : α → PassM β} (first : Accountable rules action)
    (second : ∀ result, Accountable rules (next result)) : Accountable rules (action >>= next) := by
  intro progress
  have accounted := first progress
  rw [EStateM.run_bind]
  cases ended : action.run progress with
  | ok result middle =>
    rw [ended] at accounted
    exact accounted.trans (second result middle)
  | error error middle =>
    -- The second action is not run, and what the first has counted stays.
    rw [ended] at accounted
    exact accounted

/-- An offer that is settled is accounted for, in whichever of the four ways. -/
theorem accounts_settle {ρ : Type} [DecidableEq α] {node : α} {rule : Rule} {made : ρ → α}
    {declined failed : Progress → Progress} {replaced : ρ → Progress → Progress}
    {failure : String → Error} {progress : Progress} (member : rule ∈ rules)
    (declines : progress.Accounts rules (declined progress))
    (replaces : ∀ replacement, progress.Accounts rules (replaced replacement progress))
    (fails : progress.Accounts rules (failed progress)) (answer : Offer ρ) :
    progress.Accounts rules
      (ending (settle rule node made declined replaced failure failed answer progress)) := by
  unfold settle
  split
  · exact fails
  · exact declines
  · rename_i replacement
    split
    · exact .applied member
    · exact replaces replacement

/-- To be accountable is a law, whatever the rules are. -/
theorem accountable_actionLaw (rules : List Rule) : ActionLaw rules (Accountable rules) where
  pure _ _ := .of_eq rfl rfl
  bind := accountable_bind
  givesUp _ := .of_eq rfl rfl
  offerExpr _ rule expr member progress := by
    rw [run_offerExpr]
    refine accounts_settle member ?_ (fun replacement => .absorb member _) (.failed member) _
    split
    · exact .applied member
    · exact .of_eq rfl rfl
  offerBlock _ rule block member progress := by
    rw [run_offerBlock]
    exact accounts_settle member (.of_eq rfl rfl) (fun replacement => .absorb member _)
      (.of_eq rfl rfl) _
  offerField rule around field member progress := by
    rw [run_offerField]
    exact accounts_settle member (.of_eq rfl rfl) (fun replacement => .collect member _)
      (.of_eq rfl rfl) _
  get _ := .of_eq rfl rfl
  enter _ _ := .of_eq rfl rfl
  seeFields _ _ := .of_eq rfl rfl

end Pass

/-! ## Engines -/

namespace Engine

open Statistics (Records)

/-- A pass records as many replacements as it reports. -/
theorem records_cycle (engine : Engine) (statistics : Statistics) (unit : CompilationUnit) :
    ∃ count, Records engine.rules statistics (engine.cycle statistics unit).2 count ∧
      ∀ visited made, (engine.cycle statistics unit).1 = .ok (visited, made) → made = count := by
  obtain ⟨count, replaced, recorded⟩ :=
    (Pass.accountable_actionLaw engine.rules).visitUnit unit { statistics }
  refine ⟨count, ?_⟩
  unfold cycle
  cases ended : (Pass.visitUnit engine.rules engine.slack unit).run { statistics } with
  | ok visited after =>
    rw [ended] at replaced recorded
    refine ⟨recorded, ?_⟩
    rintro _ _ ⟨⟩
    exact replaced.trans (Nat.zero_add count)
  | error error after =>
    rw [ended] at recorded
    refine ⟨recorded, ?_⟩
    rintro _ _ ⟨⟩

/-- Passes record as many replacements as they add to those reported before. -/
theorem records_transformFrom (engine : Engine) (initial : CompilationUnit) (remaining : Nat) :
    ∀ (statistics : Statistics) (unit : CompilationUnit) (replacements : Nat),
      ∃ count, Records engine.rules statistics
          (engine.transformFrom initial remaining statistics unit replacements).2 count ∧
        ∀ outcome,
          (engine.transformFrom initial remaining statistics unit replacements).1 = .ok outcome →
            outcome.summary.replacements = replacements + count := by
  induction remaining with
  | zero =>
    intro statistics unit replacements
    refine ⟨0, .start, ?_⟩
    rintro _ ⟨⟩
  | succ remaining later =>
    intro statistics unit replacements
    obtain ⟨count, recorded, reported⟩ := engine.records_cycle statistics unit
    rw [transformFrom]
    split
    · -- The pass failed. What it has recorded stays, and there is no outcome.
      rename_i pass
      rw [pass] at recorded
      refine ⟨count, recorded, ?_⟩
      rintro _ ⟨⟩
    · rename_i visited _ pass
      rw [pass] at recorded reported
      obtain rfl := reported visited 0 rfl
      refine ⟨0, recorded, ?_⟩
      rintro _ ⟨⟩
      rfl
    · rename_i visited made counted _ pass
      rw [pass] at recorded reported
      obtain rfl := reported visited made rfl
      obtain ⟨more, recordedMore, total⟩ := later counted visited (replacements + made)
      refine ⟨made + more, recorded.trans recordedMore, fun outcome converged => ?_⟩
      rw [total outcome converged, Nat.add_assoc]

/-- **What an engine reports is recorded in its counts.** -/
theorem records_transform (engine : Engine) (statistics : Statistics) (unit : CompilationUnit) :
    ∃ count, Records engine.rules statistics (engine.transform statistics unit).2 count ∧
      ∀ outcome, (engine.transform statistics unit).1 = .ok outcome →
        outcome.summary.replacements = count := by
  obtain ⟨count, recorded, reported⟩ :=
    engine.records_transformFrom unit engine.maxCycles statistics unit 0
  exact ⟨count, recorded, fun outcome converged =>
    (reported outcome converged).trans (Nat.zero_add count)⟩

/-- The names that the rules of an engine go by. Rules may share a name, and with it their counts. -/
def ruleNames (engine : Engine) : Finset String := (engine.rules.map (·.name)).toFinset

/-- Names of rules are those of the engine's. -/
theorem mem_ruleNames {engine : Engine} {name : String} :
    name ∈ engine.ruleNames ↔ ∃ rule ∈ engine.rules, rule.name = name := by
  simp [ruleNames]

/-- **The increases of all rules add up to the report.** Whatever the rules are and whatever has been
counted for earlier units, the replacements that an outcome reports are those by which the counts of
the rules have grown, and no other counts have changed. Whether there is an outcome or not, a rule has
changed something or failed at most as often as it had a say, if that was so before. -/
theorem sum_increase_transform (engine : Engine) (statistics : Statistics) (unit : CompilationUnit) :
    let after := (engine.transform statistics unit).2
    (∀ outcome, (engine.transform statistics unit).1 = .ok outcome →
      ∑ name ∈ engine.ruleNames,
        ((after.counts name).transformations - (statistics.counts name).transformations : ℤ) =
          outcome.summary.replacements) ∧
      (∀ name ∉ engine.ruleNames, after.counts name = statistics.counts name) ∧
      ∀ name, (statistics.counts name).Consistent → (after.counts name).Consistent := by
  intro after
  obtain ⟨count, recorded, reported⟩ := engine.records_transform statistics unit
  refine ⟨fun outcome converged => ?_, fun name other => ?_, fun name => recorded.consistent⟩
  · have total := recorded.sum_transformations engine.ruleNames fun rule member =>
      mem_ruleNames.mpr ⟨rule, member, rfl⟩
    rw [Finset.sum_sub_distrib, reported outcome converged, ← Nat.cast_sum, ← Nat.cast_sum, total,
      Nat.cast_add, add_sub_cancel_left]
  · exact recorded.counts_eq fun rule member same => other (mem_ruleNames.mpr ⟨rule, member, same⟩)

/-- Two rules that share a name rename a field and two identifiers step by step, and a third rule drops
statements. With a rule of the shared name that fails on what they have renamed there is no outcome, but
its failure is counted beside their replacements. -/
theorem sum_increase_transform_shared_name :
    let rules : List Rule := [.rename "tidy" 100 "a" "b" {}, .rename "tidy" 100 "b" "c" {},
      .dropFirst "drop" 100 {}]
    let engine : Engine := { rules, maxCycles := 4 }
    let failing : Engine := { rules := rules ++ [.failOnIdentifier "tidy" 100 "c" "taken"] }
    let declared (name : String) (body : List Statement) : ClassDecl :=
      .decl { name := "C", fqn := "C" }
        [{ name, type := .string, initializer := some (.identifier name none) }]
        [{ name := "m", body }] []
    let unit : CompilationUnit := {
      classes := [declared "a" [.returning none, .expression (.identifier "a" none)]] }
    let outcome : Outcome := {
      unit := { classes := [declared "c" []] }
      summary := { unitsChanged := 1, replacements := 8, cycles := 3 } }
    let earlier : Statistics :=
      { entries := [("tidy", { applications := 4, transformations := 1, errors := 2 })]
        distinct := List.pairwise_singleton _ _ }
    ((engine.transform earlier unit).1 = .ok outcome ∧
      ∑ name ∈ engine.ruleNames, (((engine.transform earlier unit).2.counts name).transformations -
        (earlier.counts name).transformations : ℤ) = (8 : Nat)) ∧
      (failing.transform earlier unit).1 =
        .error (.ruleFailed "tidy" (.expression "C") "taken") ∧
      (earlier.counts "tidy").Consistent ∧
      ((failing.transform earlier unit).2.counts "tidy").Consistent := by
  intro rules engine failing declared unit outcome earlier
  have converged : (engine.transform earlier unit).1 = .ok outcome := by decide +kernel
  have failed : (failing.transform earlier unit).1 =
      .error (.ruleFailed "tidy" (.expression "C") "taken") := by decide +kernel
  have held : (earlier.counts "tidy").Consistent := by decide
  exact ⟨⟨converged, (sum_increase_transform engine earlier unit).1 outcome converged⟩, failed, held,
    (sum_increase_transform failing earlier unit).2.2 "tidy" held⟩

end Engine

end LogCalls
