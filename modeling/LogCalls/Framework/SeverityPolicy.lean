import LogCalls.Framework.Basic

/-! # Severity policies

Which severity a call gets in a framework that may not have the tier it had before. -/

namespace LogCalls

/-- No replacements are in order. -/
theorem Severity.ascending_nil : ([] : List (Severity × Severity)).Pairwise (·.1.rank < ·.1.rank) := .nil

/-- Replacements for severities, made before the target framework is looked at. -/
structure SeverityPolicy where
  overrides : List (Severity × Severity) := []
  /-- At most one replacement for each severity, in order of severity. -/
  ascending : overrides.Pairwise (·.1.rank < ·.1.rank) := by exact Severity.ascending_nil
  deriving DecidableEq, Repr

namespace SeverityPolicy

/-- The severity that is asked for in place of another. -/
def wanted (policy : SeverityPolicy) (severity : Severity) : Severity :=
  (policy.overrides.lookup severity).getD severity

/-- Set the replacement for a severity, keeping the order of severity. -/
def insert (policy : SeverityPolicy) (source target : Severity) : SeverityPolicy where
  overrides :=
    policy.overrides.filter (·.1.rank < source.rank) ++ (source, target) ::
      policy.overrides.filter (source.rank < ·.1.rank)
  ascending := by
    simp only [List.pairwise_append, List.pairwise_cons, List.mem_filter, List.mem_cons,
      decide_eq_true_eq]
    refine ⟨policy.ascending.filter _, ⟨fun _ later => later.2, policy.ascending.filter _⟩, ?_⟩
    rintro former ⟨-, below⟩ latter (rfl | ⟨-, above⟩)
    · exact below
    · exact Nat.lt_trans below above

/-- The severity that a call gets in the target framework. A tier that the target lacks goes to the
nearest higher tier it has, or else to the nearest lower one. -/
def resolve (policy : SeverityPolicy) (severity : Severity) (target : Framework) : Severity :=
  let wanted := policy.wanted severity
  let higher := Severity.all.filter fun tier => wanted.rank < tier.rank
  let lower := Severity.all.reverse.filter fun tier => tier.rank < wanted.rank
  ((wanted :: higher ++ lower).find? target.supports).getD wanted

end SeverityPolicy

end LogCalls
