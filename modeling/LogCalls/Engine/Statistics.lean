/-! # Statistics

How often each rule was offered something and changed it. -/

namespace LogCalls

/-- The counts of one rule. -/
structure RuleStatistics where
  /-- How often the rule had a say. -/
  applications : Nat := 0
  /-- How often it changed something. -/
  transformations : Nat := 0
  /-- How often it failed. -/
  errors : Nat := 0
  deriving DecidableEq, Repr

namespace RuleStatistics

/-- The share of a count in the applications, which is zero without applications. -/
def perApplication (statistics : RuleStatistics) (count : Nat) : Float :=
  if statistics.applications = 0 then 0
  else (UInt64.ofNat count).toFloat / (UInt64.ofNat statistics.applications).toFloat

/-- The share of applications that changed something. -/
def successRate (statistics : RuleStatistics) : Float :=
  statistics.perApplication statistics.transformations

/-- The counts with one application that changed nothing. -/
def applied (statistics : RuleStatistics) : RuleStatistics :=
  { statistics with applications := statistics.applications + 1 }

/-- The counts with one application that changed something. -/
def transformed (statistics : RuleStatistics) : RuleStatistics :=
  { statistics with
    applications := statistics.applications + 1
    transformations := statistics.transformations + 1 }

/-- The counts with one application that failed. -/
def failed (statistics : RuleStatistics) : RuleStatistics :=
  { statistics with
    applications := statistics.applications + 1
    errors := statistics.errors + 1 }

/-- Where there are no entries, no name has two. -/
theorem distinct_nil : (([] : List (String × RuleStatistics)).map (·.1)).Nodup := List.Pairwise.nil

end RuleStatistics

/-- The counts of rules by name. -/
structure Statistics where
  entries : List (String × RuleStatistics) := []
  /-- Each name has one entry. -/
  distinct : (entries.map (·.1)).Nodup := by exact RuleStatistics.distinct_nil
  deriving DecidableEq, Repr

namespace Statistics

/-- Change the entry of a rule, whose counts start at zero. -/
def updateEntries (name : String) (change : RuleStatistics → RuleStatistics) :
    List (String × RuleStatistics) → List (String × RuleStatistics)
  | [] => [(name, change {})]
  | (other, counts) :: rest =>
    if other = name then (other, change counts) :: rest
    else (other, counts) :: updateEntries name change rest

/-- The names stay, and the name is added at the end if it is new. -/
theorem map_fst_updateEntries (name : String) (change : RuleStatistics → RuleStatistics) :
    ∀ entries : List (String × RuleStatistics), (updateEntries name change entries).map (·.1) =
      if name ∈ entries.map (·.1) then entries.map (·.1) else entries.map (·.1) ++ [name]
  | [] => rfl
  | (other, counts) :: rest => by
    rw [updateEntries]
    split
    · rename_i same
      simp [same]
    · rename_i different
      rw [List.map_cons, map_fst_updateEntries name change rest]
      simp only [List.map_cons, List.mem_cons, Ne.symm different, false_or]
      split <;> rfl

/-- Change the counts of a rule, which start at zero. -/
def update (statistics : Statistics) (name : String) (change : RuleStatistics → RuleStatistics) :
    Statistics where
  entries := updateEntries name change statistics.entries
  distinct := by
    rw [map_fst_updateEntries]
    split
    · exact statistics.distinct
    · rename_i new
      refine List.nodup_append.mpr ⟨statistics.distinct, by simp, ?_⟩
      rintro other listed _ (_ | ⟨_, ⟨⟩⟩) rfl
      exact new listed

/-- Counts of zero for rules of these names. -/
def start (names : List String) : Statistics :=
  names.foldl (fun statistics name => statistics.update name fun _ => {}) {}

end Statistics

end LogCalls
