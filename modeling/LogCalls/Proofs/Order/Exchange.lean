import LogCalls.Proofs.Engine.Simulation
import Mathlib.Data.List.Sort

/-! # Rules that may change places

Two rules may change places if neither finds anything to change in what the other has made of a node, and
if they make the same of a node that both change. An engine does the same when neighbours of this kind
are exchanged, one pair after the other. -/

namespace LogCalls

/-! ## Exchanges -/

/-- The second list results from the first by exchanges of neighbours that are related. -/
inductive Exchanged {α : Type} (related : α → α → Prop) : List α → List α → Prop where
  | refl (list : List α) : Exchanged related list list
  | cons (first : α) {list other : List α} :
      Exchanged related list other → Exchanged related (first :: list) (first :: other)
  | swap {first second : α} (rest : List α) :
      related first second → Exchanged related (first :: second :: rest) (second :: first :: rest)
  | trans {first second third : List α} :
      Exchanged related first second → Exchanged related second third → Exchanged related first third

/-- An exchange holds of a weaker relation. -/
theorem Exchanged.imp {α : Type} {related weaker : α → α → Prop} {list other : List α}
    (exchanged : Exchanged related list other)
    (weaken : ∀ first second, related first second → weaker first second) :
    Exchanged weaker list other := by
  induction exchanged with
  | refl list => exact .refl list
  | cons first _ ih => exact .cons first ih
  | swap rest holds => exact .swap rest (weaken _ _ holds)
  | trans _ _ former latter => exact former.trans latter

/-- An entry comes to the front past entries that it is related to. -/
theorem exchanged_to_front {α : Type} {related : α → α → Prop} {entry : α} {front : List α}
    (passes : ∀ other ∈ front, related other entry) (back : List α) :
    Exchanged related (front ++ entry :: back) (entry :: (front ++ back)) := by
  induction front with
  | nil => exact .refl _
  | cons first rest ih =>
    have later := ih fun other member =>
      passes other (List.mem_cons_of_mem first member)
    exact (Exchanged.cons first later).trans (.swap _ (passes first List.mem_cons_self))

section Reordered

variable {α : Type} [DecidableEq α]

/-- The entries of a list that are one of two. -/
def among (first second : α) (list : List α) : List α :=
  list.filter fun entry => entry == first || entry == second

/-- The lists have the same entries, and those that depend on each other in the same order. -/
structure Reordered (dependent : α → α → Prop) (list other : List α) : Prop where
  perm : list.Perm other
  among_eq {first second : α} : dependent first second →
    among first second list = among first second other

variable {dependent : α → α → Prop}

/-- What stands before the first entry of the other list does not depend on it. -/
theorem Reordered.not_dependent {front back others : List α} {entry : α}
    (reordered : Reordered dependent (front ++ entry :: back) (entry :: others))
    (absent : entry ∉ front) {first : α} (member : first ∈ front) : ¬ dependent first entry := by
  intro depends
  have same := reordered.among_eq depends
  obtain ⟨before, after, rfl⟩ := List.append_of_mem member
  have ahead : ∀ earlier ∈ among first entry before, earlier = first := by
    intro earlier inside
    obtain ⟨inside, either⟩ := List.mem_filter.mp inside
    obtain same | same := Bool.or_eq_true_iff.mp either
    · exact beq_iff_eq.mp same
    · rw [beq_iff_eq.mp same] at inside
      exact (absent (List.mem_append_left _ inside)).elim
  -- Of the two, `first` leads this list and `entry` the other, so they would have changed places.
  have leads : (among first entry (before ++ first :: after ++ entry :: back)).head? = some first := by
    rw [List.append_assoc, among, List.filter_append, List.head?_append]
    cases earlier : before.filter fun other => other == first || other == entry with
    | nil => simp
    | cons head rest =>
      have := ahead head (by rw [among, earlier]; exact List.mem_cons_self)
      rw [this]
      rfl
  rw [same] at leads
  have equal : entry = first := by simpa [among] using leads
  exact absent (equal ▸ member)

/-- Lists stay reordered without an entry. -/
theorem Reordered.erase {list other : List α} (reordered : Reordered dependent list other)
    (entry : α) : Reordered dependent (list.erase entry) (other.erase entry) where
  perm := reordered.perm.erase entry
  among_eq depends := by
    rw [among, among, ← List.erase_filter, ← List.erase_filter]
    exact congrArg (·.erase entry) (reordered.among_eq depends)

/-- **Reorderings are exchanges.** Lists in which entries that depend on each other keep their order
result from each other by exchanges of neighbours that do not. -/
theorem Reordered.exchanged {list other : List α} (reordered : Reordered dependent list other) :
    Exchanged (fun first second => first ≠ second ∧ ¬ dependent first second) list other := by
  induction other generalizing list with
  | nil =>
    rw [reordered.perm.eq_nil]
    exact .refl []
  | cons entry others ih =>
    -- The first entry of the other list is brought to the front.
    obtain ⟨front, back, rfl, absent⟩ :=
      List.eq_append_cons_of_mem (reordered.perm.mem_iff.mpr List.mem_cons_self)
    have passes : ∀ first ∈ front, first ≠ entry ∧ ¬ dependent first entry := fun first member =>
      ⟨fun same => absent (same ▸ member), reordered.not_dependent absent member⟩
    have rest := reordered.erase entry
    rw [List.erase_append_right _ absent, List.erase_cons_head, List.erase_cons_head] at rest
    exact (exchanged_to_front passes back).trans (.cons entry (ih rest))

end Reordered

namespace Rule

/-! ## Order by priority -/

/-- The rule runs before the other, or they are equals. -/
def Precedes (first second : Rule) : Prop := second.priority ≤ first.priority

instance : DecidableRel Precedes := fun _ _ => inferInstanceAs (Decidable (_ ≤ _))

/-- Each rule is put before those that it precedes. -/
theorem byPriority_cons (rule : Rule) (rules : List Rule) :
    byPriority (rule :: rules) = (byPriority rules).orderedInsert Precedes rule := by
  let le (first second : Rule) : Bool := decide (second.priority ≤ first.priority)
  have trans (first second third : Rule) (former : le first second = true)
      (latter : le second third = true) : le first third = true := by
    simp only [le, decide_eq_true_eq] at *
    omega
  have total (first second : Rule) : (le first second || le second first) = true := by
    simp only [le, Bool.or_eq_true, decide_eq_true_eq]
    omega
  -- The sort is stable: the rule comes behind those that outrank it and in front of all others.
  obtain ⟨before, after, whole, rest, outranked⟩ := List.mergeSort_cons trans total rule rules
  have sorted := List.pairwise_mergeSort trans total (rule :: rules)
  rw [whole, List.pairwise_append, List.pairwise_cons] at sorted
  obtain ⟨-, ⟨preceded, -⟩, -⟩ := sorted
  have above : ∀ other ∈ before, decide (¬ Precedes rule other) = true := by
    intro other member
    simpa [le, Precedes] using outranked other member
  have stops : after.takeWhile (fun other => decide (¬ Precedes rule other)) = [] ∧
      after.dropWhile (fun other => decide (¬ Precedes rule other)) = after := by
    cases after with
    | nil => exact ⟨rfl, rfl⟩
    | cons next others =>
      have precedes : Precedes rule next := of_decide_eq_true (preceded next List.mem_cons_self)
      simp [precedes]
  have same : byPriority rules = before ++ after := rest
  rw [same, List.orderedInsert_eq_take_drop, List.takeWhile_append_of_pos above,
    List.dropWhile_append_of_pos above, stops.1, stops.2, List.append_nil]
  exact whole

variable {related : Rule → Rule → Prop}

/-- A rule finds its place before or behind two equals that change places. -/
theorem exchanged_orderedInsert {rules others : List Rule} (rule : Rule)
    (exchanged : Exchanged (fun first second => first.priority = second.priority ∧
      related first second) rules others) :
    Exchanged (fun first second => first.priority = second.priority ∧ related first second)
      (rules.orderedInsert Precedes rule) (others.orderedInsert Precedes rule) := by
  induction exchanged with
  | refl rules => exact .refl _
  | cons first exchanged ih =>
    rw [List.orderedInsert_cons, List.orderedInsert_cons]
    split
    · exact .cons rule (.cons first exchanged)
    · exact .cons first ih
  | swap rest holds =>
    rename_i first second
    -- The two are equals, so the rule goes before both or behind both.
    have equals : Precedes rule first ↔ Precedes rule second := by rw [Precedes, Precedes, holds.1]
    simp only [List.orderedInsert_cons, equals]
    by_cases precedes : Precedes rule second
    · simp only [if_pos precedes]
      exact .cons rule (.swap rest holds)
    · simp only [if_neg precedes]
      exact .swap _ holds
  | trans _ _ former latter => exact former.trans latter

/-- Two rules that find their places one after the other are exchanged only if they are equals. -/
theorem exchanged_orderedInsert_comm {first second : Rule} (holds : related first second)
    (rules : List Rule) :
    Exchanged (fun first second => first.priority = second.priority ∧ related first second)
      ((rules.orderedInsert Precedes second).orderedInsert Precedes first)
      ((rules.orderedInsert Precedes first).orderedInsert Precedes second) := by
  -- In front of rules that both precede, the two stand as their priorities say.
  have inFront (rest : List Rule) :
      Exchanged (fun first second => first.priority = second.priority ∧ related first second)
        (if Precedes first second then first :: second :: rest else second :: first :: rest)
        (if Precedes second first then second :: first :: rest else first :: second :: rest) := by
    by_cases former : Precedes first second <;> by_cases latter : Precedes second first
    · rw [if_pos former, if_pos latter]
      exact .swap rest ⟨Nat.le_antisymm latter former, holds⟩
    · rw [if_pos former, if_neg latter]
      exact .refl _
    · rw [if_neg former, if_pos latter]
      exact .refl _
    · exact absurd (Nat.le_of_not_le former) latter
  induction rules with
  | nil => exact inFront []
  | cons next rest ih =>
    by_cases former : Precedes first next <;> by_cases latter : Precedes second next
    · simp only [List.orderedInsert_cons, if_pos former, if_pos latter]
      exact inFront (next :: rest)
    · have below : ¬ Precedes second first := by
        unfold Precedes at *
        omega
      simp only [List.orderedInsert_cons, if_pos former, if_neg latter, if_neg below]
      exact .refl _
    · have below : ¬ Precedes first second := by
        unfold Precedes at *
        omega
      simp only [List.orderedInsert_cons, if_neg former, if_pos latter, if_neg below]
      exact .refl _
    · simp only [List.orderedInsert_cons, if_neg former, if_neg latter]
      exact .cons next ih

/-- **Priorities come before the order of the list.** Where neighbours are exchanged, the rules in the
order in which they run are the same, or neighbours of equal priority are exchanged. -/
theorem exchanged_byPriority {rules others : List Rule} (exchanged : Exchanged related rules others) :
    Exchanged (fun first second => first.priority = second.priority ∧ related first second)
      (byPriority rules) (byPriority others) := by
  induction exchanged with
  | refl rules => exact .refl _
  | cons first _ ih =>
    rw [byPriority_cons, byPriority_cons]
    exact exchanged_orderedInsert first ih
  | swap rest holds =>
    simp only [byPriority_cons]
    exact exchanged_orderedInsert_comm holds (byPriority rest)
  | trans _ _ former latter => exact former.trans latter

end Rule

/-! ## Offers -/

namespace Pass

/-- Neither rule has anything to do where the other has changed a node, and they change it alike where
both would. -/
structure Offering.Exchangeable {α ρ : Type} (kind : Offering α ρ) (first second : Rule) : Prop where
  alike {node : α} {scope : Scope} {replacement : ρ} :
    kind.change? first node scope = .ok (some replacement) →
    kind.change? second node scope = .ok none ∨
      kind.change? second node scope = .ok (some replacement)
  idle {node : α} {scope : Scope} {replacement : ρ} :
    kind.change? first node scope = .ok (some replacement) →
    ∀ later, kind.change? second (kind.made replacement) later = .ok none

section Pair

variable {α ρ : Type} {kind : Offering α ρ} {first second : Rule} {node : α} {start : Progress}
  {replacement : ρ}

/-- Neither of two rules changes the node. -/
theorem Offering.Lawful.run_neither (lawful : kind.Lawful)
    (former : kind.change? first node start.scope = .ok none)
    (latter : kind.change? second node start.scope = .ok none) :
    ∃ last, (kind.offer node first >>= fun node => kind.offer node second).run start =
        .ok node last ∧ start.uncounted = last.uncounted := by
  obtain ⟨middle, runFirst, toMiddle⟩ := lawful.run_none former
  rw [Progress.scope_eq_of_uncounted_eq toMiddle] at latter
  obtain ⟨last, runSecond, toLast⟩ := lawful.run_none latter
  exact ⟨last, run_bind_eq_ok.mpr ⟨_, middle, runFirst, runSecond⟩, toMiddle.trans toLast⟩

/-- The first of two rules leaves the node to the second. -/
theorem Offering.Lawful.run_second (lawful : kind.Lawful)
    (former : kind.change? first node start.scope = .ok none)
    (latter : kind.change? second node start.scope = .ok (some replacement)) :
    ∃ last, (kind.offer node first >>= fun node => kind.offer node second).run start =
        .ok (kind.made replacement) last ∧
      (kind.replacing replacement start).uncounted = last.uncounted := by
  obtain ⟨middle, runFirst, toMiddle⟩ := lawful.run_none former
  rw [Progress.scope_eq_of_uncounted_eq toMiddle] at latter
  obtain ⟨last, runSecond, toLast⟩ := lawful.run_some latter
  exact ⟨last, run_bind_eq_ok.mpr ⟨_, middle, runFirst, runSecond⟩,
    (lawful.replacing_congr toMiddle).trans toLast⟩

/-- The second of two rules leaves alone what the first has made. -/
theorem Offering.Lawful.run_first (lawful : kind.Lawful)
    (former : kind.change? first node start.scope = .ok (some replacement))
    (idle : ∀ later, kind.change? second (kind.made replacement) later = .ok none) :
    ∃ last, (kind.offer node first >>= fun node => kind.offer node second).run start =
        .ok (kind.made replacement) last ∧
      (kind.replacing replacement start).uncounted = last.uncounted := by
  obtain ⟨middle, runFirst, toMiddle⟩ := lawful.run_some former
  obtain ⟨last, runSecond, toLast⟩ := lawful.run_none (idle middle.scope)
  exact ⟨last, run_bind_eq_ok.mpr ⟨_, middle, runFirst, runSecond⟩, toMiddle.trans toLast⟩

end Pair

/-- Offers to two rules that may change places, in either order. -/
theorem Offering.Lawful.follows_swap {α ρ : Type} {kind : Offering α ρ} (lawful : kind.Lawful)
    {first second : Rule} (former : kind.Exchangeable first second)
    (latter : kind.Exchangeable second first) (node : α) :
    Follows (fun _ => True) Progress.uncounted
      (kind.offer node first >>= fun node => kind.offer node second)
      (kind.offer node second >>= fun node => kind.offer node first) := by
  intro progress visited after run _
  obtain ⟨between, middle, runFirst, runSecond⟩ := run_bind_eq_ok.mp run
  refine ⟨trivial, fun start same => ?_⟩
  have sameScope := Progress.scope_eq_of_uncounted_eq same
  obtain ⟨keeps, rfl, toMiddle⟩ | ⟨replacement, changes, rfl, toMiddle⟩ := lawful.run_ok runFirst
  · have middleScope := Progress.scope_eq_of_uncounted_eq toMiddle
    obtain ⟨keeps', rfl, toAfter⟩ | ⟨replacement, changes, rfl, toAfter⟩ := lawful.run_ok runSecond
    · -- Neither rule changes the node.
      rw [← middleScope, sameScope] at keeps'
      rw [sameScope] at keeps
      obtain ⟨last, runBoth, toLast⟩ := lawful.run_neither keeps' keeps
      refine ⟨last, runBoth, ?_⟩
      rw [← toAfter, ← toMiddle, same, toLast]
    · -- Only the second rule changes the node.
      rw [← middleScope, sameScope] at changes
      obtain ⟨last, runBoth, toLast⟩ := lawful.run_first changes (latter.idle changes)
      refine ⟨last, runBoth, ?_⟩
      rw [← toAfter, ← toLast]
      exact lawful.replacing_congr (toMiddle.symm.trans same)
  · -- The first rule changes the node, so the second has nothing to do after it.
    obtain ⟨-, rfl, toAfter⟩ | ⟨_, more, -⟩ := lawful.run_ok runSecond
    · rw [sameScope] at changes
      have replaced : after.uncounted = (kind.replacing replacement start).uncounted := by
        rw [← toAfter, ← toMiddle]
        exact lawful.replacing_congr same
      obtain keeps | alike := former.alike changes
      · obtain ⟨last, runBoth, toLast⟩ := lawful.run_second keeps changes
        exact ⟨last, runBoth, replaced.trans toLast⟩
      · obtain ⟨last, runBoth, toLast⟩ := lawful.run_first alike (latter.idle alike)
        exact ⟨last, runBoth, replaced.trans toLast⟩
    · rw [former.idle changes] at more
      cases more

end Pass

/-- The rules may change places, whatever they are offered. -/
structure Rule.Exchangeable (first second : Rule) : Prop where
  onExpr (depth : Nat) : (Pass.offeringExprs depth).Exchangeable first second
  onBlock (depth : Nat) : (Pass.offeringBlocks depth).Exchangeable first second
  onField (around : FieldDecl → ClassDecl) : (Pass.offeringFields around).Exchangeable first second

namespace Pass

/-- Visits follow each other in a chain. -/
theorem Follows.trans {α σ : Type} {view : Progress → σ} {first second third : PassM α}
    (former : Follows (fun _ => True) view first second)
    (latter : Follows (fun _ => True) view second third) :
    Follows (fun _ => True) view first third := by
  intro progress result after run _
  refine ⟨trivial, fun start same => ?_⟩
  obtain ⟨-, follows⟩ := former _ _ _ run trivial
  obtain ⟨stop, runSecond, toStop⟩ := follows progress rfl
  obtain ⟨-, follows⟩ := latter _ _ _ runSecond trivial
  obtain ⟨last, runThird, toLast⟩ := follows start same
  exact ⟨last, runThird, toStop.trans toLast⟩

/-- Offers to the same rules follow each other, whatever has been counted. -/
theorem Offering.Lawful.follows_refl {α ρ : Type} {kind : Offering α ρ} (lawful : kind.Lawful)
    (rules : List Rule) (node : α) :
    Follows (fun _ => True) Progress.uncounted (rules.foldlM kind.offer node)
      (rules.foldlM kind.offer node) :=
  Follows.foldOffers (List.forall₂_same.mpr fun _ _ _ =>
    lawful.follows id fun made _ => ⟨trivial, made⟩) node

/-- Offers to rules of which neighbours have been exchanged. -/
theorem Offering.Lawful.follows_exchanged {α ρ : Type} {kind : Offering α ρ} (lawful : kind.Lawful)
    {rules others : List Rule}
    (exchanged : Exchanged (fun first second => kind.Exchangeable first second ∧
      kind.Exchangeable second first) rules others) (node : α) :
    Follows (fun _ => True) Progress.uncounted (rules.foldlM kind.offer node)
      (others.foldlM kind.offer node) := by
  induction exchanged generalizing node with
  | refl rules => exact lawful.follows_refl rules node
  | cons first _ ih =>
    rw [List.foldlM_cons, List.foldlM_cons]
    exact (lawful.follows id fun made _ => ⟨trivial, made⟩).bind ih
  | swap rest holds =>
    simp only [List.foldlM_cons, ← bind_assoc]
    exact (lawful.follows_swap holds.1 holds.2 node).bind (lawful.follows_refl rest)
  | trans _ _ former latter => exact (former node).trans (latter node)

/-- **Exchanges change nothing.** A pass does the same when rules that may change places do so. -/
theorem follow_of_exchanged {rules others : List Rule}
    (exchanged : Exchanged (fun first second => first.Exchangeable second ∧
      second.Exchangeable first) rules others) : Follow (fun _ => True) rules others where
  offersExpr depth := (lawful_offeringExprs depth).follows_exchanged
    (exchanged.imp fun _ _ holds => ⟨holds.1.onExpr depth, holds.2.onExpr depth⟩)
  offersBlock depth := (lawful_offeringBlocks depth).follows_exchanged
    (exchanged.imp fun _ _ holds => ⟨holds.1.onBlock depth, holds.2.onBlock depth⟩)
  offersField around := (lawful_offeringFields around).follows_exchanged
    (exchanged.imp fun _ _ holds => ⟨holds.1.onField around, holds.2.onField around⟩)

end Pass

end LogCalls
