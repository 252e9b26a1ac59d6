import LogCalls.Proofs.Engine.Frame
import LogCalls.Proofs.Engine.Simulation
import LogCalls.Proofs.Migration.Depth
import LogCalls.Proofs.Migration.Passes

/-! # Migration is all or nothing

A pass visits every class of a unit. So whatever passes are made, a field that has moved to the target
framework has taken all of its uses along, and the calls through a field that has not moved are as they
were at the start. -/

namespace LogCalls

/-! ## Names -/

/-- The name of a class, and the names of its fields. -/
def ClassDecl.names (declared : ClassDecl) : String × List String :=
  (declared.fqn, declared.fields.map (·.name))

namespace CompilationUnit

variable {unit visited : CompilationUnit}

/-- The names of all classes and of their fields. -/
def names (unit : CompilationUnit) : List (String × List String) := unit.allClasses.map (·.names)

/-- Classes have names of their own, and so have the fields of a class. -/
structure WellNamed (unit : CompilationUnit) : Prop where
  classes : (unit.allClasses.map (·.fqn)).Nodup
  fields : ∀ declared ∈ unit.allClasses, (declared.fields.map (·.name)).Nodup

/-- No call is as deep as a pass goes, and there is a level to spare. -/
def Shallow (unit : CompilationUnit) : Prop :=
  ∀ site ∈ unit.sites, site.expr.isCall = true → site.level + 1 < Pass.maxDepth

/-- No use of a logger could be taken for an exception. -/
def Quiet (unit : CompilationUnit) : Prop := ∀ site ∈ unit.sites, site.expr.isLoud = false

/-- Units of the same names are both well named, or none is. -/
theorem WellNamed.congr (named : unit.WellNamed) (same : visited.names = unit.names) :
    visited.WellNamed where
  classes := by
    have fqns := congrArg (List.map Prod.fst) same
    rw [names, names, List.map_map, List.map_map] at fqns
    exact (congrArg List.Nodup fqns).mpr named.classes
  fields declared member := by
    have listed : declared.names ∈ unit.names := same ▸ List.mem_map_of_mem member
    obtain ⟨old, found, equal⟩ := List.mem_map.mp listed
    exact (congrArg List.Nodup (congrArg Prod.snd equal)).mp (named.fields old found)

/-- What is named in a unit is there in every unit of the same names. -/
theorem exists_field_of_names (same : visited.names = unit.names) {declared : ClassDecl}
    (member : declared ∈ unit.allClasses) {field : FieldDecl} (declares : field ∈ declared.fields) :
    ∃ other ∈ visited.allClasses, other.fqn = declared.fqn ∧
      ∃ found ∈ other.fields, found.name = field.name := by
  have listed : declared.names ∈ visited.names := same ▸ List.mem_map_of_mem member
  obtain ⟨other, remains, equal⟩ := List.mem_map.mp listed
  have fields : other.fields.map (·.name) = declared.fields.map (·.name) := congrArg Prod.snd equal
  have redeclared : field.name ∈ other.fields.map (·.name) := fields ▸ List.mem_map_of_mem declares
  exact ⟨other, remains, congrArg Prod.fst equal, List.mem_map.mp redeclared⟩

theorem WellNamed.eq_of_fqn_eq (named : unit.WellNamed) {first second : ClassDecl}
    (member : first ∈ unit.allClasses) (other : second ∈ unit.allClasses)
    (same : first.fqn = second.fqn) : first = second :=
  List.inj_on_of_nodup_map named.classes member other same

theorem WellNamed.owns (named : unit.WellNamed) {declared : ClassDecl}
    (member : declared ∈ unit.allClasses) {field : Migrate.FieldName}
    (same : declared.fqn = field.owner) : Migrate.Owns field declared where
  fqn := same
  distinct := named.fields declared member
  others := by
    intro inner inside equal
    -- The class and those inside it are a stretch of all classes, so their names differ.
    have inRow := named.classes.sublist ((ClassDecl.sublist_allList unit.classes member).map (·.fqn))
    cases declared with
    | decl header fields methods nested =>
      rw [ClassDecl.all, List.map_cons] at inRow
      exact (List.nodup_cons.mp inRow).1
        (List.mem_map.mpr ⟨inner, inside, equal.trans same.symm⟩)

end CompilationUnit

/-! ## Classes at other depths -/

namespace Place

/-- The places differ at most in how deep they are and in the local variables. -/
structure Resembles (place other : Place) : Prop where
  fields : place.fields = other.fields
  isReceiver : place.isReceiver = other.isReceiver
  inBody : place.inBody = other.inBody
  isInitial : place.isInitial = other.isInitial

theorem steady_resembles : SteadyInside Resembles where
  inner both := ⟨both.fields, rfl, both.inBody, rfl⟩
  receiver both := ⟨both.fields, rfl, both.inBody, rfl⟩
  bare both := ⟨both.fields, both.isReceiver, both.inBody, rfl⟩
  aside both := ⟨both.fields, both.isReceiver, rfl, both.isInitial⟩
  initial both := ⟨both.fields, both.isReceiver, rfl, rfl⟩
  binding _ both := ⟨both.fields, both.isReceiver, both.inBody, both.isInitial⟩
  within declared both :=
    ⟨congrArg (declared.fields.map (·.name) ++ ·) both.fields, rfl, both.inBody, rfl⟩

theorem steady_level : SteadyInside fun place other => place.level = other.level where
  inner := congrArg (· + 1)
  receiver := congrArg (· + 1)
  bare := congrArg (· + 1)
  aside := id
  initial := id
  binding _ := id
  within _ := congrArg (· + 1)

end Place

namespace Reference

variable {refers : Reference} {sites others : List Site}

/-- Moved uses stay so at alike sites. -/
theorem moved_of_resembling {target : Framework}
    (matched : List.Forall₂ (Site.Matches Place.Resembles) sites others)
    (moved : ∀ site ∈ sites, refers.Moved target site) : ∀ site ∈ others, refers.Moved target site := by
  intro other member
  obtain ⟨site, found, same, resembles⟩ := exists_of_forall₂ matched member
  exact (moved site found).congr same resembles.fields
    fun receives => resembles.isReceiver ▸ receives

/-- Alike sites have as many calls. -/
theorem calls_of_resembling (refers : Reference)
    (matched : List.Forall₂ (Site.Matches Place.Resembles) sites others) :
    refers.calls sites = refers.calls others := by
  unfold calls
  induction matched with
  | nil => rfl
  | cons both _ ih =>
    rw [List.filterMap_cons, List.filterMap_cons, both.1, both.2.fields, ih]

/-- Also in bodies. -/
theorem bodyCalls_of_resembling (refers : Reference)
    (matched : List.Forall₂ (Site.Matches Place.Resembles) sites others) :
    refers.bodyCalls sites = refers.bodyCalls others := by
  refine refers.calls_of_resembling (List.rel_filter (fun site other both => ?_) matched)
  exact Eq.congr both.2.inBody rfl

/-- What is lost does not depend on how deep it is. -/
theorem losses_of_resembling (refers : Reference) (head : CallHead)
    (matched : List.Forall₂ (Site.Matches Place.Resembles) sites others) :
    (refers.losses sites).count head = (refers.losses others).count head := by
  rw [count_losses, count_losses]
  induction matched with
  | nil => rfl
  | cons both _ ih =>
    rw [total_cons, total_cons, count_dropped, count_dropped, both.1, both.2.fields, both.2.isInitial,
      ih]

/-- Neither are accounts of it. -/
theorem Accounts.of_resembling {head : CallHead} {before after past future : List Site}
    (accounts : refers.Accounts head before after)
    (start : List.Forall₂ (Site.Matches Place.Resembles) before past)
    (last : List.Forall₂ (Site.Matches Place.Resembles) after future) :
    refers.Accounts head past future where
  fewer := by
    rw [← refers.calls_of_resembling start, ← refers.calls_of_resembling last]
    exact accounts.fewer
  kept := by
    rw [← refers.calls_of_resembling start, ← refers.calls_of_resembling last,
      ← refers.losses_of_resembling head start, ← refers.losses_of_resembling head last]
    exact accounts.kept

end Reference

namespace Migrate

variable {settings : Migrate} {scope : Scope} {slack depth : Nat} {before after : ClassDecl}
  {declared : List FieldDecl} {field : FieldName}

/-! ## What becomes of a field -/

/-- What has become of a field of a class, and of the calls through it. -/
structure AllOrNothing (settings : Migrate) (field : FieldName) (before after : ClassDecl)
    (visited : FieldDecl) : Prop where
  /-- All: if the field is a logger of the target framework, every reference to it outside its own
  initializer is the receiver of a call of such a logger. -/
  moved : visited.type.typeName = settings.target.loggerType →
    ∀ site ∈ after.sitesBeside field.name {}, field.reference.Moved settings.target site
  /-- Nothing: if it is not, the calls through it in methods are those that were there before, in the
  same order. There are no new ones anywhere, be it in arguments, in lambda expressions that are
  arguments, or in initializers. -/
  unmoved : visited.type.typeName ≠ settings.target.loggerType →
    field.reference.bodyCalls (after.sites {}) = field.reference.bodyCalls (before.sites {}) ∧
      ∀ head : CallHead, head.isOnClass = false →
        (field.reference.calls (after.sites {})).count head ≤
          (field.reference.calls (before.sites {})).count head
  /-- There are as many as before, unless some are made in the level that a logger is given, or by
  asking for a logger in an initializer. Calls that are missing in the end were made there. A request
  for the message of an exception is another matter where such requests are collapsed. -/
  kept : visited.type.typeName ≠ settings.target.loggerType →
    ∀ head : CallHead, head.isOnClass = false →
      (settings.recognize.collapseAccessors = true → head.receiver.isThrowable = false) →
      field.reference.Accounts head (before.sites {}) (after.sites {}) ∧
        (head ∉ field.reference.losses (before.sites {}) →
          (field.reference.calls (after.sites {})).count head =
            (field.reference.calls (before.sites {})).count head)

/-- A visit keeps the names of a class and of its fields. -/
theorem Visit.sameNames (visit : settings.Visit slack depth scope before after declared) :
    after.names = before.names := by
  rw [ClassDecl.names, ClassDecl.names, visit.names, ClassDecl.fqn, ClassDecl.fqn, visit.header]

/-- A field that is no logger of the target framework after a visit was none before. -/
theorem Visit.foreign (visit : settings.Visit slack depth scope before after declared)
    (distinct : (before.fields.map (·.name)).Nodup) {found visited : FieldDecl}
    (member : found ∈ before.fields) (other : visited ∈ after.fields)
    (same : visited.name = found.name)
    (foreign : visited.type.typeName ≠ settings.target.loggerType) :
    found.type.typeName ≠ settings.target.loggerType := by
  obtain ⟨offered, listed, named, typed⟩ := visit.exists_declared other
  obtain ⟨back, earlier, later, whole, -⟩ := visit.offered.split member
  have names : (declared.map (·.name)).Nodup := visit.offered.names ▸ distinct
  -- The field was offered once, and it is the only one of its name.
  have carried := List.inj_on_of_nodup_map names listed
    (by rw [whole]; exact List.mem_append_right _ List.mem_cons_self)
    (by rw [named, same, name_carryField])
  rw [← typed] at foreign
  obtain kept | ⟨_, _, -, -, -, moved⟩ := settings.carryField_cases scope _ found
  · rw [carried, kept] at foreign
    exact foreign
  · rw [carried, moved] at foreign
    exact absurd rfl foreign

namespace AllOrNothing

/-- **The visit of a class is all or nothing for each of its fields.** -/
theorem visit {initial : ClassDecl} (visit : settings.Visit slack depth scope before after declared)
    (inside : scope.current = .ofClass before) (owns : Owns field before)
    (lawful : field.reference.Lawful settings.target) {level : Nat}
    (enough : Pass.maxDepth ≤ level + depth)
    (clear : ∀ site ∈ before.sites { level }, site.Clear 1) {found visited : FieldDecl}
    (member : found ∈ before.fields) (named : found.name = field.name)
    (held : settings.AllOrNothing field initial before found)
    (other : visited ∈ after.fields) (alsoNamed : visited.name = field.name) :
    settings.AllOrNothing field initial after visited where
  moved typed := by
    have place (first second : Nat) (declared : ClassDecl) :=
      declared.forall₂_sitesBeside Place.steady_resembles
        (show Place.Resembles { level := first } { level := second } from ⟨rfl, rfl, rfl, rfl⟩) field.name
    refine Reference.moved_of_resembling (place level 1 after) (visit.moved inside owns lawful rfl enough
      clear member named other alsoNamed typed fun already => ?_)
    exact Reference.moved_of_resembling (place 1 level before) (held.moved already)
  unmoved foreign := by
    have place (declared : ClassDecl) := declared.forall₂_sites Place.steady_resembles
      (show Place.Resembles { level } {} from ⟨rfl, rfl, rfl, rfl⟩)
    have here : ({ level } : Place).fields = [] := rfl
    obtain ⟨inBodies, counts⟩ :=
      visit.unmoved inside owns lawful here enough other alsoNamed foreign
    rw [Reference.bodyCalls_of_resembling _ (place after),
      Reference.bodyCalls_of_resembling _ (place before)] at inBodies
    rw [Reference.calls_of_resembling _ (place after),
      Reference.calls_of_resembling _ (place before)] at counts
    obtain ⟨sameBodies, fewer⟩ := held.unmoved
      (visit.foreign owns.distinct member other (alsoNamed.trans named.symm) foreign)
    exact ⟨inBodies.trans sameBodies,
      fun head logs => Nat.le_trans (counts head logs).1 (fewer head logs)⟩
  kept foreign head logs plain := by
    have place (declared : ClassDecl) := declared.forall₂_sites Place.steady_resembles
      (show Place.Resembles { level } {} from ⟨rfl, rfl, rfl, rfl⟩)
    have here : ({ level } : Place).fields = [] := rfl
    have accounts := ((visit.unmoved inside owns lawful here enough other alsoNamed foreign).2 head
      logs).2 plain
    -- The account of this visit is added to that of the visits before it.
    have whole := (held.kept (visit.foreign owns.distinct member other (alsoNamed.trans named.symm)
      foreign) head logs plain).1.trans (accounts.of_resembling (place before) (place after))
    exact ⟨whole, whole.count_eq⟩

end AllOrNothing

/-! ## Passes over a unit -/

/-- A class, with the place of its members, is visited as far down as a pass goes. -/
def Visited (settings : Migrate) (entry : Place × ClassDecl) (after : ClassDecl) : Prop :=
  ∃ slack depth scope declared, Pass.maxDepth ≤ entry.1.level + depth ∧
    scope.current = .ofClass entry.2 ∧ settings.Visit slack depth scope entry.2 after declared

mutual

/-- With a class those inside it are visited. -/
theorem visited_of_visit : ∀ (before : ClassDecl) {depth : Nat} {scope : Scope} {after : ClassDecl}
    {declared : List FieldDecl}, scope.current = .ofClass before →
      settings.Visit slack depth scope before after declared →
      ∀ place : Place, Pass.maxDepth ≤ place.level + depth →
        List.Forall₂ settings.Visited (before.placed place) after.all
  | .decl header fields methods nested, depth, scope, after, declared => by
    intro inside visit place enough
    obtain ⟨start, last, runNested⟩ := visit.nested
    cases after with
    | decl =>
      exact .cons ⟨slack, depth, scope, declared, enough, inside, visit⟩
        (visited_of_visitNested nested runNested place (by omega))

theorem visited_of_visitNested : ∀ (nested : List ClassDecl) {depth : Nat} {scope : Scope}
    {result : List ClassDecl} {progress after : Progress},
      (Pass.visitNested [settings.rule] slack depth scope nested).run progress = .ok result after →
      ∀ place : Place, Pass.maxDepth ≤ place.level + 1 + depth →
        List.Forall₂ settings.Visited (ClassDecl.placedList place nested) (ClassDecl.allList result)
  | [], depth, scope, result, progress, after => by
    intro run
    rw [Pass.visitNested] at run
    cases run
    exact fun _ _ => .nil
  | first :: rest, depth, scope, result, progress, after => by
    intro run
    rw [Pass.visitNested] at run
    obtain ⟨visitedFirst, middle, runFirst, run⟩ := Pass.run_bind_eq_ok.mp run
    obtain ⟨others, last, runRest, run⟩ := Pass.run_bind_eq_ok.mp run
    cases run
    -- The depth left and the level of the place change together.
    obtain ⟨declared, visit⟩ := run_visitClass runFirst
    intro place enough
    exact List.rel_append (visited_of_visit first rfl visit (place.within first) enough)
      (visited_of_visitNested rest runRest place enough)

end

section Steps

variable {engine : Engine} {unit visited : CompilationUnit}

/-- A pass visits the classes at the top level. -/
theorem forall₂_visit_of_step (single : engine.rules = [settings.rule])
    (step : engine.Step unit visited) :
    List.Forall₂ (fun before after => ∃ declared,
      settings.Visit engine.slack (Pass.maxDepth - 1) (.ofClass before unit.sourcePath) before after
        declared)
      unit.classes visited.classes := by
  obtain ⟨statistics, count, passed⟩ := step
  obtain ⟨last, run, -⟩ := Engine.cycle_eq_ok.mp passed
  obtain ⟨classes, runClasses, rfl⟩ := Pass.run_visitUnit_eq_ok.mp run
  rw [single] at runClasses
  rw [Pass.classes_settleImports]
  exact (Pass.forall₂_of_run_mapM runClasses).imp fun before after ⟨_, _, run⟩ => run_visitClass run

/-- **A pass visits every class.** -/
theorem forall₂_visited_of_step (single : engine.rules = [settings.rule])
    (step : engine.Step unit visited) :
    List.Forall₂ settings.Visited unit.placed visited.allClasses := by
  rw [CompilationUnit.allClasses, ClassDecl.allList_eq_flatMap]
  refine List.rel_flatMap (forall₂_visit_of_step single step) ?_
  rintro before after ⟨_, visit⟩
  exact visited_of_visit before rfl visit {} (by decide)

/-- A pass keeps the names of classes and of fields. -/
theorem names_of_step (single : engine.rules = [settings.rule]) (step : engine.Step unit visited) :
    visited.names = unit.names := by
  have each := List.rel_map (fun entry after ⟨_, _, _, _, _, _, visit⟩ => visit.sameNames.symm)
    (forall₂_visited_of_step single step)
  rw [List.forall₂_eq_eq_eq] at each
  rw [CompilationUnit.names, CompilationUnit.names, ← each, ← unit.map_placed, List.map_map]
  rfl

/-- A law that asks nothing of scopes and classes holds of the sites of a unit. -/
theorem ClassLaw.step {inside : Scope → List String → Prop} {admits : ClassDecl → Prop}
    {offered members whole : List Site → List Site → Prop}
    (law : ClassLaw settings inside admits offered members whole)
    (anywhere : ∀ scope, inside scope []) (admitted : ∀ declared, admits declared)
    (single : engine.rules = [settings.rule]) (step : engine.Step unit visited) :
    whole unit.sites visited.sites := by
  -- The relation is put together class by class, like the sites.
  refine law.flatMap ((forall₂_visit_of_step single step).imp ?_)
  rintro before after ⟨declared, visit⟩
  exact law.visit before (fun inner _ => admitted inner) visit {} (by decide) (anywhere _)

/-- A pass keeps a unit quiet. -/
theorem quiet_of_step (single : engine.rules = [settings.rule]) (step : engine.Step unit visited)
    (quiet : unit.Quiet) : visited.Quiet := by
  have law : ClassLaw settings (fun _ _ => True) (fun _ => True) _ _ _ :=
    classLaw_of_marks (fun _ _ _ _ _ _ _ => trivial) fun _ => marks_loud
  have fewer := law.step (fun _ => trivial) (fun _ => trivial) single step
  have silent : unit.sites.countP (fun site => site.expr.isLoud) = 0 :=
    List.countP_eq_zero.mpr fun site member => Bool.eq_false_iff.mp (quiet site member)
  rw [silent, Nat.le_zero, List.countP_eq_zero] at fewer
  exact fun site member => Bool.eq_false_iff.mpr (fewer site member)

/-- A pass reaches every call of a class if it reaches every call of the unit. -/
theorem clear_of_placed (shallow : unit.Shallow) (quiet : unit.Quiet) {entry : Place × ClassDecl}
    (member : entry ∈ unit.placed) :
    ∀ site ∈ entry.2.sites { level := entry.1.level }, site.Clear 1 := by
  intro site inside
  -- Depth is all that counts here, so the class may as well stand alone at its level.
  have matched := entry.2.forall₂_sites Place.steady_level
    (show entry.1.level = ({ level := entry.1.level } : Place).level from rfl)
  obtain ⟨other, found, same, level⟩ := exists_of_forall₂ matched inside
  have listed := CompilationUnit.mem_sites_of_placed member found
  exact ⟨fun call => level ▸ shallow other listed (same ▸ call), same ▸ quiet other listed⟩

/-- Passes keep a unit quiet. -/
theorem quiet_of_reaches (single : engine.rules = [settings.rule]) (quiet : unit.Quiet)
    (reaches : engine.Reaches unit visited) : visited.Quiet := by
  induction reaches with
  | refl => exact quiet
  | tail _ step ih => exact quiet_of_step single step ih

/-- **When a bound on the first unit is enough.** If the arguments of uses of loggers make no calls, and
the target is asked for loggers by class, every unit that passes make is shallow if the first one is. -/
theorem shallow_of_reaches (single : engine.rules = [settings.rule])
    (byClass : settings.target.isKeyedByName = false) (flat : ∀ site ∈ unit.sites, site.Flat)
    (shallow : unit.Shallow) (reaches : engine.Reaches unit visited) : visited.Shallow := by
  have both : (∀ site ∈ visited.sites, site.Flat) ∧ Roomy 1 visited.sites := by
    induction reaches with
    | refl => exact ⟨flat, shallow⟩
    | tail _ step ih =>
      obtain ⟨still, roomy⟩ :=
        (classLaw_of_flat byClass).step (fun _ => trivial) (fun _ => trivial) single step ih.1
      exact ⟨still, roomy 1 ih.2⟩
  exact both.2

/-- **What visits keep to, runs keep to.** What is true of a field and its class at the start, and stays
true when the class is visited, is true of them in every unit that passes make. -/
theorem holds_of_reaches {holds : ClassDecl → FieldDecl → Prop} (single : engine.rules = [settings.rule])
    (named : unit.WellNamed) (member : before ∈ unit.allClasses) {found : FieldDecl}
    (declares : found ∈ before.fields) (start : holds before found)
    (keeps : ∀ {middle entry slack depth scope after renewed old field}, engine.Reaches unit middle →
      entry ∈ middle.placed → Owns { owner := before.fqn, name := found.name } entry.2 →
      Pass.maxDepth ≤ entry.1.level + depth → scope.current = .ofClass entry.2 →
      settings.Visit slack depth scope entry.2 after renewed → old ∈ entry.2.fields →
      old.name = found.name → field ∈ after.fields → field.name = found.name → holds entry.2 old →
      holds after field)
    (reaches : engine.Reaches unit visited) :
    visited.WellNamed ∧ ∃ after ∈ visited.allClasses, after.fqn = before.fqn ∧
      ∃ field ∈ after.fields, field.name = found.name ∧ holds after field := by
  have each : visited.names = unit.names ∧ ∀ after ∈ visited.allClasses, after.fqn = before.fqn →
      ∀ field ∈ after.fields, field.name = found.name → holds after field := by
    -- The invariant speaks of every class and field of the names in question; that there is just one of
    -- each follows from the names, which do not change.
    induction reaches with
    | refl =>
      refine ⟨rfl, fun after listed same field declared sameName => ?_⟩
      obtain rfl := named.eq_of_fqn_eq listed member same
      obtain rfl := List.inj_on_of_nodup_map (named.fields after listed) declared declares sameName
      exact start
    | @tail middle visited reached step ih =>
      obtain ⟨names, held⟩ := ih
      refine ⟨(names_of_step single step).trans names, ?_⟩
      intro after listed same field declared sameName
      obtain ⟨entry, placed, slack, depth, scope, renewed, enough, inside, visit⟩ :=
        exists_of_forall₂ (forall₂_visited_of_step single step) listed
      have between : entry.2 ∈ middle.allClasses := by
        rw [← middle.map_placed]
        exact List.mem_map_of_mem placed
      have sameFqn : entry.2.fqn = before.fqn := (congrArg Prod.fst visit.sameNames).symm.trans same
      obtain ⟨old, oldDeclares, oldName⟩ : ∃ old ∈ entry.2.fields, old.name = field.name := by
        have name : field.name ∈ after.fields.map (·.name) := List.mem_map_of_mem declared
        exact List.mem_map.mp (visit.names ▸ name)
      have oldNamed := oldName.trans sameName
      exact keeps reached placed ((named.congr names).owns between sameFqn) enough inside visit
        oldDeclares oldNamed declared sameName (held entry.2 between sameFqn old oldDeclares oldNamed)
  obtain ⟨names, held⟩ := each
  obtain ⟨after, remains, same, field, inside, sameName⟩ :=
    CompilationUnit.exists_field_of_names names member declares
  exact ⟨named.congr names, after, remains, same, field, inside, sameName,
    held after remains same field inside sameName⟩

end Steps

end Migrate

namespace Engine

open Migrate

/-- **Migration is all or nothing for each field.** Let an engine with this one rule converge on a unit
in which the names of classes and of the fields of a class are distinct and no use of a logger could be
taken for an exception. Then a logger field has taken all of its uses along to the target framework, or
it is where it was, with the calls through it.

`shallow`: in every unit on the way, calls stand above the last level of a pass, with one to spare. It is
not enough to ask this of the first unit, since a message that is put together anew stands deeper than
its arguments, but see `shallow_of_reaches`. `apart`: the class is not the one of the target's levels, as
the constants that are written would then refer to its fields. Calls in arguments and in initializers
are only counted, since messages are put together in another order. Some of them may be lost, as
`transform_loses_calls` shows. -/
theorem transform_all_or_nothing {settings : Migrate} {engine : Engine} {statistics : Statistics}
    {unit : CompilationUnit} {outcome : Outcome} (single : engine.rules = [settings.rule])
    (converged : (engine.transform statistics unit).1 = .ok outcome) (named : unit.WellNamed)
    (quiet : unit.Quiet) (shallow : ∀ middle, engine.Reaches unit middle → middle.Shallow)
    {before : ClassDecl} (member : before ∈ unit.allClasses)
    (apart : ∀ levelType, settings.target.levelType? = some levelType → levelType ≠ before.fqn)
    {field : FieldDecl} (declares : field ∈ before.fields)
    (foreign : field.type.typeName ≠ settings.target.loggerType) :
    outcome.unit.WellNamed ∧ ∃ after ∈ outcome.unit.allClasses, after.fqn = before.fqn ∧
      ∃ visited ∈ after.fields, visited.name = field.name ∧
        settings.AllOrNothing { owner := before.fqn, name := field.name } before after visited := by
  refine holds_of_reaches single named member declares ⟨fun typed => absurd typed foreign,
    fun _ => ⟨rfl, fun _ _ => Nat.le_refl _⟩, fun _ _ _ _ => ⟨.refl _, fun _ => rfl⟩⟩ ?_
    (reaches_of_transform converged)
  intro middle entry slack depth scope after renewed old visited reached placed owns enough inside visit
    oldDeclares oldNamed declared sameName held
  exact held.visit visit inside owns (FieldName.lawful _ apart) enough
    (clear_of_placed (shallow middle reached) (quiet_of_reaches single quiet reached) placed) oldDeclares
    oldNamed declared sameName

/-- A field moves with its uses in a nested class that has a field of the same name. Beside it a field
stays as it is, since it is handed on. -/
theorem transform_all_or_nothing_nested :
    let settings := Migrate.toward .slf4j
    let engine : Engine := { rules := [settings.rule] }
    let logger (framework : Framework) : JavaType := .named framework.loggerType
    let field (framework : Framework) (name : String) : FieldDecl :=
      { name, type := logger framework,
        initializer := some (framework.factoryCall (.classObject "C") "C") }
    let log (framework : Framework) (receiver : Expr) : Statement := .expression
      (.call receiver "info" [.string "x"] (.onInstance framework.loggerType "info"))
    let use (argument : Expr) : Statement := .expression (.methodCall none "use" [argument] none)
    let declared (framework : Framework) : ClassDecl :=
      .decl { name := "C", fqn := "C" } [field framework "f", field .log4j2 "g"]
        [{ name := "m", body := [log framework (.ident "f" (logger framework)),
            log .log4j2 (.ident "g" (logger .log4j2)), use (.ident "g" (logger .log4j2))] }]
        [.decl { name := "D", fqn := "C.D" } [{ name := "f", type := .string }]
          [{ name := "n", body := [use (.ident "f" .string),
            log framework (.fieldAccess (.typeRef "C") "f" (some (logger framework)))] }] []]
    let unit : CompilationUnit := { classes := [declared .log4j2] }
    let outcome : Outcome := {
      unit := {
        imports := [{ typeName := "org.slf4j.LoggerFactory" }, { typeName := "org.slf4j.Logger" }]
        classes := [declared .slf4j] }
      summary := { unitsChanged := 1, replacements := 3, cycles := 2 } }
    (engine.transform {} unit).1 = .ok outcome ∧ unit.WellNamed ∧ unit.Quiet ∧
      (∀ middle, engine.Reaches unit middle → middle.Shallow) ∧
      (∀ levelType, settings.target.levelType? = some levelType → levelType ≠ "C") ∧
      ∀ name ∈ ["f", "g"], field .log4j2 name ∈ (declared .log4j2).fields ∧
        (field .log4j2 name).type.typeName ≠ settings.target.loggerType ∧
        ∃ after ∈ outcome.unit.allClasses, after.fqn = "C" ∧
          ∃ visited ∈ after.fields, visited.name = name ∧
            settings.AllOrNothing { owner := "C", name } (declared .log4j2) after visited := by
  intro settings engine logger field log use declared unit outcome
  have converged : (engine.transform {} unit).1 = .ok outcome := by decide
  have named : unit.WellNamed := ⟨by decide, by decide⟩
  have quiet : unit.Quiet := by
    unfold CompilationUnit.Quiet
    decide
  have shallow : ∀ middle, engine.Reaches unit middle → middle.Shallow := by
    refine fun middle => shallow_of_reaches rfl rfl ?_ ?_
    · unfold Site.Flat Expr.Silent Throughout
      decide
    · unfold CompilationUnit.Shallow
      decide
  have apart : ∀ levelType, settings.target.levelType? = some levelType → levelType ≠ "C" := nofun
  have inUnit : declared .log4j2 ∈ unit.allClasses := by decide
  have foreign : (logger .log4j2).typeName ≠ settings.target.loggerType := by decide
  have each (name : String) (declares : field .log4j2 name ∈ (declared .log4j2).fields) :=
    (transform_all_or_nothing rfl converged named quiet shallow inUnit apart declares foreign).2
  refine ⟨converged, named, quiet, shallow, apart, List.forall_mem_cons.mpr ⟨?_,
    List.forall_mem_singleton.mpr ?_⟩⟩
  · exact ⟨by decide, foreign, each "f" (by decide)⟩
  · exact ⟨by decide, foreign, each "g" (by decide)⟩

/-- A message that is put together pushes a check in its arguments below the levels that a pass goes to.
If the field of the check moves only then, the check is left behind. -/
theorem transform_leaves_deep_check :
    let settings := Migrate.toward .log4j1
    let engine : Engine := { rules := [settings.rule] }
    let logger (framework : Framework) : JavaType := .named framework.loggerType
    let field (framework : Framework) (name : String) : FieldDecl :=
      { name, type := logger framework,
        initializer := some (framework.factoryCall (.classObject "C") "C") }
    let log (framework : Framework) (name : String) (arguments : List Expr) : Expr :=
      .call (.ident name (logger framework)) "info" arguments (.onInstance framework.loggerType "info")
    let check (framework : Framework) (name : String) (returnType : Option JavaType) : Expr :=
      .call (.ident name (logger framework)) "isInfoEnabled" []
        { declaringType := framework.loggerType, name := "isInfoEnabled", returnType }
    let inside := check .log4j2 "f" (some (.primitive .boolean))
    let values := inside :: ["1", "2", "3", "4", "5", "6", "7"].map fun text => .literal (.number text)
    let declared (framework : Framework) (returnType : Option JavaType) (message : List Expr) :
        ClassDecl :=
      .decl { name := "C", fqn := "C" } [field framework "f", field framework "g"]
        [{ name := "m", body := [.expression (log framework "f" [check framework "g" returnType]),
            .expression (Nat.repeat .parens 90 (log framework "g" message))] }] []
    let before := declared .log4j2 none
      (.string (String.join (List.replicate 8 "\x7b\x7d")) :: values)
    let after := declared .log4j1 (some (.primitive .boolean)) [values.foldl .concat (.string "")]
    let unit : CompilationUnit := { classes := [before] }
    unit.WellNamed ∧ unit.Quiet ∧ (∀ site ∈ unit.sites, site.level < Pass.maxDepth) ∧
      (engine.transform {} unit).1.map (·.unit.classes) = .ok [after] ∧
      ¬ settings.AllOrNothing { owner := "C", name := "f" } before after (field .log4j1 "f") := by
  intro settings engine logger field log check inside values declared before after unit
  refine ⟨⟨by decide, by decide⟩, ?_, by decide, by decide +kernel, fun held => ?_⟩
  · unfold CompilationUnit.Quiet
    decide
  · -- The check stands below the last level of a pass and still is one of the old framework.
    have left : ∃ site ∈ after.sitesBeside "f" {}, site.expr = inside ∧ site.fields = [] := by
      decide +kernel
    obtain ⟨site, member, same, here⟩ := left
    have moved := (held.moved rfl site member).declaringType
    rw [same, here] at moved
    obtain ⟨method, same, declaring⟩ := moved _ rfl
    cases same
    exact absurd declaring (by decide)

/-- Calls through a field that stays are lost if they are made in the level that a logger is given, or if
they ask for a logger. Here `g` moves and `f` stays, since the level of `f` is set. -/
theorem transform_loses_calls :
    let settings := Migrate.toward .slf4j
    let engine : Engine := { rules := [settings.rule] }
    let logger (framework : Framework) : JavaType := .named framework.loggerType
    let level : JavaType := .named "java.util.logging.Level"
    let jul := Framework.jul.loggerType
    let f : Expr := .ident "f" (logger .jul)
    let ask (select : Expr) (name : String) : Expr :=
      .call select "getLogger" [.string name] (.onClassReturning jul "getLogger" (logger .jul))
    let declared (framework : Framework) (initial log : Expr) : ClassDecl :=
      .decl { name := "C", fqn := "C" }
        [{ name := "f", type := logger .jul, initializer := some (ask (.typeRef jul) "f") },
          { name := "g", type := logger framework, initializer := some initial }]
        [{ name := "m", body := [
            .expression (.call f "setLevel" [.constant "java.util.logging.Level" "INFO"]
              (.onInstance jul "setLevel")),
            .expression log] }] []
    let before := declared .jul (ask f "g")
      (.call (.ident "g" (logger .jul)) "log"
        [.fieldAccess (.call f "getLevel" [] (.onInstanceReturning jul "getLevel" level)) "INFO"
          (some level), .string "x"] (.onInstance jul "log"))
    let after := declared .slf4j (Framework.slf4j.factoryCall (.name (.string "g")) "C")
      (.call (.ident "g" (logger .slf4j)) "info" [.string "x"]
        (.onInstance Framework.slf4j.loggerType "info"))
    let unit : CompilationUnit := { classes := [before] }
    let refers := (FieldName.reference { owner := "C", name := "f" })
    unit.WellNamed ∧ unit.Quiet ∧ unit.Shallow ∧
      (engine.transform {} unit).1.map (·.unit.classes) = .ok [after] ∧
      (refers.calls (before.sites {})).map (·.name) = ["getLogger", "setLevel", "getLevel"] ∧
      (refers.calls (after.sites {})).map (·.name) = ["setLevel"] ∧
      (refers.losses (before.sites {})).map (·.name) = ["getLogger", "getLevel"] := by
  intro settings engine logger level jul f ask declared before after unit refers
  refine ⟨⟨by decide, by decide⟩, ?_, ?_, by decide, by decide, by decide, by decide⟩
  · unfold CompilationUnit.Quiet
    decide
  · unfold CompilationUnit.Shallow
    decide

end Engine

end LogCalls
