import LogCalls.Proofs.Migration.Losses
import LogCalls.Proofs.Migration.Uses
import Mathlib.Data.List.Nodup

/-! # A field and its uses in a pass

When a logger field moves, the check has looked at its class with the fields before it as they are by
then. So every use of the field can be carried over when the pass comes to it. -/

namespace LogCalls

namespace Migrate

variable {settings : Migrate} {scope : Scope} {slack depth : Nat} {before after : ClassDecl}
  {declared : List FieldDecl} {place : Place} {field : FieldName}

/-! ## Offered fields -/

/-- The field after it is offered in some class. -/
def Carried (settings : Migrate) (scope : Scope) (field visited : FieldDecl) : Prop :=
  ∃ declared, visited = settings.carryField scope declared field

theorem Offered.carried {around : List FieldDecl → ClassDecl} {done fields others : List FieldDecl}
    (offered : settings.Offered scope around done fields others) :
    List.Forall₂ (settings.Carried scope) fields others := by
  induction offered with
  | nil => exact .nil
  | cons visits _ ih => exact .cons ⟨_, visits⟩ ih

/-- When a field is offered, those before it have been, and those behind it are as they were. -/
theorem Offered.split {around : List FieldDecl → ClassDecl} {done fields others : List FieldDecl}
    (offered : settings.Offered scope around done fields others) {field : FieldDecl}
    (member : field ∈ fields) :
    ∃ back earlier later, others = earlier ++
        settings.carryField scope (around (done ++ earlier ++ field :: back)) field :: later ∧
      List.Forall₂ (settings.Carried scope) back later := by
  induction offered with
  | nil => cases member
  | @cons done rest others first visited visits offered ih =>
    -- The induction is on the fields that are offered; those before `field` are collected in
    -- `earlier`.
    obtain rfl | inRest := List.mem_cons.mp member
    · exact ⟨rest, [], others, by rw [List.append_nil, List.nil_append, visits], offered.carried⟩
    · obtain ⟨back, earlier, later, same, carried⟩ := ih inRest
      refine ⟨back, visited :: earlier, later, ?_, carried⟩
      rw [same, List.append_assoc done, List.singleton_append, List.cons_append]

/-- What is known of the sites of fields with some names, before and after they are offered. -/
theorem forall_sites_of_carried {fields others : List FieldDecl} (keep : String → Prop)
    {old new : Site → Prop} (carried : List.Forall₂ (settings.Carried scope) fields others)
    (each : ∀ (start : ClassDecl) (field : FieldDecl), (∀ site ∈ field.sites place, old site) →
      ∀ site ∈ (settings.carryField scope start field).sites place, new site)
    (known : ∀ field ∈ fields, keep field.name → ∀ site ∈ field.sites place, old site) :
    ∀ other ∈ others, keep other.name → ∀ site ∈ other.sites place, new site := by
  induction carried with
  | nil => exact nofun
  | cons visits _ ih =>
    obtain ⟨start, rfl⟩ := visits
    obtain ⟨first, rest⟩ := List.forall_mem_cons.mp known
    refine List.forall_mem_cons.mpr ⟨fun kept => ?_, ih rest⟩
    rw [name_carryField] at kept
    exact each start _ (first kept)

/-! ## The class of a field -/

/-- What a class is to a field: it is the only one that bears the name of the field's owner. -/
structure Owns (field : FieldName) (declared : ClassDecl) : Prop where
  fqn : declared.fqn = field.owner
  distinct : (declared.fields.map (·.name)).Nodup
  others : ∀ inner ∈ ClassDecl.allList declared.nested, inner.fqn ≠ field.owner

theorem movable_of_moved {refers : Reference} {site : Site}
    (moved : refers.Moved settings.target site) : refers.Movable settings site :=
  ⟨moved.isReceiver, fun head found => .inl (moved.declaringType head found)⟩

namespace Visit

variable {found visited : FieldDecl}

theorem fieldFor?_eq (visit : settings.Visit slack depth scope before after declared)
    (inside : scope.current = .ofClass before) (owns : Owns field before)
    (member : found ∈ declared) (named : found.name = field.name) {expr : Expr}
    (through : field.reference [] expr = true) :
    (scope.holding declared).fieldFor? expr = some found :=
  fieldFor?_of_reference (by rw [inside]; exact owns.fqn) member named
    (visit.offered.names ▸ owns.distinct) through

/-- The types of the fields are settled when they have been offered. -/
theorem exists_declared (visit : settings.Visit slack depth scope before after declared)
    (member : visited ∈ after.fields) :
    ∃ found ∈ declared, found.name = visited.name ∧ found.type = visited.type := by
  have same := ((siteLaw_trivial settings _ []).initializers visit.initializers).1
  have listed := List.mem_map_of_mem (f := fun field : FieldDecl => (field.name, field.type)) member
  rw [same] at listed
  obtain ⟨found, inside, equal⟩ := List.mem_map.mp listed
  exact ⟨found, inside, congrArg Prod.fst equal, congrArg Prod.snd equal⟩

/-- The uses of a field of the target framework move when its class is visited, if they can. -/
theorem moved_of_ready (visit : settings.Visit slack depth scope before after declared)
    (inside : scope.current = .ofClass before) (owns : Owns field before)
    (lawful : field.reference.Lawful settings.target) (member : found ∈ declared)
    (named : found.name = field.name) (moved : found.type.typeName = settings.target.loggerType)
    (here : place.fields = []) (enough : Pass.maxDepth ≤ place.level + depth)
    (onFields : ∀ site ∈ (declared.filter (·.name != field.name)).flatMap (·.sites place),
      field.reference.Ready settings 0 site)
    (onMethods : ∀ site ∈ before.methods.flatMap (·.sites place),
      field.reference.Ready settings 1 site)
    (onNested : ∀ site ∈ ClassDecl.sitesList place before.nested,
      field.reference.Ready settings 1 site) :
    ∀ site ∈ after.sitesBeside field.name place, field.reference.Moved settings.target site := by
  have law := classLaw_of_settles lawful descends_settles
  -- The lookup finds the field in its new form, so calls through it are carried over.
  have settles : settings.Settles (scope.holding declared) place.fields field.reference := by
    intro expr through
    rw [here] at through
    exact ⟨found, visit.fieldFor?_eq inside owns member named through, moved⟩
  have members := law.members settles
  obtain ⟨start, last, runNested⟩ := visit.nested
  cases after with
  | decl header fields methods nested =>
    refine List.forall_mem_append.mpr ⟨?_, List.forall_mem_append.mpr ⟨?_, ?_⟩⟩
    · exact (members.initializers visit.initializers).2 (· != field.name) place rfl enough onFields
    · exact law.compose (law.unoffered _) (members.methods visit.methods rfl enough) onMethods
    · exact law.visitNested before.nested owns.others runNested place (by omega) settles onNested

/-- The check has passed for a field that is moved. -/
theorem uses_of_moved (visit : settings.Visit slack depth scope before after declared)
    (distinct : (before.fields.map (·.name)).Nodup) {moved : FieldDecl}
    (member : found ∈ before.fields) (other : moved ∈ declared) (named : moved.name = found.name)
    (foreign : found.type ≠ moved.type) :
    ∃ back earlier later, declared = earlier ++ moved :: later ∧
      List.Forall₂ (settings.Carried scope) back later ∧
      settings.usesMigrate { owner := before.fqn, name := found.name } false
        (.decl before.header (earlier ++ found :: back) before.methods before.nested) = true := by
  obtain ⟨back, earlier, later, same, carried⟩ := visit.offered.split member
  have names : (declared.map (·.name)).Nodup := visit.offered.names ▸ distinct
  have equal := List.inj_on_of_nodup_map names other
    (by rw [same]; exact List.mem_append_right _ List.mem_cons_self) (by rw [named, name_carryField])
  refine ⟨back, earlier, later, by rw [equal, ← same], carried, ?_⟩
  -- A field that is kept has the type that it had.
  obtain kept | ⟨_, _, -, -, uses, -⟩ := settings.carryField_cases scope
    (.decl before.header ([] ++ earlier ++ found :: back) before.methods before.nested) found
  · exact absurd (by rw [equal, kept]) foreign
  · cases before
    exact uses

/-- What holds of a moved field's uses holds when the members of its class are visited: it has held before,
or the check has made sure of it. -/
theorem holds_of_checked {holds : Site → Prop}
    (visit : settings.Visit slack depth scope before after declared) (owns : Owns field before)
    (here : place.fields = [])
    (keeps : ∀ (start : ClassDecl) (other : FieldDecl), (∀ site ∈ other.sites place, holds site) →
      ∀ site ∈ (settings.carryField scope start other).sites place, holds site)
    (checks : ∀ site, field.Checked settings place site → holds site) {moved : FieldDecl}
    (member : found ∈ before.fields) (named : found.name = field.name) (offered : moved ∈ declared)
    (same : moved.name = field.name) (typed : moved.type.typeName = settings.target.loggerType)
    (known : found.type.typeName = settings.target.loggerType →
      ∀ site ∈ before.sitesBeside field.name place, holds site) :
    (∀ other ∈ declared, other.name ≠ field.name → ∀ site ∈ other.sites place, holds site) ∧
      (∀ site ∈ before.methods.flatMap (·.sites place), holds site) ∧
      ∀ site ∈ ClassDecl.sitesList place before.nested, holds site := by
  -- It has moved in an earlier pass, or it moves in this one and the check has been made.
  by_cases already : found.type.typeName = settings.target.loggerType
  · cases before with
    | decl header fields methods nested =>
      obtain ⟨onFields, onMethods, onNested⟩ :=
        (List.forall_mem_append.mp (known already)).imp_right List.forall_mem_append.mp
      refine ⟨forall_sites_of_carried (· ≠ field.name) visit.offered.carried keeps ?_, onMethods,
        onNested⟩
      intro other member apart site inside
      have kept : other ∈ fields.filter (·.name != field.name) :=
        List.mem_filter.mpr ⟨member, by simpa using apart⟩
      exact onFields site (List.mem_flatMap.mpr ⟨other, kept, inside⟩)
  · obtain ⟨back, earlier, later, whole, carried, uses⟩ := visit.uses_of_moved owns.distinct member
      offered (same.trans named.symm) fun equal => already (equal ▸ typed)
    have key : ({ owner := before.fqn, name := found.name } : FieldName) = field := by
      rw [owns.fqn, named]
    rw [key] at uses
    obtain ⟨onFields, onMethods, onNested⟩ := checked_of_usesMigrate uses here owns.others
    refine ⟨?_, fun site member => checks site (onMethods site member),
      fun site member => checks site (onNested site member)⟩
    rw [whole]
    -- The check saw the fields before this one as they are now, and those behind it as they were.
    refine List.forall_mem_append.mpr ⟨fun other member apart site inside =>
      checks site (onFields other (List.mem_append_left _ member) apart site inside),
      List.forall_mem_cons.mpr ⟨fun apart => (apart same).elim, ?_⟩⟩
    exact forall_sites_of_carried (· ≠ field.name) carried keeps fun other member apart site inside =>
      checks site
        (onFields other (List.mem_append_right _ (List.mem_cons_of_mem _ member)) apart site inside)

/-- **Uses move with their field.** When a class is visited, the uses of a field move with it, or go on as
they are if they have moved before. -/
theorem moved (visit : settings.Visit slack depth scope before after declared)
    (inside : scope.current = .ofClass before) (owns : Owns field before)
    (lawful : field.reference.Lawful settings.target) (here : place.fields = [])
    (enough : Pass.maxDepth ≤ place.level + depth)
    (clear : ∀ site ∈ before.sites place, site.Clear 1)
    (member : found ∈ before.fields) (named : found.name = field.name)
    (other : visited ∈ after.fields) (alsoNamed : visited.name = field.name)
    (typed : visited.type.typeName = settings.target.loggerType)
    (known : found.type.typeName = settings.target.loggerType →
      ∀ site ∈ before.sitesBeside field.name place, field.reference.Moved settings.target site) :
    ∀ site ∈ after.sitesBeside field.name place, field.reference.Moved settings.target site := by
  obtain ⟨moved, offered, same, type⟩ := visit.exists_declared other
  rw [← type] at typed
  have movedNamed : moved.name = field.name := same.trans alsoNamed
  obtain ⟨movableFields, movableMethods, movableNested⟩ :=
    visit.holds_of_checked owns here (movable_carryField lawful scope) (fun _ checked => checked.1) member
      named offered movedNamed typed fun already site inside => movable_of_moved (known already site inside)
  cases before with
  | decl header fields methods nested =>
    obtain ⟨clearFields, clearMembers⟩ := List.forall_mem_append.mp clear
    obtain ⟨clearMethods, clearNested⟩ := List.forall_mem_append.mp clearMembers
    -- Offering the fields takes one level of the room.
    have clearDeclared := forall_sites_of_carried (fun _ => True) visit.offered.carried
      (fun start field => clear_carryField scope start field) fun field member _ site inside =>
        clearFields site (List.mem_flatMap.mpr ⟨field, member, inside⟩)
    refine visit.moved_of_ready inside owns lawful offered movedNamed typed here enough ?_ ?_ ?_
    · intro site member
      obtain ⟨other, kept, inside⟩ := List.mem_flatMap.mp member
      obtain ⟨listed, apart⟩ := List.mem_filter.mp kept
      exact { movableFields other listed (by simpa using apart) site inside,
        clearDeclared other listed trivial site inside with }
    · exact fun site member => { movableMethods site member, clearMethods site member with }
    · exact fun site member => { movableNested site member, clearNested site member with }

/-- **Calls stay with their field.** When a class is visited, the calls through a field that does not
move are left as they are. -/
theorem unmoved (visit : settings.Visit slack depth scope before after declared)
    (inside : scope.current = .ofClass before) (owns : Owns field before)
    (lawful : field.reference.Lawful settings.target) (here : place.fields = [])
    (enough : Pass.maxDepth ≤ place.level + depth)
    (member : visited ∈ after.fields) (named : visited.name = field.name)
    (foreign : visited.type.typeName ≠ settings.target.loggerType) :
    field.reference.bodyCalls (after.sites place) = field.reference.bodyCalls (before.sites place) ∧
      ∀ head : CallHead, head.isOnClass = false →
        (field.reference.calls (after.sites place)).count head ≤
          (field.reference.calls (before.sites place)).count head ∧
        ((settings.recognize.collapseAccessors = true → head.receiver.isThrowable = false) →
          field.reference.Accounts head (before.sites place) (after.sites place)) := by
  obtain ⟨found, offered, same, type⟩ := visit.exists_declared member
  -- The lookup finds the field in a form that no call is carried over for.
  have unsettled : settings.Unsettled (scope.holding declared) place.fields field.reference := by
    intro expr other through known
    rw [here] at through
    rw [visit.fieldFor?_eq inside owns offered (same.trans named) through] at known
    cases known
    rw [type]
    exact foreign
  refine ⟨(classLaw_of_unsettled lawful descends_unsettled).visit before owns.others visit place enough
    unsettled, fun head logs => ⟨?_, fun plain => ?_⟩⟩
  · rw [Reference.count_calls, Reference.count_calls]
    exact (classLaw_of_marks descends_unsettled fun unsettled =>
      marks_calls lawful unsettled logs).visit before owns.others visit place enough unsettled
  · exact (classLaw_of_losses lawful descends_unsettled logs plain).visit before owns.others visit place
      enough unsettled

end Visit

end Migrate

end LogCalls
