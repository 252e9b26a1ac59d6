import LogCalls.Proofs.Engine.Spares
import LogCalls.Proofs.Migration.Losses

/-! # How deep calls stand

A message that is put together anew stands deeper than the arguments that it is made of, and a class that
is asked for its name one level deeper than the class alone. Where the arguments of uses of loggers make
no calls, and loggers are asked for by class, all calls stay at their levels when loggers migrate. -/

namespace LogCalls

/-- Calls at the sites have room for some more levels before a pass comes to its end. -/
def Roomy (room : Nat) (sites : List Site) : Prop :=
  ∀ site ∈ sites, site.expr.isCall = true → site.level + room < Pass.maxDepth

/-- No call is made in the expression. -/
def Expr.Silent (expr : Expr) : Prop := Throughout (fun inner => inner.isCall = false) (expr.sites {})

/-- There is no call just if there would be room for all levels. -/
theorem Expr.roomy_iff_silent {expr : Expr} {place : Place} :
    Roomy Pass.maxDepth (expr.sites place) ↔ expr.Silent := by
  constructor
  · intro roomy
    have silent : Throughout (fun inner => inner.isCall = false) (expr.sites place) := by
      refine fun site inside => Bool.eq_false_iff.mpr fun call => ?_
      have := roomy site inside call
      omega
    exact expr.throughout_sites silent
  · intro silent site inside call
    exact Bool.noConfusion (call.symm.trans (expr.throughout_sites silent site inside))

/-- Whether an expression makes no call can be read off its parts. -/
theorem Expr.distributes_silent : Distributes Silent := by
  have moved (expr : Expr) (place other : Place) (all : ∀ site ∈ expr.sites place,
      site.expr.isCall = false) : ∀ site ∈ expr.sites other, site.expr.isCall = false :=
    @throughout_sites _ (fun inner => inner.isCall = false) expr _ all
  exact distributes_sites ⟨moved _ _ _, moved _ _ _⟩ ⟨moved _ _ _, moved _ _ _⟩ (fun _ => rfl)
    (fun _ => rfl) (fun _ _ => rfl) fun _ => rfl

/-- The arguments of a call that uses a logger. -/
def Expr.useArguments : Expr → List Expr
  | .methodCall select name arguments method =>
    if (Expr.methodCall select name arguments method).usesLogger then arguments else []
  | _ => []

/-- If the expression at the site uses a logger, its arguments make no calls. -/
def Site.Flat (site : Site) : Prop := ∀ argument ∈ site.expr.useArguments, argument.Silent

/-- What is no call is flat. -/
theorem Site.flat_of_other {site : Site} (other : site.expr.isCall = false) : site.Flat := by
  obtain ⟨place, expr⟩ := site
  cases expr with
  | methodCall => cases other
  | _ => exact List.forall_mem_nil _

namespace Migrate

variable {settings : Migrate} {scope : Scope} {fields : List String} {place : Place}

/-- Flat sites stay flat, and no call loses room. -/
def StaysFlat (before after : List Site) : Prop :=
  (∀ site ∈ before, site.Flat) →
    (∀ site ∈ after, site.Flat) ∧ ∀ room, Roomy room before → Roomy room after

/-- Sites stay flat if they do in one part and the other. -/
theorem gathers_staysFlat : Pass.Gathers StaysFlat where
  nil _ := ⟨List.forall_mem_nil _, fun _ => id⟩
  append first second all := by
    obtain ⟨front, back⟩ := List.forall_mem_append.mp all
    obtain ⟨others, roomy⟩ := first front
    obtain ⟨more, alsoRoomy⟩ := second back
    refine ⟨List.forall_mem_append.mpr ⟨others, more⟩, fun room both => ?_⟩
    obtain ⟨front, back⟩ := List.forall_mem_append.mp both
    exact List.forall_mem_append.mpr ⟨roomy room front, alsoRoomy room back⟩

/-- Arguments make no calls after they have been visited if they made none before. -/
theorem silent_of_each {count : Nat} {before after : List Expr}
    (each : Pass.Each (fun _ => Pass.FollowsPart Kept StaysFlat fields (place.level + 1)) count before
      after) (here : place.fields = fields)
    (flat : ∀ site ∈ Expr.sitesList place.argument before, site.Flat)
    (silent : ∀ argument ∈ before, argument.Silent) : ∀ argument ∈ after, argument.Silent := by
  induction each with
  | nil => exact silent
  | cons follows _ ih =>
    obtain ⟨first, rest⟩ := List.forall_mem_append.mp flat
    obtain ⟨still, others⟩ := List.forall_mem_cons.mp silent
    have roomy := (follows.2 place.argument here rfl first).2 _ (Expr.roomy_iff_silent.mpr still)
    exact List.forall_mem_cons.mpr ⟨Expr.roomy_iff_silent.mp roomy, ih rest others⟩

/-- A call whose parts have been visited is flat if it was. -/
theorem flat_of_rebuilt {count : Nat} {before rebuilt : Expr}
    (parts : Pass.Rebuilt (fun _ => Pass.FollowsPart Kept StaysFlat fields (place.level + 1))
      (fun _ _ _ => True) count before rebuilt)
    (here : place.fields = fields) (flat : ∀ site ∈ before.sites place, site.Flat) :
    Site.Flat ⟨place, rebuilt⟩ := by
  have kept := parts.kept
  rw [Expr.sites_eq_cons] at flat
  obtain ⟨top, inside⟩ := List.forall_mem_cons.mp flat
  cases parts with
  | methodCall name method visited each =>
    rw [Site.Flat, Expr.useArguments]
    split
    · rename_i uses
      rw [Site.Flat, Expr.useArguments, if_pos (usesLogger_of_rebuilt kept uses)] at top
      refine silent_of_each each here ?_ top
      cases visited with
      | none => exact inside
      | some => exact (List.forall_mem_append.mp inside).2
    · exact List.forall_mem_nil _
  | _ => exact Site.flat_of_other rfl

/-- **A pass lets calls stay at their levels** where uses of loggers make no calls in their arguments. -/
theorem siteLaw_of_flat : SiteLaw settings scope fields StaysFlat where
  toGathers := gathers_staysFlat
  deep place expr _ all := ⟨all, fun _ => id⟩
  node {place count before rebuilt} here parts inner all := by
    have called : rebuilt.isCall = before.isCall := by cases parts <;> rfl
    have flat := flat_of_rebuilt parts here all
    rw [Expr.sites_eq_cons] at all
    obtain ⟨held, roomy⟩ := inner (List.forall_mem_cons.mp all).2
    -- What is a call stands where one stood; what has parts in its place that are no calls has room.
    have gather {visited : Expr} (calls : visited.isCall = before.isCall)
        (top : Site.Flat ⟨place, visited⟩) (others : ∀ site ∈ visited.parts place, site.Flat)
        (room : ∀ room, Roomy room (rebuilt.parts place) → Roomy room (visited.parts place)) :
        (∀ site ∈ visited.sites place, site.Flat) ∧
          ∀ room, Roomy room (before.sites place) → Roomy room (visited.sites place) := by
      rw [Expr.sites_eq_cons place visited]
      refine ⟨List.forall_mem_cons.mpr ⟨top, others⟩, fun more enough => ?_⟩
      rw [Expr.sites_eq_cons] at enough
      obtain ⟨first, rest⟩ := List.forall_mem_cons.mp enough
      exact List.forall_mem_cons.mpr
        ⟨fun call => first (calls ▸ call), room more (roomy more rest)⟩
    obtain ⟨-, same⟩ | ⟨select, name, arguments, method, receiver, newName, others, written, field,
      rfl, same, -, -, carries⟩ := settings.carry_cases scope rebuilt
    · rw [same]
      exact gather called flat held fun _ => id
    · -- The new arguments make no calls either.
      have silent := carries.holds Expr.distributes_silent
        (fun _ _ _ => List.forall_mem_cons.mpr ⟨rfl, List.forall_mem_singleton.mpr rfl⟩)
        (by rw [Site.Flat, Expr.useArguments, if_pos carries.uses] at flat; exact flat)
      have quiet : ∀ site ∈ Expr.sitesList place.argument others, site.expr.isCall = false := by
        rw [Expr.sitesList_eq_flatMap, List.forall_mem_flatMap]
        exact fun argument member => argument.throughout_sites (silent argument member)
      have named : receiver.isCall = false := by
        obtain ⟨_, _, -, rfl⟩ | ⟨_, _, _, -, rfl⟩ := Expr.retyped?_cases carries.retyped <;> rfl
      rw [same]
      refine @gather (.methodCall (some receiver) newName others (some written)) called ?_ ?_
        fun room enough => ?_
      · rw [Site.Flat, Expr.useArguments]
        split
        · exact silent
        · exact List.forall_mem_nil _
      · exact List.forall_mem_append.mpr ⟨forall_receiver_of_retyped? carries.retyped
          (Site.flat_of_other named) (List.forall_mem_append.mp held).1,
          fun site inside => Site.flat_of_other (quiet site inside)⟩
      · exact List.forall_mem_append.mpr ⟨forall_receiver_of_retyped? carries.retyped
          (fun call => Bool.noConfusion (named.symm.trans call)) (List.forall_mem_append.mp enough).1,
          fun site inside call => Bool.noConfusion ((quiet site inside).symm.trans call)⟩

/-- An initializer that asks for a logger by class is written anew without another call. -/
theorem staysFlat_carryField (byClass : settings.target.isKeyedByName = false) (start : Scope)
    (declared : ClassDecl) (field : FieldDecl) :
    StaysFlat (field.sites place) ((settings.carryField start declared field).sites place) := by
  obtain same | ⟨initial, factory, initialized, recognized, -, same⟩ :=
    settings.carryField_cases start declared field
  · rw [same]
    exact fun flat => ⟨flat, fun _ => id⟩
  obtain ⟨select, name, arguments, rfl, -, found⟩ := FactoryCall.recognize?_cases recognized
  -- The new argument is a class, or it is the old one.
  have written {holds : Site → Prop} (other : ∀ place expr, expr.isCall = false → holds ⟨place, expr⟩)
      (old : ∀ site ∈ (Expr.methodCall select name arguments (some factory.method)).sites place.initial,
        holds site) : ∀ site ∈ Expr.sitesList place.initial.argument
          (factory.key.factoryArguments settings.target start.current.fqn), holds site := by
    obtain ⟨-, empty | ⟨fqn, literal | ⟨byName, -⟩⟩⟩ | ⟨argument, rfl, -, kept | ⟨byName, -⟩⟩ :=
      LoggerKey.factoryArguments_cases found settings.target start.current.fqn
    · rw [empty]
      exact List.forall_mem_nil _
    · rw [literal]
      exact List.forall_mem_singleton.mpr (other _ _ rfl)
    · exact Bool.noConfusion (byClass.symm.trans byName)
    · rw [kept, Expr.sitesList, Expr.sitesList, List.append_nil]
      exact fun site member => old site (Expr.mem_sites_of_argument List.mem_cons_self member)
    · exact Bool.noConfusion (byClass.symm.trans byName)
  rw [same, FieldDecl.sites, FieldDecl.sites, initialized]
  change StaysFlat (Expr.sites place.initial _)
    ((settings.target.factoryCall factory.key _).sites place.initial)
  rw [sites_factoryCall]
  refine fun flat => ⟨List.forall_mem_cons.mpr ⟨?_, List.forall_mem_cons.mpr
    ⟨Site.flat_of_other rfl, written (fun _ _ other => Site.flat_of_other other) flat⟩⟩,
    fun room enough => ?_⟩
  · have called := signature?_factoryCall settings.target factory.key start.current.fqn
    rw [factoryCall_eq] at called
    rw [Site.Flat, factoryCall_eq, Expr.useArguments, Expr.usesLogger, called]
    exact List.forall_mem_nil _
  · have first := enough _ (Expr.mem_sites_self place.initial _) rfl
    exact List.forall_mem_cons.mpr ⟨fun _ => first, List.forall_mem_cons.mpr
      ⟨Bool.noConfusion, written (fun _ _ other call => Bool.noConfusion (other.symm.trans call)) enough⟩⟩

/-- A pass lets the calls of a class stay at their levels. -/
theorem classLaw_of_flat (byClass : settings.target.isKeyedByName = false) :
    ClassLaw settings (fun _ _ => True) (fun _ => True) StaysFlat StaysFlat StaysFlat where
  toGathers := gathers_staysFlat
  members _ := siteLaw_of_flat
  unoffered _ flat := ⟨flat, fun _ => id⟩
  offeredAppend := gathers_staysFlat.append
  field start declared field _ := staysFlat_carryField byClass start declared field
  compose offered visited flat := by
    obtain ⟨still, roomy⟩ := offered flat
    exact ⟨(visited still).1, fun room enough => (visited still).2 room (roomy room enough)⟩
  nested _ _ _ _ _ _ _ := trivial

end Migrate

end LogCalls
