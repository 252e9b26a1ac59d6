import LogCalls.Emission.Effects

/-! # What effects import

The imports that are asked for together are those that any of the effects asks for. -/

namespace LogCalls

variable {name : String}

/-- A name is added to those there are. -/
theorem mem_addOnce {names : List String} {other : String} :
    other ∈ addOnce names name ↔ other ∈ names ∨ other = name := by
  unfold addOnce
  split
  · rename_i listed
    constructor
    · exact .inl
    · rintro (member | rfl)
      · exact member
      · exact List.contains_iff_mem.mp listed
  · rw [List.mem_append, List.mem_singleton]

/-- So are several names. -/
theorem mem_foldl_addOnce {names more : List String} :
    name ∈ more.foldl addOnce names ↔ name ∈ names ∨ name ∈ more := by
  induction more generalizing names with
  | nil => simp
  | cons first rest ih =>
    rw [List.foldl_cons, ih, mem_addOnce, List.mem_cons, or_assoc]

namespace Effects

/-- The effects ask for no field and for no import. They may still release imports. -/
structure AsksNothing (effects : Effects) : Prop where
  field : effects.field = none
  addImports : effects.addImports = []

/-- Merging keeps the imports of both. -/
theorem mem_addImports_merge {effects later : Effects} : name ∈ (effects.merge later).addImports ↔
      name ∈ effects.addImports ∨ name ∈ later.addImports :=
  mem_foldl_addOnce

/-- An import is added. -/
theorem mem_addImports_importing {effects : Effects} {fqn : String} :
    name ∈ (effects.importing fqn).addImports ↔ name ∈ effects.addImports ∨ name = fqn :=
  mem_addOnce

/-- A field adds the imports it needs. -/
theorem mem_addImports_requesting {effects : Effects} {request : FieldRequest} :
    name ∈ (effects.requesting request).addImports ↔
      name ∈ effects.addImports ∨ name ∈ request.imports := by
  have folded (more : List String) (effects : Effects) :
      (more.foldl importing effects).addImports = more.foldl addOnce effects.addImports := by
    induction more generalizing effects with
    | nil => rfl
    | cons first rest ih => exact ih (effects.importing first)
  rw [requesting]
  change name ∈ (request.imports.foldl importing effects).addImports ↔ _
  rw [folded, mem_foldl_addOnce]

end Effects

end LogCalls
