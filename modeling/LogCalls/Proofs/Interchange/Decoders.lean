import LogCalls.Interchange.Encode

/-! # What decoders read

A decoder reads a value from a document if it has as many levels left as arrays and objects are nested
in the document. Decoders that call each other are bounded as well, and the bound has to cover the
levels. For each way in which decoders are put together, this file says what the whole reads when its
parts read theirs. -/

namespace LogCalls

namespace Json

mutual

/-- How deep arrays and objects are nested in the value. -/
def nesting : Json → Nat
  | .array items => nestingItems items + 1
  | .object members => nestingMembers members + 1
  | _ => 0

/-- How deep arrays and objects are nested in the items of an array. -/
def nestingItems : List Json → Nat
  | [] => 0
  | item :: rest => max item.nesting (nestingItems rest)

/-- How deep arrays and objects are nested in the members of an object. -/
def nestingMembers : List (String × Json) → Nat
  | [] => 0
  | (_, value) :: rest => max value.nesting (nestingMembers rest)

end

/-- A member nests no deeper than all of them. -/
theorem nesting_le_nestingMembers {members : List (String × Json)} {member : String × Json}
    (listed : member ∈ members) : member.2.nesting ≤ nestingMembers members := by
  induction members with
  | nil => cases listed
  | cons first rest ih =>
    rw [nestingMembers]
    obtain rfl | later := List.mem_cons.mp listed
    · exact Nat.le_max_left _ _
    · exact Nat.le_trans (ih later) (Nat.le_max_right _ _)

end Json

namespace Decoder

variable {α β : Type} {bound : Nat} {json : Json} {value : α}

/-- With no more levels than the bound, and with as many as arrays and objects are nested in the
document, the decoder reads the value from it. -/
def Reads (decoder : Decoder α) (bound : Nat) (json : Json) (value : α) : Prop :=
  ∀ levels ≤ bound, json.nesting ≤ levels → decoder levels json = some value

/-- A text is read from a string. -/
theorem reads_text (content : String) : Reads text bound (.string content) content :=
  fun _ _ _ => rfl

/-- A truth value is read from a boolean. -/
theorem reads_boolean (truth : Bool) : Reads boolean bound (.boolean truth) truth :=
  fun _ _ _ => rfl

/-- An alternative without content is read from its word. -/
theorem reads_choice {table : List (String × α)} {word : String}
    (found : table.lookup word = some value) : Reads (choice table) bound (.string word) value :=
  fun _ _ _ => found

/-- `null` is read as nothing. -/
theorem reads_optional_null (item : Decoder α) : Reads (optional item) bound .null none :=
  fun _ _ _ => rfl

/-- Without any levels nothing but a value without arrays and objects is read. -/
theorem reads_zero (decoder : Decoder α) (nested : 0 < json.nesting) :
    Reads decoder 0 json value := by
  intro levels within room
  omega

namespace Reads

/-- A smaller bound asks for less. -/
theorem weaken {decoder : Decoder α} (reads : Reads decoder (bound + 1) json value) :
    Reads decoder bound json value :=
  fun levels within => reads levels (Nat.le_succ_of_le within)

/-- A decoder that is bounded by its levels reads what it reads within every bound. -/
theorem ofWithin (decoder : Nat → Decoder α)
    (reads : ∀ bound, Reads (decoder bound) bound json value) :
    Reads (fun levels => decoder levels levels) bound json value :=
  fun levels _ room => reads levels levels (Nat.le_refl levels) room

/-- What is read may be wrapped. -/
theorem map {decoder : Decoder α} (reads : Reads decoder bound json value) (wrap : α → β) :
    Reads (fun levels json => (decoder levels json).map wrap) bound json (wrap value) := by
  intro levels within room
  dsimp only
  rw [reads levels within room]
  rfl

/-- A value that is not written as null is read as one that is present. -/
theorem optional_some {item : Decoder α} (reads : Reads item bound json value)
    (present : json ≠ .null) : Reads (optional item) bound json (some value) := by
  intro levels within room
  rw [optional, reads levels within room]
  · rfl
  · exact present

/-- An optional value is read if the value is, and is not written as null. -/
theorem option {item : Decoder α} {encode : α → Json} {content : Option α}
    (reads : ∀ value, content = some value → Reads item bound (encode value) value)
    (present : ∀ value, encode value ≠ .null) :
    Reads (optional item) bound (Interchange.encodeOption encode content) content := by
  cases content with
  | none => exact reads_optional_null item
  | some value => exact (reads value rfl).optional_some (present value)

/-- An empty array is an empty list. -/
theorem list_nil (item : Decoder α) : Reads (list item) bound (.array []) [] := by
  intro levels within room
  cases levels with
  | zero => cases room
  | succ levels => rfl

/-- An array is read item by item. -/
theorem list_cons {item : Decoder α} {items : List Json} {values : List α}
    (first : Reads item bound json value) (rest : Reads (list item) bound (.array items) values) :
    Reads (list item) bound (.array (json :: items)) (value :: values) := by
  intro levels within room
  cases levels with
  | zero => cases room
  | succ levels =>
    rw [Json.nesting, Json.nestingItems, Nat.add_le_add_iff_right, Nat.max_le] at room
    have roomRest : (Json.array items).nesting ≤ levels + 1 := by
      rw [Json.nesting]
      omega
    have later := rest (levels + 1) within roomRest
    rw [list] at later ⊢
    simp [first levels (by omega) room.1, later]

/-- A list written item by item is read back. -/
theorem list_map {item : Decoder α} {encode : α → Json} {values : List α}
    (each : ∀ value ∈ values, Reads item bound (encode value) value) :
    Reads (list item) bound (.array (values.map encode)) values := by
  induction values with
  | nil => exact list_nil item
  | cons value values ih =>
    obtain ⟨first, others⟩ := List.forall_mem_cons.mp each
    exact list_cons first (ih others)

/-- An alternative is read by the decoder that is listed for its name. -/
theorem tagged {plain : List (String × α)} {cases : List (String × Decoder α)} {name : String}
    {decoder : Decoder α} (found : cases.lookup name = some decoder)
    (reads : Reads decoder bound json value) :
    Reads (variant plain cases) (bound + 1) (Interchange.tagged name json) value := by
  intro levels within room
  rw [Interchange.tagged, Json.nesting, Json.nestingMembers, Json.nestingMembers] at room
  cases levels with
  | zero => cases room
  | succ levels =>
    unfold Interchange.tagged variant
    dsimp only
    rw [found]
    exact reads levels (by omega) (by omega)

end Reads

/-- The members of the fields are nested no deeper than the levels that are left. -/
structure Fields.Fit (fields : Fields) (bound : Nat) : Prop where
  within : fields.levels ≤ bound
  room : ∀ member ∈ fields.present, member.2.nesting ≤ fields.levels

namespace Fields.Fit

variable {fields : Fields} {item : Decoder α}

/-- A field that fits is decoded at its level. -/
theorem decodes (fit : fields.Fit bound) {name : String}
    (found : fields.present.lookup name = some json) (reads : Reads item bound json value) :
    item fields.levels json = some value := by
  obtain ⟨front, back, whole, -⟩ := List.lookup_eq_some_iff.mp found
  exact reads fields.levels fit.within (fit.room (name, json) (by simp [whole]))

/-- A field that has to be present is read. -/
theorem required (fit : fields.Fit bound) (name : String)
    (found : fields.present.lookup name = some json) (reads : Reads item bound json value) :
    fields.required name item = some value := by
  rw [Fields.required, found]
  exact fit.decodes found reads

/-- A field that has a default is read when it is present. -/
theorem withDefault (fit : fields.Fit bound) (name : String) (default : α)
    (found : fields.present.lookup name = some json) (reads : Reads item bound json value) :
    fields.withDefault name default item = some value := by
  rw [Fields.withDefault, found]
  exact fit.decodes found reads

/-- A field that may be missing is read. -/
theorem optional (fit : fields.Fit bound) (name : String) {value : Option α}
    (found : fields.present.lookup name = some json)
    (reads : Reads (Decoder.optional item) bound json value) :
    fields.optional name item = some value :=
  fit.withDefault name none found reads

/-- A field that holds a list is read. -/
theorem list (fit : fields.Fit bound) (name : String) {values : List α}
    (found : fields.present.lookup name = some json)
    (reads : Reads (Decoder.list item) bound json values) :
    fields.list name item = some values :=
  fit.withDefault name [] found reads

/-- A field that holds a flag is read. -/
theorem flag (fit : fields.Fit bound) (name : String) {truth : Bool}
    (found : fields.present.lookup name = some (.boolean truth)) :
    fields.flag name = some truth :=
  fit.withDefault name false found (reads_boolean truth)

end Fields.Fit

/-- A structure is read from the object that has all of its fields. -/
theorem Reads.record {names : List String} {build : Fields → Option α}
    {members : List (String × Json)} (listed : members.map Prod.fst = names)
    (distinct : allDistinct names = true)
    (built : ∀ levels, Fields.Fit { levels, present := members } bound →
      build { levels, present := members } = some value) :
    Reads (record names build) (bound + 1) (.object members) value := by
  intro levels within room
  have kept : ∀ member ∈ members, names.contains member.1 = true := by
    intro member present
    rw [List.contains_iff_mem, ← listed]
    exact List.mem_map_of_mem present
  rw [Json.nesting] at room
  cases levels with
  | zero => cases room
  | succ levels =>
    rw [Decoder.record]
    dsimp only
    rw [List.filter_eq_self.mpr kept, listed, distinct]
    refine built levels ⟨Nat.le_of_succ_le_succ within, fun member present => ?_⟩
    exact Nat.le_trans (Json.nesting_le_nestingMembers present) (Nat.le_of_succ_le_succ room)

end Decoder

end LogCalls
