import LogCalls.Json.Token

/-! # Decoders

How values are read out of JSON. A decoder is told how many levels of arrays and objects it may
still go down, since documents may be nested only so deep; what is skipped does not count. -/

namespace LogCalls

/-- A reader of values of one type, with the number of levels that are left. -/
abbrev Decoder (α : Type) := (levels : Nat) → Json → Option α

namespace Decoder

variable {α : Type}

/-- A string. -/
def text : Decoder String
  | _, .string text => some text
  | _, _ => none

/-- A truth value. -/
def boolean : Decoder Bool
  | _, .boolean value => some value
  | _, _ => none

/-- A number of plain digits that fits into 64 bits. -/
def natural : Decoder Nat
  | _, .natural value => if value < Text.wordLimit then some value else none
  | _, _ => none

/-- A value, or null for none. -/
def optional (item : Decoder α) : Decoder (Option α)
  | _, .null => some none
  | levels, value => (item levels value).map some

/-- An array. -/
def list (item : Decoder α) : Decoder (List α)
  | levels + 1, .array items => items.mapM (item levels)
  | _, _ => none

/-- An alternative: the name of one without content, or an object whose one member has the name of
the alternative and its content. Null is the content of one without content. -/
def variant (plain : List (String × α)) (cases : List (String × Decoder α)) : Decoder α
  | _, .string name => plain.lookup name
  | levels + 1, .object [(name, content)] =>
    match cases.lookup name with
    | some decoder => decoder levels content
    | none =>
      match content with
      | .null => plain.lookup name
      | _ => none
  | _, _ => none

/-- Alternatives without content. -/
def choice (plain : List (String × α)) : Decoder α := variant plain []

/-- The fields of a structure that are present. -/
structure Fields where
  levels : Nat
  present : List (String × Json)

namespace Fields

/-- A field that has to be present. -/
def required (fields : Fields) (name : String) (item : Decoder α) : Option α := do
  item fields.levels (← fields.present.lookup name)

/-- A field with a default for when it is absent. -/
def withDefault (fields : Fields) (name : String) (default : α) (item : Decoder α) : Option α :=
  match fields.present.lookup name with
  | some value => item fields.levels value
  | none => some default

/-- A field that may be absent or null. -/
def optional (fields : Fields) (name : String) (item : Decoder α) : Option (Option α) :=
  fields.withDefault name none (Decoder.optional item)

/-- An array field that is empty when it is absent. -/
def list (fields : Fields) (name : String) (item : Decoder α) : Option (List α) :=
  fields.withDefault name [] (Decoder.list item)

/-- A truth value that is false when it is absent. -/
def flag (fields : Fields) (name : String) : Option Bool :=
  fields.withDefault name false boolean

end Fields

/-- No name stands twice in a list. -/
def allDistinct : List String → Bool
  | [] => true
  | name :: rest => !rest.contains name && allDistinct rest

/-- A structure with the given fields: an object, in which other members are skipped and none of
these may be repeated, or an array of the first of the fields in order. -/
def record (names : List String) (build : Fields → Option α) : Decoder α
  | levels + 1, .object members =>
    let present := members.filter fun (name, _) => names.contains name
    if allDistinct (present.map (·.1)) then build { levels, present } else none
  | levels + 1, .array items =>
    if items.length ≤ names.length then build { levels, present := names.zip items } else none
  | _, _ => none

end Decoder

end LogCalls
