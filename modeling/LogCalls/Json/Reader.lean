import LogCalls.Json.Token

/-! # Reading JSON

Tokens are put together into a value by a reader that keeps the arrays and objects it is inside of
on a stack. `Reader.step` says what a token does in each state. -/

namespace LogCalls.Json

/-- The members of an object, whose names may be unreadable. -/
abbrev Members := List (Option String × Json)

/-- An array or object that is being read; what it holds so far is kept back to front. -/
inductive Frame where
  | array (items : List Json)
  /-- An object, with the name of the member whose value is read. -/
  | object (members : Members) (name : Option String)

/-- What a reader expects next. -/
inductive Reader where
  /-- A value. -/
  | value (stack : List Frame)
  /-- The first item of an array, or its end. -/
  | firstItem (stack : List Frame)
  /-- A comma or the end of an array. -/
  | afterItem (items : List Json) (stack : List Frame)
  /-- The first name of an object, or its end. -/
  | firstName (stack : List Frame)
  /-- A name. -/
  | name (members : Members) (stack : List Frame)
  /-- The colon after a name. -/
  | colon (members : Members) (name : Option String) (stack : List Frame)
  /-- A comma or the end of an object. -/
  | afterMember (members : Members) (stack : List Frame)
  /-- Nothing: the value is complete. -/
  | done (value : Json)

/-- The object with the given members; it is unreadable if one of the names is. -/
def ofMembers (members : Members) : Json :=
  match members.mapM fun (name, value) => name.map (·, value) with
  | some members => .object members
  | none => .unreadable

namespace Reader

/-- The state after a value that stands in the given arrays and objects. -/
def complete (read : Json) : List Frame → Reader
  | [] => .done read
  | .array items :: stack => .afterItem (read :: items) stack
  | .object members key :: stack => .afterMember ((key, read) :: members) stack

/-- The state after the first token of a value. -/
def startValue (stack : List Frame) : Token → Option Reader
  | .openBracket => some (.firstItem stack)
  | .openBrace => some (.firstName stack)
  | .null => some (complete .null stack)
  | .boolean truth => some (complete (.boolean truth) stack)
  | .natural number => some (complete (.natural number) stack)
  | .numeral spelling => some (complete (.numeral spelling) stack)
  | .string (some text) => some (complete (.string text) stack)
  | .string none => some (complete .unreadable stack)
  | _ => none

/-- The state after a token. -/
def step (reader : Reader) (token : Token) : Option Reader :=
  match reader, token with
  | .value stack, token => startValue stack token
  | .firstItem stack, .closeBracket => some (complete (.array []) stack)
  | .firstItem stack, token => startValue (.array [] :: stack) token
  | .afterItem items stack, .comma => some (.value (.array items :: stack))
  | .afterItem items stack, .closeBracket => some (complete (.array items.reverse) stack)
  | .firstName stack, .closeBrace => some (complete (.object []) stack)
  | .firstName stack, .string text => some (.colon [] text stack)
  | .name members stack, .string text => some (.colon members text stack)
  | .colon members text stack, .colon => some (.value (.object members text :: stack))
  | .afterMember members stack, .comma => some (.name members stack)
  | .afterMember members stack, .closeBrace => some (complete (ofMembers members.reverse) stack)
  | _, _ => none

end Reader

/-- The value that tokens make. -/
def ofTokens? (tokens : List Token) : Option Json := do
  match ← tokens.foldlM Reader.step (.value []) with
  | .done value => some value
  | _ => none

/-- The value that a text spells. -/
def parse? (text : String) : Option Json := do ofTokens? (← Token.scan text.toList)

end LogCalls.Json
