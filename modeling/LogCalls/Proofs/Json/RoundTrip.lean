import LogCalls.Json.Reader
import LogCalls.Proofs.Json.Scan

/-! # Printed JSON is read back

The tokens of a value are put together into that value, inside of any arrays and objects. So a value
that is printed and read again is the same value. -/

namespace LogCalls.Json

/-- The tokens of the value are read as the value, wherever it stands. -/
def ReadsAs (value : Json) : Prop :=
  ∀ (stack : List Frame) (rest : List Token),
    (value.tokens ++ rest).foldlM Reader.step (.value stack) =
      rest.foldlM Reader.step (Reader.complete value stack)

/-- The first token of a value is no closing bracket. -/
theorem exists_tokens_eq_cons (value : Json) :
    ∃ token rest, value.tokens = token :: rest ∧ token ≠ .closeBracket := by
  fun_cases tokens value <;> exact ⟨_, _, rfl, nofun⟩

/-- The first item of an array is read as any other value. -/
theorem foldlM_firstItem (value : Json) (stack : List Frame) (rest : List Token) :
    (value.tokens ++ rest).foldlM Reader.step (.firstItem stack) =
      (value.tokens ++ rest).foldlM Reader.step (.value (.array [] :: stack)) := by
  obtain ⟨token, others, shape, notEnd⟩ := exists_tokens_eq_cons value
  have step : Reader.step (.firstItem stack) token =
      Reader.step (.value (.array [] :: stack)) token := by
    cases token with
    | closeBracket => exact absurd rfl notEnd
    | _ => rfl
  rw [shape, List.cons_append, List.foldlM_cons, List.foldlM_cons, step]

/-- Further items of an array and its end are read. -/
theorem foldlM_itemTokens {items : List Json} (each : ∀ item ∈ items, item.ReadsAs)
    (before : List Json) (stack : List Frame) (rest : List Token) :
    (itemTokens items ++ .closeBracket :: rest).foldlM Reader.step (.afterItem before stack) =
      rest.foldlM Reader.step (Reader.complete (.array (before.reverse ++ items)) stack) := by
  induction items generalizing before with
  | nil =>
    rw [List.append_nil]
    rfl
  | cons item items ih =>
    obtain ⟨first, others⟩ := List.forall_mem_cons.mp each
    have shape : itemTokens (item :: items) ++ .closeBracket :: rest =
        .comma :: (item.tokens ++ (itemTokens items ++ .closeBracket :: rest)) := by
      simp [itemTokens]
    have comma : Reader.step (.afterItem before stack) .comma =
      some (.value (.array before :: stack)) := rfl
    rw [shape, List.foldlM_cons, comma, Option.bind_eq_bind, Option.bind_some, first,
      Reader.complete, ih others, List.reverse_cons, List.append_assoc]
    rfl

/-- Members as they are read, with names that are all readable. -/
def readMembers (members : List (String × Json)) : Members :=
  members.map fun (name, value) => (some name, value)

/-- Members with readable names make an object. -/
theorem ofMembers_readMembers (members : List (String × Json)) :
    ofMembers (readMembers members) = .object members := by
  have readable {read : Option String × Json → Option (String × Json)}
      (keeps : ∀ member : String × Json, read (some member.1, member.2) = some member) :
      (readMembers members).mapM read = some members := by
    induction members with
    | nil => rfl
    | cons member members ih =>
      rw [readMembers] at ih
      simp [readMembers, keeps, ih]
  rw [ofMembers, readable fun member => rfl]

/-- Further members of an object and its end are read. -/
theorem foldlM_memberTokens {members : List (String × Json)}
    (each : ∀ member ∈ members, member.2.ReadsAs) (before : List (String × Json))
    (stack : List Frame) (rest : List Token) :
    (memberTokens members ++ .closeBrace :: rest).foldlM Reader.step
        (.afterMember (readMembers before) stack) =
      rest.foldlM Reader.step (Reader.complete (.object (before.reverse ++ members)) stack) := by
  induction members generalizing before with
  | nil =>
    have closing : Reader.step (.afterMember (readMembers before) stack) .closeBrace =
        some (Reader.complete (.object before.reverse) stack) := by
      have turned : readMembers before.reverse = (readMembers before).reverse := List.map_reverse
      rw [← ofMembers_readMembers, turned]
      rfl
    rw [memberTokens, List.nil_append, List.foldlM_cons, closing, List.append_nil]
    rfl
  | cons member members ih =>
    obtain ⟨name, value⟩ := member
    obtain ⟨first, others⟩ := List.forall_mem_cons.mp each
    have shape : memberTokens ((name, value) :: members) ++ .closeBrace :: rest =
        [.comma, .string (some name), .colon] ++
          (value.tokens ++ (memberTokens members ++ .closeBrace :: rest)) := by
      simp [memberTokens]
    have named : [.comma, .string (some name), .colon].foldlM Reader.step
        (.afterMember (readMembers before) stack) =
      some (.value (.object (readMembers before) (some name) :: stack)) := rfl
    have later := ih others ((name, value) :: before)
    rw [List.reverse_cons, List.append_assoc] at later
    rw [shape, List.foldlM_append, named, Option.bind_eq_bind, Option.bind_some, first]
    exact later

/-- The tokens of a value are read as that value. -/
theorem readsAs_of_plain {value : Json} (plain : value.Plain) : value.ReadsAs := by
  induction plain with
  | null | boolean | string => exact fun stack rest => rfl
  | @array items _ each =>
    intro stack rest
    cases items with
    | nil => rfl
    | cons first items =>
      obtain ⟨reads, others⟩ := List.forall_mem_cons.mp each
      have shape : (Json.array (first :: items)).tokens ++ rest =
          .openBracket :: (first.tokens ++ (itemTokens items ++ .closeBracket :: rest)) := by
        simp [tokens]
      have opening : Reader.step (.value stack) .openBracket = some (.firstItem stack) := rfl
      rw [shape, List.foldlM_cons, opening, Option.bind_eq_bind, Option.bind_some,
        foldlM_firstItem, reads]
      exact foldlM_itemTokens others [first] stack rest
  | @object members _ each =>
    intro stack rest
    cases members with
    | nil => rfl
    | cons member members =>
      obtain ⟨name, value⟩ := member
      obtain ⟨reads, others⟩ := List.forall_mem_cons.mp each
      have shape : (Json.object ((name, value) :: members)).tokens ++ rest =
          [.openBrace, .string (some name), .colon] ++
            (value.tokens ++ (memberTokens members ++ .closeBrace :: rest)) := by
        simp [tokens]
      have named : [.openBrace, .string (some name), .colon].foldlM Reader.step (.value stack) =
        some (.value (.object [] (some name) :: stack)) := rfl
      rw [shape, List.foldlM_append, named, Option.bind_eq_bind, Option.bind_some, reads]
      exact foldlM_memberTokens others [(name, value)] stack rest

/-- **Printed values are read back.** -/
theorem parse?_pretty {value : Json} (plain : value.Plain) : parse? value.pretty = some value := by
  have read := readsAs_of_plain plain [] []
  rw [List.append_nil] at read
  rw [parse?, scan_pretty plain]
  simp only [Option.bind_eq_bind, Option.bind_some, ofTokens?, read]
  rfl

end LogCalls.Json
