import LogCalls.Proofs.Message.Indexed
import LogCalls.Proofs.Message.Text

/-! # What an indexed pattern prints

A pattern can be read on its own, without a message in mind: apostrophes toggle between text that is
quoted and text that is not, two of them side by side are one of text, and a brace outside quotes starts
a reference. Turning a pattern into a message succeeds exactly for the patterns that can be read in this
way and whose parameters and texts have a place in a template, and the message prints what the pattern
prints. -/

namespace LogCalls.Indexed

variable {items : List Item} {bound : Nat} {parameters : List Expr} {quoted : Bool}
  {segments : List Segment}

/-! ## Reading a pattern -/

/-- Whether a reader is inside quotes after some characters. Each apostrophe leads in or out; two of
them side by side, which are one of text, lead back to where the reader was. -/
def quotedAfter (quoted : Bool) (read : List Char) : Bool :=
  read.foldl (fun quoted c => quoted ^^ (c == '\'')) quoted

/-- The characters after an opening brace make it a reference to one of as many parameters. -/
def StartsReference (bound : Nat) (chars : List Char) : Prop :=
  ∃ digits rest, chars = digits ++ '}' :: rest ∧ digits ≠ [] ∧
    (∀ digit ∈ digits, digit.isDigit = true) ∧ Text.decimalValue digits < bound

/-- Every brace outside quotes starts a reference to one of as many parameters. -/
def Closed (bound : Nat) (quoted : Bool) (chars : List Char) : Prop :=
  ∀ before after, chars = before ++ '{' :: after → quotedAfter quoted before = false →
    StartsReference bound after

/-- The elements of a pattern. A brace outside quotes is taken for the start of a reference, whatever
comes after it. -/
def readingFrom (quoted : Bool) : List Char → List Item
  | [] => []
  | '\'' :: '\'' :: rest => .char '\'' :: readingFrom quoted rest
  | '\'' :: rest => readingFrom (!quoted) rest
  | c :: rest =>
    if c = '{' ∧ quoted = false then
      .reference (Text.decimalValue (rest.takeWhile Char.isDigit)) ::
        readingFrom quoted (rest.dropWhile Char.isDigit).tail
    else .char c :: readingFrom quoted rest
termination_by chars => chars.length
decreasing_by
  · simp only [List.length_cons]
    omega
  · simp
  · have shorter := (rest.dropWhile_suffix Char.isDigit).length_le
    simp only [List.length_tail, List.length_cons]
    omega
  · simp

/-- The elements of a whole pattern. -/
def reading (pattern : String) : List Item := readingFrom false pattern.toList

/-- What an element prints. -/
def Item.printed (values : List String) : Item → String
  | .char c => String.singleton c
  | .reference index => values[index]?.getD ""

/-- What a pattern prints for the given values. -/
def formatted (pattern : String) (values : List String) : String :=
  String.join ((reading pattern).map (Item.printed values))

/-! ## The reader -/

theorem closed_cons {c : Char} {rest : List Char} : Closed bound quoted (c :: rest) ↔
      (c = '{' → quoted = false → StartsReference bound rest) ∧
        Closed bound (quoted ^^ (c == '\'')) rest := by
  constructor
  · intro closed
    refine ⟨?_, ?_⟩
    · rintro rfl outside
      exact closed [] rest rfl outside
    · rintro before after rfl outside
      exact closed (c :: before) after rfl outside
  · rintro ⟨first, others⟩ before after whole outside
    cases before with
    | nil =>
      obtain ⟨rfl, rfl⟩ := List.cons.inj whole
      exact first rfl outside
    | cons head before =>
      obtain ⟨rfl, rfl⟩ := List.cons.inj whole
      exact others before after rfl outside

theorem closed_nil (bound : Nat) (quoted : Bool) : Closed bound quoted [] := by
  intro before after whole
  simp at whole

/-- Digits and a closing brace have no part in quoting. -/
theorem closed_reference {digits rest : List Char} (each : ∀ digit ∈ digits, digit.isDigit = true) :
    Closed bound false (digits ++ '}' :: rest) ↔ Closed bound false rest := by
  induction digits with
  | nil =>
    rw [List.nil_append, closed_cons]
    simp
  | cons digit digits ih =>
    obtain ⟨first, others⟩ := List.forall_mem_cons.mp each
    have opening : digit ≠ '{' := by
      rintro rfl
      cases first
    have apostrophe : (digit == '\'') = false := by
      rw [beq_eq_false_iff_ne]
      rintro rfl
      cases first
    rw [List.cons_append, closed_cons, apostrophe, Bool.xor_false, ih others]
    simp [opening]

/-- A reference is taken off what follows its opening brace. -/
theorem takeWhile_reference {digits : List Char} (rest : List Char)
    (each : ∀ digit ∈ digits, digit.isDigit = true) :
    (digits ++ '}' :: rest).takeWhile Char.isDigit = digits ∧
      ((digits ++ '}' :: rest).dropWhile Char.isDigit).tail = rest := by
  rw [List.takeWhile_append_of_pos each, List.dropWhile_append_of_pos each]
  simp

/-- What the reader finds after an opening brace. -/
theorem itemsFrom_index_cases {seen chars : List Char}
    (read : itemsFrom (.index seen) chars = some items) :
    ∃ digits rest found, chars = digits ++ '}' :: rest ∧ seen ++ digits ≠ [] ∧
      (∀ digit ∈ seen ++ digits, digit.isDigit = true) ∧ itemsFrom .plain rest = some found ∧
      items = .reference (Text.decimalValue (seen ++ digits)) :: found := by
  -- The digits that have been seen are part of the mode, and grow with every step.
  induction chars generalizing seen with
  | nil => cases read
  | cons c rest ih =>
    rw [itemsFrom] at read
    split at read
    · obtain ⟨digits, after, found, rfl, nonempty, each, later, same⟩ := ih read
      rw [List.append_assoc, List.singleton_append] at nonempty each same
      exact ⟨c :: digits, after, found, rfl, nonempty, each, later, same⟩
    · split at read
      · rename_i closing
        obtain ⟨rfl, nonempty⟩ : c = '}' ∧ seen ≠ [] := by simpa using closing
        obtain ⟨index, number, more⟩ := Option.bind_eq_some_iff.mp read
        obtain ⟨found, later, same⟩ := Option.bind_eq_some_iff.mp more
        cases same
        unfold Text.decimal? at number
        split at number
        · rename_i each
          cases number
          refine ⟨[], rest, found, rfl, ?_, ?_, later, ?_⟩
          · rwa [List.append_nil]
          · rw [List.append_nil]
            exact List.all_eq_true.mp each
          · rw [List.append_nil]
        · cases number
      · cases read

/-- Where the reader stands when no brace is open. -/
def modeOf : (quoted : Bool) → Mode
  | true => .quoted
  | false => .plain

theorem itemsFrom_pair (quoted : Bool) (rest : List Char) :
    itemsFrom (modeOf quoted) ('\'' :: '\'' :: rest) =
      (itemsFrom (modeOf quoted) rest).map (.char '\'' :: ·) := by
  cases quoted with
  | false => exact itemsFrom_plain_pair rest
  | true => exact itemsFrom_quoted_pair rest

theorem itemsFrom_single (quoted : Bool) {rest : List Char} (single : rest.head? ≠ some '\'') :
    itemsFrom (modeOf quoted) ('\'' :: rest) = itemsFrom (modeOf !quoted) rest := by
  cases quoted with
  | false => exact itemsFrom_opening single
  | true => exact itemsFrom_closing single

theorem itemsFrom_char {c : Char} (other : c ≠ '\'')
    (text : ¬ (c = '{' ∧ quoted = false)) (rest : List Char) :
    itemsFrom (modeOf quoted) (c :: rest) = (itemsFrom (modeOf quoted) rest).map (.char c :: ·) := by
  cases quoted with
  | false => exact itemsFrom_plain_char other (fun brace => text ⟨brace, rfl⟩) rest
  | true => exact itemsFrom_quoted_char other rest

/-- A character of text in front changes nothing about the agreement. -/
theorem map_char_eq_some_iff {read : Option (List Item)} {whole : List Item} {closed : Prop}
    (agree : ∀ found, (read = some found ∧ ∀ index ∈ references found, index < bound) ↔
      closed ∧ found = whole) (c : Char) (items : List Item) :
    (read.map (.char c :: ·) = some items ∧ ∀ index ∈ references items, index < bound) ↔
      closed ∧ items = .char c :: whole := by
  constructor
  · rintro ⟨mapped, bounded⟩
    obtain ⟨found, taken, rfl⟩ := Option.map_eq_some_iff.mp mapped
    obtain ⟨holds, rfl⟩ := (agree found).mp ⟨taken, bounded⟩
    exact ⟨holds, rfl⟩
  · rintro ⟨holds, rfl⟩
    obtain ⟨taken, bounded⟩ := (agree whole).mpr ⟨holds, rfl⟩
    exact ⟨by rw [taken]; rfl, bounded⟩

/-- After an opening brace the reader wants a number and a closing brace, and goes on from there. -/
theorem itemsFrom_reference_eq_some_iff {chars : List Char} :
    (itemsFrom (.index []) chars = some items ∧ ∀ index ∈ references items, index < bound) ↔
      ∃ digits rest found, chars = digits ++ '}' :: rest ∧ digits ≠ [] ∧
        (∀ digit ∈ digits, digit.isDigit = true) ∧ Text.decimalValue digits < bound ∧
        (itemsFrom .plain rest = some found ∧ ∀ index ∈ references found, index < bound) ∧
        items = .reference (Text.decimalValue digits) :: found := by
  constructor
  · rintro ⟨read, bounded⟩
    obtain ⟨digits, rest, found, rfl, nonempty, each, later, rfl⟩ := itemsFrom_index_cases read
    obtain ⟨inBounds, others⟩ := List.forall_mem_cons.mp bounded
    exact ⟨digits, rest, found, rfl, nonempty, each, inBounds, ⟨later, others⟩, rfl⟩
  · rintro ⟨digits, rest, found, rfl, nonempty, each, inBounds, ⟨later, others⟩, rfl⟩
    have number : Text.decimal? digits = some (Text.decimalValue digits) :=
      if_pos (List.all_eq_true.mpr each)
    have decimal : ∀ digit ∈ digits, Text.isDecimalDigit digit = true :=
      fun digit member => Text.isDecimalDigit_of_isDigit (each digit member)
    refine ⟨?_, List.forall_mem_cons.mpr ⟨inBounds, others⟩⟩
    rw [itemsFrom_index rest [] decimal nonempty, List.nil_append, number, later]
    rfl

/-- The reader and the reading agree, with all references in bounds, just if every brace outside quotes
starts a reference to a parameter. -/
theorem itemsFrom_eq_some_iff {chars : List Char} :
    (itemsFrom (modeOf quoted) chars = some items ∧ ∀ index ∈ references items, index < bound) ↔
      Closed bound quoted chars ∧ items = readingFrom quoted chars := by
  -- The induction follows the reading. All that it knows of the mode is whether a quote is open.
  fun_induction readingFrom quoted chars generalizing items with
  | case1 quoted =>
    have done : itemsFrom (modeOf quoted) [] = some [] := by cases quoted <;> rfl
    rw [done]
    constructor
    · rintro ⟨⟨⟩, -⟩
      exact ⟨closed_nil bound quoted, rfl⟩
    · rintro ⟨-, rfl⟩
      exact ⟨rfl, List.forall_mem_nil _⟩
  | case2 quoted rest ih =>
    have back : Closed bound quoted ('\'' :: '\'' :: rest) ↔ Closed bound quoted rest := by
      simp [closed_cons]
    rw [itemsFrom_pair, back]
    exact map_char_eq_some_iff (fun found => ih) '\'' items
  | case3 quoted rest single ih =>
    have toggled : Closed bound quoted ('\'' :: rest) ↔ Closed bound (!quoted) rest := by
      simp [closed_cons]
    have alone : rest.head? ≠ some '\'' := by
      intro next
      obtain ⟨others, rfl⟩ := List.head?_eq_some_iff.mp next
      exact single others rfl
    rw [itemsFrom_single quoted alone, toggled]
    exact ih
  | case4 quoted c rest _ _ brace ih =>
    obtain ⟨rfl, rfl⟩ := brace
    have opened : itemsFrom (modeOf false) ('{' :: rest) = itemsFrom (.index []) rest := rfl
    have begun : Closed bound false ('{' :: rest) ↔
        StartsReference bound rest ∧ Closed bound false rest := by
      simp [closed_cons]
    rw [opened, begun, itemsFrom_reference_eq_some_iff]
    constructor
    · -- The reading takes off the digits and one character more, which is the closing brace here.
      rintro ⟨digits, after, found, rfl, nonempty, each, inBounds, read, rfl⟩
      obtain ⟨taken, left⟩ := takeWhile_reference after each
      rw [left] at ih
      obtain ⟨closed, rfl⟩ := ih.mp read
      rw [taken, left]
      exact ⟨⟨⟨digits, after, rfl, nonempty, each, inBounds⟩, (closed_reference each).mpr closed⟩,
        rfl⟩
    · rintro ⟨⟨⟨digits, after, rfl, nonempty, each, inBounds⟩, closed⟩, rfl⟩
      obtain ⟨taken, left⟩ := takeWhile_reference after each
      rw [left] at ih
      rw [taken, left]
      exact ⟨digits, after, _, rfl, nonempty, each, inBounds,
        ih.mpr ⟨(closed_reference each).mp closed, rfl⟩, rfl⟩
  | case5 quoted c rest _ other text ih =>
    have apostrophe : (c == '\'') = false := beq_eq_false_iff_ne.mpr other
    have passed : Closed bound quoted (c :: rest) ↔ Closed bound quoted rest := by
      rw [closed_cons, apostrophe, Bool.xor_false]
      exact and_iff_right fun brace outside => absurd ⟨brace, outside⟩ text
    rw [itemsFrom_char other text, passed]
    exact map_char_eq_some_iff (fun found => ih) c items

theorem items?_eq_some_iff {pattern : String} :
    (items? pattern = some items ∧ ∀ index ∈ references items, index < bound) ↔
      Closed bound false pattern.toList ∧ items = reading pattern := by
  rw [items?, reading, ← itemsFrom_eq_some_iff]
  rfl

/-! ## Messages -/

theorem itemTexts_ne_nil (items : List Item) : itemTexts items ≠ [] := by
  cases items with
  | nil => exact List.cons_ne_nil _ _
  | cons item rest =>
    cases item with
    | char c =>
      intro none
      rw [itemTexts, List.modifyHead_eq_nil_iff] at none
      exact itemTexts_ne_nil rest none
    | reference index => exact List.cons_ne_nil _ _

/-- The texts of a pattern with the values of its references between them are what it prints. -/
theorem interleave_itemTexts (values : List String) (items : List Item) :
    interleave ((itemTexts items).map String.ofList)
        ((references items).map fun index => values[index]?.getD "") =
      String.join (items.map (Item.printed values)) := by
  induction items with
  | nil => rfl
  | cons item rest ih =>
    rw [List.map_cons, String.join_cons, ← ih]
    cases item with
    | char c =>
      -- A character is put in front of the first text behind it.
      have refers : references (.char c :: rest) = references rest := rfl
      obtain ⟨first, others, texts⟩ := List.exists_cons_of_ne_nil (itemTexts_ne_nil rest)
      have joined : String.ofList (c :: first) = String.singleton c ++ String.ofList first := by
        simp
      rw [refers, itemTexts, texts, List.modifyHead_cons, List.map_cons, List.map_cons, joined,
        interleave_append_head, Item.printed]
    | reference index =>
      have refers : references (.reference index :: rest) = index :: references rest := rfl
      rw [refers, itemTexts, List.map_cons, List.map_cons, interleave, Item.printed]
      simp

/-- The arguments of a pattern have the values that its references stand for. -/
theorem map_arguments (made : segments? parameters items = some segments) (value : Expr → String) :
    (Segment.arguments segments).map value =
      (references items).map fun index => (parameters.map value)[index]?.getD "" := by
  have taken := congrArg (List.map fun found : Option Expr => (found.map value).getD "")
    (map_some_arguments made)
  simpa [Function.comp_def] using taken

/-- References are in bounds if they make segments. -/
theorem lt_length_of_segments? (made : segments? parameters items = some segments) :
    ∀ index ∈ references items, index < parameters.length := by
  intro index member
  have referred : parameters[index]? ∈ (Segment.arguments segments).map some := by
    rw [map_some_arguments made]
    exact List.mem_map_of_mem member
  obtain ⟨argument, -, known⟩ := List.mem_map.mp referred
  exact (List.getElem?_eq_some_iff.mp known.symm).1

/-- The segments of a pattern can be represented just if the texts around its references can. -/
theorem representable_iff (made : segments? parameters items = some segments) :
    Segment.representable segments = true ↔
      ∀ text ∈ itemTexts items, Template.isRepresentable (String.ofList text) = true := by
  have separated := separated_segments? made
  rw [← texts_segments? made, List.forall_mem_map]
  simp only [String.ofList_toList]
  constructor
  · intro representable text member
    rw [← Segment.pieces_template separated representable] at member
    exact Template.isRepresentable_of_mem_pieces member
  · exact representable_of_texts separated

/-- The pattern can be turned into a message with these parameters. -/
structure Convertible (pattern : String) (parameters : List Expr) : Prop where
  /-- Every brace outside quotes starts a reference to a parameter. -/
  closed : Closed parameters.length false pattern.toList
  /-- Every parameter is referred to. -/
  all : ∀ index < parameters.length, index ∈ references (reading pattern)
  /-- The parameters are referred to in order, or their order makes no difference. -/
  ordered : references (reading pattern) = List.range parameters.length ∨
    ∀ parameter ∈ parameters, parameter.isPure = true
  /-- The texts around the references can be represented. -/
  representable : ∀ text ∈ itemTexts (reading pattern),
    Template.isRepresentable (String.ofList text) = true

/-- Exactly the patterns that can be turned into a message are. -/
theorem exists_message?_iff {pattern : String} :
    (∃ message, message? pattern parameters = some message) ↔ Convertible pattern parameters := by
  constructor
  · rintro ⟨message, read⟩
    obtain ⟨items, segments, readItems, made, all, ordered, representable, -⟩ := message?_cases read
    obtain ⟨closed, rfl⟩ := items?_eq_some_iff.mp ⟨readItems, lt_length_of_segments? made⟩
    exact ⟨closed, all, ordered, (representable_iff made).mp representable⟩
  · rintro ⟨closed, all, ordered, representable⟩
    obtain ⟨readItems, bounded⟩ := items?_eq_some_iff.mpr ⟨closed, rfl⟩
    obtain ⟨segments, made⟩ := exists_segments? bounded
    exact ⟨_, message?_of_segments readItems made all ordered ((representable_iff made).mpr representable)⟩

/-- **Turning a pattern into a message is exact.** It succeeds just for the patterns in which every
brace outside quotes starts a reference to a parameter, every parameter is referred to, in order or
without it making a difference, and every text between references can be represented. The pieces of
the message with the values of its arguments between them are then what the pattern prints for the
values of the parameters, whatever these are. -/
theorem message?_exact (pattern : String) (parameters : List Expr) :
    ((∃ message, message? pattern parameters = some message) ↔ Convertible pattern parameters) ∧
      ∀ message, message? pattern parameters = some message → ∀ value : Expr → String,
        interleave message.pieces (message.arguments.map value) =
          formatted pattern (parameters.map value) := by
  refine ⟨exists_message?_iff, ?_⟩
  intro message read value
  obtain ⟨items, segments, readItems, made, -, -, representable, rfl⟩ := message?_cases read
  obtain ⟨-, rfl⟩ := items?_eq_some_iff.mp ⟨readItems, lt_length_of_segments? made⟩
  have pieces : (Segment.texts segments) = (itemTexts (reading pattern)).map String.ofList := by
    rw [← texts_segments? made, List.map_map]
    simp
  rw [Message.pieces, Segment.pieces_template (separated_segments? made) representable, pieces,
    map_arguments made, interleave_itemTexts, formatted]

/-- Quotes around a reference, an apostrophe, a reference with a leading zero, parameters out of order,
and a quote that is never closed. -/
theorem message?_exact_quotes : let pattern := "it''s '\x7b0\x7d' \x7b01\x7d\x7b0\x7d '\x7b"
    let parameters := [Expr.ident "a" .string, Expr.ident "b" .string]
    let message : Message := {
      template := "it's \x7b0\x7d \x7b\x7d\x7b\x7d \x7b"
      arguments := [.ident "b" .string, .ident "a" .string] }
    let value : Expr → String := fun
      | .identifier name _ => "<" ++ name ++ ">"
      | _ => ""
    message? pattern parameters = some message ∧ Convertible pattern parameters ∧
      interleave message.pieces (message.arguments.map value) = "it's \x7b0\x7d <b><a> \x7b" ∧
      interleave message.pieces (message.arguments.map value) =
        formatted pattern (parameters.map value) := by
  intro pattern parameters message value
  have read : message? pattern parameters = some message := by decide
  obtain ⟨succeeds, prints⟩ := message?_exact pattern parameters
  exact ⟨read, succeeds.mp ⟨message, read⟩, by decide, prints message read value⟩

end LogCalls.Indexed
