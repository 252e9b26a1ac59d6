import LogCalls.Proofs.Message.Arguments
import LogCalls.Proofs.Message.Balance
import LogCalls.Proofs.Template.Codec

/-! # Indexed patterns read back

A message that is written as an indexed pattern is read back with the same arguments and the same
number of pieces. Each piece comes back as it was, except where two braces in it have nothing but
apostrophes between them: each brace is put in quotes of its own, and the closing quote of one and
the opening quote of the next are read as one more apostrophe. -/

namespace LogCalls

namespace Text

/-- The number that the decimal digits of a number spell. -/
theorem decimal?_toDigits (number : Nat) : decimal? (Nat.toDigits 10 number) = some number := by
  have digits : (Nat.toDigits 10 number).all Char.isDigit = true := by
    rw [List.all_eq_true]
    intro c member
    exact Nat.isDigit_of_mem_toDigits (by decide) (by decide) member
  have value : decimalValue (Nat.toDigits 10 number) = number := Nat.ofDigitChars_ten_toDigits
  rw [decimal?, if_pos digits, value]

/-- The ten ASCII digits are decimal digits. -/
theorem isDecimalDigit_of_isDigit {c : Char} (digit : c.isDigit = true) :
    isDecimalDigit c = true := by
  obtain ⟨lower, upper⟩ : 48 ≤ c.toNat ∧ c.toNat ≤ 57 := by
    simpa [Char.isDigit, UInt32.le_iff_toNat_le] using digit
  have established : isRecent c = false := by
    -- All recent characters come long after ASCII.
    have later : ∀ range ∈ recentRanges, 57 < range.1 := by decide
    rw [isRecent, inRanges, List.any_eq_false]
    intro range member
    have := later range member
    simp only [Bool.and_eq_true, decide_eq_true_eq]
    omega
  have found : inRanges decimalDigitRanges c = true := by
    have listed : (48, 57) ∈ decimalDigitRanges := by decide
    exact List.any_eq_true.mpr ⟨(48, 57), listed, by simp [lower, upper]⟩
  rw [isDecimalDigit, established, found]
  rfl

end Text

namespace Indexed

variable {rest : List Char} {parameters : List Expr} {items : List Item}

/-! ## One step of reading -/

theorem itemsFrom_plain_pair (rest : List Char) :
    itemsFrom .plain ('\'' :: '\'' :: rest) = (itemsFrom .plain rest).map (.char '\'' :: ·) := by
  simp [itemsFrom]

theorem itemsFrom_quoted_pair (rest : List Char) :
    itemsFrom .quoted ('\'' :: '\'' :: rest) = (itemsFrom .quoted rest).map (.char '\'' :: ·) := by
  simp [itemsFrom]

/-- A single apostrophe opens a quoted stretch. -/
theorem itemsFrom_opening (single : rest.head? ≠ some '\'') :
    itemsFrom .plain ('\'' :: rest) = itemsFrom .quoted rest := by
  rw [itemsFrom]
  rintro others rfl
  exact single rfl

/-- A single apostrophe closes a quoted stretch. -/
theorem itemsFrom_closing (single : rest.head? ≠ some '\'') :
    itemsFrom .quoted ('\'' :: rest) = itemsFrom .plain rest := by
  rw [itemsFrom]
  rintro others rfl
  exact single rfl

/-- Inside quotes everything but an apostrophe is text. -/
theorem itemsFrom_quoted_char {c : Char} (other : c ≠ '\'') (rest : List Char) :
    itemsFrom .quoted (c :: rest) = (itemsFrom .quoted rest).map (.char c :: ·) := by
  rw [itemsFrom] <;> simp [other]

/-- Any other character is text. -/
theorem itemsFrom_plain_char {c : Char} (other : c ≠ '\'') (closed : c ≠ '{') (rest : List Char) :
    itemsFrom .plain (c :: rest) = (itemsFrom .plain rest).map (.char c :: ·) := by
  rw [itemsFrom] <;> simp [other, closed]

/-- Digits after an opening brace and a closing brace make a reference. -/
theorem itemsFrom_index {digits : List Char} (rest seen : List Char)
    (each : ∀ digit ∈ digits, Text.isDecimalDigit digit = true) (nonempty : seen ++ digits ≠ []) :
    itemsFrom (.index seen) (digits ++ '}' :: rest) =
      (Text.decimal? (seen ++ digits)).bind fun index =>
        (itemsFrom .plain rest).map (.reference index :: ·) := by
  induction digits generalizing seen with
  | nil =>
    have closing : Text.isDecimalDigit '}' = false := by decide
    rw [List.append_nil] at nonempty ⊢
    have seenSome : seen.isEmpty = false := by simpa using nonempty
    rw [List.nil_append, itemsFrom, closing, seenSome]
    cases Text.decimal? seen <;> cases itemsFrom .plain rest <;> rfl
  | cons digit digits ih =>
    have first := each digit List.mem_cons_self
    have others := fun other member => each other (List.mem_cons_of_mem digit member)
    have regroup : seen ++ digit :: digits = seen ++ [digit] ++ digits := by simp
    rw [List.cons_append, itemsFrom, if_pos first,
      ih (seen ++ [digit]) others (by simp), regroup]

/-- A reference is read back from its spelling. -/
theorem itemsFrom_spelling (index : Nat) (rest : List Char) :
    itemsFrom .plain (spelling index ++ rest) =
      (itemsFrom .plain rest).map (.reference index :: ·) := by
  have each : ∀ digit ∈ Nat.toDigits 10 index, Text.isDecimalDigit digit = true := by
    intro digit member
    exact Text.isDecimalDigit_of_isDigit
      (Nat.isDigit_of_mem_toDigits (by decide) (by decide) member)
  have nonempty : [] ++ Nat.toDigits 10 index ≠ [] := by
    rw [List.nil_append]
    exact List.ne_nil_of_length_pos Nat.length_toDigits_pos
  have shape : spelling index ++ rest = '{' :: (Nat.toDigits 10 index ++ '}' :: rest) := by
    simp [spelling]
  rw [shape, itemsFrom, itemsFrom_index rest [] each nonempty, List.nil_append,
    Text.decimal?_toDigits, Option.bind_some]

/-! ## Texts -/

/-- The next character that is no apostrophe is a brace. -/
def braceNext : List Char → Bool
  | [] => false
  | c :: rest => c == '{' || (c == '\'' && braceNext rest)

/-- Some two braces have nothing but apostrophes between them. -/
def crowded : List Char → Bool
  | [] => false
  | c :: rest => (c == '{' && braceNext rest) || crowded rest

/-- What is read between a brace and the text after it, in addition to what was written. -/
def gap (text : List Char) : List Char := if braceNext text then ['\''] else []

/-- The text as it is read back from its spelling. -/
def reread : List Char → List Char
  | [] => []
  | c :: rest => c :: (if c = '{' then gap rest else []) ++ reread rest

/-- **A text read back from its spelling.** The first statement is about a text that starts outside
quotes, the second about one that follows a brace whose quote is still open. What comes next must not
start with an apostrophe, which would join the last one of the spelling. -/
theorem itemsFrom_escape (text : List Char) (single : rest.head? ≠ some '\'') :
    itemsFrom .plain (text.flatMap escapeChar ++ rest) =
        (itemsFrom .plain rest).map ((reread text).map .char ++ ·) ∧
      itemsFrom .quoted ('\'' :: (text.flatMap escapeChar ++ rest)) =
        (itemsFrom .plain rest).map ((gap text ++ reread text).map .char ++ ·) := by
  induction text with
  | nil =>
    refine ⟨by simp [reread], ?_⟩
    rw [List.flatMap_nil, List.nil_append, itemsFrom_closing single]
    simp [reread, gap, braceNext]
  | cons c text ih =>
    obtain ⟨plain, quoted⟩ := ih
    rw [List.flatMap_cons, List.append_assoc]
    by_cases apostrophe : c = '\''
    · subst apostrophe
      have spelled : escapeChar '\'' = ['\'', '\''] := by decide
      -- Apostrophes pass through, and a gap in front of them may as well stand behind them.
      have moved : gap ('\'' :: text) ++ reread ('\'' :: text) = '\'' :: (gap text ++ reread text) := by
        cases next : braceNext text <;> simp [gap, braceNext, reread, next]
      rw [spelled, List.cons_append, List.cons_append, List.nil_append]
      constructor
      · rw [itemsFrom_plain_pair, plain]
        simp [reread, Function.comp_def]
      · rw [itemsFrom_quoted_pair, quoted, moved]
        simp [Function.comp_def]
    · by_cases brace : c = '{'
      · subst brace
        have spelled : escapeChar '{' = ['\'', '{', '\''] := by decide
        have read : reread ('{' :: text) = '{' :: (gap text ++ reread text) := by simp [reread]
        rw [spelled, List.cons_append, List.cons_append, List.cons_append, List.nil_append]
        constructor
        · rw [itemsFrom_opening (by simp), itemsFrom_quoted_char (by decide), quoted, read]
          simp [Function.comp_def]
        · -- The quote that would close here and the one that opens are read as an apostrophe.
          have fused : gap ('{' :: text) = ['\''] := by simp [gap, braceNext]
          rw [itemsFrom_quoted_pair, itemsFrom_quoted_char (by decide), quoted, read, fused]
          simp [Function.comp_def]
      · have spelled : escapeChar c = [c] := by simp [escapeChar, apostrophe, brace]
        have read : reread (c :: text) = c :: reread text := by simp [reread, brace]
        have apart : gap (c :: text) = [] := by simp [gap, braceNext, apostrophe, brace]
        rw [spelled, List.cons_append, List.nil_append, read, apart]
        constructor
        · rw [itemsFrom_plain_char apostrophe brace, plain]
          simp [Function.comp_def]
        · rw [itemsFrom_closing (by simpa using apostrophe),
            itemsFrom_plain_char apostrophe brace, plain]
          simp [Function.comp_def]

/-- Reading back never shortens a text. -/
theorem length_le_length_reread (text : List Char) : text.length ≤ (reread text).length := by
  induction text with
  | nil => exact Nat.le_refl 0
  | cons c text ih =>
    rw [reread, List.length_append, List.length_cons, List.length_cons]
    omega

/-- A text comes back unchanged just if it is not crowded. -/
theorem reread_eq_self_iff (text : List Char) : reread text = text ↔ crowded text = false := by
  induction text with
  | nil => simp [reread, crowded]
  | cons c text ih =>
    by_cases followed : c = '{' ∧ braceNext text = true
    · obtain ⟨rfl, next⟩ := followed
      have read : reread ('{' :: text) = '{' :: '\'' :: reread text := by
        simp [reread, gap, next]
      -- The apostrophe makes the text longer than it was.
      have longer := length_le_length_reread text
      have changed : '\'' :: reread text ≠ text := by
        intro same
        have length := congrArg List.length same
        rw [List.length_cons] at length
        omega
      simp [read, crowded, next, changed]
    · have read : reread (c :: text) = c :: reread text := by
        by_cases brace : c = '{'
        · have last : braceNext text = false := by simpa [brace] using followed
          simp [reread, gap, last]
        · simp [reread, brace]
      have spaced : (c == '{' && braceNext text) = false := by simpa using followed
      rw [read, List.cons.injEq, ih, crowded, spaced, Bool.false_or]
      simp

/-- Braces that follow half a backslash stay where they are. -/
theorem startsEscaped_reread {text : List Char}
    (starts : Template.startsEscaped (reread text) = true) : Template.startsEscaped text = true := by
  obtain ⟨rest, whole⟩ := Template.startsEscaped_iff.mp starts
  match text with
  | [] => cases whole
  | [c] =>
    by_cases brace : c = '{' <;> simp [reread, gap, braceNext, brace] at whole
  | c :: d :: text =>
    have first : c = '\\' := by
      rw [reread, List.cons_append] at whole
      exact (List.cons.inj whole).1
    subst first
    have second : d = '{' := by
      simp only [reread, List.cons_append] at whole
      exact (List.cons.inj (List.cons.inj whole).2).1
    subst second
    have third : gap text ++ reread text = '}' :: rest := by
      simpa [reread] using whole
    cases next : braceNext text with
    | true => simp [gap, next] at third
    | false =>
      rw [gap, next] at third
      cases text with
      | nil => cases third
      | cons e text =>
        rw [reread] at third
        obtain ⟨rfl, -⟩ := List.cons.inj third
        exact Template.startsEscaped_iff.mpr ⟨text, rfl⟩

/-- A text that can be represented can be when it is read back. -/
theorem plain_reread {text : List Char} (plain : Template.Plain text) :
    Template.Plain (reread text) := by
  induction text with
  | nil => exact plain
  | cons c text ih =>
    obtain ⟨unescaped, plainText⟩ := Template.plain_cons.mp plain
    have plainRest := ih plainText
    by_cases brace : c = '{'
    · subst brace
      have read : reread ('{' :: text) = '{' :: (gap text ++ reread text) := by simp [reread]
      rw [read, Template.plain_cons]
      refine ⟨by simp, ?_⟩
      cases next : braceNext text with
      | true =>
        rw [gap, next, if_pos rfl, List.singleton_append, Template.plain_cons]
        exact ⟨by simp, plainRest⟩
      | false =>
        rw [gap, next]
        exact plainRest
    · have read : reread (c :: text) = c :: reread text := by simp [reread, brace]
      rw [read, Template.plain_cons]
      exact ⟨fun completes => unescaped ⟨completes.1, startsEscaped_reread completes.2⟩, plainRest⟩

/-! ## Patterns -/

/-- Texts as elements of a pattern, each after a reference, counting from `index`. -/
def itemsOf (index : Nat) : List (List Char) → List Item
  | [] => []
  | text :: rest => .reference index :: (text.map .char ++ itemsOf (index + 1) rest)

/-- What is written after a text starts with a reference, if there is anything. -/
theorem head?_write (index : Nat) (pieces : List String) :
    (write index pieces).head? ≠ some '\'' := by
  cases pieces with
  | nil => simp [write]
  | cons piece rest => simp [write, spelling]

/-- Pieces with references in front of them are read back. -/
theorem itemsFrom_write (index : Nat) (pieces : List String) :
    itemsFrom .plain (write index pieces) =
      some (itemsOf index (pieces.map fun piece => reread piece.toList)) := by
  induction pieces generalizing index with
  | nil => rfl
  | cons piece rest ih =>
    rw [write, List.append_assoc, itemsFrom_spelling, escape,
      (itemsFrom_escape piece.toList (head?_write (index + 1) rest)).1, ih]
    rfl

theorem references_chars (text : List Char) (items : List Item) :
    references (text.map .char ++ items) = references items := by
  induction text with
  | nil => rfl
  | cons c text ih => exact ih

/-- The references of texts in order are the numbers from the first on. -/
theorem references_itemsOf (index : Nat) (texts : List (List Char)) :
    references (itemsOf index texts) = List.range' index texts.length := by
  induction texts generalizing index with
  | nil => rfl
  | cons text rest ih =>
    have first : references (itemsOf index (text :: rest)) =
        index :: references (text.map .char ++ itemsOf (index + 1) rest) := rfl
    rw [first, references_chars, ih, List.length_cons, List.range'_succ]

/-- The texts around the references of a pattern. -/
def itemTexts : List Item → List (List Char)
  | [] => [[]]
  | .char c :: rest => (itemTexts rest).modifyHead (c :: ·)
  | .reference _ :: rest => [] :: itemTexts rest

theorem itemTexts_chars (text : List Char) (items : List Item) :
    itemTexts (text.map .char ++ items) = (itemTexts items).modifyHead (text ++ ·) := by
  induction text with
  | nil =>
    rw [List.map_nil, List.nil_append]
    cases itemTexts items <;> rfl
  | cons c text ih =>
    rw [List.map_cons, List.cons_append, itemTexts, ih]
    cases itemTexts items <;> rfl

theorem itemTexts_itemsOf (index : Nat) (texts : List (List Char)) :
    itemTexts (itemsOf index texts) = [] :: texts := by
  induction texts generalizing index with
  | nil => rfl
  | cons text rest ih =>
    rw [itemsOf, itemTexts, itemTexts_chars, ih, List.modifyHead_cons,
      List.append_nil]

/-! ## Segments of patterns -/

/-- A pattern whose references are within its parameters makes segments. -/
theorem exists_segments? (bound : ∀ index ∈ references items, index < parameters.length) :
    ∃ segments, segments? parameters items = some segments := by
  induction items with
  | nil => exact ⟨[], rfl⟩
  | cons item rest ih =>
    cases item with
    | char c =>
      obtain ⟨found, read⟩ := ih bound
      rw [segments?, read]
      cases found with
      | nil => exact ⟨_, rfl⟩
      | cons segment others => cases segment <;> exact ⟨_, rfl⟩
    | reference index =>
      have refers : references (.reference index :: rest) = index :: references rest := rfl
      rw [refers] at bound
      obtain ⟨found, read⟩ := ih fun other member =>
        bound other (List.mem_cons_of_mem index member)
      have known := List.getElem?_eq_getElem (bound index List.mem_cons_self)
      rw [segments?, read, known]
      exact ⟨_, rfl⟩

/-- The texts around the arguments of a pattern's segments are those around its references. -/
theorem texts_segments? {segments : List Segment}
    (made : segments? parameters items = some segments) :
    (Segment.texts segments).map String.toList = itemTexts items := by
  induction items generalizing segments with
  | nil =>
    cases made
    rfl
  | cons item rest ih =>
    cases item with
    | char c =>
      obtain ⟨found, read, gathered⟩ := Option.bind_eq_some_iff.mp made
      have known := ih read
      rw [itemTexts, ← known]
      split at gathered
      · -- The character goes in front of a text that is there already.
        cases gathered
        rw [Segment.texts, Segment.texts]
        split <;> simp
      · cases gathered
        rw [Segment.texts]
        have nonempty := Segment.length_texts found
        cases texts : Segment.texts found with
        | nil =>
          rw [texts] at nonempty
          cases nonempty
        | cons first others => simp
    | reference index =>
      obtain ⟨parameter, known, more⟩ := Option.bind_eq_some_iff.mp made
      obtain ⟨found, read, same⟩ := Option.bind_eq_some_iff.mp more
      cases same
      rw [Segment.texts, List.map_cons, ih read]
      rfl

/-- Separated segments can be represented if the texts around their arguments can. -/
theorem representable_of_texts {segments : List Segment} (separated : Segment.Separated segments)
    (plain : ∀ text ∈ Segment.texts segments, Template.Plain text.toList) :
    Segment.representable segments = true := by
  induction separated with
  | nil => rfl
  | last raw =>
    rw [Segment.representable_text]
    exact ⟨by simpa [Segment.texts] using plain, rfl⟩
  | @text raw expr rest separated ih =>
    obtain ⟨first, others⟩ : Template.Plain raw.toList ∧
        ∀ text ∈ Segment.texts rest, Template.Plain text.toList := by
      simpa [Segment.texts] using plain
    rw [Segment.representable_text, Segment.representable_argument]
    exact ⟨first, ih others⟩
  | argument expr separated ih =>
    rw [Segment.representable_argument]
    refine ih fun text member => plain text ?_
    rw [Segment.texts]
    exact List.mem_cons_of_mem "" member

/-- A pattern that refers to its parameters in order, and whose texts can be represented, is read as
the message with these texts as pieces and the parameters as arguments. -/
theorem message?_of_inOrder {pattern : String} (read : items? pattern = some items)
    (inOrder : references items = List.range parameters.length)
    (plain : ∀ text ∈ itemTexts items, Template.Plain text) :
    ∃ message, message? pattern parameters = some message ∧ message.arguments = parameters ∧
      message.error = none ∧ message.pieces.map String.toList = itemTexts items := by
  obtain ⟨segments, made⟩ : ∃ segments, segments? parameters items = some segments := by
    apply exists_segments?
    intro index member
    rw [inOrder] at member
    exact List.mem_range.mp member
  have texts := texts_segments? made
  have separated := separated_segments? made
  have representable : Segment.representable segments = true := by
    refine representable_of_texts separated fun text member => plain text.toList ?_
    rw [← texts]
    exact List.mem_map_of_mem member
  refine ⟨{ template := Segment.template segments, arguments := Segment.arguments segments }, ?_,
    arguments_of_inOrder made inOrder, rfl, ?_⟩
  · refine message?_of_segments read made (fun index bound => ?_) (.inl inOrder) representable
    rw [inOrder]
    exact List.mem_range.mpr bound
  · rw [Message.pieces, Segment.pieces_template separated representable, texts]

end Indexed

/-! ## Messages -/

namespace Message

/-- The elements of the pattern that a message is written as. -/
theorem items?_indexed (message : Message) :
    ∃ first rest, message.pieces = first :: rest ∧
      Indexed.items? message.indexed =
        some ((Indexed.reread first.toList).map .char ++
          Indexed.itemsOf 0 (rest.map fun piece => Indexed.reread piece.toList)) := by
  cases cut : message.pieces with
  | nil =>
    have length := Template.length_pieces message.template
    rw [← pieces, cut] at length
    cases length
  | cons first rest =>
    refine ⟨first, rest, rfl, ?_⟩
    rw [indexed, cut, Indexed.items?, String.toList_ofList, Indexed.escape,
      (Indexed.itemsFrom_escape first.toList (Indexed.head?_write 0 rest)).1,
      Indexed.itemsFrom_write]
    rfl

/-- **A message read back from its pattern.** Reading succeeds and gives the same arguments, and each
piece comes back as it was or, where braces are crowded, with additional apostrophes. So the template
is the same just if no piece has two braces with nothing but apostrophes between them. -/
theorem message?_indexed (message : Message)
    (balanced : Template.placeholderCount message.template = message.arguments.length) :
    ∃ found, Indexed.message? message.indexed message.arguments = some found ∧
      found.arguments = message.arguments ∧ found.error = none ∧
      found.pieces.map String.toList = message.pieces.map (fun piece => Indexed.reread piece.toList) ∧
      (found.template = message.template ↔
        ∀ piece ∈ message.pieces, Indexed.crowded piece.toList = false) := by
  obtain ⟨first, rest, cut, read⟩ := message.items?_indexed
  have length : rest.length = message.arguments.length := by
    have pieceCount := Balanced.length_pieces balanced
    rw [cut, List.length_cons] at pieceCount
    omega
  have inOrder : Indexed.references ((Indexed.reread first.toList).map .char ++
      Indexed.itemsOf 0 (rest.map fun piece => Indexed.reread piece.toList)) =
      List.range message.arguments.length := by
    rw [Indexed.references_chars, Indexed.references_itemsOf, List.length_map, length,
      List.range_eq_range']
  have texts : Indexed.itemTexts ((Indexed.reread first.toList).map .char ++
      Indexed.itemsOf 0 (rest.map fun piece => Indexed.reread piece.toList)) =
      message.pieces.map (fun piece => Indexed.reread piece.toList) := by
    rw [Indexed.itemTexts_chars, Indexed.itemTexts_itemsOf, cut, List.modifyHead_cons,
      List.append_nil, List.map_cons]
  have plain : ∀ text ∈ message.pieces.map (fun piece => Indexed.reread piece.toList),
      Template.Plain text := by
    intro text member
    obtain ⟨piece, isPiece, rfl⟩ := List.mem_map.mp member
    exact Indexed.plain_reread
      (Template.isRepresentable_iff.mp (Template.isRepresentable_of_mem_pieces isPiece))
  rw [← texts] at plain
  obtain ⟨found, made, arguments, alone, pieces⟩ := Indexed.message?_of_inOrder read inOrder plain
  rw [texts] at pieces
  refine ⟨found, made, arguments, alone, pieces, ?_⟩
  -- Templates are the same if their pieces are, and a piece is the same if it is not crowded.
  have samePieces : found.template = message.template ↔ found.pieces = message.pieces :=
    ⟨fun same => by rw [Message.pieces, same, Message.pieces], Template.eq_of_pieces_eq⟩
  have asChars : found.pieces = message.pieces ↔
      found.pieces.map String.toList = message.pieces.map String.toList :=
    (List.map_inj_right fun _ _ => String.toList_inj.mp).symm
  rw [samePieces, asChars, pieces, List.map_inj_left]
  exact forall_congr' fun piece => imp_congr_right fun _ => Indexed.reread_eq_self_iff piece.toList

/-- Quotes around a brace, an escaped placeholder and a brace at the end. -/
theorem message?_indexed_quotes : let message : Message :=
      { template := "'\x7b0\x7d' \\\\\x7b\x7d \x7b\x7d\x7b", arguments := [.ident "x" .string] }
    Template.placeholderCount message.template = message.arguments.length ∧
      message.indexed = "'''\x7b'0\x7d'' '\x7b'\x7d \x7b0\x7d'\x7b'" ∧
      ∃ found, Indexed.message? message.indexed message.arguments = some found ∧
        found.arguments = message.arguments ∧ found.template = message.template := by
  intro message
  have balanced : Template.placeholderCount message.template = message.arguments.length := by decide
  obtain ⟨found, read, arguments, -, -, same⟩ := message?_indexed message balanced
  exact ⟨balanced, by decide, found, read, arguments, same.mpr (by decide)⟩

/-- Two braces side by side come back with an apostrophe between them. -/
theorem message?_indexed_crowded :
    let message : Message := { template := "\x7b\x7b\x7b\x7d", arguments := [.ident "x" .string] }
    Template.placeholderCount message.template = message.arguments.length ∧
      message.indexed = "'\x7b''\x7b'\x7b0\x7d" ∧
      Indexed.message? message.indexed message.arguments =
        some { template := "\x7b'\x7b\x7b\x7d", arguments := message.arguments } ∧
      "\x7b'\x7b\x7b\x7d" ≠ message.template := by
  intro message
  exact ⟨by decide, by decide, by decide, by decide⟩

end Message

end LogCalls
