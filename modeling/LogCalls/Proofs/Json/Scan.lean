import LogCalls.Json.Printer

/-! # Scanning printed JSON

The text that is printed for a value is scanned into the tokens of the value, whatever follows it.
What follows may not continue a word, which is the one kind of token that has no end of its own. -/

namespace LogCalls.Json

variable {c : Char} {rest : List Char} {items : List Json} {value : Json}

/-- The value has no numbers in it, and can be read. -/
inductive Plain : Json → Prop where
  | null : Plain .null
  | boolean (value : Bool) : Plain (.boolean value)
  | string (text : String) : Plain (.string text)
  | array {items : List Json} : (∀ item ∈ items, Plain item) → Plain (.array items)
  | object {members : List (String × Json)} :
      (∀ member ∈ members, Plain member.2) → Plain (.object members)

attribute [simp] Plain.null Plain.boolean Plain.string

/-- An array is plain if its items are. -/
theorem plain_array : (Json.array items).Plain ↔ ∀ item ∈ items, item.Plain :=
  ⟨fun (.array each) => each, .array⟩

/-- The empty array is plain. -/
@[simp] theorem plain_array_nil : (Json.array []).Plain := .array nofun

/-- An array is plain item by item. -/
@[simp] theorem plain_array_cons {item : Json} :
    (Json.array (item :: items)).Plain ↔ item.Plain ∧ (Json.array items).Plain := by
  simp only [plain_array, List.forall_mem_cons]

/-- The same for encoded values. -/
@[simp] theorem plain_array_map {α : Type} {encode : α → Json} {values : List α} :
    (Json.array (values.map encode)).Plain ↔ ∀ value ∈ values, (encode value).Plain := by
  simp only [plain_array, List.forall_mem_map]

/-- An object is plain if its members are. -/
@[simp] theorem plain_object {members : List (String × Json)} :
    (Json.object members).Plain ↔ ∀ member ∈ members, member.2.Plain :=
  ⟨fun (.object each) => each, .object⟩

mutual

/-- The tokens of a value. -/
def tokens : Json → List Token
  | .null => [.null]
  | .boolean value => [.boolean value]
  | .natural value => [.natural value]
  | .numeral spelling => [.numeral spelling]
  | .string text => [.string (some text)]
  | .array [] => [.openBracket, .closeBracket]
  | .array (first :: rest) => .openBracket :: tokens first ++ itemTokens rest ++ [.closeBracket]
  | .object [] => [.openBrace, .closeBrace]
  | .object ((name, value) :: rest) =>
    .openBrace :: .string (some name) :: .colon :: tokens value ++ memberTokens rest ++
      [.closeBrace]
  | .unreadable => [.string none]

/-- The tokens of further items of an array. -/
def itemTokens : List Json → List Token
  | [] => []
  | item :: rest => .comma :: tokens item ++ itemTokens rest

/-- The tokens of further members of an object. -/
def memberTokens : List (String × Json) → List Token
  | [] => []
  | (name, value) :: rest =>
    .comma :: .string (some name) :: .colon :: tokens value ++ memberTokens rest

end

/-! ## Strings -/

/-- The unit stands for the character, and no neighbour has a part in it. -/
def StandsFor (unit : StringUnit) (c : Char) : Prop :=
  ∀ units, charsOfUnits? (unit :: units) = (charsOfUnits? units).map (c :: ·)

/-- A character stands for itself. -/
theorem standsFor_char (c : Char) : StandsFor (.char c) c := fun _ => rfl

/-- A code below the surrogates stands for a character by itself. -/
theorem standsFor_code (low : c.toNat < 0x20) : StandsFor (.code c.toNat) c := by
  have notHigh : isHighSurrogate c.toNat = false := by simp [isHighSurrogate]; omega
  have notLow : isLowSurrogate c.toNat = false := by simp [isLowSurrogate]; omega
  intro units
  rw [charsOfUnits?.eq_def]
  cases units with
  | nil => simp [notHigh, notLow]
  | cons unit rest =>
    cases unit <;> simp [notHigh, notLow]

/-- The digits of a control character give its code. -/
theorem hexValue?_controlDigits :
    ∀ code < 0x20, hexValue? (Nat.digitChar (code / 16)) = some (code / 16) ∧
      hexValue? (Nat.digitChar (code % 16)) = some (code % 16) := by
  decide

/-- A backslash and a letter are read as the character that they stand for. -/
theorem stringUnits?_escape {letter value : Char} (escapes : escapedChar? letter = some value)
    (rest : List Char) :
    stringUnits? ('\\' :: letter :: rest) = (stringUnits? rest).map (.char value :: ·) := by
  rw [stringUnits?, escapes]
  · cases stringUnits? rest <;> rfl
  · rintro a b c d others rfl rfl
    cases escapes

/-- A plain character is one unit. -/
theorem stringUnits?_cons (plain : c ≠ '\\') (rest : List Char) :
    stringUnits? (c :: rest) = (stringUnits? rest).map (.char c :: ·) := by
  rw [stringUnits?]
  · cases stringUnits? rest <;> rfl
  · exact fun _ _ _ _ _ isSlash _ => plain isSlash
  · exact fun _ _ isSlash _ => plain isSlash
  · exact fun isSlash _ => plain isSlash

/-- The spelling of a character is read as one unit that stands for it. -/
theorem exists_unit_spellChar (c : Char) :
    ∃ unit, StandsFor unit c ∧
      ∀ rest, stringUnits? (spellChar c ++ rest) = (stringUnits? rest).map (unit :: ·) := by
  have short {letter value : Char} (escapes : escapedChar? letter = some value) :
      ∃ unit, StandsFor unit value ∧
        ∀ rest, stringUnits? (['\\', letter] ++ rest) = (stringUnits? rest).map (unit :: ·) :=
    ⟨.char value, standsFor_char value, stringUnits?_escape escapes⟩
  fun_cases spellChar c with
  | case1 | case2 | case3 | case4 | case5 | case6 | case7 =>
    subst_vars
    exact short rfl
  | case8 _ _ _ _ _ _ _ control =>
    refine ⟨.code c.toNat, standsFor_code control, fun rest => ?_⟩
    obtain ⟨first, second⟩ := hexValue?_controlDigits c.toNat control
    have zero : hexValue? '0' = some 0 := by decide
    have whole : 4096 * 0 + 256 * 0 + 16 * (c.toNat / 16) + c.toNat % 16 = c.toNat := by omega
    simp only [controlDigits, List.cons_append, List.nil_append, stringUnits?, zero, first, second,
      Option.bind_eq_bind, Option.bind_some, whole]
    cases stringUnits? rest <;> rfl
  | case9 _ notSlash => exact ⟨.char c, standsFor_char c, stringUnits?_cons notSlash⟩

/-- A string is read from its spelling. -/
theorem stringToken?_spelling (text : String) :
    stringToken? (text.toList.flatMap spellChar) = some (.string (some text)) := by
  have units (chars : List Char) : ∃ units,
      stringUnits? (chars.flatMap spellChar) = some units ∧ charsOfUnits? units = some chars := by
    induction chars with
    | nil => exact ⟨[], rfl, rfl⟩
    | cons c chars ih =>
      obtain ⟨units, read, meant⟩ := ih
      obtain ⟨unit, standsFor, spelled⟩ := exists_unit_spellChar c
      refine ⟨unit :: units, ?_, ?_⟩
      · rw [List.flatMap_cons, spelled, read]
        rfl
      · rw [standsFor, meant]
        rfl
  obtain ⟨units, read, meant⟩ := units text.toList
  simp [stringToken?, read, meant]

/-! ## Scanning -/

namespace Token

/-- The tokens of a text from any state on. -/
def scanFrom (state : List Token × Lexer) (text : List Char) : Option (List Token) := do
  let (tokens, lexer) ← text.foldlM Lexer.advance state
  let last ← lexer.finish
  return tokens.reverse ++ last

/-- Scanning goes on after a character. -/
theorem scanFrom_cons (state : List Token × Lexer) (c : Char) (rest : List Char) :
    scanFrom state (c :: rest) = (Lexer.advance state c).bind (scanFrom · rest) := by
  rw [scanFrom, List.foldlM_cons]
  cases Lexer.advance state c <;> rfl

variable (before : List Token)

/-- A character between tokens is skipped. -/
theorem scanFrom_space (space : isSpace c = true) (rest : List Char) :
    scanFrom (before, .between) (c :: rest) = scanFrom (before, .between) rest := by
  have step : Lexer.advance (before, .between) c = some (before, .between) := by
    simp [Lexer.advance, Lexer.step, Lexer.start, space]
  rw [scanFrom_cons, step, Option.bind_some]

/-- A punctuation mark is one token. -/
theorem scanFrom_mark {token : Token}
    (mark : Lexer.start c = some ([token], .between)) (rest : List Char) :
    scanFrom (before, .between) (c :: rest) = scanFrom (token :: before, .between) rest := by
  have step : Lexer.advance (before, .between) c = some (token :: before, .between) := by
    simp [Lexer.advance, Lexer.step, mark]
  rw [scanFrom_cons, step, Option.bind_some]

/-- A line end and an indentation are skipped. -/
theorem scanFrom_lineStart (depth : Nat) (rest : List Char) :
    scanFrom (before, .between) (lineStart depth ++ rest) = scanFrom (before, .between) rest := by
  have indentation (count : Nat) : scanFrom (before, .between) (List.replicate count ' ' ++ rest) =
      scanFrom (before, .between) rest := by
    induction count with
    | zero => rfl
    | succ count ih =>
      rw [List.replicate_succ, List.cons_append, scanFrom_space before rfl, ih]
  rw [lineStart, List.cons_append, scanFrom_space before rfl, indentation]

/-- In a string, a character that is not special is kept. -/
theorem scanFrom_string_char (notQuote : c ≠ '"') (notSlash : c ≠ '\\')
    (printable : ¬ c.toNat < 0x20) (read rest : List Char) :
    scanFrom (before, .string read) (c :: rest) = scanFrom (before, .string (c :: read)) rest := by
  have step : Lexer.advance (before, .string read) c = some (before, .string (c :: read)) := by
    simp [Lexer.advance, Lexer.step, notQuote, notSlash, printable]
  rw [scanFrom_cons, step, Option.bind_some]

/-- In a string, a backslash and the letter after it are kept. -/
theorem scanFrom_string_escape {letter : Char} (printable : ¬ letter.toNat < 0x20)
    (read rest : List Char) :
    scanFrom (before, .string read) ('\\' :: letter :: rest) =
      scanFrom (before, .string (letter :: '\\' :: read)) rest := by
  have slash : Lexer.advance (before, .string read) '\\' = some (before, .escape read) := rfl
  have step : Lexer.advance (before, .escape read) letter =
      some (before, .string (letter :: '\\' :: read)) := by
    simp [Lexer.advance, Lexer.step, printable]
  rw [scanFrom_cons, slash, Option.bind_some, scanFrom_cons, step, Option.bind_some]

/-- In a string, characters that are not special are kept. -/
theorem scanFrom_string_chars {chars : List Char}
    (plain : ∀ c ∈ chars, c ≠ '"' ∧ c ≠ '\\' ∧ ¬ c.toNat < 0x20) (read rest : List Char) :
    scanFrom (before, .string read) (chars ++ rest) =
      scanFrom (before, .string (chars.reverse ++ read)) rest := by
  induction chars generalizing read with
  | nil => rfl
  | cons c chars ih =>
    obtain ⟨⟨notQuote, notSlash, printable⟩, others⟩ := List.forall_mem_cons.mp plain
    rw [List.cons_append, scanFrom_string_char before notQuote notSlash printable,
      ih others, List.reverse_cons, List.append_assoc]
    rfl

/-- Hexadecimal digits need no escape. -/
theorem digitChar_printable : ∀ digit < 16, Nat.digitChar digit ≠ '"' ∧
    Nat.digitChar digit ≠ '\\' ∧ ¬ (Nat.digitChar digit).toNat < 0x20 := by
  decide

/-- The digits of a control character are not special. -/
theorem controlDigits_printable {code : Nat} (control : code < 0x20) :
    ∀ c ∈ controlDigits code, c ≠ '"' ∧ c ≠ '\\' ∧ ¬ c.toNat < 0x20 := by
  have zero := digitChar_printable 0 (by decide)
  have high := digitChar_printable (code / 16) (by omega)
  have low := digitChar_printable (code % 16) (by omega)
  simp only [controlDigits, List.forall_mem_cons]
  exact ⟨zero, zero, high, low, nofun⟩

/-- In a string, the spelling of a character is kept. -/
theorem scanFrom_spellChar (c : Char) (read rest : List Char) :
    scanFrom (before, .string read) (spellChar c ++ rest) =
      scanFrom (before, .string ((spellChar c).reverse ++ read)) rest := by
  fun_cases spellChar c with
  | case1 | case2 | case3 | case4 | case5 | case6 | case7 =>
    exact scanFrom_string_escape before (by decide) read rest
  | case8 _ _ _ _ _ _ _ control =>
    rw [List.cons_append, List.cons_append, scanFrom_string_escape before (by decide),
      scanFrom_string_chars before (controlDigits_printable control)]
    simp
  | case9 notQuote notSlash _ _ _ _ _ printable =>
    exact scanFrom_string_char before notQuote notSlash printable read rest

/-- A spelled string is one token. -/
theorem scanFrom_spellString (text : String) (rest : List Char) :
    scanFrom (before, .between) (spellString text ++ rest) =
      scanFrom (.string (some text) :: before, .between) rest := by
  have kept (chars read more : List Char) :
      scanFrom (before, .string read) (chars.flatMap spellChar ++ more) =
        scanFrom (before, .string ((chars.flatMap spellChar).reverse ++ read)) more := by
    induction chars generalizing read with
    | nil => rfl
    | cons c chars ih =>
      rw [List.flatMap_cons, List.append_assoc, scanFrom_spellChar, ih,
        List.reverse_append, List.append_assoc]
  have opening : Lexer.advance (before, .between) '"' = some (before, .string []) := rfl
  have closing : Lexer.advance (before, .string (text.toList.flatMap spellChar).reverse) '"' =
      some (.string (some text) :: before, .between) := by
    simp [Lexer.advance, Lexer.step, stringToken?_spelling]
  rw [spellString, List.cons_append, List.cons_append, scanFrom_cons, opening, Option.bind_some,
    List.append_assoc, kept, List.append_nil, List.singleton_append, scanFrom_cons, closing,
    Option.bind_some]

/-- The text does not continue a word. -/
def Follows (text : List Char) : Prop := ∀ c, text.head? = some c → c.isAlpha = false

/-- What is no letter ends a word. -/
theorem follows_cons (other : c.isAlpha = false) (rest : List Char) : Follows (c :: rest) := by
  rintro d ⟨⟩
  exact other

/-- A word ends where the text does not continue it. -/
theorem scanFrom_word {read : List Char} {token : Token}
    (known : wordToken? read.reverse = some token) (follows : Follows rest) :
    scanFrom (before, .word read) rest = scanFrom (token :: before, .between) rest := by
  cases rest with
  | nil => simp [scanFrom, Lexer.finish, known]
  | cons c rest =>
    have other : c.isAlpha = false := follows c rfl
    rw [scanFrom_cons, scanFrom_cons]
    have step : Lexer.advance (before, .word read) c = Lexer.advance (token :: before, .between) c := by
      simp only [Lexer.advance, Lexer.step, other, known, Lexer.startAfter]
      cases Lexer.start c <;> simp
    rw [step]

end Token

/-! ## Printed values -/

open Token

/-- The text that is printed for the value is scanned into its tokens. -/
def ScansAs (value : Json) : Prop :=
  ∀ (depth : Nat) (before : List Token) (rest : List Char), Follows rest →
    scanFrom (before, .between) (prettyAt depth value ++ rest) =
      scanFrom (value.tokens.reverse ++ before, .between) rest

/-- So does a new line. -/
theorem follows_lineStart (depth : Nat) (rest : List Char) : Follows (lineStart depth ++ rest) :=
  follows_cons rfl _

/-- So do further items. -/
theorem follows_prettyItems (depth : Nat) (items : List Json)
    (follows : Follows rest) : Follows (prettyItems depth items ++ rest) := by
  cases items with
  | nil => exact follows
  | cons item items => exact follows_cons rfl _

/-- So do further members. -/
theorem follows_prettyMembers (depth : Nat) (members : List (String × Json))
    (follows : Follows rest) : Follows (prettyMembers depth members ++ rest) := by
  cases members with
  | nil => exact follows
  | cons member members => exact follows_cons rfl _

/-- Further items are scanned if each of them is. -/
theorem scanFrom_prettyItems (each : ∀ item ∈ items, item.ScansAs)
    (depth : Nat) (before : List Token) (follows : Follows rest) :
    scanFrom (before, .between) (prettyItems depth items ++ rest) =
      scanFrom ((itemTokens items).reverse ++ before, .between) rest := by
  induction items generalizing before with
  | nil => rfl
  | cons item items ih =>
    obtain ⟨first, others⟩ := List.forall_mem_cons.mp each
    have shape : prettyItems depth (item :: items) ++ rest =
        ',' :: (lineStart depth ++ (prettyAt depth item ++ (prettyItems depth items ++ rest))) := by
      simp [prettyItems]
    rw [shape, scanFrom_mark before rfl, scanFrom_lineStart,
      first depth _ _ (follows_prettyItems depth items follows), ih others]
    simp [itemTokens]

/-- A member of an object, from its name on. -/
theorem scanFrom_member (scans : value.ScansAs) (name : String) (depth : Nat)
    (before : List Token) (follows : Follows rest) :
    scanFrom (before, .between) (spellString name ++ ':' :: ' ' :: (prettyAt depth value ++ rest)) =
      scanFrom (value.tokens.reverse ++ .colon :: .string (some name) :: before, .between) rest := by
  rw [scanFrom_spellString, scanFrom_mark _ rfl, scanFrom_space _ rfl, scans depth _ _ follows]

/-- Further members are scanned if the value of each is. -/
theorem scanFrom_prettyMembers {members : List (String × Json)}
    (each : ∀ member ∈ members, member.2.ScansAs) (depth : Nat) (before : List Token)
    (follows : Follows rest) :
    scanFrom (before, .between) (prettyMembers depth members ++ rest) =
      scanFrom ((memberTokens members).reverse ++ before, .between) rest := by
  induction members generalizing before with
  | nil => rfl
  | cons member members ih =>
    obtain ⟨name, value⟩ := member
    obtain ⟨first, others⟩ := List.forall_mem_cons.mp each
    have shape : prettyMembers depth ((name, value) :: members) ++ rest =
        ',' :: (lineStart depth ++ (spellString name ++ ':' :: ' ' :: (prettyAt depth value ++
          (prettyMembers depth members ++ rest)))) := by
      simp [prettyMembers]
    rw [shape, scanFrom_mark before rfl, scanFrom_lineStart,
      scanFrom_member first name depth _ (follows_prettyMembers depth members follows),
      ih others]
    simp [memberTokens]

/-- **A printed value is scanned into its tokens.** -/
theorem scansAs_of_plain (plain : value.Plain) : value.ScansAs := by
  induction plain with
  | null =>
    intro depth before rest follows
    exact scanFrom_word before rfl follows
  | boolean value =>
    intro depth before rest follows
    cases value <;> exact scanFrom_word before rfl follows
  | string text =>
    intro depth before rest follows
    exact scanFrom_spellString before text rest
  | @array items _ each =>
    intro depth before rest follows
    cases items with
    | nil => rfl
    | cons first items =>
      obtain ⟨scans, others⟩ := List.forall_mem_cons.mp each
      have shape : prettyAt depth (.array (first :: items)) ++ rest =
          '[' :: (lineStart (depth + 1) ++ (prettyAt (depth + 1) first ++
            (prettyItems (depth + 1) items ++ (lineStart depth ++ ']' :: rest)))) := by
        simp [prettyAt]
      have closing := follows_lineStart depth (']' :: rest)
      rw [shape, scanFrom_mark before rfl, scanFrom_lineStart,
        scans _ _ _ (follows_prettyItems _ items closing), scanFrom_prettyItems others _ _ closing,
        scanFrom_lineStart, scanFrom_mark _ rfl]
      simp [tokens]
  | @object members _ each =>
    intro depth before rest follows
    cases members with
    | nil => rfl
    | cons member members =>
      obtain ⟨name, value⟩ := member
      obtain ⟨scans, others⟩ := List.forall_mem_cons.mp each
      have shape : prettyAt depth (.object ((name, value) :: members)) ++ rest =
          '{' :: (lineStart (depth + 1) ++ (spellString name ++ ':' :: ' ' ::
            (prettyAt (depth + 1) value ++ (prettyMembers (depth + 1) members ++
              (lineStart depth ++ '}' :: rest))))) := by
        simp [prettyAt]
      have closing := follows_lineStart depth ('}' :: rest)
      rw [shape, scanFrom_mark before rfl, scanFrom_lineStart,
        scanFrom_member scans _ _ _ (follows_prettyMembers _ members closing),
        scanFrom_prettyMembers others _ _ closing, scanFrom_lineStart, scanFrom_mark _ rfl]
      simp [tokens]

/-- The tokens of a printed value. -/
theorem scan_pretty (plain : value.Plain) : Token.scan value.pretty.toList = some value.tokens := by
  have whole := scansAs_of_plain plain 0 [] [] nofun
  rw [List.append_nil, List.append_nil] at whole
  rw [pretty, String.toList_ofList]
  refine whole.trans ?_
  simp [scanFrom, Lexer.finish]

end LogCalls.Json
