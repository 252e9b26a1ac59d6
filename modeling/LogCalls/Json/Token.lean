import LogCalls.Text.Basic

/-! # JSON values and their tokens

Documents as trees. Members of an object keep their order, and a repeated name is kept as well, so
that a reader can tell.

The lexical level of JSON. A lexer reads one character at a time: `Lexer.step` says what a character
does in each state, and `Token.scan` runs it over a text. -/

namespace LogCalls

/-- A JSON value. -/
inductive Json where
  | null
  | boolean (value : Bool)
  /-- A number written as plain digits. -/
  | natural (value : Nat)
  /-- Any other number, as it is written. -/
  | numeral (spelling : String)
  | string (text : String)
  | array (items : List Json)
  | object (members : List (String × Json))
  /-- A value that is well formed but stands for nothing: a string with half of a surrogate pair, or
  an object with such a name. It can be skipped but not read. -/
  | unreadable

namespace Json

/-- Tokens. -/
inductive Token where
  | openBrace
  | closeBrace
  | openBracket
  | closeBracket
  | comma
  | colon
  | null
  | boolean (value : Bool)
  /-- A number of plain digits. -/
  | natural (value : Nat)
  /-- Any other number, as it is written. -/
  | numeral (spelling : String)
  /-- A string; none if it has half of a surrogate pair. -/
  | string (text : Option String)
  deriving DecidableEq, Repr

/-! ## Strings -/

/-- A character of a string, as it is or by its code unit. -/
inductive StringUnit where
  | char (value : Char)
  | code (unit : Nat)

/-- The value of a hexadecimal digit. -/
def hexValue? (c : Char) : Option Nat :=
  if '0' ≤ c ∧ c ≤ '9' then some (c.toNat - '0'.toNat)
  else if 'a' ≤ c ∧ c ≤ 'f' then some (c.toNat - 'a'.toNat + 10)
  else if 'A' ≤ c ∧ c ≤ 'F' then some (c.toNat - 'A'.toNat + 10)
  else none

/-- The character that a letter after a backslash stands for. -/
def escapedChar? (c : Char) : Option Char :=
  if c = '"' || c = '\\' || c = '/' then some c
  else if c = 'b' then some '\x08'
  else if c = 'f' then some '\x0c'
  else if c = 'n' then some '\n'
  else if c = 'r' then some '\r'
  else if c = 't' then some '\t'
  else none

/-- The units that the text between quotes spells. -/
def stringUnits? : List Char → Option (List StringUnit)
  | [] => some []
  | '\\' :: 'u' :: a :: b :: c :: d :: rest => do
      let a ← hexValue? a
      let b ← hexValue? b
      let c ← hexValue? c
      let d ← hexValue? d
      let units ← stringUnits? rest
      return .code (4096 * a + 256 * b + 16 * c + d) :: units
  | '\\' :: c :: rest => do
      let value ← escapedChar? c
      let units ← stringUnits? rest
      return .char value :: units
  | '\\' :: [] => none
  | c :: rest => do
      let units ← stringUnits? rest
      return .char c :: units

/-- The code unit is the first half of a surrogate pair. -/
def isHighSurrogate (unit : Nat) : Bool := 0xd800 ≤ unit && unit ≤ 0xdbff

/-- The code unit is the second half of a surrogate pair. -/
def isLowSurrogate (unit : Nat) : Bool := 0xdc00 ≤ unit && unit ≤ 0xdfff

/-- The characters that units stand for, if no half of a surrogate pair stands alone. -/
def charsOfUnits? : List StringUnit → Option (List Char)
  | [] => some []
  | .char c :: rest => (charsOfUnits? rest).map (c :: ·)
  | .code high :: .code low :: rest =>
    if isHighSurrogate high && isLowSurrogate low then
      let point := 0x10000 + 0x400 * (high - 0xd800) + (low - 0xdc00)
      (charsOfUnits? rest).map (Char.ofNat point :: ·)
    else if isHighSurrogate high || isLowSurrogate high then none
    else (charsOfUnits? (.code low :: rest)).map (Char.ofNat high :: ·)
  | .code unit :: rest =>
    if isHighSurrogate unit || isLowSurrogate unit then none
    else (charsOfUnits? rest).map (Char.ofNat unit :: ·)

/-- The token of a string, from the text between its quotes. -/
def stringToken? (spelling : List Char) : Option Token := do
  let units ← stringUnits? spelling
  return .string ((charsOfUnits? units).map String.ofList)

/-! ## Numbers -/

/-- A non-empty run of digits at the start of a text is skipped. -/
def skipDigits? (chars : List Char) : Option (List Char) :=
  match chars with
  | [] => none
  | c :: rest => if c.isDigit then some (rest.dropWhile Char.isDigit) else none

/-- The integer part of a number, which has no superfluous zeros, is skipped. -/
def skipInteger? : List Char → Option (List Char)
  | '0' :: rest => some rest
  | chars => skipDigits? chars

/-- A fraction is skipped if there is one. -/
def skipFraction? : List Char → Option (List Char)
  | '.' :: rest => skipDigits? rest
  | chars => some chars

/-- An exponent is skipped if there is one. -/
def skipExponent? : List Char → Option (List Char)
  | [] => some []
  | c :: rest =>
    if c = 'e' || c = 'E' then
      match rest with
      | '+' :: digits => skipDigits? digits
      | '-' :: digits => skipDigits? digits
      | digits => skipDigits? digits
    else some (c :: rest)

/-- The text is a number. -/
def isNumber (chars : List Char) : Bool :=
  let unsigned := match chars with
    | '-' :: rest => rest
    | other => other
  match ((skipInteger? unsigned).bind skipFraction?).bind skipExponent? with
  | some [] => true
  | _ => false

/-- The token of a number. -/
def numberToken? (chars : List Char) : Option Token :=
  if isNumber chars then
    match Text.decimal? chars with
    | some value => some (.natural value)
    | none => some (.numeral (String.ofList chars))
  else none

/-! ## The lexer -/

/-- The token of a word. -/
def wordToken? (chars : List Char) : Option Token :=
  if chars = ['n', 'u', 'l', 'l'] then some .null
  else if chars = ['t', 'r', 'u', 'e'] then some (.boolean true)
  else if chars = ['f', 'a', 'l', 's', 'e'] then some (.boolean false)
  else none

/-- The token of a punctuation mark. -/
def punctuation? (c : Char) : Option Token :=
  if c = '{' then some .openBrace
  else if c = '}' then some .closeBrace
  else if c = '[' then some .openBracket
  else if c = ']' then some .closeBracket
  else if c = ',' then some .comma
  else if c = ':' then some .colon
  else none

/-- A character that may stand between tokens. -/
def isSpace (c : Char) : Bool := c == ' ' || c == '\t' || c == '\n' || c == '\r'

/-- A character that numbers are made of. -/
def isNumberChar (c : Char) : Bool :=
  c.isDigit || c == '-' || c == '+' || c == '.' || c == 'e' || c == 'E'

/-- Where a lexer stands. What has been read of a token is kept back to front. -/
inductive Lexer where
  | between
  | number (read : List Char)
  | word (read : List Char)
  | string (read : List Char)
  /-- In a string, after a backslash. -/
  | escape (read : List Char)

namespace Lexer

/-- What a character starts between tokens. -/
def start (c : Char) : Option (List Token × Lexer) :=
  if isSpace c then some ([], .between)
  else if c = '"' then some ([], .string [])
  else if c.isDigit || c == '-' then some ([], .number [c])
  else if c.isAlpha then some ([], .word [c])
  else (punctuation? c).map fun token => ([token], .between)

/-- What a character starts after a token has ended. -/
def startAfter (token : Option Token) (c : Char) : Option (List Token × Lexer) := do
  let token ← token
  let (tokens, lexer) ← start c
  return (token :: tokens, lexer)

/-- The tokens that a character completes, and where the lexer stands after it. -/
def step (c : Char) : Lexer → Option (List Token × Lexer)
  | between => start c
  | number read =>
    if isNumberChar c then some ([], .number (c :: read))
    else startAfter (numberToken? read.reverse) c
  | word read =>
    if c.isAlpha then some ([], .word (c :: read)) else startAfter (wordToken? read.reverse) c
  | string read =>
    if c = '"' then (stringToken? read.reverse).map fun token => ([token], .between)
    else if c = '\\' then some ([], .escape read)
    else if c.toNat < 0x20 then none
    else some ([], .string (c :: read))
  | escape read =>
    if c.toNat < 0x20 then none else some ([], .string (c :: '\\' :: read))

/-- The tokens that the end of the text completes. -/
def finish : Lexer → Option (List Token)
  | between => some []
  | number read => (numberToken? read.reverse).map ([·])
  | word read => (wordToken? read.reverse).map ([·])
  | string _ => none
  | escape _ => none

/-- Read one more character. The tokens so far are kept back to front. -/
def advance (state : List Token × Lexer) (c : Char) : Option (List Token × Lexer) := do
  let (emitted, next) ← state.2.step c
  return (emitted.reverse ++ state.1, next)

end Lexer

/-- The tokens of a text. -/
def Token.scan (text : List Char) : Option (List Token) := do
  let (tokens, lexer) ← text.foldlM Lexer.advance ([], .between)
  let last ← lexer.finish
  return tokens.reverse ++ last

end Json

end LogCalls
