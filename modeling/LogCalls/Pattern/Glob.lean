import LogCalls.Pattern.Sequence
import LogCalls.Text.Word

/-! # Globs over names

A glob is a name in which each `*` stands for any number of name characters. -/

namespace LogCalls.Glob

/-- The characters that `*` stands for. -/
def isNameChar (c : Char) : Bool := Text.isWordChar c || c == '.' || c == '$'

/-- What one character of a glob takes. -/
def item (c : Char) : PatternItem Char := if c = '*' then .many isNameChar else .one (· == c)

/-- The glob matches the whole name. -/
def isMatch (glob name : List Char) : Bool := PatternItem.isMatch (glob.map item) name

/-- The room that one character of a glob takes in bytes. A star takes a table of all name
characters; anything else takes one entry for each byte of its encoding. -/
def charSize (c : Char) : Nat := if c = '*' then 50080 else 32 * c.utf8Size

/-- The room that a glob takes, with the entries for its two ends. -/
def size (glob : List Char) : Nat := glob.foldr (fun c room => charSize c + room) 128

/-- The room that a glob may take as a rule: ten mebibytes, enough for 209 stars. -/
def sizeLimit : Nat := 10485760

end LogCalls.Glob
