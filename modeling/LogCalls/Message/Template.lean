/-! # Templates

The text of a template, as raw source text with `{}` for each placeholder. The formatter that reads
it at run time treats one backslash before `{}` as an escape that makes the braces text; of two or
more it drops one and keeps the placeholder. Source text spells each backslash twice. -/

namespace LogCalls.Template

/-- The placeholder of a template. -/
def placeholder : List Char := ['{', '}']

/-- One backslash of the running program, as spelled in source. -/
def backslash : List Char := ['\\', '\\']

/-- The text cut at every `{}`, so that there is one chunk more than there are braces. -/
@[grind =] def chunks : List Char → List (List Char)
  | [] => [[]]
  | '{' :: '}' :: rest => [] :: chunks rest
  | c :: rest =>
    match chunks rest with
    | [] => [[c]]
    | first :: others => (c :: first) :: others

/-- How many backslashes of the running program stand at the end of a text. -/
def trailingBackslashes (text : List Char) : Nat :=
  (text.reverse.takeWhile (· == '\\')).length / 2

/-- A text without the last backslash of the running program. -/
def dropBackslash (text : List Char) : List Char := text.take (text.length - 2)

/-- The placeholders among the braces that follow all chunks but the last. -/
@[grind =] def countPlaceholders : List (List Char) → Nat
  | [] => 0
  | [_] => 0
  | chunk :: rest => (if trailingBackslashes chunk = 1 then 0 else 1) + countPlaceholders rest

/-- The pieces that chunks form. `carried` is text of the piece that is being put together, which
goes on past braces that are escaped. -/
@[grind =] def joinChunks (carried : List Char) : List (List Char) → List (List Char)
  | [] => [carried]
  | [last] => [carried ++ last]
  | chunk :: rest =>
    match trailingBackslashes chunk with
    | 0 => (carried ++ chunk) :: joinChunks [] rest
    | 1 => joinChunks (carried ++ dropBackslash chunk ++ placeholder) rest
    | _ => (carried ++ dropBackslash chunk) :: joinChunks [] rest

/-- Chunks with braces put back between them, each preceded by a backslash unless the chunk before
it ends in one already. -/
@[grind =] def escapeChunks : List (List Char) → List Char
  | [] => []
  | [last] => last
  | chunk :: rest =>
    chunk ++ (if trailingBackslashes chunk = 0 then backslash else []) ++ placeholder ++
      escapeChunks rest

/-- No chunk but the last ends in a backslash. -/
@[grind =] def plainChunks : List (List Char) → Bool
  | [] => true
  | [_] => true
  | chunk :: rest => trailingBackslashes chunk == 0 && plainChunks rest

/-- How many arguments the template takes. -/
def placeholderCount (template : String) : Nat := countPlaceholders (chunks template.toList)

/-- The texts around the placeholders of the template, with escapes removed. -/
def pieces (template : String) : List String :=
  (joinChunks [] (chunks template.toList)).map String.ofList

/-- The text with every `{}` escaped, so that it prints as it is. -/
def escape (text : String) : String := String.ofList (escapeChunks (chunks text.toList))

/-- The text can be carried into a template: no `{}` in it follows a backslash, for which a template
has no spelling. -/
def isRepresentable (text : String) : Bool := plainChunks (chunks text.toList)

end LogCalls.Template
