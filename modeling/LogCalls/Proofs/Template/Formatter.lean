import LogCalls.Proofs.Template.Segments

/-! # Templates as the formatter sees them

Templates are handled as source text, in which a backslash of the running program takes two
characters and a line break is a backslash and a letter. The formatter sees the text that the source
spells. Here the formatter is written down by itself, over that text, and the two ways of reading a
template are shown to agree. -/

namespace LogCalls

namespace Template

/-! ## The text that a source text spells -/

/-- The character that a backslash and a letter spell. -/
def escapeValue? : Char → Option Char
  | 'n' => some '\n'
  | 't' => some '\t'
  | 'r' => some '\r'
  | 'b' => some '\x08'
  | 'f' => some '\x0c'
  | '"' => some '"'
  | '\x27' => some '\x27'
  | '\\' => some '\\'
  | _ => none

/-- The characters that source characters spell, unless a backslash among them starts no escape. -/
def spelledChars? : List Char → Option (List Char)
  | [] => some []
  | ['\\'] => none
  | '\\' :: letter :: rest => do
      let value ← escapeValue? letter
      let values ← spelledChars? rest
      return value :: values
  | c :: rest => (spelledChars? rest).map (c :: ·)

/-- The text that a source text spells. -/
def spelled? (raw : String) : Option String := (spelledChars? raw.toList).map String.ofList

/-- The source characters spell the characters. -/
inductive Spells : List Char → List Char → Prop where
  | nil : Spells [] []
  | plain {c : Char} {raw text : List Char} :
      c ≠ '\\' → Spells raw text → Spells (c :: raw) (c :: text)
  | escape {letter value : Char} {raw text : List Char} :
      escapeValue? letter = some value → Spells raw text →
      Spells ('\\' :: letter :: raw) (value :: text)

/-- No escape spells a brace. -/
theorem escapeValue?_ne_braces {letter value : Char} (spells : escapeValue? letter = some value) :
    value ≠ '{' ∧ value ≠ '}' := by
  revert spells
  fun_cases escapeValue? letter <;> rintro ⟨⟩ <;> decide

/-- Only two backslashes spell one. -/
theorem escapeValue?_eq_backslash {letter : Char} :
    escapeValue? letter = some '\\' ↔ letter = '\\' := by
  constructor
  · fun_cases escapeValue? letter <;> simp
  · rintro rfl
    rfl

theorem spelledChars?_cons {c : Char} (plain : c ≠ '\\') (rest : List Char) :
    spelledChars? (c :: rest) = (spelledChars? rest).map (c :: ·) := by
  rw [spelledChars?]
  · exact fun isSlash _ => plain isSlash
  · exact fun _ _ isSlash _ => plain isSlash

theorem spelledChars?_eq_some_iff {raw text : List Char} :
    spelledChars? raw = some text ↔ Spells raw text := by
  constructor
  · intro spells
    induction raw using spelledChars?.induct generalizing text with
    | case1 =>
      cases spells
      exact .nil
    | case2 => cases spells
    | case3 letter rest ih =>
      simp only [spelledChars?, Option.bind_eq_bind, Option.bind_eq_some_iff] at spells
      obtain ⟨value, found, values, spellsRest, whole⟩ := spells
      cases whole
      exact .escape found (ih spellsRest)
    | case4 c rest notLast notEscape ih =>
      have plain : c ≠ '\\' := by
        rintro rfl
        cases rest with
        | nil => exact notLast rfl rfl
        | cons letter others => exact notEscape letter others rfl rfl
      rw [spelledChars?_cons plain, Option.map_eq_some_iff] at spells
      obtain ⟨values, spellsRest, rfl⟩ := spells
      exact .plain plain (ih spellsRest)
  · intro spells
    induction spells with
    | nil => rfl
    | plain plain _ ih => rw [spelledChars?_cons plain, ih]; rfl
    | escape found _ ih => simp [spelledChars?, found, ih]

theorem spelled?_eq_some_iff {raw text : String} :
    spelled? raw = some text ↔ Spells raw.toList text.toList := by
  rw [spelled?, Option.map_eq_some_iff, ← spelledChars?_eq_some_iff]
  constructor
  · rintro ⟨values, spells, rfl⟩
    rw [spells, String.toList_ofList]
  · exact fun spells => ⟨text.toList, spells, String.ofList_toList⟩

namespace Spells

variable {raw text : List Char}

/-- Texts one after the other spell what they spell, one after the other. -/
theorem append {front back values : List Char} (first : Spells front text)
    (second : Spells back values) : Spells (front ++ back) (text ++ values) := by
  induction first with
  | nil => exact second
  | plain plain _ ih => exact .plain plain ih
  | escape found _ ih => exact .escape found ih

protected theorem placeholder : Spells placeholder placeholder :=
  .plain (by decide) (.plain (by decide) .nil)

/-- No escape reaches into braces, so the texts before them and after them spell theirs. -/
theorem of_append_braces {run rest : List Char} (spells : Spells (run ++ placeholder ++ rest) text) :
    ∃ front back, Spells run front ∧ Spells rest back ∧ text = front ++ placeholder ++ back := by
  generalize whole : run ++ placeholder ++ rest = source at spells
  induction spells generalizing run with
  | nil => simp [placeholder] at whole
  | plain plain spells ih =>
    cases run with
    | nil =>
      cases whole
      cases spells with
      | plain _ spellsRest => exact ⟨[], _, .nil, spellsRest, rfl⟩
    | cons c run =>
      cases whole
      obtain ⟨front, back, spellsRun, spellsRest, rfl⟩ := ih rfl
      exact ⟨_, back, .plain plain spellsRun, spellsRest, rfl⟩
  | escape found _ ih =>
    rcases run with _ | ⟨_, _ | ⟨_, run⟩⟩
    · cases whole
    · -- A backslash and `{` are no escape.
      cases whole
      cases found
    · cases whole
      obtain ⟨front, back, spellsRun, spellsRest, rfl⟩ := ih rfl
      exact ⟨_, back, .escape found spellsRun, spellsRest, rfl⟩

/-- Two backslashes at the end of the source text are an escape of their own. -/
theorem of_append_backslash (spells : Spells (raw ++ backslash) text) :
    ∃ shorter, Spells raw shorter ∧ text = shorter ++ ['\\'] := by
  generalize whole : raw ++ backslash = source at spells
  induction spells generalizing raw with
  | nil => simp [backslash] at whole
  | plain plain _ ih =>
    cases raw with
    | nil =>
      cases whole
      exact absurd rfl plain
    | cons c raw =>
      cases whole
      obtain ⟨shorter, spellsRaw, rfl⟩ := ih rfl
      exact ⟨_, .plain plain spellsRaw, rfl⟩
  | escape found spells ih =>
    rcases raw with _ | ⟨_, _ | ⟨_, raw⟩⟩
    · cases whole
      cases found
      cases spells
      exact ⟨[], .nil, rfl⟩
    · -- Of three backslashes the last starts no escape.
      cases whole
      cases spells with
      | plain plain _ => exact absurd rfl plain
    · cases whole
      obtain ⟨shorter, spellsRaw, rfl⟩ := ih rfl
      exact ⟨_, .escape found spellsRaw, rfl⟩

/-- A backslash at the end of the spelled text is spelled by two at the end of the source text. -/
theorem of_spells_backslash {shorter : List Char} (spells : Spells raw (shorter ++ ['\\'])) :
    ∃ front, raw = front ++ backslash := by
  generalize whole : shorter ++ ['\\'] = text at spells
  induction spells generalizing shorter with
  | nil => simp at whole
  | plain plain _ ih =>
    cases shorter with
    | nil =>
      cases whole
      exact absurd rfl plain
    | cons c shorter =>
      obtain ⟨front, rfl⟩ := ih (List.cons.inj whole).2
      exact ⟨_ :: front, rfl⟩
  | @escape letter value raw text found spells ih =>
    cases shorter with
    | nil =>
      cases whole
      cases spells
      rw [escapeValue?_eq_backslash.mp found]
      exact ⟨[], rfl⟩
    | cons c shorter =>
      obtain ⟨front, rfl⟩ := ih (List.cons.inj whole).2
      exact ⟨'\\' :: letter :: front, rfl⟩

/-- Without backslashes at the end of the source text, the spelled text does not end in one. -/
theorem getLast?_ne_backslash (spells : Spells raw text) (bare : trailingBackslashes raw = 0) :
    text.getLast? ≠ some '\\' := by
  intro ends
  obtain ⟨shorter, rfl⟩ := List.getLast?_eq_some_iff.mp ends
  obtain ⟨front, rfl⟩ := spells.of_spells_backslash
  rw [trailingBackslashes_append_backslash] at bare
  cases bare

/-- Braces are spelled by braces only. -/
theorem head?_eq_closing (spells : Spells raw text) (closes : text.head? = some '}') :
    raw.head? = some '}' := by
  cases spells with
  | nil => cases closes
  | plain _ _ => exact closes
  | escape found _ =>
    rw [List.head?_cons, Option.some.injEq] at closes
    exact absurd closes (escapeValue?_ne_braces found).2

/-- A text without braces spells one without braces. -/
theorem solid (spells : Spells raw text) (solid : Solid raw) : Solid text := by
  induction spells with
  | nil => exact solid_nil
  | plain _ spells ih =>
    obtain ⟨apart, solidRest⟩ := solid_cons.mp solid
    refine solid_cons.mpr ⟨?_, ih solidRest⟩
    rintro ⟨rfl, closes⟩
    exact apart ⟨rfl, spells.head?_eq_closing closes⟩
  | escape found _ ih =>
    obtain ⟨-, solidRest⟩ := solid_cons.mp solid
    obtain ⟨-, solidRest⟩ := solid_cons.mp solidRest
    refine solid_cons.mpr ⟨?_, ih solidRest⟩
    rintro ⟨opens, -⟩
    exact (escapeValue?_ne_braces found).1 opens

end Spells

end Template

namespace Formatter

/-! ## The formatter -/

/-- What the formatter gives out: a character, or a mark where an argument goes. -/
inductive Item where
  | char (value : Char)
  | argument
  deriving DecidableEq

/-- Backslashes that are given out. -/
def slashes (count : Nat) : List Item := List.replicate count (.char '\\')

/-- What braces stand for after so many backslashes. One makes them text, and one of more is dropped.
-/
def braces : Nat → List Item
  | 0 => [.argument]
  | 1 => [.char '{', .char '}']
  | count + 2 => slashes (count + 1) ++ [.argument]

/-- What the formatter gives out for a text. `held` is the number of backslashes read just before,
which are held back until it is known what follows them. -/
def items (held : Nat) : List Char → List Item
  | [] => slashes held
  | '{' :: '}' :: rest => braces held ++ items 0 rest
  | '\\' :: rest => items (held + 1) rest
  | c :: rest => slashes held ++ .char c :: items 0 rest

/-- The texts around the arguments. `carried` is text of the first one that comes before. -/
def texts (carried : List Char) : List Item → List (List Char)
  | [] => [carried]
  | .char c :: rest => texts (carried ++ [c]) rest
  | .argument :: rest => carried :: texts [] rest

/-- The texts around the arguments of a format. -/
def pieces (format : String) : List String := (texts [] (items 0 format.toList)).map String.ofList

/-- How many arguments a format takes. -/
def argumentCount (format : String) : Nat := (items 0 format.toList).count .argument

theorem items_cons {c : Char} {rest : List Char} (apart : ¬(c = '{' ∧ rest.head? = some '}'))
    (plain : c ≠ '\\') (held : Nat) :
    items held (c :: rest) = slashes held ++ .char c :: items 0 rest := by
  rw [items]
  · rintro others rfl rfl
    exact apart ⟨rfl, rfl⟩
  · exact plain

/-- A run without braces that ends in no backslash is given out as it is. -/
theorem items_append {run rest : List Char} (solid : Template.Solid run)
    (bare : run.getLast? ≠ some '\\') (opens : rest.head? ≠ some '}') :
    ∀ {held : Nat}, (run = [] → held = 0) →
      items held (run ++ rest) = slashes held ++ run.map .char ++ items 0 rest := by
  induction run with
  | nil =>
    intro held settled
    rw [settled rfl]
    rfl
  | cons c run ih =>
    intro held _
    obtain ⟨apart, solidRun⟩ := Template.solid_cons.mp solid
    have apartRest : ¬(c = '{' ∧ (run ++ rest).head? = some '}') := by
      cases run with
      | nil => exact fun both => opens both.2
      | cons next others => exact apart
    have bareRun : run.getLast? ≠ some '\\' := by
      cases run with
      | nil => simp
      | cons next others => rwa [List.getLast?_cons_cons] at bare
    by_cases slash : c = '\\'
    · subst slash
      -- The run goes on, so the backslash is given out with the next character that is none.
      have more : run ≠ [] := by
        rintro rfl
        exact bare rfl
      rw [List.cons_append, items, ih solidRun bareRun (absurd · more)]
      simp [slashes, List.replicate_succ']
    · rw [List.cons_append, items_cons apartRest slash,
        ih solidRun bareRun fun _ => rfl]
      simp [slashes]

/-- Backslashes are held back. -/
theorem items_replicate (count held : Nat) (rest : List Char) :
    items held (List.replicate count '\\' ++ rest) = items (held + count) rest := by
  induction count generalizing held with
  | zero => rfl
  | succ count ih =>
    rw [List.replicate_succ, List.cons_append, items, ih, Nat.add_right_comm,
      Nat.add_assoc]

/-- A text is one that ends in no backslash, with backslashes after it. -/
theorem exists_append_replicate (text : List Char) :
    ∃ body count, body.getLast? ≠ some '\\' ∧ text = body ++ List.replicate count '\\' := by
  obtain ⟨back, rfl⟩ : ∃ back, text = back.reverse := ⟨text.reverse, by simp⟩
  induction back with
  | nil => exact ⟨[], 0, by simp, rfl⟩
  | cons c back ih =>
    by_cases slash : c = '\\'
    · obtain ⟨body, count, bare, whole⟩ := ih
      refine ⟨body, count + 1, bare, ?_⟩
      rw [List.reverse_cons, whole, slash, List.append_assoc, List.replicate_succ']
    · exact ⟨back.reverse ++ [c], 0, by simpa using slash, by simp⟩

/-- The backslashes at the end of a run are held back for what follows it. -/
theorem items_append_replicate {body rest : List Char} (solid : Template.Solid body)
    (bare : body.getLast? ≠ some '\\') (opens : rest.head? ≠ some '}') (count : Nat) :
    items 0 (body ++ List.replicate count '\\' ++ rest) = body.map .char ++ items count rest := by
  have opens' : (List.replicate count '\\' ++ rest).head? ≠ some '}' := by
    cases count with
    | zero => exact opens
    | succ count => simp [List.replicate_succ]
  rw [List.append_assoc, items_append solid bare opens' fun _ => rfl, items_replicate, Nat.zero_add]
  rfl

/-- A text without braces is given out as it is. -/
theorem items_solid {run : List Char} (solid : Template.Solid run) :
    items 0 run = run.map .char := by
  obtain ⟨body, count, bare, rfl⟩ := exists_append_replicate run
  have whole := @items_append_replicate body [] solid.of_append_left bare (by simp) count
  rw [List.append_nil] at whole
  rw [whole, List.map_append, List.map_replicate]
  rfl

/-- Braces after a run are read by the backslashes at its end. -/
theorem items_braces {body : List Char} (solid : Template.Solid body)
    (bare : body.getLast? ≠ some '\\') (count : Nat) (rest : List Char) :
    items 0 (body ++ List.replicate count '\\' ++ Template.placeholder ++ rest) =
      body.map .char ++ (braces count ++ items 0 rest) := by
  rw [List.append_assoc (body ++ _), items_append_replicate solid bare (by simp [Template.placeholder])]
  rfl

/-- Of several backslashes before braces one is dropped. -/
theorem items_doubled {run : List Char} (solid : Template.Solid run) (rest : List Char) :
    items 0 (run ++ ['\\'] ++ ['\\'] ++ Template.placeholder ++ rest) =
      (run ++ ['\\']).map .char ++ .argument :: items 0 rest := by
  obtain ⟨body, count, bare, rfl⟩ := exists_append_replicate run
  have whole := items_braces solid.of_append_left bare (count + 2) rest
  simpa [braces, slashes, List.replicate_succ'] using whole

/-- Characters go to the text that is carried. -/
theorem texts_append (chars : List Char) (rest : List Item) (carried : List Char) :
    texts carried (chars.map .char ++ rest) = texts (carried ++ chars) rest := by
  induction chars generalizing carried with
  | nil => rw [List.map_nil, List.nil_append, List.append_nil]
  | cons c chars ih =>
    rw [List.map_cons, List.cons_append, texts, ih, List.append_assoc]
    rfl

/-- There is one text more than there are arguments. -/
theorem length_texts (items : List Item) (carried : List Char) :
    (texts carried items).length = items.count .argument + 1 := by
  induction items generalizing carried with
  | nil => rfl
  | cons item rest ih =>
    cases item with
    | char c => simp [texts, ih]
    | argument => rw [texts, List.length_cons, ih, List.count_cons_self]

end Formatter

namespace Template

open Formatter (items texts)

/-! ## The two readings agree -/

/-- Source text is cut where the formatter cuts the text that it spells. -/
theorem map_split_eq_texts (raw : List Char) :
    ∀ {carried front text : List Char}, Spells carried front → Spells raw text →
      (split carried raw).map spelledChars? = (texts front (items 0 text)).map some := by
  induction raw using templateInduction with
  | solid run solid =>
    intro carried front text spellsCarried spells
    have cut := Formatter.texts_append text [] front
    rw [List.append_nil, ← Formatter.items_solid (spells.solid solid)] at cut
    rw [split_solid solid, cut, List.map_singleton,
      spelledChars?_eq_some_iff.mpr (spellsCarried.append spells)]
    rfl
  | active run raw solid bare ih =>
    intro carried front text spellsCarried spells
    obtain ⟨before, after, spellsRun, spellsRest, rfl⟩ := spells.of_append_braces
    have given := Formatter.items_braces (spellsRun.solid solid)
      (spellsRun.getLast?_ne_backslash bare) 0 after
    rw [List.replicate_zero, List.append_nil] at given
    rw [split_active solid bare, given, Formatter.texts_append, List.map_cons,
      spelledChars?_eq_some_iff.mpr (spellsCarried.append spellsRun),
      ih .nil spellsRest]
    rfl
  | escaped run raw solid bare ih =>
    intro carried front text spellsCarried spells
    obtain ⟨_, after, spellsWhole, spellsRest, rfl⟩ := spells.of_append_braces
    obtain ⟨before, spellsRun, rfl⟩ := spellsWhole.of_append_backslash
    have given := Formatter.items_braces (spellsRun.solid solid)
      (spellsRun.getLast?_ne_backslash bare) 1 after
    rw [List.replicate_one] at given
    rw [split_escaped solid bare, given, Formatter.texts_append,
      ih ((spellsCarried.append spellsRun).append .placeholder) spellsRest]
    simp only [Formatter.braces, placeholder, List.cons_append, List.nil_append, texts,
      List.append_assoc]
  | doubled run raw solid ends ih =>
    intro carried front text spellsCarried spells
    obtain ⟨_, after, spellsWhole, spellsRest, rfl⟩ := spells.of_append_braces
    obtain ⟨before, spellsRun, rfl⟩ := spellsWhole.of_append_backslash
    -- One more backslash stands before the one that is dropped.
    obtain ⟨shorter, rfl⟩ := exists_append_backslash ends
    obtain ⟨body, spellsShorter, rfl⟩ := spellsRun.of_append_backslash
    have solidBody := spellsShorter.solid (solid_append_backslash.mp solid)
    rw [split_doubled solid ends, Formatter.items_doubled solidBody, Formatter.texts_append,
      List.map_cons, spelledChars?_eq_some_iff.mpr (spellsCarried.append spellsRun),
      ih .nil spellsRest]
    rfl

/-- **Templates are read as the formatter reads them.** For source text that spells a text, the pieces
spell the texts around the arguments of that text, and the placeholders are its arguments. -/
theorem pieces_spelled {raw text : String} (spells : spelled? raw = some text) :
    (pieces raw).map spelled? = (Formatter.pieces text).map some ∧
      placeholderCount raw = Formatter.argumentCount text := by
  have cut := map_split_eq_texts raw.toList .nil (spelled?_eq_some_iff.mp spells)
  constructor
  · have chars (text : List Char) :
        spelled? (String.ofList text) = (spelledChars? text).map String.ofList := by
      rw [spelled?, String.toList_ofList]
    rw [split] at cut
    have strings := congrArg (List.map (Option.map String.ofList)) cut
    rw [List.map_map, List.map_map] at strings
    rw [pieces, Formatter.pieces, List.map_map, List.map_map]
    simpa only [Function.comp_def, chars, Option.map_some] using strings
  · have sizes := congrArg List.length cut
    rw [List.length_map, List.length_map, length_split, Formatter.length_texts] at sizes
    exact Nat.succ.inj sizes

/-- A line break, braces after two backslashes and braces after one. -/
theorem pieces_spelled_backslashes :
    let raw := "a\\n\\\\\\\\\x7b\x7db\\\\\x7b\x7d"
    spelled? raw = some "a\n\\\\\x7b\x7db\\\x7b\x7d" ∧
      (pieces raw).map spelled? = [some "a\n\\", some "b\x7b\x7d"] ∧ placeholderCount raw = 1 := by
  intro raw
  have spells : spelled? raw = some "a\n\\\\\x7b\x7db\\\x7b\x7d" := by decide
  obtain ⟨read, counted⟩ := pieces_spelled spells
  exact ⟨spells, read.trans (by decide), counted.trans (by decide)⟩

end Template

end LogCalls
