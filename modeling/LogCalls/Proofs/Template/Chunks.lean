import LogCalls.Message.Template

/-! # Texts between braces

A text is a run of characters without `{}`, or such a run followed by `{}` and another text. All
scanners of templates look at a text in this way, and what they do with the braces depends on the
backslashes at the end of the run before them. This file gives the induction over texts and reads
the scanners off at its two cases. -/

namespace LogCalls.Template

variable {run text rest : List Char} {c : Char}

/-! ## Texts without braces -/

/-- The text has no `{}` in it. -/
def Solid (text : List Char) : Prop := chunks text = [text]

/-- A text has at least one chunk. -/
theorem chunks_ne_nil (text : List Char) : chunks text ≠ [] := by
  fun_cases chunks text <;> simp

/-- A character that does not start braces goes to the front of the first chunk. -/
theorem chunks_cons (apart : ¬(c = '{' ∧ rest.head? = some '}')) :
    chunks (c :: rest) = (chunks rest).modifyHead (c :: ·) := by
  rw [chunks]
  · cases found : chunks rest with
    | nil => exact absurd found (chunks_ne_nil rest)
    | cons first others => rfl
  · rintro others rfl rfl
    exact apart ⟨rfl, rfl⟩

/-- The empty text is solid. -/
theorem solid_nil : Solid [] := rfl

/-- A text has no braces if its first two characters are none and the rest has none. -/
theorem solid_cons : Solid (c :: rest) ↔ ¬(c = '{' ∧ rest.head? = some '}') ∧ Solid rest := by
  by_cases opens : c = '{' ∧ rest.head? = some '}'
  · obtain ⟨rfl, closes⟩ := opens
    obtain ⟨others, rfl⟩ := List.head?_eq_some_iff.mp closes
    simp [Solid, chunks]
  · rw [Solid, chunks_cons opens, Solid]
    cases found : chunks rest with
    | nil => exact absurd found (chunks_ne_nil rest)
    | cons first others => simp [opens]

/-- Backslashes at its end bring no braces into a text. -/
@[simp] theorem solid_append_backslash : Solid (text ++ backslash) ↔ Solid text := by
  induction text with
  | nil => exact ⟨fun _ => rfl, fun _ => rfl⟩
  | cons c rest ih =>
    have sameHead : (rest ++ backslash).head? = some '}' ↔ rest.head? = some '}' := by
      cases rest <;> simp [backslash]
    rw [List.cons_append, solid_cons, solid_cons, ih, sameHead]

/-- The front of a solid text is solid. -/
theorem Solid.of_append_left {front back : List Char} (solid : Solid (front ++ back)) :
    Solid front := by
  induction front with
  | nil => exact solid_nil
  | cons c rest ih =>
    rw [List.cons_append, solid_cons] at solid
    obtain ⟨apart, solidRest⟩ := solid
    refine solid_cons.mpr ⟨?_, ih solidRest⟩
    rintro ⟨rfl, closes⟩
    cases rest with
    | nil => cases closes
    | cons next others => exact apart ⟨rfl, closes⟩

/-- So is its back. -/
theorem Solid.of_append_right {front back : List Char} (solid : Solid (front ++ back)) :
    Solid back := by
  induction front with
  | nil => exact solid
  | cons c rest ih => exact ih (solid_cons.mp solid).2

/-- A stretch of a text without braces has none. -/
theorem Solid.of_isInfix {part : List Char} (within : part <:+: text) (solid : Solid text) :
    Solid part := by
  obtain ⟨front, back, rfl⟩ := within
  exact solid.of_append_left.of_append_right

/-- The first chunk of a text ends at its first braces. -/
theorem chunks_append_braces (solid : Solid run) (text : List Char) :
    chunks (run ++ placeholder ++ text) = run :: chunks text := by
  induction run with
  | nil => rfl
  | cons c rest ih =>
    obtain ⟨apart, solidRest⟩ := solid_cons.mp solid
    have stillApart : ¬(c = '{' ∧ (rest ++ placeholder ++ text).head? = some '}') := by
      cases rest with
      | nil => simp [placeholder]
      | cons next others => simpa using apart
    rw [List.cons_append, List.cons_append, chunks_cons stillApart,
      ih solidRest]
    rfl

/-- A text has no braces, or it is a run without braces, then braces, then another text. -/
theorem solid_or_braces (text : List Char) :
    Solid text ∨ ∃ run rest, Solid run ∧ text = run ++ placeholder ++ rest := by
  induction text with
  | nil => exact .inl rfl
  | cons c rest ih =>
    by_cases opens : c = '{' ∧ rest.head? = some '}'
    · obtain ⟨rfl, closes⟩ := opens
      cases rest with
      | nil => cases closes
      | cons next others =>
        cases closes
        exact .inr ⟨[], others, rfl, rfl⟩
    · obtain solid | ⟨run, others, solid, rfl⟩ := ih
      · exact .inl (solid_cons.mpr ⟨opens, solid⟩)
      · refine .inr ⟨c :: run, others, solid_cons.mpr ⟨?_, solid⟩, rfl⟩
        cases run with
        | nil => simp
        | cons next more => simpa using opens

/-- **Induction over the braces of a text.** -/
@[elab_as_elim] theorem braceInduction {motive : List Char → Prop}
    (solid : ∀ run, Solid run → motive run)
    (braces : ∀ run text, Solid run → motive text → motive (run ++ placeholder ++ text))
    (text : List Char) : motive text := by
  -- The induction is on the length: the text after the first braces is shorter.
  induction size : text.length using Nat.strongRecOn generalizing text with
  | ind size shorter =>
    obtain done | ⟨run, rest, done, rfl⟩ := solid_or_braces text
    · exact solid text done
    · refine braces run rest done (shorter rest.length ?_ rest rfl)
      subst size
      simp [placeholder]
      omega

/-! ## Backslashes at the end of a text -/

/-- The empty text ends in no backslash. -/
@[simp] theorem trailingBackslashes_nil : trailingBackslashes [] = 0 := rfl

/-- One more backslash at the end. -/
@[simp] theorem trailingBackslashes_append_backslash (text : List Char) :
    trailingBackslashes (text ++ backslash) = trailingBackslashes text + 1 := by
  simp only [trailingBackslashes, backslash, List.reverse_append, List.reverse_cons,
    List.reverse_nil, List.nil_append, List.cons_append, List.takeWhile_cons, beq_self_eq_true,
    if_true, List.length_cons]
  omega

/-- Only backslashes after the last braces stand at the end. -/
@[simp] theorem trailingBackslashes_append_braces (text rest : List Char) :
    trailingBackslashes (text ++ placeholder ++ rest) = trailingBackslashes rest := by
  have stops (front back : List Char) :
      (front ++ '}' :: back).takeWhile (· == '\\') = front.takeWhile (· == '\\') := by
    induction front with
    | nil => rfl
    | cons c front ih =>
      rw [List.cons_append, List.takeWhile_cons, List.takeWhile_cons, ih]
  have reversed : (text ++ placeholder ++ rest).reverse =
      rest.reverse ++ '}' :: ('{' :: text.reverse) := by
    simp [placeholder]
  rw [trailingBackslashes, reversed, stops, trailingBackslashes]

/-- A backslash is dropped. -/
@[simp] theorem dropBackslash_append_backslash (text : List Char) :
    dropBackslash (text ++ backslash) = text := by
  simp [dropBackslash, backslash]

/-- A text that ends in a backslash is a shorter text with this backslash at its end. -/
theorem exists_append_backslash (ends : trailingBackslashes text ≠ 0) :
    ∃ shorter, text = shorter ++ backslash := by
  obtain ⟨back, rfl⟩ : ∃ back, text = back.reverse := ⟨text.reverse, by simp⟩
  rw [trailingBackslashes, List.reverse_reverse] at ends
  -- At least two source characters stand at the end, and both are backslashes.
  match back with
  | [] => simp at ends
  | [c] =>
    by_cases slash : c = '\\' <;> simp [slash] at ends
  | c :: d :: rest =>
    by_cases slash : c = '\\'
    · by_cases slash' : d = '\\'
      · subst slash slash'
        exact ⟨rest.reverse, by simp [backslash]⟩
      · simp [slash, slash'] at ends
    · simp [slash] at ends

/-! ## The scanners on characters -/

/-- The pieces of a template. `carried` is text of the first piece that comes before. -/
def split (carried text : List Char) : List (List Char) := joinChunks carried (chunks text)

/-- The text with its braces escaped. -/
def escaped (text : List Char) : List Char := escapeChunks (chunks text)

/-- No braces in the text follow a backslash. -/
def Plain (text : List Char) : Prop := plainChunks (chunks text) = true

/-- How many placeholders the text has. -/
def count (text : List Char) : Nat := countPlaceholders (chunks text)

/-- What an escape adds in front of braces. -/
def guard (run : List Char) : List Char := if trailingBackslashes run = 0 then backslash else []

/-- **Induction over the braces of a template.** They follow no backslash, or one, or more. -/
@[elab_as_elim] theorem templateInduction {motive : List Char → Prop}
    (solid : ∀ run, Solid run → motive run)
    (active : ∀ run text, Solid run → trailingBackslashes run = 0 → motive text →
      motive (run ++ placeholder ++ text))
    (escaped : ∀ run text, Solid run → trailingBackslashes run = 0 → motive text →
      motive (run ++ backslash ++ placeholder ++ text))
    (doubled : ∀ run text, Solid run → trailingBackslashes run ≠ 0 → motive text →
      motive (run ++ backslash ++ placeholder ++ text))
    (text : List Char) : motive text := by
  induction text using braceInduction with
  | solid run done => exact solid run done
  | braces run text done ih =>
    by_cases bare : trailingBackslashes run = 0
    · exact active run text done bare ih
    · obtain ⟨shorter, rfl⟩ := exists_append_backslash bare
      rw [solid_append_backslash] at done
      by_cases single : trailingBackslashes shorter = 0
      · exact escaped shorter text done single ih
      · exact doubled shorter text done single ih

/-- A solid text is one piece. -/
theorem split_solid (solid : Solid run) (carried : List Char) :
    split carried run = [carried ++ run] := by
  rw [split, solid]
  rfl

/-- A solid text needs no escape. -/
theorem escaped_solid (solid : Solid run) : escaped run = run := by
  rw [escaped, solid]
  rfl

/-- A solid text is plain. -/
theorem plain_solid (solid : Solid run) : Plain run := by
  rw [Plain, solid]
  rfl

/-- A solid text has no placeholder. -/
theorem count_solid (solid : Solid run) : count run = 0 := by
  rw [count, solid]
  rfl

/-- Braces after no backslash end a piece. -/
theorem split_active (solid : Solid run)
    (bare : trailingBackslashes run = 0) (carried text : List Char) :
    split carried (run ++ placeholder ++ text) = (carried ++ run) :: split [] text := by
  rw [split, chunks_append_braces solid]
  cases found : chunks text with
  | nil => exact absurd found (chunks_ne_nil text)
  | cons first others => simp only [joinChunks, split, found, bare]

/-- Braces after one backslash are text, and the backslash is not. -/
theorem split_escaped (solid : Solid run) (bare : trailingBackslashes run = 0)
    (carried text : List Char) :
    split carried (run ++ backslash ++ placeholder ++ text) =
      split (carried ++ run ++ placeholder) text := by
  rw [split, chunks_append_braces (solid_append_backslash.mpr solid)]
  cases found : chunks text with
  | nil => exact absurd found (chunks_ne_nil text)
  | cons first others =>
    simp only [joinChunks, split, found, trailingBackslashes_append_backslash, bare,
      dropBackslash_append_backslash]

/-- Braces after more backslashes end a piece that has one backslash less. -/
theorem split_doubled (solid : Solid run) (ends : trailingBackslashes run ≠ 0)
    (carried text : List Char) :
    split carried (run ++ backslash ++ placeholder ++ text) = (carried ++ run) :: split [] text := by
  obtain ⟨more, several⟩ := Nat.exists_eq_succ_of_ne_zero ends
  rw [split, chunks_append_braces (solid_append_backslash.mpr solid)]
  cases found : chunks text with
  | nil => exact absurd found (chunks_ne_nil text)
  | cons first others =>
    simp only [joinChunks, split, found, trailingBackslashes_append_backslash, several,
      dropBackslash_append_backslash]

/-- The first braces of a text are escaped, unless they follow a backslash already. -/
theorem escaped_braces (solid : Solid run) (text : List Char) :
    escaped (run ++ placeholder ++ text) = run ++ guard run ++ placeholder ++ escaped text := by
  rw [escaped, chunks_append_braces solid]
  cases found : chunks text with
  | nil => exact absurd found (chunks_ne_nil text)
  | cons first others => simp only [escapeChunks, escaped, guard, found]

/-- The first braces of a text that can be represented follow no backslash. -/
theorem plain_braces (solid : Solid run) :
    Plain (run ++ placeholder ++ text) ↔ trailingBackslashes run = 0 ∧ Plain text := by
  rw [Plain, chunks_append_braces solid]
  cases found : chunks text with
  | nil => exact absurd found (chunks_ne_nil text)
  | cons first others => simp [plainChunks, Plain, found]

/-- The first braces of a template are a placeholder, unless they follow one backslash. -/
theorem count_braces (solid : Solid run) (text : List Char) : count (run ++ placeholder ++ text) =
      (if trailingBackslashes run = 1 then 0 else 1) + count text := by
  rw [count, chunks_append_braces solid]
  cases found : chunks text with
  | nil => exact absurd found (chunks_ne_nil text)
  | cons first others => simp only [countPlaceholders, count, found]

/-! ## Plain texts character by character -/

/-- A character in front of a text brings a backslash to its end only if it completes one. -/
theorem trailingBackslashes_cons_eq_zero : trailingBackslashes (c :: text) = 0 ↔
      ¬(c = '\\' ∧ text = ['\\']) ∧ trailingBackslashes text = 0 := by
  constructor
  · intro none
    refine ⟨?_, Decidable.byContradiction fun ends => ?_⟩
    · rintro ⟨rfl, rfl⟩
      exact absurd none (by decide)
    · obtain ⟨shorter, rfl⟩ := exists_append_backslash ends
      rw [← List.cons_append, trailingBackslashes_append_backslash] at none
      cases none
  · rintro ⟨incomplete, none⟩
    refine Decidable.byContradiction fun ends => ?_
    obtain ⟨shorter, whole⟩ := exists_append_backslash ends
    cases shorter with
    | nil =>
      cases whole
      exact incomplete ⟨rfl, rfl⟩
    | cons first others =>
      rw [List.cons_append, List.cons.injEq] at whole
      rw [whole.2, trailingBackslashes_append_backslash] at none
      cases none

/-- The text starts with half a backslash and with braces after it. -/
def startsEscaped (text : List Char) : Bool := ['\\', '{', '}'].isPrefixOf text

/-- Escaped braces at the start of a text. -/
theorem startsEscaped_iff :
    startsEscaped text = true ↔ ∃ rest, text = '\\' :: '{' :: '}' :: rest := by
  rw [startsEscaped, List.isPrefixOf_iff_prefix]
  exact ⟨fun ⟨rest, whole⟩ => ⟨rest, whole.symm⟩, fun ⟨rest, whole⟩ => ⟨rest, whole.symm⟩⟩

/-- A run without braces is half a backslash just if braces after it make it start a half escape. -/
theorem startsEscaped_braces (solid : Solid run) (text : List Char) :
    startsEscaped (run ++ placeholder ++ text) = true ↔ run = ['\\'] := by
  rw [startsEscaped_iff]
  constructor
  · rintro ⟨rest, whole⟩
    match run with
    | [] => cases whole
    | [c] =>
      cases whole
      rfl
    | [c, d] => cases whole
    | c :: d :: e :: others =>
      cases whole
      -- The braces would stand in the run.
      obtain ⟨-, inner⟩ := solid_cons.mp solid
      exact absurd ⟨rfl, rfl⟩ (solid_cons.mp inner).1
  · rintro rfl
    exact ⟨text, rfl⟩

/-- A character in front of a plain text keeps it plain unless it completes a backslash before braces.
-/
theorem plain_cons_of_apart (apart : ¬(c = '{' ∧ rest.head? = some '}')) :
    Plain (c :: rest) ↔ ¬(c = '\\' ∧ startsEscaped rest = true) ∧ Plain rest := by
  obtain solid | ⟨run, text, solid, rfl⟩ := solid_or_braces rest
  · have unescaped : ¬ startsEscaped rest = true := by
      rw [startsEscaped_iff]
      rintro ⟨others, rfl⟩
      exact absurd ⟨rfl, rfl⟩ (solid_cons.mp (solid_cons.mp solid).2).1
    simp [plain_solid solid, plain_solid (solid_cons.mpr ⟨apart, solid⟩), unescaped]
  · have apartRun : ¬(c = '{' ∧ run.head? = some '}') := by
      cases run with
      | nil => simp
      | cons next others => simpa using apart
    have solid' := solid_cons.mpr ⟨apartRun, solid⟩
    rw [← List.cons_append, ← List.cons_append, plain_braces solid', plain_braces solid,
      startsEscaped_braces solid, trailingBackslashes_cons_eq_zero, and_assoc]

/-- A text is plain just if nowhere in it braces follow a backslash. -/
theorem plain_cons : Plain (c :: rest) ↔ ¬(c = '\\' ∧ startsEscaped rest = true) ∧ Plain rest := by
  by_cases opens : c = '{' ∧ rest.head? = some '}'
  · obtain ⟨rfl, closes⟩ := opens
    obtain ⟨others, rfl⟩ := List.head?_eq_some_iff.mp closes
    have braces : Plain ('{' :: '}' :: others) ↔ Plain others :=
      (plain_braces solid_nil).trans (by simp)
    have closing : ¬('}' = '{' ∧ others.head? = some '}') := by simp
    rw [braces, plain_cons_of_apart closing]
    simp
  · exact plain_cons_of_apart opens

end LogCalls.Template
