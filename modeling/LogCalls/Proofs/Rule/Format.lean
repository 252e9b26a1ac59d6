import LogCalls.Proofs.Rule.ConstantMessage
import LogCalls.Proofs.Template.Codec
import LogCalls.Proofs.Text.Stretch

/-! # Formats and their templates

A format is cut at its specifiers: a percent sign, any digits and dots, and one letter. Where it becomes
a template, every specifier becomes a placeholder and nothing else does, so that the texts between the
specifiers are the pieces of the template, whatever single braces they hold. -/

namespace LogCalls.ConstantMessage

variable {specifier text format : List Char} {texts : List (List Char)}

open Template

/-! ## Specifiers -/

/-- A percent sign, any digits and dots, and a conversion letter. -/
def IsSpecifier (text : List Char) : Prop :=
  ∃ width letter, text = '%' :: (width ++ [letter]) ∧
    (∀ c ∈ width, (Text.isDecimalDigit c || c == '.') = true) ∧ letter ∈ conversions

/-- There is no specifier in the text. -/
def SpecifierFree (text : List Char) : Prop :=
  ∀ specifier, IsSpecifier specifier → ¬ specifier <:+: text

/-- The texts are what stands between consecutive specifiers of the format, and before the first and
after the last of them. -/
inductive Cut : List Char → List (List Char) → Prop where
  | last {text : List Char} : SpecifierFree text → Cut text [text]
  | next {text specifier rest : List Char} {texts : List (List Char)} :
      SpecifierFree text → IsSpecifier specifier → Cut rest texts →
        Cut (text ++ (specifier ++ rest)) (text :: texts)

/-- Letters are neither digits nor dots. -/
theorem not_width_of_conversion {letter : Char} (conversion : letter ∈ conversions) :
    (Text.isDecimalDigit letter || letter == '.') = false := by
  have each : conversions.any (fun letter => Text.isDecimalDigit letter || letter == '.') = false := by
    decide
  exact Bool.eq_false_iff.mpr (List.any_eq_false.mp each letter conversion)

/-- After its percent sign a specifier has none. -/
theorem percent_not_mem {width : List Char} {letter : Char}
    (each : ∀ c ∈ width, (Text.isDecimalDigit c || c == '.') = true)
    (conversion : letter ∈ conversions) : '%' ∉ width ++ [letter] := by
  rw [List.mem_append, List.mem_singleton, not_or]
  constructor
  · intro member
    exact absurd (each _ member) (by decide)
  · rintro rfl
    exact absurd conversion (by decide)

theorem IsSpecifier.count_percent (specifies : IsSpecifier specifier) :
    specifier.count '%' = 1 := by
  obtain ⟨width, letter, rfl, each, conversion⟩ := specifies
  rw [List.count_cons_self, List.count_eq_zero.mpr (percent_not_mem each conversion)]

/-- A text without percent signs has no specifiers. -/
theorem specifierFree_of_not_mem (free : '%' ∉ text) : SpecifierFree text := by
  rintro specifier ⟨width, letter, rfl, -, -⟩ within
  exact free (within.subset List.mem_cons_self)

/-- Where a specifier starts, it is determined where it ends. -/
theorem IsSpecifier.eq_of_append_eq {other rest otherRest : List Char}
    (specifies : IsSpecifier specifier) (isOther : IsSpecifier other)
    (same : specifier ++ rest = other ++ otherRest) : specifier = other ∧ rest = otherRest := by
  obtain ⟨width, letter, rfl, each, conversion⟩ := specifies
  obtain ⟨otherWidth, otherLetter, rfl, otherEach, otherConversion⟩ := isOther
  simp only [List.cons_append, List.append_assoc, List.nil_append, List.cons.injEq, true_and] at same
  -- Both widths are the stretch of digits and dots after the percent sign.
  have here : (width ++ letter :: rest).span (fun c => Text.isDecimalDigit c || c == '.') =
      (width, letter :: rest) := by
    refine span_eq_iff.mpr ⟨rfl, each, ?_⟩
    rintro c ⟨⟩
    exact not_width_of_conversion conversion
  have there : (otherWidth ++ otherLetter :: otherRest).span
      (fun c => Text.isDecimalDigit c || c == '.') = (otherWidth, otherLetter :: otherRest) := by
    refine span_eq_iff.mpr ⟨rfl, otherEach, ?_⟩
    rintro c ⟨⟩
    exact not_width_of_conversion otherConversion
  rw [same, there] at here
  cases here
  exact ⟨rfl, rfl⟩

namespace Cut

/-- A text without specifiers does not reach into the specifier after it. -/
theorem eq_nil_of_free {middle rest otherSpecifier otherRest : List Char}
    (specifies : IsSpecifier specifier) (isOther : IsSpecifier otherSpecifier)
    (free : SpecifierFree (text ++ middle))
    (same : specifier ++ rest = middle ++ (otherSpecifier ++ otherRest)) : middle = [] := by
  rcases List.append_eq_append_iff.mp same with ⟨more, whole, -⟩ | ⟨more, whole, others⟩
  · have within : specifier <:+: text ++ middle := ⟨text, more, by rw [whole, List.append_assoc]⟩
    exact absurd within (free specifier specifies)
  · cases more with
    | nil =>
      have within : specifier <:+: text ++ middle := ⟨text, [], by simp [whole]⟩
      exact absurd within (free specifier specifies)
    | cons c more =>
      -- The other specifier would start inside this one, which has only one percent sign.
      obtain ⟨otherWidth, otherLetter, rfl, -, -⟩ := isOther
      obtain ⟨rfl, -⟩ := List.cons.inj others
      have single := specifies.count_percent
      rw [whole, List.count_append, List.count_cons_self] at single
      have absent : '%' ∉ middle := List.count_eq_zero.mp (by omega)
      obtain ⟨width, letter, rfl, -, -⟩ := specifies
      cases middle with
      | nil => rfl
      | cons first middle =>
        obtain ⟨rfl, -⟩ := List.cons.inj whole
        exact absurd List.mem_cons_self absent

/-- The first specifier of a format is the one that no specifier comes before. -/
theorem eq_of_append_eq {rest other otherSpecifier otherRest : List Char}
    (free : SpecifierFree text) (specifies : IsSpecifier specifier) (otherFree : SpecifierFree other)
    (isOther : IsSpecifier otherSpecifier)
    (same : text ++ (specifier ++ rest) = other ++ (otherSpecifier ++ otherRest)) :
    text = other ∧ rest = otherRest := by
  rcases List.append_eq_append_iff.mp same with ⟨middle, rfl, others⟩ | ⟨middle, rfl, others⟩
  · obtain rfl := eq_nil_of_free specifies isOther otherFree others
    exact ⟨(List.append_nil text).symm, (specifies.eq_of_append_eq isOther others).2⟩
  · obtain rfl := eq_nil_of_free isOther specifies free others
    exact ⟨List.append_nil other, (isOther.eq_of_append_eq specifies others).2.symm⟩

/-- A format can be cut in one way only. -/
theorem unique {others : List (List Char)} (cut : Cut format texts)
    (other : Cut format others) : texts = others := by
  induction cut generalizing others with
  | @last text free =>
    cases other with
    | last => rfl
    | @next text specifier rest texts _ specifies _ =>
      exact absurd ⟨text, rest, by simp⟩ (free specifier specifies)
  | @next text specifier rest texts free specifies cut ih =>
    generalize whole : text ++ (specifier ++ rest) = format at other
    cases other with
    | last otherFree =>
      exact absurd ⟨text, rest, by rw [← whole, List.append_assoc]⟩ (otherFree specifier specifies)
    | next otherFree isOther otherCut =>
      obtain ⟨rfl, rfl⟩ := eq_of_append_eq free specifies otherFree isOther whole
      rw [ih otherCut]

/-- Each specifier has one percent sign; the others are in the texts. -/
theorem count_percent (cut : Cut format texts) :
    format.count '%' + 1 = texts.length + texts.flatten.count '%' := by
  induction cut with
  | last => simp [Nat.add_comm]
  | next free specifies cut ih =>
    simp only [List.count_append, specifies.count_percent, List.length_cons, List.flatten_cons]
    omega

end Cut

/-! ## The reader -/

/-- A character that starts no specifier goes in front of the first of the texts that are read. -/
theorem formatChunksFrom_cons {c : Char} (plain : c ≠ '%') (rest : List Char) :
    formatChunksFrom false (c :: rest) = (formatChunksFrom false rest).map (·.modifyHead (c :: ·)) := by
  rw [formatChunksFrom]
  · cases read : formatChunksFrom false rest with
    | none => rfl
    | some texts =>
      obtain ⟨-, nonempty⟩ := infix_formatChunksFrom read
      obtain ⟨first, others, rfl, -⟩ := nonempty rfl
      rfl
  · exact plain

theorem formatChunksFrom_append (free : '%' ∉ text) (rest : List Char) :
    formatChunksFrom false (text ++ rest) =
      (formatChunksFrom false rest).map (·.modifyHead (text ++ ·)) := by
  induction text with
  | nil =>
    have same : (List.modifyHead (([] : List Char) ++ ·)) = id := by
      funext texts
      cases texts <;> rfl
    rw [same, Option.map_id_fun]
    rfl
  | cons c text ih =>
    rw [List.mem_cons, not_or] at free
    rw [List.cons_append, formatChunksFrom_cons (Ne.symm free.1), ih free.2,
      Option.map_map]
    congr 1
    funext texts
    cases texts <;> rfl

/-- A specifier ends one text and begins another. -/
theorem formatChunksFrom_specifier (specifies : IsSpecifier specifier) (rest : List Char) :
    formatChunksFrom false (specifier ++ rest) = (formatChunksFrom false rest).map ([] :: ·) := by
  obtain ⟨width, letter, rfl, each, conversion⟩ := specifies
  have ends : formatChunksFrom true (width ++ letter :: rest) = formatChunksFrom false rest := by
    induction width with
    | nil =>
      have known : conversions.contains letter = true := List.contains_iff_mem.mpr conversion
      rw [List.nil_append, formatChunksFrom, not_width_of_conversion conversion, known]
      rfl
    | cons c width ih =>
      obtain ⟨here, others⟩ := List.forall_mem_cons.mp each
      rw [List.cons_append, formatChunksFrom, here, ih others]
      rfl
  rw [List.cons_append, List.append_assoc, List.singleton_append, formatChunksFrom, ends]

/-- What the reader has seen, by whether it is inside a specifier: a whole format, or the rest of a
specifier and then a format. -/
def Reads : (inSpecifier : Bool) → List Char → List (List Char) → Prop
  | false, format, texts => Cut format texts
  | true, format, texts =>
    ∃ tail rest, IsSpecifier ('%' :: tail) ∧ format = tail ++ rest ∧ Cut rest texts

theorem Cut.cons {c : Char} {format first : List Char} {others : List (List Char)}
    (cut : Cut format (first :: others)) (free : '%' ∉ c :: first) :
    Cut (c :: format) ((c :: first) :: others) := by
  cases cut with
  | last => exact .last (specifierFree_of_not_mem free)
  | next _ specifies cut => exact .next (specifierFree_of_not_mem free) specifies cut

/-- The reader cuts a format at its specifiers and leaves no percent sign over. -/
theorem reads_formatChunksFrom {inSpecifier : Bool}
    (read : formatChunksFrom inSpecifier format = some texts) :
    Reads inSpecifier format texts ∧ ∀ text ∈ texts, '%' ∉ text := by
  fun_induction formatChunksFrom inSpecifier format generalizing texts with
  | case1 =>
    cases read
    exact ⟨.last (specifierFree_of_not_mem List.not_mem_nil), by simp⟩
  | case2 => cases read
  | case3 rest ih =>
    obtain ⟨found, readRest, rfl⟩ := Option.map_eq_some_iff.mp read
    obtain ⟨⟨tail, after, specifies, rfl, cut⟩, free⟩ := ih readRest
    exact ⟨.next (specifierFree_of_not_mem List.not_mem_nil) specifies cut,
      List.forall_mem_cons.mpr ⟨List.not_mem_nil, free⟩⟩
  | case4 c rest notPercent first others readRest ih =>
    cases read
    obtain ⟨cut, free⟩ := ih readRest
    obtain ⟨freeFirst, freeOthers⟩ := List.forall_mem_cons.mp free
    have freeHere : '%' ∉ c :: first := by
      rw [List.mem_cons, not_or]
      exact ⟨fun percent => notPercent percent.symm, freeFirst⟩
    exact ⟨cut.cons freeHere, List.forall_mem_cons.mpr ⟨freeHere, freeOthers⟩⟩
  | case5 => cases read
  | case6 c rest inWidth ih =>
    obtain ⟨⟨tail, after, ⟨width, letter, same, each, conversion⟩, rfl, cut⟩, free⟩ :=
      ih read
    obtain ⟨-, rfl⟩ := List.cons.inj same
    exact ⟨⟨c :: (width ++ [letter]), after,
      ⟨c :: width, letter, rfl, List.forall_mem_cons.mpr ⟨inWidth, each⟩, conversion⟩, rfl, cut⟩, free⟩
  | case7 c rest _ conversion ih =>
    obtain ⟨cut, free⟩ := ih read
    exact ⟨⟨[c], rest, ⟨[], c, rfl, List.forall_mem_nil _, List.contains_iff_mem.mp conversion⟩, rfl,
      cut⟩, free⟩
  | case8 => cases read

/-- The texts of a format are read where no percent sign is left in them. -/
theorem formatChunks?_eq_some_iff :
    formatChunks? format = some texts ↔ Cut format texts ∧ ∀ text ∈ texts, '%' ∉ text := by
  constructor
  · exact reads_formatChunksFrom
  · rintro ⟨cut, free⟩
    rw [formatChunks?]
    induction cut with
    | @last text _ =>
      have read := formatChunksFrom_append (free text List.mem_cons_self) []
      rw [List.append_nil] at read
      rw [read]
      simp [formatChunksFrom]
    | @next text specifier rest texts _ specifies _ ih =>
      obtain ⟨here, others⟩ := List.forall_mem_cons.mp free
      rw [formatChunksFrom_append here, formatChunksFrom_specifier specifies, ih others]
      simp

/-! ## From format to template -/

/-- A text is solid if the two braces do not stand side by side in it. -/
theorem solid_iff : Solid text ↔ ¬ placeholder <:+: text := by
  constructor
  · intro solid within
    have braces : chunks placeholder ≠ [placeholder] := by decide
    exact braces (Solid.of_isInfix within solid)
  · intro apart
    rcases solid_or_braces text with solid | ⟨run, rest, -, rfl⟩
    · exact solid
    · exact absurd ⟨run, rest, rfl⟩ apart

/-- As many percent signs as specifiers are as many as there are texts with another text after them. -/
theorem Cut.percent_not_mem_iff (cut : Cut format texts) :
    (∀ text ∈ texts, '%' ∉ text) ↔ format.count '%' + 1 = texts.length := by
  have count := cut.count_percent
  have free : texts.flatten.count '%' = 0 ↔ ∀ text ∈ texts, '%' ∉ text := by
    simp [List.count_eq_zero]
  rw [← free]
  omega

/-- **Formats and templates are aligned.** A format is accepted if it holds neither `{}` nor a backslash
and has as many percent signs as specifiers, one for each parameter. It is replaced by a template and
the parameters in their order; the template has a placeholder for each of them, and its pieces are the
texts between the specifiers of the format. -/
theorem ofFormat?_eq_some_iff (operand : Expr) (replaced : List Expr) :
    ofFormat? operand = some replaced ↔
      ∃ format raw parameters template texts,
        stringCall? "format" operand = some (format :: parameters) ∧
        format.bare.stringLiteral? = some raw ∧
        (¬ placeholder <:+: raw.toList ∧ '\\' ∉ raw.toList ∧
          raw.toList.count '%' = parameters.length ∧ texts.length = parameters.length + 1 ∧
          mayBeSpread parameters = false) ∧
        replaced = .string template :: parameters ∧
        placeholderCount template = parameters.length ∧
        (∀ others, Cut raw.toList others ↔ others = texts) ∧
        pieces template = texts.map String.ofList := by
  rw [ofFormat?_eq_some]
  constructor
  · rintro ⟨format, raw, texts, parameters, called, literal, read, solid, free, length, kept, rfl⟩
    obtain ⟨cut, plain⟩ := formatChunks?_eq_some_iff.mp read
    have percents := cut.percent_not_mem_iff.mp plain
    have whole := pieces_joinChunks read solid free
    have count := length_pieces (String.ofList (joinChunks texts))
    rw [whole, List.length_map] at count
    have only : ∀ others, Cut raw.toList others ↔ others = texts := by
      intro others
      constructor
      · exact fun other => other.unique cut
      · rintro rfl
        exact cut
    exact ⟨format, raw, parameters, _, texts, called, literal,
      ⟨solid_iff.mp solid, free, by omega, length, kept⟩, rfl, by omega, only, whole⟩
  · rintro ⟨format, raw, parameters, template, texts, called, literal,
      ⟨apart, free, percents, length, kept⟩, rfl, -, only, whole⟩
    have cut := (only texts).mpr rfl
    have read : formatChunks? raw.toList = some texts :=
      formatChunks?_eq_some_iff.mpr ⟨cut, cut.percent_not_mem_iff.mpr (by omega)⟩
    -- A template is determined by its pieces.
    have same : template = String.ofList (joinChunks texts) :=
      eq_of_pieces_eq (whole.trans (pieces_joinChunks read (solid_iff.mpr apart) free).symm)
    exact ⟨format, raw, texts, parameters, called, literal, read, solid_iff.mpr apart, free, length, kept,
      by rw [same]⟩

/-- Single braces beside a specifier do not become part of a placeholder. -/
example : (formatChunks? "\x7b%5.2f\x7d\x7b%s".toList).map (pieces <| String.ofList <| joinChunks ·) =
    some ["\x7b", "\x7d\x7b", ""] := by decide

end LogCalls.ConstantMessage
