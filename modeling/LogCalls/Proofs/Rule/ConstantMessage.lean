import LogCalls.Proofs.Message.Extraction
import LogCalls.Proofs.Template.Segments
import LogCalls.Rule.ConstantMessage

/-! # How messages become constant

For each kind of operand that is replaced by a constant message, what it is replaced by. A format that
is turned into a template keeps its texts: they are the pieces of the template, and there is one
placeholder for each specifier. -/

namespace LogCalls.ConstantMessage

variable {texts : List (List Char)} {operand : Expr} {replaced : List Expr}

open Template

/-! ## Formats -/

/-- The texts around the specifiers are stretches of the format, and the first of them is what the
format starts with. -/
theorem infix_formatChunksFrom {inSpecifier : Bool} {format : List Char}
    (read : formatChunksFrom inSpecifier format = some texts) :
    (∀ text ∈ texts, text <:+: format) ∧
      (inSpecifier = false → ∃ first others, texts = first :: others ∧ first <+: format) := by
  -- Outside a specifier the next character goes in front of the first text, which has to be there.
  fun_induction formatChunksFrom inSpecifier format generalizing texts with
  | case1 =>
    cases read
    exact ⟨by simp, fun _ => ⟨[], [], rfl, List.prefix_rfl⟩⟩
  | case2 => cases read
  | case3 rest ih =>
    obtain ⟨found, readRest, rfl⟩ := Option.map_eq_some_iff.mp read
    obtain ⟨within, -⟩ := ih readRest
    refine ⟨?_, fun _ => ⟨[], found, rfl, List.nil_prefix⟩⟩
    intro text member
    obtain rfl | member := List.mem_cons.mp member
    · exact List.nil_infix
    · exact (within text member).trans (List.suffix_cons _ _).isInfix
  | case4 c rest notPercent first others readRest ih =>
    cases read
    obtain ⟨within, starts⟩ := ih readRest
    obtain ⟨same, more, whole, starts⟩ := starts rfl
    cases whole
    have longer : c :: first <+: c :: rest := by
      rw [List.cons_prefix_cons]
      exact ⟨rfl, starts⟩
    refine ⟨?_, fun _ => ⟨c :: first, others, rfl, longer⟩⟩
    intro text member
    obtain rfl | member := List.mem_cons.mp member
    · exact longer.isInfix
    · exact (within text (List.mem_cons_of_mem _ member)).trans (List.suffix_cons _ _).isInfix
  | case5 => cases read
  | case6 c rest digit ih =>
    obtain ⟨within, -⟩ := ih read
    refine ⟨?_, fun outside => by cases outside⟩
    exact fun text member => (within text member).trans (List.suffix_cons _ _).isInfix
  | case7 c rest notDigit letter ih =>
    obtain ⟨within, -⟩ := ih read
    refine ⟨?_, fun outside => by cases outside⟩
    exact fun text member => (within text member).trans (List.suffix_cons _ _).isInfix
  | case8 => cases read

/-- A text without backslashes does not end in one. -/
theorem trailingBackslashes_of_not_mem {text : List Char} (free : '\\' ∉ text) :
    trailingBackslashes text = 0 := by
  by_cases ends : trailingBackslashes text = 0
  · exact ends
  · obtain ⟨shorter, rfl⟩ := exists_append_backslash ends
    simp [backslash] at free

/-- A text that is one chunk has no braces. -/
theorem solid_of_length_chunks {text : List Char} (single : (chunks text).length = 1) :
    Solid text := by
  obtain solid | ⟨run, rest, solid, rfl⟩ := solid_or_braces text
  · exact solid
  · rw [chunks_append_braces solid, List.length_cons] at single
    have empty : chunks rest = [] := List.length_eq_zero_iff.mp (by omega)
    exact absurd empty (chunks_ne_nil rest)

/-- Texts without braces and backslashes, with placeholders between them, are the pieces of the
template that they make. -/
theorem split_joinChunks (nonempty : texts ≠ [])
    (each : ∀ text ∈ texts, Solid text ∧ '\\' ∉ text) : split [] (joinChunks texts) = texts := by
  fun_induction joinChunks texts with
  | case1 => exact absurd rfl nonempty
  | case2 last => exact split_solid (each last List.mem_cons_self).1 []
  | case3 text rest more ih =>
    obtain ⟨solid, free⟩ := each text List.mem_cons_self
    have others : ∀ text ∈ rest, Solid text ∧ '\\' ∉ text :=
      fun other member => each other (List.mem_cons_of_mem _ member)
    rw [split_active solid (trailingBackslashes_of_not_mem free), List.nil_append,
      ih more others]

/-- The texts of a format without braces and backslashes are the pieces of the template. -/
theorem pieces_joinChunks {raw : List Char}
    (read : formatChunks? raw = some texts) (solid : Solid raw) (free : '\\' ∉ raw) :
    pieces (String.ofList (joinChunks texts)) = texts.map String.ofList := by
  obtain ⟨within, starts⟩ := infix_formatChunksFrom read
  obtain ⟨first, others, rfl, -⟩ := starts rfl
  -- No stretch of the format has what the format does not have.
  have each : ∀ text ∈ first :: others, Solid text ∧ '\\' ∉ text := by
    intro text member
    exact ⟨.of_isInfix (within text member) solid,
      fun escape => free ((within text member).subset escape)⟩
  rw [pieces, String.toList_ofList]
  exact congrArg _ (split_joinChunks (List.cons_ne_nil _ _) each)

/-- A format is accepted if it can be read, has neither braces nor backslashes, and has a specifier for
each parameter, which are not an array that would be spread. -/
theorem ofFormat?_eq_some : ofFormat? operand = some replaced ↔ ∃ format raw texts parameters,
      stringCall? "format" operand = some (format :: parameters) ∧
      format.bare.stringLiteral? = some raw ∧ formatChunks? raw.toList = some texts ∧
      Solid raw.toList ∧ '\\' ∉ raw.toList ∧ texts.length = parameters.length + 1 ∧
      mayBeSpread parameters = false ∧
      replaced = .string (String.ofList (joinChunks texts)) :: parameters := by
  unfold ofFormat?
  simp only [Option.bind_eq_bind, Option.bind_eq_some_iff]
  constructor
  · rintro ⟨arguments, called, rest⟩
    cases arguments with
    | nil => cases rest
    | cons format parameters =>
      simp only [Option.bind_eq_some_iff] at rest
      obtain ⟨raw, literal, texts, read, rest⟩ := rest
      split at rest
      · cases rest
      · rename_i accepted
        split at rest
        · cases rest
        · rename_i fits
          cases rest
          obtain ⟨single, free⟩ : (chunks raw.toList).length = 1 ∧ '\\' ∉ raw.toList := by
            simpa using accepted
          obtain ⟨length, kept⟩ :
              texts.length = parameters.length + 1 ∧ mayBeSpread parameters = false := by
            simpa using fits
          exact ⟨format, raw, texts, parameters, called, literal, read,
            solid_of_length_chunks single, free, length, kept, rfl⟩
  · rintro ⟨format, raw, texts, parameters, called, literal, read, solid, free, length, kept, rfl⟩
    have single : (chunks raw.toList).length = 1 := by
      rw [show chunks raw.toList = [raw.toList] from solid]
      rfl
    refine ⟨_, called, ?_⟩
    simp [literal, read, single, free, length, kept]

/-- A formatted text becomes a template with the same parameters. The pieces of the template are the
texts around the specifiers, and there is one placeholder for each parameter. -/
theorem ofFormat?_cases (read : ofFormat? operand = some replaced) :
    ∃ format raw texts template parameters,
      stringCall? "format" operand = some (format :: parameters) ∧
      format.bare.stringLiteral? = some raw ∧ formatChunks? raw.toList = some texts ∧
      pieces template = texts.map String.ofList ∧
      placeholderCount template = parameters.length ∧
      replaced = .string template :: parameters := by
  obtain ⟨format, raw, texts, parameters, called, literal, readTexts, solid, free, length, -, rfl⟩ :=
    ofFormat?_eq_some.mp read
  have whole := pieces_joinChunks readTexts solid free
  have count := length_pieces (String.ofList (joinChunks texts))
  rw [whole, List.length_map] at count
  exact ⟨format, raw, texts, _, parameters, called, literal, readTexts, whole, by omega, rfl⟩

/-! ## Operands and calls -/

theorem stringCall?_eq_some {method : String} {expr : Expr} {arguments : List Expr}
    (called : stringCall? method expr = some arguments) :
    ∃ select resolved, expr.bare = .methodCall select method arguments (some resolved) := by
  unfold stringCall? at called
  split at called
  · rename_i select name found resolved bare
    split at called
    · rename_i named
      cases called
      obtain ⟨rfl, -⟩ : name = method ∧ _ := by simpa using named
      exact ⟨select, resolved, bare⟩
    · cases called
  · cases called

/-- A format becomes a template with its parameters. With nothing after it, the text of an exception
becomes a fixed text with the exception, and that of another object a template that is only a
placeholder. -/
theorem constant?_cases {trailing : List Expr} (made : constant? operand trailing = some replaced) :
    (∃ format template parameters, stringCall? "format" operand = some (format :: parameters) ∧
      placeholderCount template = parameters.length ∧ replaced = .string template :: parameters) ∨
    (trailing = [] ∧ ∃ value, stringCall? "valueOf" operand = some [value] ∧
      replaced = [.string "Exception", value]) ∨
    (trailing = [] ∧ ∃ receiver method,
      operand.bare = .methodCall (some receiver) "toString" [] method ∧
      replaced = [.string "\x7b\x7d", receiver]) := by
  unfold constant? at made
  split at made
  · rename_i found read
    cases made
    obtain ⟨format, raw, texts, template, parameters, called, -, -, -, count, same⟩ :=
      ofFormat?_cases read
    exact .inl ⟨format, template, parameters, called, count, same⟩
  · split at made
    · rename_i empty
      right
      have alone : trailing = [] := List.isEmpty_iff.mp empty
      cases value : ofValue? operand with
      | some found =>
        left
        rw [value, Option.some_or] at made
        cases made
        unfold ofValue? at value
        obtain ⟨arguments, called, rest⟩ := Option.bind_eq_some_iff.mp value
        split at rest
        · split at rest
          · cases rest
            exact ⟨alone, _, called, rfl⟩
          · cases rest
        · cases rest
      | none =>
        right
        rw [value, Option.none_or] at made
        unfold ofToString? at made
        split at made
        · rename_i receiver method bare
          split at made
          · cases made
            exact ⟨alone, receiver, method, bare, rfl⟩
          · cases made
        · cases made
    · cases made

theorem ofLeveledTemplateCall?_eq_some {expr : Expr} {framework : Framework}
    (found : Framework.ofLeveledTemplateCall? expr = some framework) :
    ∃ select name arguments method severity,
      expr = .methodCall select name arguments (some method) ∧
      resolveSignature? select name method = some ⟨some framework, .leveled severity⟩ ∧
      framework.templateStyle = .anonymous := by
  unfold Framework.ofLeveledTemplateCall? at found
  simp only [Option.bind_eq_bind, Option.bind_eq_some_iff] at found
  obtain ⟨⟨called, shape⟩, resolved, _, rfl, rest⟩ := found
  unfold Expr.signature? at resolved
  split at resolved
  · rename_i select name arguments method
    split at rest
    · rename_i severity same
      cases same
      split at rest
      · rename_i style
        cases rest
        exact ⟨select, name, arguments, method, severity, rfl, resolved, style⟩
      · cases rest
    · cases rest
  · cases resolved

/-- The operand after the marker is replaced in a call that logs with a severity of its own. -/
theorem replace?_cases {expr : Expr} {replacement : Replacement}
    (made : replace? expr = some replacement) :
    ∃ select name arguments method framework severity marker operand trailing replaced,
      expr = .methodCall select name arguments (some method) ∧
      resolveSignature? select name method = some ⟨some framework, .leveled severity⟩ ∧
      framework.templateStyle = .anonymous ∧
      framework.splitMarker arguments = (marker, operand :: trailing) ∧
      constant? operand trailing = some replaced ∧
      replacement =
        { expr := .methodCall select name (marker.toList ++ replaced ++ trailing) (some method) } := by
  unfold replace? at made
  obtain ⟨framework, found, rest⟩ := Option.bind_eq_some_iff.mp made
  obtain ⟨select, name, arguments, method, severity, rfl, resolved, style⟩ :=
    ofLeveledTemplateCall?_eq_some found
  dsimp only at rest
  cases split : framework.splitMarker arguments with
  | mk marker others =>
    rw [split] at rest
    cases others with
    | nil => cases rest
    | cons operand trailing =>
      obtain ⟨replaced, constant, same⟩ := Option.bind_eq_some_iff.mp rest
      cases same
      exact ⟨select, name, arguments, method, framework, severity, marker, operand, trailing,
        replaced, rfl, resolved, style, split, constant, rfl⟩

end LogCalls.ConstantMessage
