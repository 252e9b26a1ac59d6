import LogCalls.Proofs.Message.Extraction
import LogCalls.Proofs.Template.Segments

/-! # Placeholders and arguments

Every message that is read out of a call is balanced: its template has one placeholder for each
argument. Segments keep this up because no two neighbours among them are texts and all texts can be
represented, whichever way they came about. -/

namespace LogCalls

variable {segments : List Segment}

namespace Segment

/-! ## Separated segments -/

/-- The text in front of separated segments can be any other. -/
theorem Separated.withText {old : String} {rest : List Segment}
    (separated : Separated (.text old :: rest)) (raw : String) : Separated (.text raw :: rest) := by
  cases separated with
  | last => exact .last raw
  | text _ expr following => exact .text raw expr following

/-- A text goes in front of separated segments that do not begin with one. -/
theorem Separated.cons_text (separated : Separated segments) (raw : String)
    (bare : ∀ next others, segments ≠ .text next :: others) : Separated (.text raw :: segments) := by
  cases separated with
  | nil => exact .last raw
  | last next => exact absurd rfl (bare next [])
  | text next expr following => exact absurd rfl (bare next _)
  | argument expr following => exact .text raw expr following

/-- The first of separated segments are separated. -/
theorem Separated.of_append : ∀ {kept rest : List Segment}, Separated (kept ++ rest) → Separated kept
  | [], _, _ => .nil
  | [.text raw], _, _ => .last raw
  | .text raw :: .argument expr :: _, _, .text _ _ following => .text raw expr following.of_append
  | .argument expr :: _, _, .argument _ following => .argument expr following.of_append

/-- Neighbouring texts are put together. -/
theorem separated_merge (segments : List Segment) : Separated (merge segments) := by
  induction segments with
  | nil => exact .nil
  | cons segment rest ih =>
    cases segment with
    | argument expr => exact .argument expr ih
    | text raw =>
      rw [merge]
      split
      · exact ih
      · -- This is where two texts would become neighbours.
        split
        · rename_i next others merged
          rw [merged] at ih
          exact ih.withText (raw ++ next)
        · rename_i bare
          exact ih.cons_text raw bare

/-- Texts can be represented in all segments if they can in the first and in the rest. -/
theorem representable_append {front back : List Segment} : representable (front ++ back) = true ↔
      representable front = true ∧ representable back = true := by
  rw [representable, List.all_append, Bool.and_eq_true]
  exact Iff.rfl

end Segment

/-- The segments of an expression are separated. -/
theorem Expr.separated_segments (expr : Expr) : Segment.Separated expr.segments :=
  Segment.separated_merge _

/-- The segments of an indexed pattern are separated: characters are gathered into one text. -/
theorem Indexed.separated_segments? {parameters : List Expr} {items : List Item}
    (made : segments? parameters items = some segments) :
    Segment.Separated segments := by
  induction items generalizing segments with
  | nil =>
    cases made
    exact .nil
  | cons item rest ih =>
    cases item with
    | char c =>
      obtain ⟨found, read, gathered⟩ := Option.bind_eq_some_iff.mp made
      have separated := ih read
      split at gathered
      · cases gathered
        exact separated.withText _
      · rename_i bare
        cases gathered
        exact separated.cons_text _ bare
    | reference index =>
      obtain ⟨parameter, known, more⟩ := Option.bind_eq_some_iff.mp made
      obtain ⟨found, read, same⟩ := Option.bind_eq_some_iff.mp more
      cases same
      exact .argument parameter (ih read)

namespace Message

variable {message : Message}

/-! ## Collapsing requests for an exception's message -/

/-- A value stays a value. -/
theorem exists_collapseAccessor (error expr : Expr) :
    ∃ shown, collapseAccessor error (.argument expr) = .argument shown := by
  rw [collapseAccessor]
  split
  · exact ⟨error, rfl⟩
  · exact ⟨expr, rfl⟩

theorem separated_map_collapseAccessor (error : Expr) (separated : Segment.Separated segments) :
    Segment.Separated (segments.map (collapseAccessor error)) := by
  induction separated with
  | nil => exact .nil
  | last raw => exact .last raw
  | text raw expr _ ih =>
    obtain ⟨shown, same⟩ := exists_collapseAccessor error expr
    rw [List.map_cons, List.map_cons, collapseAccessor, same]
    exact .text raw shown ih
  | argument expr _ ih =>
    obtain ⟨shown, same⟩ := exists_collapseAccessor error expr
    rw [List.map_cons, same]
    exact .argument shown ih

theorem representable_map_collapseAccessor (error : Expr) (segments : List Segment) :
    Segment.representable (segments.map (collapseAccessor error)) =
      Segment.representable segments := by
  simp only [Segment.representable, List.all_map]
  congr 1
  funext segment
  cases segment with
  | text raw => rfl
  | argument expr =>
    obtain ⟨shown, same⟩ := exists_collapseAccessor error expr
    rw [Function.comp_apply, same]

theorem separated_shown {collapse : Bool} {error : Option Expr} {kept : List Segment}
    (separated : Segment.Separated kept) : Segment.Separated (shown collapse error kept) := by
  cases error with
  | none => exact separated
  | some error =>
    cases collapse with
    | false => exact separated
    | true => exact separated_map_collapseAccessor error separated

theorem representable_shown (collapse : Bool) (error : Option Expr) (kept : List Segment) :
    Segment.representable (shown collapse error kept) = Segment.representable kept := by
  cases error with
  | none => rfl
  | some error =>
    cases collapse with
    | false => rfl
    | true => exact representable_map_collapseAccessor error kept

/-! ## Balanced messages -/

/-- The template has one placeholder for each argument. -/
def Balanced (message : Message) : Prop :=
  Template.placeholderCount message.template = message.arguments.length

instance (message : Message) : Decidable message.Balanced := inferInstanceAs (Decidable (_ = _))

/-- A balanced message has one piece more than it has arguments. -/
theorem Balanced.length_pieces (balanced : message.Balanced) :
    message.pieces.length = message.arguments.length + 1 := by
  rw [pieces, Template.length_pieces, balanced]

/-- A text that can be represented has no placeholders. -/
theorem balanced_plain {text : String} (representable : Template.isRepresentable text = true)
    (error : Option Expr) : (plain text error).Balanced := by
  -- The escaped text is read back as one piece, and there is one piece more than placeholders.
  have counted := Template.length_split (Template.escaped text.toList) []
  rw [Template.split_escaped_end (Template.isRepresentable_iff.mp representable)] at counted
  have plain : Template.count (Template.escaped text.toList) = 0 := by simpa using counted.symm
  have chars : (Template.escape text).toList = Template.escaped text.toList := String.toList_ofList
  rw [Template.count, ← chars] at plain
  exact plain

/-- Separated segments whose texts can be represented make a balanced message. -/
theorem balanced_template (separated : Segment.Separated segments)
    (representable : Segment.representable segments = true) (error : Option Expr) :
    Balanced { template := Segment.template segments
               arguments := Segment.arguments segments
               error } :=
  Segment.placeholderCount_template separated representable

theorem balanced_ofArguments? {template : String} {arguments : List Expr}
    (read : ofArguments? template arguments = some message) : message.Balanced := by
  obtain ⟨shown, error, -, -, count, rfl⟩ | ⟨count, rfl⟩ := ofArguments?_cases read
  · exact count
  · exact count

theorem balanced_indexed {pattern : String} {parameters : List Expr}
    (read : Indexed.message? pattern parameters = some message) : message.Balanced := by
  obtain ⟨items, segments, -, made, -, -, representable, rfl⟩ := Indexed.message?_cases read
  exact balanced_template (Indexed.separated_segments? made) representable none

theorem balanced_ofTemplate? {style : TemplateStyle} {raw : String} {trailing : List Expr}
    (read : ofTemplate? style raw trailing = some message) :
    message.Balanced := by
  obtain ⟨error, -, representable, rfl⟩ | ⟨-, -, taken⟩ | ⟨-, -, parameters, -, taken⟩ :=
    ofTemplate?_cases read
  · exact balanced_plain representable error
  · exact balanced_ofArguments? taken
  · exact balanced_indexed taken

/-- Every text in segments that can be read can be represented. -/
theorem representable_of_readable (readable : readable segments = true) :
    Segment.representable segments = true := by
  rw [Segment.representable, List.all_eq_true]
  rw [Message.readable, List.all_eq_true] at readable
  intro segment member
  cases segment with
  | text raw => exact readable _ member
  | argument expr => rfl

/-- Taking an exception off the end and collapsing requests for its message keep a message
balanced. -/
theorem balanced_ofSegments (options : CompileOptions) (separated : Segment.Separated segments)
    (representable : Segment.representable segments = true) :
    (ofSegments options segments).Balanced := by
  obtain ⟨kept, error, origin, same⟩ := ofSegments_cases options segments
  have keptFits : Segment.Separated kept ∧ Segment.representable kept = true := by
    obtain ⟨rfl, -⟩ | ⟨-, expr, -, rfl, -⟩ := origin
    · exact ⟨separated, representable⟩
    · exact ⟨separated.of_append, (Segment.representable_append.mp representable).1⟩
  rw [same]
  refine balanced_template (separated_shown keptFits.1) ?_ error
  rw [representable_shown]
  exact keptFits.2

/-- **Messages that are read out of calls are balanced.** -/
theorem balanced_extract? {style : TemplateStyle} {collapse : Bool} {operand : Expr}
    {trailing : List Expr} {found : Extracted}
    (read : extract? style collapse operand trailing = some found) : found.message.Balanced := by
  obtain ⟨raw, -, taken, -⟩ | ⟨-, readable, error, -, same⟩ := extract?_cases read
  · exact balanced_ofTemplate? taken
  · rw [same]
    exact balanced_ofSegments _ operand.separated_segments (representable_of_readable readable)

end Message

end LogCalls
