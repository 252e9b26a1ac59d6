import LogCalls.Proofs.Template.Segments

/-! # Templates as a code for their pieces

A template and its pieces determine each other. Cutting a template and writing its pieces with
arguments between them gives the template back, and every list of texts that can be represented is
what the template written for it is cut into. -/

namespace LogCalls

namespace Segment

/-- Pieces with arguments between them. `values` gives the argument by the number of pieces that come
after it. -/
def alternate (values : Nat → Expr) : List String → List Segment
  | [] => []
  | [last] => [.text last]
  | piece :: rest => .text piece :: .argument (values rest.length) :: alternate values rest

variable (values : Nat → Expr)

theorem alternate_cons (piece : String) {rest : List String} (more : rest ≠ []) :
    alternate values (piece :: rest) =
      .text piece :: .argument (values rest.length) :: alternate values rest := by
  rw [alternate]
  exact more

theorem separated_alternate : ∀ pieces : List String, Separated (alternate values pieces)
  | [] => .nil
  | [last] => .last last
  | piece :: next :: rest => .text piece _ (separated_alternate (next :: rest))

/-- The texts around the arguments are the pieces. -/
theorem texts_alternate :
    ∀ {pieces : List String}, pieces ≠ [] → texts (alternate values pieces) = pieces
  | [last], _ => by simp [alternate, texts]
  | piece :: next :: rest, _ => by
    rw [alternate_cons values piece (List.cons_ne_nil next rest), texts, texts,
      texts_alternate (List.cons_ne_nil next rest)]
    simp

theorem representable_alternate :
    ∀ {pieces : List String}, (∀ piece ∈ pieces, Template.isRepresentable piece = true) →
      representable (alternate values pieces) = true
  | [], _ => rfl
  | [last], each => representable_text.mpr ⟨each last List.mem_cons_self, rfl⟩
  | piece :: next :: rest, each => by
    rw [alternate_cons values piece (List.cons_ne_nil next rest), representable_text,
      representable_argument]
    exact ⟨each piece List.mem_cons_self,
      representable_alternate fun other member => each other (List.mem_cons_of_mem piece member)⟩

end Segment

namespace Template

variable {before : List Char}

open Segment

/-! ## Texts that end with braces -/

/-- The text is empty or ends with braces, so that what follows it starts a new run. -/
inductive Closed : List Char → Prop where
  | nil : Closed []
  | braces {before run : List Char} :
      Closed before → Solid run → Closed (before ++ run ++ placeholder)

theorem append_run (before run text : List Char) :
    before ++ run ++ placeholder ++ text = before ++ (run ++ placeholder ++ text) := by
  simp only [List.append_assoc]

/-- What follows a closed text is escaped by itself. -/
theorem Closed.escaped_append (closed : Closed before) :
    ∀ text, escaped (before ++ text) = escaped before ++ escaped text := by
  induction closed with
  | nil =>
    intro text
    rfl
  | @braces before run closed solid ih =>
    intro text
    have alone : before ++ run ++ placeholder = before ++ (run ++ placeholder ++ []) := by
      rw [← append_run, List.append_nil]
    rw [append_run, alone, ih, ih, escaped_braces solid,
      escaped_braces solid, escaped_solid solid_nil]
    simp only [List.append_assoc, List.append_nil]

/-- What follows a closed text is plain by itself. -/
theorem Closed.plain_append (closed : Closed before) :
    ∀ {text}, Plain (before ++ text) ↔ Plain before ∧ Plain text := by
  induction closed with
  | nil =>
    intro text
    exact ⟨fun plain => ⟨plain_solid solid_nil, plain⟩, And.right⟩
  | @braces before run closed solid ih =>
    intro text
    have alone : before ++ run ++ placeholder = before ++ (run ++ placeholder ++ []) := by
      rw [← append_run, List.append_nil]
    rw [append_run, alone, ih, ih, plain_braces solid,
      plain_braces solid]
    have empty : Plain [] := plain_solid solid_nil
    simp only [empty, and_true, and_assoc]

/-- Backslashes at the end of what follows a closed text do not reach into it. -/
theorem Closed.shield_append (closed : Closed before) (text : List Char) :
    shield (before ++ text) = shield text := by
  cases closed with
  | nil => rfl
  | braces closed solid => rw [shield_braces]

/-! ## From a template to its pieces and back -/

/-- The pieces of a template can be represented. -/
theorem plain_of_mem_split (text : List Char) :
    ∀ carried, Closed carried → Plain carried → ∀ piece ∈ split carried text, Plain piece := by
  induction text using templateInduction with
  | solid run solid =>
    intro carried closed plain piece member
    rw [split_solid solid, List.mem_singleton] at member
    subst member
    exact closed.plain_append.mpr ⟨plain, plain_solid solid⟩
  | active run text solid bare ih =>
    intro carried closed plain piece member
    rw [split_active solid bare, List.mem_cons] at member
    obtain rfl | later := member
    · exact closed.plain_append.mpr ⟨plain, plain_solid solid⟩
    · exact ih [] .nil (plain_solid solid_nil) piece later
  | escaped run text solid bare ih =>
    intro carried closed plain piece member
    rw [split_escaped solid bare] at member
    -- The braces become text of the piece; no backslash is left in front of them.
    have plainRun : Plain (run ++ placeholder) := by
      rw [← List.append_nil (run ++ placeholder), plain_braces solid]
      exact ⟨bare, plain_solid solid_nil⟩
    refine ih _ (closed.braces solid) ?_ piece member
    rw [List.append_assoc]
    exact closed.plain_append.mpr ⟨plain, plainRun⟩
  | doubled run text solid ends ih =>
    intro carried closed plain piece member
    rw [split_doubled solid ends, List.mem_cons] at member
    obtain rfl | later := member
    · exact closed.plain_append.mpr ⟨plain, plain_solid solid⟩
    · exact ih [] .nil (plain_solid solid_nil) piece later

/-- The pieces of a template can be represented. -/
theorem isRepresentable_of_mem_pieces {template piece : String} (member : piece ∈ pieces template) :
    isRepresentable piece = true := by
  rw [pieces, List.mem_map] at member
  obtain ⟨chars, member, rfl⟩ := member
  rw [isRepresentable_iff, String.toList_ofList]
  exact plain_of_mem_split template.toList [] .nil (plain_solid solid_nil) chars member

variable (values : Nat → Expr)

/-- The characters that are written for pieces with arguments between them. -/
def joined (pieces : List (List Char)) : List Char :=
  written (alternate values (pieces.map String.ofList))

theorem joined_single (piece : List Char) : joined values [piece] = escaped piece := by
  rw [joined, List.map_cons, List.map_nil, alternate, written, List.foldl_cons, append_text,
    String.toList_ofList]
  rfl

theorem joined_cons (piece : List Char) {rest : List (List Char)} (more : rest ≠ []) :
    joined values (piece :: rest) =
      escaped piece ++ shield piece ++ placeholder ++ joined values rest := by
  have more' : rest.map String.ofList ≠ [] := by simpa using more
  rw [joined, List.map_cons, alternate_cons values _ more',
    written_text_argument _ _ (separated_alternate values _), String.toList_ofList, joined]

theorem split_ne_nil (carried text : List Char) : split carried text ≠ [] := by
  intro empty
  have length := length_split text carried
  rw [empty] at length
  cases length

/-- The pieces of a template are written as the template, whatever text is carried into the first. -/
theorem joined_split (text : List Char) :
    ∀ carried, Closed carried → joined values (split carried text) = escaped carried ++ text := by
  induction text using templateInduction with
  | solid run solid =>
    intro carried closed
    rw [split_solid solid, joined_single, closed.escaped_append, escaped_solid solid]
  | active run text solid bare ih =>
    intro carried closed
    rw [split_active solid bare, joined_cons values _ (split_ne_nil [] text),
      ih [] .nil, closed.escaped_append, closed.shield_append,
      escaped_solid solid, shield, if_pos bare, escaped_solid solid_nil]
    simp only [List.append_assoc, List.nil_append]
  | escaped run text solid bare ih =>
    intro carried closed
    have written : escaped (run ++ placeholder) = run ++ backslash ++ placeholder := by
      rw [← List.append_nil (run ++ placeholder), escaped_braces solid, guard, if_pos bare,
        escaped_solid solid_nil, List.append_nil]
    rw [split_escaped solid bare, ih _ (closed.braces solid), List.append_assoc,
      closed.escaped_append, written]
    simp only [List.append_assoc]
  | doubled run text solid ends ih =>
    intro carried closed
    rw [split_doubled solid ends, joined_cons values _ (split_ne_nil [] text),
      ih [] .nil, closed.escaped_append, closed.shield_append,
      escaped_solid solid, shield, if_neg ends, escaped_solid solid_nil]
    simp only [List.append_assoc, List.nil_append]

/-- A template is written back from its pieces, whatever the arguments between them are. -/
theorem template_alternate_pieces (template : String) :
    Segment.template (alternate values (pieces template)) = template := by
  have chars := joined_split values template.toList [] .nil
  rw [escaped_solid solid_nil, List.nil_append, joined, written] at chars
  rw [Segment.template, pieces]
  rw [split] at chars
  rw [chars, String.ofList_toList]

/-- Templates with the same pieces are the same. -/
theorem eq_of_pieces_eq {first second : String} (same : pieces first = pieces second) :
    first = second := by
  let values : Nat → Expr := fun _ => .string ""
  rw [← template_alternate_pieces values first, same, template_alternate_pieces values second]

/-- Pieces that can be represented are read back from the template that is written for them. -/
theorem pieces_template_alternate {texts : List String} (filled : texts ≠ [])
    (each : ∀ text ∈ texts, isRepresentable text = true) :
    pieces (Segment.template (alternate values texts)) = texts := by
  rw [pieces_template (separated_alternate values texts) (representable_alternate values each),
    texts_alternate values filled]

/-- The template of one piece is the escaped piece. -/
theorem template_alternate_single (text : String) :
    Segment.template (alternate values [text]) = escape text := by
  rw [Segment.template, alternate, List.foldl_cons, append_text]
  rfl

/-- **Templates are an exact code for their pieces.**

* The pieces of a template can all be represented, they are one more than its placeholders, and with
  arguments between them they are written as the template.
* Texts that can be represented, with arguments between them, are written as a template that has them
  as its pieces.
* So a text is the only piece of a template just if it can be represented, and its escaped form is
  then the one template that has it as its only piece. -/
theorem pieces_codec : (∀ template : String,
      (∀ piece ∈ pieces template, isRepresentable piece = true) ∧
      (pieces template).length = placeholderCount template + 1 ∧
      Segment.template (alternate values (pieces template)) = template) ∧
    (∀ texts : List String, texts ≠ [] → (∀ text ∈ texts, isRepresentable text = true) →
      pieces (Segment.template (alternate values texts)) = texts) ∧
    (∀ text : String,
      ((∃ template, pieces template = [text]) ↔ isRepresentable text = true) ∧
      (isRepresentable text = true →
        ∀ template, pieces template = [text] ↔ template = escape text)) := by
  have escape_of_single {text template : String} (single : pieces template = [text]) :
      template = escape text := by
    rw [← template_alternate_single values text, ← single, template_alternate_pieces]
  have single_of_representable {text : String} (representable : isRepresentable text = true) :
      pieces (escape text) = [text] := by
    rw [← template_alternate_single values text]
    refine pieces_template_alternate values (List.cons_ne_nil text []) fun other member => ?_
    rw [List.mem_singleton.mp member]
    exact representable
  refine ⟨fun template => ?_, fun texts some each => ?_, fun text => ⟨?_, ?_⟩⟩
  · exact ⟨fun _ => isRepresentable_of_mem_pieces, length_pieces template,
      template_alternate_pieces values template⟩
  · exact pieces_template_alternate values some each
  · constructor
    · rintro ⟨template, single⟩
      exact isRepresentable_of_mem_pieces (single ▸ List.mem_cons_self)
    · exact fun representable => ⟨escape text, single_of_representable representable⟩
  · intro representable template
    constructor
    · exact escape_of_single
    · rintro rfl
      exact single_of_representable representable

/-- A backslash in front of a placeholder, braces that are text, and an empty last piece. -/
theorem pieces_codec_backslash : let texts := ["a\\\\", "x\x7b\x7dy", ""]
    let written := Segment.template (alternate (fun _ => .string "") texts)
    (∀ text ∈ texts, isRepresentable text = true) ∧
      written = "a\\\\\\\\\x7b\x7dx\\\\\x7b\x7dy\x7b\x7d" ∧ pieces written = texts := by
  intro texts written
  have each : ∀ text ∈ texts, isRepresentable text = true := by decide
  exact ⟨each, by decide, (pieces_codec _).2.1 texts (by decide) each⟩

end Template

end LogCalls
