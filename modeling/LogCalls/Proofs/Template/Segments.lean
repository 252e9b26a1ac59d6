import LogCalls.Message.Segment
import LogCalls.Proofs.Template.Chunks

/-! # Templates that segments make

Segments of which no two neighbours are texts can be read back from their template: its pieces are
the texts around the arguments. Two texts side by side could form braces that neither of them has,
which is why neighbours are put together before a template is written. -/

namespace LogCalls

namespace Template

/-! ## Text and a placeholder after it -/

/-- What a placeholder needs in front of it to stay one after a text. -/
def shield (text : List Char) : List Char := if trailingBackslashes text = 0 then [] else backslash

theorem shield_braces (run text : List Char) : shield (run ++ placeholder ++ text) = shield text := by
  rw [shield, shield, trailingBackslashes_append_braces]

/-- An escaped text ends in as many backslashes as the text. -/
@[simp] theorem trailingBackslashes_escaped (text : List Char) :
    trailingBackslashes (escaped text) = trailingBackslashes text := by
  induction text using braceInduction with
  | solid run solid => rw [escaped_solid solid]
  | braces run text solid ih =>
    rw [escaped_braces solid, trailingBackslashes_append_braces, ih,
      trailingBackslashes_append_braces]

/-- An escaped text is read back as one piece, if it can be represented. -/
theorem split_escaped_end {text : List Char} (plain : Plain text) :
    ∀ carried, split carried (escaped text) = [carried ++ text] := by
  induction text using braceInduction with
  | solid run solid =>
    intro carried
    rw [escaped_solid solid, split_solid solid]
  | braces run text solid ih =>
    intro carried
    obtain ⟨bare, plainText⟩ := (plain_braces solid).mp plain
    rw [escaped_braces solid, guard, if_pos bare, split_escaped solid bare,
      ih plainText]
    simp

/-- An escaped text and the placeholder after it are read back as one piece that ends there. -/
theorem split_escaped_placeholder {text : List Char} (plain : Plain text) (rest : List Char) :
    ∀ carried, split carried (escaped text ++ shield text ++ placeholder ++ rest) =
      (carried ++ text) :: split [] rest := by
  induction text using braceInduction with
  | solid run solid =>
    intro carried
    rw [escaped_solid solid]
    by_cases bare : trailingBackslashes run = 0
    · rw [shield, if_pos bare, List.append_nil, split_active solid bare]
    · rw [shield, if_neg bare, split_doubled solid bare]
  | braces run text solid ih =>
    intro carried
    obtain ⟨bare, plainText⟩ := (plain_braces solid).mp plain
    have regroup : escaped (run ++ placeholder ++ text) ++ shield (run ++ placeholder ++ text) ++
        placeholder ++ rest =
        run ++ backslash ++ placeholder ++ (escaped text ++ shield text ++ placeholder ++ rest) := by
      rw [escaped_braces solid, guard, if_pos bare, shield_braces]
      simp only [List.append_assoc]
    rw [regroup, split_escaped solid bare, ih plainText]
    simp only [List.append_assoc]

/-- A template has one piece more than it has placeholders. -/
theorem length_split (text : List Char) :
    ∀ carried, (split carried text).length = count text + 1 := by
  induction text using templateInduction with
  | solid run solid =>
    intro carried
    rw [split_solid solid, count_solid solid]
    rfl
  | active run text solid bare ih =>
    intro carried
    rw [split_active solid bare, count_braces solid, List.length_cons, ih, bare]
    simp only [Nat.zero_ne_one, if_false]
    omega
  | escaped run text solid bare ih =>
    intro carried
    have solid' := solid_append_backslash.mpr solid
    rw [split_escaped solid bare, count_braces solid', ih,
      trailingBackslashes_append_backslash, bare, if_pos rfl, Nat.zero_add]
  | doubled run text solid ends ih =>
    intro carried
    have solid' := solid_append_backslash.mpr solid
    have several : trailingBackslashes (run ++ backslash) ≠ 1 := by
      rw [trailingBackslashes_append_backslash]
      omega
    rw [split_doubled solid ends, count_braces solid', if_neg several, List.length_cons,
      ih]
    omega

/-- **Pieces and placeholders.** A template has one piece more than it has placeholders. -/
theorem length_pieces (template : String) :
    (pieces template).length = placeholderCount template + 1 := by
  rw [pieces, List.length_map]
  exact length_split template.toList []

/-- The text can be represented when its characters are plain. -/
theorem isRepresentable_iff {text : String} : isRepresentable text = true ↔ Plain text.toList :=
  Iff.rfl

/-- No backslash reaches back into the text: those at the end of a longer text stand after it. -/
def Sealed (written : List Char) : Prop :=
  ∀ text, trailingBackslashes (written ++ text) = trailingBackslashes text

theorem sealed_append_placeholder (written : List Char) : Sealed (written ++ placeholder) :=
  fun text => trailingBackslashes_append_braces written text

end Template

namespace Segment

variable {segments rest : List Segment}

open Template

/-! ## Separated segments -/

/-- No two neighbours are texts. -/
inductive Separated : List Segment → Prop where
  | nil : Separated []
  | last (raw : String) : Separated [.text raw]
  | text (raw : String) (expr : Expr) {rest : List Segment} :
      Separated rest → Separated (.text raw :: .argument expr :: rest)
  | argument (expr : Expr) {rest : List Segment} :
      Separated rest → Separated (.argument expr :: rest)

/-- The texts around the arguments, with an empty text where there is none. -/
def texts : List Segment → List String
  | [] => [""]
  | .text raw :: rest =>
    match texts rest with
    | [] => [raw]
    | first :: others => (raw ++ first) :: others
  | .argument _ :: rest => "" :: texts rest

/-- There is one text more than there are arguments. -/
theorem length_texts (segments : List Segment) :
    (texts segments).length = (arguments segments).length + 1 := by
  induction segments with
  | nil => rfl
  | cons segment rest ih =>
    cases segment with
    | text raw =>
      rw [arguments_text, ← ih, texts]
      cases found : texts rest with
      | nil =>
        rw [found] at ih
        cases ih
      | cons first others => rfl
    | argument expr =>
      rw [arguments_argument, texts, List.length_cons, List.length_cons, ih]

/-- The characters of the template that segments make. -/
def written (segments : List Segment) : List Char := segments.foldl append []

theorem append_text (before : List Char) (raw : String) :
    append before (.text raw) = before ++ escaped raw.toList := by
  rw [append, escape, String.toList_ofList, escaped]

theorem append_argument (before : List Char) (expr : Expr) :
    append before (.argument expr) = before ++ shield before ++ placeholder := rfl

/-- What separated segments add to a template does not depend on what it begins with. -/
theorem foldl_append_of_sealed (separated : Separated segments) :
    ∀ before, Sealed before → segments.foldl append before = before ++ written segments := by
  induction separated with
  | nil =>
    intro before _
    exact (List.append_nil before).symm
  | last raw =>
    intro before _
    simp only [written, List.foldl_cons, List.foldl_nil, append_text, List.nil_append]
  | text raw expr separated ih =>
    intro before closed
    -- Only the shield of a placeholder looks back, and it sees no further than this text.
    have same : shield (before ++ escaped raw.toList) = shield (escaped raw.toList) := by
      rw [shield, shield, closed]
    simp only [written, List.foldl_cons, append_text, append_argument, List.nil_append, same]
    rw [ih _ (sealed_append_placeholder _),
      ih _ (sealed_append_placeholder _)]
    simp only [List.append_assoc]
  | argument expr separated ih =>
    intro before closed
    have bare : shield before = [] := by
      have alone := closed []
      rw [List.append_nil] at alone
      rw [shield, alone]
      rfl
    simp only [written, List.foldl_cons, append_argument, bare, List.append_nil]
    rw [ih _ (sealed_append_placeholder _),
      ih _ (sealed_append_placeholder _)]
    simp [shield]

/-- The template of a text, an argument and what follows. -/
theorem written_text_argument (raw : String) (expr : Expr) (separated : Separated rest) :
    written (.text raw :: .argument expr :: rest) =
      escaped raw.toList ++ shield raw.toList ++ placeholder ++ written rest := by
  have same : shield (escaped raw.toList) = shield raw.toList := by
    rw [shield, shield, trailingBackslashes_escaped]
  rw [written, List.foldl_cons, List.foldl_cons, append_text, append_argument, List.nil_append,
    same, foldl_append_of_sealed separated _ (sealed_append_placeholder _)]

/-- The template of an argument and what follows. -/
theorem written_argument (expr : Expr) (separated : Separated rest) :
    written (.argument expr :: rest) = placeholder ++ written rest := by
  rw [written, List.foldl_cons, append_argument,
    foldl_append_of_sealed separated _ (sealed_append_placeholder _)]
  rfl

/-! ## Reading a template back -/

theorem representable_text {raw : String} : representable (.text raw :: rest) = true ↔
      Plain raw.toList ∧ representable rest = true := by
  rw [representable, List.all_cons, Bool.and_eq_true]
  exact Iff.rfl

theorem representable_argument {expr : Expr} :
    representable (.argument expr :: rest) = true ↔ representable rest = true := by
  rw [representable, List.all_cons, Bool.true_and]
  exact Iff.rfl

/-- The characters of a template are read back as the texts around its arguments. -/
theorem split_written (separated : Separated segments)
    (representable : Segment.representable segments = true) :
    split [] (written segments) = (texts segments).map String.toList := by
  induction separated with
  | nil => rfl
  | last raw =>
    obtain ⟨plain, -⟩ := representable_text.mp representable
    have single : written [.text raw] = escaped raw.toList := by
      rw [written, List.foldl_cons, append_text]
      rfl
    rw [single, split_escaped_end plain]
    simp [texts]
  | text raw expr separated ih =>
    obtain ⟨plain, others⟩ := representable_text.mp representable
    rw [representable_argument] at others
    rw [written_text_argument raw expr separated, split_escaped_placeholder plain,
      ih others]
    simp [texts]
  | argument expr separated ih =>
    rw [representable_argument] at representable
    rw [written_argument expr separated, ← List.nil_append placeholder,
      split_active solid_nil trailingBackslashes_nil, ih representable]
    simp [texts]

/-- **Templates can be read back.** The pieces of a template are the texts around its arguments. -/
theorem pieces_template (separated : Separated segments)
    (representable : Segment.representable segments = true) :
    pieces (template segments) = texts segments := by
  have chars : (template segments).toList = written segments := String.toList_ofList
  have read := split_written separated representable
  rw [pieces, chars]
  rw [split] at read
  rw [read]
  simp

/-- A template has one placeholder for each argument. -/
theorem placeholderCount_template (separated : Separated segments)
    (representable : Segment.representable segments = true) :
    placeholderCount (template segments) = (arguments segments).length := by
  have pieceCount := length_pieces (template segments)
  rw [pieces_template separated representable, length_texts] at pieceCount
  omega

end Segment

end LogCalls
