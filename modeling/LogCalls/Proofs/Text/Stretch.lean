import LogCalls.Text.Word
import Mathlib.Data.List.TakeDrop
import Mathlib.Data.List.TakeWhile

/-! # Stretches of characters

A reader that takes characters of one kind as long as there are any cuts a text at a place that the text
determines: the characters before it are of that kind, and the one after it is not. Whether two kinds
of characters exclude each other is read off their tables. -/

namespace LogCalls

/-- The longest front part of a list whose elements pass a test: it is followed by an element that does
not, or by nothing. -/
theorem span_eq_iff {α : Type} {test : α → Bool} {whole front back : List α} :
    whole.span test = (front, back) ↔ whole = front ++ back ∧ (∀ element ∈ front, test element = true) ∧
      ∀ element ∈ back.head?, test element = false := by
  rw [List.span_eq_takeWhile_dropWhile, Prod.mk.injEq]
  constructor
  · rintro ⟨rfl, rfl⟩
    refine ⟨List.takeWhile_append_dropWhile.symm, fun element => List.mem_takeWhile_imp, ?_⟩
    intro element first
    have rejected := List.head?_dropWhile_not test whole
    rw [Option.mem_def.mp first] at rejected
    exact rejected
  · rintro ⟨rfl, passing, stops⟩
    rw [List.takeWhile_append_of_pos passing, List.dropWhile_append_of_pos passing]
    cases back with
    | nil => simp
    | cons element back =>
      have rejected : test element = false := stops element rfl
      simp [rejected]

/-- What is left of a list without its front part. -/
theorem dropWhile_eq_iff {α : Type} {test : α → Bool} {whole back : List α} :
    whole.dropWhile test = back ↔ ∃ front, whole = front ++ back ∧
      (∀ element ∈ front, test element = true) ∧ ∀ element ∈ back.head?, test element = false := by
  simp only [← span_eq_iff, List.span_eq_takeWhile_dropWhile, Prod.mk.injEq]
  constructor
  · intro rest
    exact ⟨_, rfl, rest⟩
  · rintro ⟨_, _, rest⟩
    exact rest

/-- What starts with elements that fail a test does not start with one that passes. -/
theorem rejects_head?_append {α : Type} {test : α → Bool} {front back : List α} (filled : front ≠ [])
    (each : ∀ element ∈ front, test element = false) :
    ∀ element ∈ (front ++ back).head?, test element = false := by
  cases front with
  | nil => exact absurd rfl filled
  | cons element front =>
    intro first same
    cases same
    exact each element List.mem_cons_self

namespace Text

/-- No range of the one table meets a range of the other. -/
def rangesApart (ranges others : List (Nat × Nat)) : Bool :=
  ranges.all fun range => others.all fun other => range.2.blt other.1 || other.2.blt range.1

theorem inRanges_of_rangesApart {ranges others : List (Nat × Nat)}
    (apart : rangesApart ranges others = true) {c : Char} (within : inRanges ranges c = true) :
    inRanges others c = false := by
  simp only [rangesApart, List.all_eq_true, Bool.or_eq_true, Nat.blt_eq] at apart
  simp only [inRanges, List.any_eq_true, Bool.and_eq_true, decide_eq_true_eq] at within
  obtain ⟨range, member, lower, upper⟩ := within
  rw [inRanges, List.any_eq_false]
  intro other otherMember
  have distance := apart range member other otherMember
  simp only [Bool.and_eq_true, decide_eq_true_eq]
  omega

/-- Blanks are not part of words. -/
theorem isWordChar_of_isBlank {c : Char} (blank : isBlank c = true) : isWordChar c = false := by
  have letters : rangesApart blankRanges alphabeticRanges = true := by decide +kernel
  have marks : rangesApart blankRanges markRanges = true := by decide +kernel
  have digits : rangesApart blankRanges decimalDigitRanges = true := by decide +kernel
  have connectors : rangesApart blankRanges connectorRanges = true := by decide +kernel
  have joiners : rangesApart blankRanges joinerRanges = true := by decide +kernel
  simp [isWordChar, isAlphabetic, isMark, isDecimalDigit, inRanges_of_rangesApart letters blank,
    inRanges_of_rangesApart marks blank, inRanges_of_rangesApart digits blank,
    inRanges_of_rangesApart connectors blank, inRanges_of_rangesApart joiners blank]

end Text

end LogCalls
