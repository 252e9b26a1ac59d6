import LogCalls.Pattern.Method
import LogCalls.Proofs.Text.Stretch
import Mathlib.Data.List.Forall2

/-! # The language of method patterns

Which calls a pattern selects, said without the order in which a matcher tries things: names and argument
lists are cut into consecutive parts, one for each part of the pattern. The matcher never goes back,
since it carries the answers for all suffixes along; each of its steps turns the answers for a language
into the answers for that language with one more item in front. -/

namespace LogCalls

variable {c : Char}

/-! ## Items -/

namespace PatternItem

variable {α : Type}

/-- The item takes the block of elements. -/
def Takes : PatternItem α → List α → Prop
  | one test, block => ∃ element, block = [element] ∧ test element = true
  | many test, block => ∀ element ∈ block, test element = true

/-- The list can be cut into consecutive blocks, one for each item, which takes it. -/
def Matches (items : List (PatternItem α)) (elements : List α) : Prop :=
  ∃ blocks, blocks.flatten = elements ∧ List.Forall₂ Takes items blocks

/-- No items match the empty list only. -/
theorem matches_nil {elements : List α} : Matches [] elements ↔ elements = [] := by
  constructor
  · rintro ⟨blocks, rfl, taken⟩
    rw [List.forall₂_nil_left_iff.mp taken, List.flatten_nil]
  · rintro rfl
    exact ⟨[], rfl, .nil⟩

/-- The first item takes a block. -/
theorem matches_cons {item : PatternItem α} {items : List (PatternItem α)} {elements : List α} :
    Matches (item :: items) elements ↔
      ∃ block rest, elements = block ++ rest ∧ item.Takes block ∧ Matches items rest := by
  constructor
  · rintro ⟨blocks, rfl, taken⟩
    obtain ⟨block, others, takes, takenByOthers, rfl⟩ := List.forall₂_cons_left_iff.mp taken
    exact ⟨block, others.flatten, rfl, takes, others, rfl, takenByOthers⟩
  · rintro ⟨block, rest, rfl, takes, blocks, rfl, taken⟩
    exact ⟨block :: blocks, rfl, .cons takes taken⟩

/-- The answers say of each suffix of a list, from the list itself to the empty one, whether it belongs
to the language. -/
inductive Tells (language : List α → Prop) : List α → List Bool → Prop where
  | nil {answer : Bool} : (answer = true ↔ language []) → Tells language [] [answer]
  | cons {answer : Bool} {element : α} {rest : List α} {later : List Bool} :
      (answer = true ↔ language (element :: rest)) → Tells language rest later →
        Tells language (element :: rest) (answer :: later)

namespace Tells

variable {language other : List α → Prop} {elements : List α} {answers : List Bool}

/-- The first answer is the one for the whole list. -/
theorem headD_iff (tells : Tells language elements answers) :
    answers.headD false = true ↔ language elements := by
  cases tells with
  | nil here => exact here
  | cons here _ => exact here

/-- Answers tell of any equal language. -/
theorem congr (tells : Tells language elements answers)
    (same : ∀ suffix, language suffix ↔ other suffix) : Tells other elements answers := by
  induction tells with
  | nil here => exact .nil (here.trans (same _))
  | cons here _ ih => exact .cons (here.trans (same _)) ih

/-- Only the empty suffix is at the end. -/
protected theorem atEnd (elements : List α) : Tells (· = []) elements (atEnd elements) := by
  induction elements with
  | nil => exact .nil (by simp)
  | cons element rest ih => exact .cons (by simp) ih

/-- A step for an item that takes one. -/
protected theorem stepOne {test : α → Bool} (tells : Tells language elements answers) :
    Tells (fun suffix => ∃ block rest, suffix = block ++ rest ∧ (one test).Takes block ∧
      language rest) elements (stepOne test elements answers) := by
  induction tells with
  | nil here =>
    refine .nil (iff_of_false Bool.false_ne_true ?_)
    rintro ⟨block, rest, whole, ⟨element, rfl, -⟩, -⟩
    cases whole
  | @cons answer element rest later here others ih =>
    refine .cons ?_ ih
    rw [Bool.and_eq_true, others.headD_iff]
    constructor
    · rintro ⟨belongs, passes⟩
      exact ⟨[element], rest, rfl, ⟨element, rfl, passes⟩, belongs⟩
    · rintro ⟨block, remaining, whole, ⟨taken, rfl, passes⟩, belongs⟩
      cases whole
      exact ⟨belongs, passes⟩

/-- A step for an item that takes many. -/
protected theorem stepMany {test : α → Bool} (tells : Tells language elements answers) :
    Tells (fun suffix => ∃ block rest, suffix = block ++ rest ∧ (many test).Takes block ∧
      language rest) elements (stepMany test elements answers) := by
  induction tells with
  | nil here =>
    refine .nil (here.trans ⟨fun belongs => ⟨[], [], rfl, List.forall_mem_nil _, belongs⟩, ?_⟩)
    rintro ⟨block, rest, whole, -, belongs⟩
    obtain ⟨rfl, rfl⟩ := List.append_eq_nil_iff.mp whole.symm
    exact belongs
  | @cons answer element rest later here others ih =>
    refine .cons ?_ ih
    rw [Bool.or_eq_true, Bool.and_eq_true, here, ih.headD_iff]
    constructor
    · -- The block is empty, or it is one element longer than one that serves for the rest.
      rintro (belongs | ⟨⟨block, remaining, rfl, passing, belongs⟩, passes⟩)
      · exact ⟨[], element :: rest, rfl, List.forall_mem_nil _, belongs⟩
      · exact ⟨element :: block, remaining, rfl, List.forall_mem_cons.mpr ⟨passes, passing⟩, belongs⟩
    · rintro ⟨block, remaining, whole, passing, belongs⟩
      cases block with
      | nil =>
        left
        rw [whole]
        exact belongs
      | cons first block =>
        right
        cases whole
        obtain ⟨passes, passing⟩ := List.forall_mem_cons.mp passing
        exact ⟨⟨block, remaining, rfl, passing, belongs⟩, passes⟩

end Tells

/-- Each step of the matcher puts one item in front of the language that it has answered for. -/
theorem tells_suffixMatches (items : List (PatternItem α)) (elements : List α) :
    Tells (Matches items) elements (suffixMatches items elements) := by
  induction items with
  | nil => exact (Tells.atEnd elements).congr fun suffix => matches_nil.symm
  | cons item items ih =>
    cases item with
    | one test => exact ih.stepOne.congr fun suffix => matches_cons.symm
    | many test => exact ih.stepMany.congr fun suffix => matches_cons.symm

/-- **Matching is cutting.** The items match a list if it can be cut into blocks for them. -/
theorem isMatch_iff {items : List (PatternItem α)} {elements : List α} :
    isMatch items elements = true ↔ Matches items elements :=
  (tells_suffixMatches items elements).headD_iff

end PatternItem

/-! ## Globs -/

namespace Glob

/-- The name belongs to the language of the glob. The glob is its parts with a star in front of all but
the first; the name has a word of name characters for each star, with the parts around the words as
they are. -/
def Matches (glob name : List Char) : Prop :=
  ∃ (first : List Char) (others : List (List Char × List Char)),
    '*' ∉ first ∧
    (∀ entry ∈ others, (∀ c ∈ entry.1, isNameChar c = true) ∧ '*' ∉ entry.2) ∧
    glob = first ++ others.flatMap (fun entry => '*' :: entry.2) ∧
    name = first ++ others.flatMap (fun entry => entry.1 ++ entry.2)

/-- The empty glob matches the empty name. -/
theorem matches_nil {name : List Char} : Matches [] name ↔ name = [] := by
  constructor
  · rintro ⟨first, others, -, -, whole, rfl⟩
    obtain ⟨rfl, none⟩ := List.append_eq_nil_iff.mp whole.symm
    cases others with
    | nil => rfl
    | cons entry others => cases none
  · rintro rfl
    exact ⟨[], [], List.not_mem_nil, List.forall_mem_nil _, rfl, rfl⟩

/-- A star takes a word, and the rest of the glob the rest of the name. -/
theorem matches_star {glob name : List Char} : Matches ('*' :: glob) name ↔
      ∃ word rest, name = word ++ rest ∧ (∀ c ∈ word, isNameChar c = true) ∧ Matches glob rest := by
  constructor
  · rintro ⟨first, others, free, each, whole, rfl⟩
    cases first with
    | cons c first =>
      cases whole
      exact absurd List.mem_cons_self free
    | nil =>
      cases others with
      | nil => cases whole
      | cons entry others =>
        obtain ⟨word, part⟩ := entry
        cases whole
        obtain ⟨⟨ofWord, ofPart⟩, each⟩ := List.forall_mem_cons.mp each
        refine ⟨word, part ++ others.flatMap (fun entry => entry.1 ++ entry.2), ?_, ofWord,
          part, others, ofPart, each, rfl, rfl⟩
        simp
  · rintro ⟨word, rest, rfl, ofWord, first, others, free, each, rfl, rfl⟩
    refine ⟨[], (word, first) :: others, List.not_mem_nil,
      List.forall_mem_cons.mpr ⟨⟨ofWord, free⟩, each⟩, rfl, ?_⟩
    simp

/-- Any other character stands for itself. -/
theorem matches_char (notStar : c ≠ '*') {glob name : List Char} :
    Matches (c :: glob) name ↔ ∃ rest, name = c :: rest ∧ Matches glob rest := by
  constructor
  · rintro ⟨first, others, free, each, whole, rfl⟩
    cases first with
    | nil =>
      cases others with
      | nil => cases whole
      | cons entry others =>
        cases whole
        exact absurd rfl notStar
    | cons c first =>
      cases whole
      exact ⟨_, rfl, first, others, fun member => free (List.mem_cons_of_mem _ member), each, rfl, rfl⟩
  · rintro ⟨rest, rfl, first, others, free, each, rfl, rfl⟩
    refine ⟨c :: first, others, ?_, each, rfl, rfl⟩
    rw [List.mem_cons, not_or]
    exact ⟨notStar.symm, free⟩

/-- **Globs match their language.** -/
theorem isMatch_iff {glob name : List Char} : isMatch glob name = true ↔ Matches glob name := by
  rw [isMatch, PatternItem.isMatch_iff]
  induction glob generalizing name with
  | nil => exact PatternItem.matches_nil.trans matches_nil.symm
  | cons c glob ih =>
    rw [List.map_cons, PatternItem.matches_cons]
    simp only [ih]
    by_cases star : c = '*'
    · subst star
      exact matches_star.symm
    · rw [matches_char star, item, if_neg star]
      constructor
      · rintro ⟨block, rest, rfl, ⟨taken, rfl, same⟩, belongs⟩
        exact ⟨rest, by rw [eq_of_beq same]; rfl, belongs⟩
      · rintro ⟨rest, rfl, belongs⟩
        exact ⟨[c], rest, rfl, ⟨c, rfl, beq_self_eq_true c⟩, belongs⟩

end Glob

/-! ## Arguments -/

namespace ArgumentPattern

/-- The static type of an argument is the one that a pattern names: a name without dots is the name in
source text, one with dots is the full name of the type or of a class that it can be assigned to. -/
def Names (name : String) (type : JavaType) : Prop :=
  if '.' ∈ name.toList then type.typeName = name ∨ type.isAssignableTo name = true
  else type.sourceName = name

/-- The pattern takes the block of arguments. -/
def Takes : ArgumentPattern → List Expr → Prop
  | anyOne, block => ∃ argument, block = [argument]
  | rest, _ => True
  | typed name, block =>
    ∃ argument type, block = [argument] ∧ argument.staticType = some type ∧ Names name type

/-- The test of a type's name is `Names`. -/
theorem names_iff {name : String} {type : JavaType} :
    (if name.toList.contains '.' then type.typeName == name || type.isAssignableTo name
      else type.sourceName == name) = true ↔ Names name type := by
  unfold Names
  by_cases dotted : '.' ∈ name.toList <;> simp [dotted]

/-- A pattern takes what its item takes. -/
theorem takes_item {pattern : ArgumentPattern} {block : List Expr} :
    pattern.item.Takes block ↔ pattern.Takes block := by
  cases pattern with
  | anyOne => simp [item, PatternItem.Takes, Takes, admits]
  | rest => simp [item, PatternItem.Takes, Takes]
  | typed name =>
    have admitted : ∀ argument : Expr, admits (typed name) argument = true ↔
        ∃ type, argument.staticType = some type ∧ Names name type := by
      intro argument
      unfold admits Expr.hasType
      cases argument.staticType with
      | none => simp
      | some type => simpa using names_iff
    simp only [item, PatternItem.Takes, Takes, admitted, exists_and_left]

/-- Argument patterns admit the lists that can be cut into blocks for them. -/
theorem admitsAll_iff {patterns : List ArgumentPattern} {arguments : List Expr} :
    admitsAll patterns arguments = true ↔
      ∃ blocks, blocks.flatten = arguments ∧ List.Forall₂ Takes patterns blocks := by
  rw [admitsAll, PatternItem.isMatch_iff, PatternItem.Matches]
  simp only [List.forall₂_map_left_iff, takes_item]

/-- All patterns but `..` take one argument. -/
theorem item_eq_one {pattern : ArgumentPattern} (single : pattern ≠ rest) :
    pattern.item = .one pattern.admits := by
  cases pattern with
  | rest => exact absurd rfl single
  | anyOne => rfl
  | typed name => rfl

/-- Every number of arguments is tried for `..`, so a list is admitted if it can be cut. -/
theorem admitsByTrial_iff {patterns : List ArgumentPattern} {arguments : List Expr} :
    admitsByTrial patterns arguments = true ↔ PatternItem.Matches (patterns.map item) arguments := by
  fun_induction admitsByTrial patterns arguments with
  | case1 arguments => exact List.isEmpty_iff.trans PatternItem.matches_nil.symm
  | case2 patterns arguments ih =>
    rw [List.any_eq_true, List.map_cons, PatternItem.matches_cons]
    constructor
    · rintro ⟨skipped, -, admitted⟩
      exact ⟨arguments.take skipped, arguments.drop skipped, (List.take_append_drop _ _).symm,
        fun _ _ => rfl, (ih skipped).mp admitted⟩
    · rintro ⟨block, others, rfl, -, belongs⟩
      refine ⟨block.length, List.mem_range.mpr ?_, (ih _).mpr ?_⟩
      · rw [List.length_append]
        omega
      · rw [List.drop_left]
        exact belongs
  | case3 pattern patterns single =>
    refine iff_of_false Bool.false_ne_true ?_
    rw [List.map_cons, PatternItem.matches_cons, item_eq_one single]
    rintro ⟨block, others, whole, ⟨taken, rfl, -⟩, -⟩
    cases whole
  | case4 pattern patterns argument arguments single ih =>
    rw [Bool.and_eq_true, ih, List.map_cons, PatternItem.matches_cons, item_eq_one single]
    constructor
    · rintro ⟨admitted, belongs⟩
      exact ⟨[argument], arguments, rfl, ⟨argument, rfl, admitted⟩, belongs⟩
    · rintro ⟨block, others, whole, ⟨taken, rfl, admitted⟩, belongs⟩
      cases whole
      exact ⟨admitted, belongs⟩

/-- **The table answers like trying.** -/
theorem admitsAll_eq_admitsByTrial (patterns : List ArgumentPattern) (arguments : List Expr) :
    admitsAll patterns arguments = admitsByTrial patterns arguments := by
  rw [Bool.eq_iff_iff, admitsByTrial_iff, admitsAll, PatternItem.isMatch_iff]

end ArgumentPattern

/-! ## The text of a pattern

A text can be read in one way only, since no character of a name is a blank. -/

namespace MethodPattern

variable {pattern : MethodPattern}

/-- Blanks are not part of names. -/
theorem isTypeChar_of_isBlank (blank : Text.isBlank c = true) : isTypeChar c = false := by
  have plain : c ≠ '.' ∧ c ≠ '$' ∧ c ≠ '*' := by
    refine ⟨?_, ?_, ?_⟩ <;>
    · rintro rfl
      exact absurd blank (by decide)
  simp [isTypeChar, Text.isWordChar_of_isBlank blank, plain]

/-- Names are not blank. -/
theorem isBlank_of_isTypeChar (named : isTypeChar c = true) : Text.isBlank c = false := by
  refine Bool.eq_false_iff.mpr fun blank => ?_
  rw [isTypeChar_of_isBlank blank] at named
  cases named

/-- Type names allow what method names do. -/
theorem isTypeChar_of_isMethodChar (named : isMethodChar c = true) : isTypeChar c = true := by
  simp only [isMethodChar, isTypeChar, Bool.or_eq_true] at named ⊢
  tauto

/-- No blank is in a method's name. -/
theorem isMethodChar_of_isBlank (blank : Text.isBlank c = true) : isMethodChar c = false := by
  refine Bool.eq_false_iff.mpr fun named => ?_
  have type := isTypeChar_of_isMethodChar named
  rw [isTypeChar_of_isBlank blank] at type
  cases type

/-- The text is a glob for the declaring class, blanks, a glob for the method, and the arguments in
parentheses, with any blanks in the other places. -/
def LaidOut (text typeGlob methodGlob inside : List Char) : Prop :=
  ∃ lead gap space trail : List Char,
    text = lead ++ (typeGlob ++ (gap ++ (methodGlob ++ (space ++ '(' :: (inside ++ ')' :: trail))))) ∧
    (∀ c ∈ lead ++ gap ++ space ++ trail, Text.isBlank c = true) ∧ gap ≠ [] ∧
    typeGlob ≠ [] ∧ (∀ c ∈ typeGlob, isTypeChar c = true) ∧
    methodGlob ≠ [] ∧ (∀ c ∈ methodGlob, isMethodChar c = true) ∧ ')' ∉ inside

/-- The parts that are found in a text are where they belong. -/
theorem laidOut_of_parts? {text typeGlob methodGlob inside : List Char}
    (found : parts? text = some (typeGlob, methodGlob, inside)) :
    LaidOut text typeGlob methodGlob inside := by
  unfold parts? at found
  obtain ⟨lead, wholeText, blankLead, -⟩ := dropWhile_eq_iff.mp (Eq.refl (text.dropWhile Text.isBlank))
  cases atType : (text.dropWhile Text.isBlank).span isTypeChar with
  | mk foundType afterType =>
  cases atGap : afterType.span Text.isBlank with
  | mk gap afterGap =>
  cases atName : afterGap.span isMethodChar with
  | mk foundName afterName =>
  simp only [atType, atGap, atName] at found
  obtain ⟨wholeType, ofType, -⟩ := span_eq_iff.mp atType
  obtain ⟨wholeGap, blankGap, -⟩ := span_eq_iff.mp atGap
  obtain ⟨wholeName, ofName, -⟩ := span_eq_iff.mp atName
  obtain ⟨space, wholeSpace, blankSpace, -⟩ :=
    dropWhile_eq_iff.mp (Eq.refl (afterName.dropWhile Text.isBlank))
  split at found
  · cases found
  · rename_i filled
    obtain ⟨⟨someType, someGap⟩, someName⟩ : (foundType ≠ [] ∧ gap ≠ []) ∧ foundName ≠ [] := by
      simpa [not_or] using filled
    split at found
    · rename_i afterOpening opening
      cases atEnd : afterOpening.span (· != ')') with
      | mk foundInside afterInside =>
      simp only [atEnd] at found
      obtain ⟨wholeInside, ofInside, -⟩ := span_eq_iff.mp atEnd
      split at found
      · rename_i trail
        split at found
        · rename_i blankTrail
          cases found
          refine ⟨lead, gap, space, trail, ?_, ?_, someGap, someType, ofType, someName, ofName, ?_⟩
          · rw [wholeText, wholeType, wholeGap, wholeName, wholeSpace, opening, wholeInside]
          · simp only [List.forall_mem_append]
            exact ⟨⟨⟨blankLead, blankGap⟩, blankSpace⟩, List.all_eq_true.mp blankTrail⟩
          · intro closing
            exact absurd rfl (bne_iff_ne.mp (ofInside _ closing))
        · cases found
      · cases found
    · cases found

/-- A text says one thing only, and its parts are found. -/
theorem parts?_of_laidOut {text typeGlob methodGlob inside : List Char}
    (laidOut : LaidOut text typeGlob methodGlob inside) :
    parts? text = some (typeGlob, methodGlob, inside) := by
  obtain ⟨lead, gap, space, trail, rfl, blank, someGap, someType, ofType, someName, ofName, closed⟩ :=
    laidOut
  simp only [List.forall_mem_append] at blank
  obtain ⟨⟨⟨blankLead, blankGap⟩, blankSpace⟩, blankTrail⟩ := blank
  -- Each part ends where a character follows that cannot belong to it.
  have atEnd : (inside ++ ')' :: trail).span (· != ')') = (inside, ')' :: trail) := by
    refine span_eq_iff.mpr ⟨rfl, fun c member => bne_iff_ne.mpr ?_, by simp⟩
    rintro rfl
    exact closed member
  generalize inside ++ ')' :: trail = afterOpening at atEnd ⊢
  have atSpace : (space ++ '(' :: afterOpening).dropWhile Text.isBlank = '(' :: afterOpening :=
    dropWhile_eq_iff.mpr ⟨space, rfl, blankSpace, by simpa using by decide⟩
  have atName : (methodGlob ++ (space ++ '(' :: afterOpening)).span isMethodChar =
      (methodGlob, space ++ '(' :: afterOpening) := by
    refine span_eq_iff.mpr ⟨rfl, ofName, ?_⟩
    cases space with
    | nil => simpa using by decide +kernel
    | cons c space =>
      intro first same
      cases same
      exact isMethodChar_of_isBlank (blankSpace _ List.mem_cons_self)
  generalize space ++ '(' :: afterOpening = afterName at atSpace atName ⊢
  have atGap : (gap ++ (methodGlob ++ afterName)).span Text.isBlank =
      (gap, methodGlob ++ afterName) :=
    span_eq_iff.mpr ⟨rfl, blankGap, rejects_head?_append someName fun c member =>
      isBlank_of_isTypeChar (isTypeChar_of_isMethodChar (ofName c member))⟩
  have atType : (typeGlob ++ (gap ++ (methodGlob ++ afterName))).span isTypeChar =
      (typeGlob, gap ++ (methodGlob ++ afterName)) :=
    span_eq_iff.mpr ⟨rfl, ofType, rejects_head?_append someGap fun c member =>
      isTypeChar_of_isBlank (blankGap c member)⟩
  have atStart : (lead ++ (typeGlob ++ (gap ++ (methodGlob ++ afterName)))).dropWhile Text.isBlank =
      typeGlob ++ (gap ++ (methodGlob ++ afterName)) :=
    dropWhile_eq_iff.mpr ⟨lead, rfl, blankLead, rejects_head?_append someType fun c member =>
      isBlank_of_isTypeChar (ofType c member)⟩
  have filled : (typeGlob.isEmpty || gap.isEmpty || methodGlob.isEmpty) = false := by
    simp [someType, someGap, someName]
  simp only [parts?, atStart, atType, atGap, atName, atSpace, atEnd, filled, Bool.false_eq_true,
    if_false, if_pos (List.all_eq_true.mpr blankTrail)]

/-- The parts of a text are found where they are. -/
theorem parts?_eq_some_iff {text typeGlob methodGlob inside : List Char} :
    parts? text = some (typeGlob, methodGlob, inside) ↔ LaidOut text typeGlob methodGlob inside :=
  ⟨laidOut_of_parts?, parts?_of_laidOut⟩

/-! ## Patterns -/

/-- The text of a pattern spells two globs and a list of argument patterns. -/
def Spells (text : String) (typeGlob methodGlob : List Char) (arguments : List ArgumentPattern) :
    Prop :=
  ∃ inside, LaidOut text.toList typeGlob methodGlob inside ∧
    arguments = ArgumentPattern.listOfText inside

/-- The expression is a call of a known method such that the method glob matches its name, the type glob
the class that declares it or a class in the ancestry of the receiver's class, and such that the
arguments can be cut into blocks for the argument patterns. -/
def Selects (typeGlob methodGlob : List Char) (patterns : List ArgumentPattern) (expr : Expr) : Prop :=
  ∃ select name arguments method,
    expr = .methodCall select name arguments (some method) ∧ Glob.Matches methodGlob name.toList ∧
    (Glob.Matches typeGlob method.declaringType.toList ∨
      ∃ receiver type, select = some receiver ∧ receiver.staticType = some (.classType type) ∧
        ∃ entry ∈ type.ancestry, Glob.Matches typeGlob entry.fqn.toList) ∧
    ∃ blocks, blocks.flatten = arguments ∧ List.Forall₂ ArgumentPattern.Takes patterns blocks

/-- The class of a receiver. -/
theorem receiverClass_iff {select : Option Expr} {type : ClassType} :
    (select.bind Expr.staticType).bind JavaType.classType? = some type ↔
      ∃ receiver, select = some receiver ∧ receiver.staticType = some (.classType type) := by
  have ofClass : ∀ whole : JavaType, whole.classType? = some type ↔ whole = .classType type := by
    intro whole
    cases whole <;> simp [JavaType.classType?]
  simp only [Option.bind_eq_some_iff, ofClass, exists_eq_right]

/-- An owner matches itself or by an ancestor. -/
theorem matchesOwner_iff {declaringType : String} {select : Option Expr} :
    pattern.matchesOwner declaringType select = true ↔
      Glob.Matches pattern.declaringType declaringType.toList ∨
      ∃ receiver type, select = some receiver ∧ receiver.staticType = some (.classType type) ∧
        ∃ entry ∈ type.ancestry, Glob.Matches pattern.declaringType entry.fqn.toList := by
  rw [matchesOwner, Bool.or_eq_true, matchesClass, Glob.isMatch_iff]
  refine or_congr_right ?_
  cases known : (select.bind Expr.staticType).bind JavaType.classType? with
  | none =>
    refine iff_of_false Bool.false_ne_true ?_
    rintro ⟨receiver, type, selected, typed, -⟩
    rw [receiverClass_iff.mpr ⟨receiver, selected, typed⟩] at known
    cases known
  | some type =>
    simp only [List.any_eq_true, matchesClass, Glob.isMatch_iff]
    constructor
    · intro matched
      obtain ⟨receiver, selected, typed⟩ := receiverClass_iff.mp known
      exact ⟨receiver, type, selected, typed, matched⟩
    · rintro ⟨receiver, other, selected, typed, matched⟩
      cases known.symm.trans (receiverClass_iff.mpr ⟨receiver, selected, typed⟩)
      exact matched

/-- A pattern matches the calls that its parts select. -/
theorem isMatch_iff {expr : Expr} : pattern.isMatch expr = true ↔
      Selects pattern.declaringType pattern.methodName pattern.arguments expr := by
  unfold isMatch Selects
  split
  · rename_i select name arguments method
    rw [Bool.and_eq_true, Bool.and_eq_true, Glob.isMatch_iff, matchesOwner_iff,
      ArgumentPattern.admitsAll_iff, and_assoc]
    constructor
    · rintro matched
      exact ⟨select, name, arguments, method, rfl, matched⟩
    · rintro ⟨_, _, _, _, same, matched⟩
      cases same
      exact matched
  · rename_i other
    refine iff_of_false Bool.false_ne_true ?_
    rintro ⟨select, name, arguments, method, rfl, -⟩
    exact other _ _ _ _ rfl

/-- What a text spells is the pattern that is read from it. -/
theorem eq_of_parse {limit : Nat} {text : String} (parsed : parse limit text = .ok pattern)
    {typeGlob methodGlob : List Char} {arguments : List ArgumentPattern} :
    Spells text typeGlob methodGlob arguments ↔
      typeGlob = pattern.declaringType ∧ methodGlob = pattern.methodName ∧
        arguments = pattern.arguments := by
  unfold parse at parsed
  split at parsed
  · rename_i foundType foundMethod inside found
    split at parsed
    · cases parsed
      have read : ∀ otherInside, LaidOut text.toList typeGlob methodGlob otherInside ↔
          foundType = typeGlob ∧ foundMethod = methodGlob ∧ inside = otherInside := by
        intro otherInside
        rw [← parts?_eq_some_iff, found, Option.some_inj, Prod.mk.injEq, Prod.mk.injEq]
      simp only [Spells, read]
      constructor
      · rintro ⟨_, ⟨rfl, rfl, rfl⟩, rfl⟩
        exact ⟨rfl, rfl, rfl⟩
      · rintro ⟨rfl, rfl, rfl⟩
        exact ⟨inside, ⟨rfl, rfl, rfl⟩, rfl⟩
    · cases parsed
  · cases parsed

/-- **Patterns match exactly their language.** Whatever the limit for globs is, what the text of an accepted
pattern spells is unique, and the pattern matches the expressions that this selects and no others. -/
theorem isMatch_iff_selects (limit : Nat) (text : String) (pattern : MethodPattern)
    (parsed : parse limit text = .ok pattern) :
    (∃ typeGlob methodGlob arguments, Spells text typeGlob methodGlob arguments) ∧
      ∀ typeGlob methodGlob arguments, Spells text typeGlob methodGlob arguments →
        ∀ expr, pattern.isMatch expr = true ↔ Selects typeGlob methodGlob arguments expr := by
  refine ⟨⟨_, _, _, (eq_of_parse parsed).mpr ⟨rfl, rfl, rfl⟩⟩, ?_⟩
  intro typeGlob methodGlob arguments spells expr
  obtain ⟨rfl, rfl, rfl⟩ := (eq_of_parse parsed).mp spells
  exact isMatch_iff

/-- The stars of the type glob can be filled in several ways, and two of the arguments are strings. -/
theorem isMatch_iff_selects_overlapping : let text := "Lo*g*r log*( .., String,.. , *)"
    let pattern : MethodPattern := {
      text := String.ofList (Text.trim text.toList)
      declaringType := ['L', 'o', '*', 'g', '*', 'r'], methodName := ['l', 'o', 'g', '*']
      arguments := [.rest, .typed "String", .rest, .anyOne] }
    let call : Expr := .call (.ident "target" (.named "LoggerOrLogger")) "logging"
      [.string "first", .string "second", .literal (.number "1")] (.onInstance "Target" "logging")
    parse Glob.sizeLimit text = .ok pattern ∧ pattern.isMatch call = true ∧
      Selects pattern.declaringType pattern.methodName pattern.arguments call := by
  intro text pattern call
  have parsed : parse Glob.sizeLimit text = .ok pattern := by
    have found : parts? text.toList = some (pattern.declaringType, pattern.methodName,
        " .., String,.. , *".toList) := by decide +kernel
    have fits : Glob.size pattern.declaringType ≤ Glob.sizeLimit ∧
        Glob.size pattern.methodName ≤ Glob.sizeLimit := by decide
    have arguments : ArgumentPattern.listOfText " .., String,.. , *".toList = pattern.arguments := by
      decide +kernel
    simp only [parse, found, if_pos fits, arguments]
    rfl
  have matched : pattern.isMatch call = true := by decide +kernel
  have spells := (eq_of_parse parsed).mpr ⟨rfl, rfl, rfl⟩
  exact ⟨parsed, matched,
    ((isMatch_iff_selects _ text pattern parsed).2 _ _ _ spells call).mp matched⟩

end MethodPattern

end LogCalls
