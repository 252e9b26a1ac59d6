import LogCalls.Proofs.Rule.Migrate
import LogCalls.Proofs.Rule.Replacement

/-! # Expressions of the same shape

A call that can be carried over to another framework can still be carried over when calls inside its
arguments have been: the arguments keep their shape, and whatever is read off a message argument is
read off its shape. -/

namespace LogCalls

variable {name : String} {method : Option ResolvedMethod}

namespace Segment

/-- What a segment is without regard to its value: the text that it is, if it is one. -/
def text? : Segment → Option String
  | .text raw => some raw
  | .argument _ => none

/-- Neighbouring texts are put together without regard to the values between them. -/
theorem map_text?_merge {segments others : List Segment}
    (same : segments.map text? = others.map text?) :
    (merge segments).map text? = (merge others).map text? := by
  induction segments generalizing others with
  | nil =>
    cases others with
    | nil => rfl
    | cons => cases same
  | cons segment rest ih =>
    cases others with
    | nil => cases same
    | cons other others =>
      obtain ⟨head, tail⟩ := List.cons.inj same
      have merged := ih tail
      cases segment with
      | argument =>
        cases other with
        | argument => exact congrArg (none :: ·) merged
        | text => cases head
      | text raw =>
        cases other with
        | argument => cases head
        | text =>
          cases head
          rw [merge, merge]
          split
          · exact merged
          · generalize merge rest = first at merged
            generalize merge others = second at merged
            cases first with
            | nil =>
              cases second with
              | nil => rfl
              | cons => cases merged
            | cons front _ =>
              cases second with
              | nil => cases merged
              | cons back _ =>
                obtain ⟨head, tail⟩ := List.cons.inj merged
                cases front <;> cases back <;> cases head <;> simp [text?, tail]

/-- Whether segments can stand in a template is read off their texts. -/
theorem representable_eq (segments : List Segment) :
    representable segments = (segments.map text?).all (·.all Template.isRepresentable) := by
  induction segments with
  | nil => rfl
  | cons segment rest ih =>
    rw [representable, List.all_cons] at *
    cases segment <;> simp [text?, ih, Option.all]

end Segment

namespace Expr

/-- Which texts there are does not depend on the parentheses around the whole. -/
theorem map_text?_leaves_whole (whole other expr : Expr) :
    (leaves whole expr).map Segment.text? = (leaves other expr).map Segment.text? := by
  fun_induction leaves whole expr with
  | case1 whole inner ih =>
    rw [leaves]
    exact ih
  | case2 => rfl
  | case3 whole left right type string _ _ =>
    rw [leaves, if_pos string]
  | case4 whole left right type string =>
    rw [leaves, if_neg string]
    rfl
  | case5 whole expr notParens notLiteral notSum =>
    rw [leaves]
    · rfl
    · exact notParens
    · exact notLiteral
    · exact notSum

variable {serves : Expr → Expr → Prop} {before after : Expr}

/-- The expressions have the same shape. A call may stand in place of another one if it has the same
type, or if `serves` allows it. -/
inductive Alike (serves : Expr → Expr → Prop) : Expr → Expr → Prop where
  | same (expr : Expr) : Alike serves expr expr
  | fieldAccess {target other : Expr} (name : String) (type : Option JavaType) :
      Alike serves target other →
        Alike serves (.fieldAccess target name type) (.fieldAccess other name type)
  | methodCall {select otherSelect : Option Expr} {name otherName : String}
      {arguments others : List Expr} {method otherMethod : Option ResolvedMethod} :
      otherMethod.bind (·.returnType) = method.bind (·.returnType) ∨
          serves (.methodCall select name arguments method)
            (.methodCall otherSelect otherName others otherMethod) →
        Alike serves (.methodCall select name arguments method)
          (.methodCall otherSelect otherName others otherMethod)
  | binary {left right first second : Expr} (operator : BinaryOperator) (type : Option JavaType) :
      Alike serves left first → Alike serves right second →
        Alike serves (.binary operator left right type) (.binary operator first second type)
  | newClass (type : JavaType) (arguments others : List Expr) :
      Alike serves (.newClass type arguments) (.newClass type others)
  | newArray {elements others : List Expr} (element : JavaType) :
      others.length = elements.length →
        (∀ (index : Nat) (first second : Expr), elements[index]? = some first →
          others[index]? = some second → Alike serves first second) →
        Alike serves (.newArray element elements) (.newArray element others)
  | lambda (parameters : List String) (body other : List Statement) :
      Alike serves (.lambda parameters body) (.lambda parameters other)
  | parens {inner other : Expr} :
      Alike serves inner other → Alike serves (.parens inner) (.parens other)

/-- The expressions have the same shape one by one. -/
structure AlikeList (serves : Expr → Expr → Prop) (before after : List Expr) : Prop where
  length : after.length = before.length
  each : ∀ (index : Nat) (first second : Expr), before[index]? = some first →
    after[index]? = some second → first.Alike serves second

namespace AlikeList

variable {first second : Expr} {rest others : List Expr}

theorem nil : AlikeList serves [] [] := ⟨rfl, by simp⟩

theorem cons (alike : first.Alike serves second) (list : AlikeList serves rest others) :
    AlikeList serves (first :: rest) (second :: others) where
  length := congrArg (· + 1) list.length
  each := by
    intro index before after
    cases index with
    | zero =>
      rintro ⟨⟩ ⟨⟩
      exact alike
    | succ index => exact list.each index before after

/-- A list of the same shape as one that is not empty is not empty either. -/
theorem cons_cases {after : List Expr} (alike : AlikeList serves (first :: rest) after) :
    ∃ second others, after = second :: others ∧ first.Alike serves second ∧
      AlikeList serves rest others := by
  cases after with
  | nil => cases alike.length
  | cons second others =>
    exact ⟨second, others, rfl, alike.each 0 first second rfl rfl,
      Nat.succ.inj alike.length, fun index => alike.each (index + 1)⟩

theorem nil_cases {after : List Expr} (alike : AlikeList serves [] after) : after = [] :=
  List.eq_nil_of_length_eq_zero alike.length

theorem refl (exprs : List Expr) : AlikeList serves exprs exprs where
  length := rfl
  each := by
    intro index first second known same
    rw [known] at same
    cases same
    exact .same first

theorem append {front back otherFront otherBack : List Expr} (list : AlikeList serves front otherFront)
    (more : AlikeList serves back otherBack) :
    AlikeList serves (front ++ back) (otherFront ++ otherBack) := by
  induction front generalizing otherFront with
  | nil =>
    cases list.nil_cases
    exact more
  | cons first rest ih =>
    obtain ⟨second, others, rfl, alike, list⟩ := list.cons_cases
    exact cons alike (ih list)

/-- A test that does not tell expressions of the same shape apart gives the same on both lists. -/
theorem all_eq {test : Expr → Bool}
    (reads : ∀ first second : Expr, first.Alike serves second → test second = test first)
    {before after : List Expr} (alike : AlikeList serves before after) :
    after.all test = before.all test := by
  induction before generalizing after with
  | nil => rw [alike.nil_cases]
  | cons first rest ih =>
    obtain ⟨second, others, rfl, head, list⟩ := alike.cons_cases
    rw [List.all_cons, List.all_cons, reads first second head, ih list]

end AlikeList

namespace Alike

/-! ## What is read off a shape -/

/-- Parentheses are part of the shape. -/
theorem bare (alike : before.Alike serves after) : before.bare.Alike serves after.bare := by
  induction alike with
  | same expr => exact .same _
  | fieldAccess name type alike _ => exact .fieldAccess name type alike
  | methodCall type => exact .methodCall type
  | binary operator type left right _ _ => exact .binary operator type left right
  | newClass type arguments others => exact .newClass type arguments others
  | newArray element length each _ => exact .newArray element length each
  | lambda parameters body other => exact .lambda parameters body other
  | parens _ ih =>
    rw [bare_parens, bare_parens]
    exact ih

/-- A string literal is. -/
theorem stringLiteral? (alike : before.Alike serves after) :
    after.bare.stringLiteral? = before.bare.stringLiteral? := by
  induction alike with
  | same => rfl
  | fieldAccess => rfl
  | methodCall => rfl
  | binary => rfl
  | newClass => rfl
  | newArray => rfl
  | lambda => rfl
  | parens _ ih => exact ih

/-- A concatenation is. -/
theorem isConcatenation (alike : before.Alike serves after) :
    after.bare.isConcatenation = before.bare.isConcatenation := by
  induction alike with
  | same => rfl
  | fieldAccess => rfl
  | methodCall => rfl
  | binary operator type => cases operator <;> cases type <;> rfl
  | newClass => rfl
  | newArray => rfl
  | lambda => rfl
  | parens _ ih => exact ih

/-- The type is, but for that of a call. -/
theorem staticType (alike : before.Alike serves after) :
    after.staticType = before.staticType ∨ serves before.bare after.bare := by
  induction alike with
  | same => exact .inl rfl
  | fieldAccess => exact .inl rfl
  | methodCall type => exact type
  | binary => exact .inl rfl
  | newClass => exact .inl rfl
  | newArray => exact .inl rfl
  | lambda => exact .inl rfl
  | parens _ ih =>
    rw [staticType_parens, staticType_parens, bare_parens, bare_parens]
    exact ih

/-- Calls are not pure, whichever they are. -/
theorem isPure (alike : before.Alike serves after) : after.isPure = before.isPure := by
  induction alike with
  | same => rfl
  | fieldAccess _ _ _ ih => exact ih
  | methodCall => rfl
  | binary => rfl
  | newClass => rfl
  | newArray => rfl
  | lambda => rfl
  | parens _ ih => exact ih

theorem dissolves (alike : before.Alike serves after) : after.dissolves = before.dissolves := by
  rw [Expr.dissolves, Expr.dissolves, alike.stringLiteral?, alike.isConcatenation]

/-- The values that are joined have the same shapes. -/
theorem values (alike : before.Alike serves after) :
    AlikeList serves before.values after.values := by
  have single {first second : Expr} (alike : first.Alike serves second) :
      AlikeList serves [first] [second] := .cons alike .nil
  induction alike with
  | same expr => exact .refl _
  | fieldAccess name type alike _ => exact single (.fieldAccess name type alike)
  | methodCall type => exact single (.methodCall type)
  | binary operator type left right leftValues rightValues =>
    have whole := single (.binary operator type left right)
    -- Only a sum of strings is taken apart; any other operation is one value.
    cases operator with
    | add =>
      cases type with
      | none => exact whole
      | some type =>
        rw [Expr.values, Expr.values]
        split
        · exact leftValues.append rightValues
        · exact whole
    | _ => exact whole
  | newClass type arguments others => exact single (.newClass type arguments others)
  | newArray element length each _ => exact single (.newArray element length each)
  | lambda parameters body other => exact single (.lambda parameters body other)
  | parens alike ih =>
    rw [Expr.values, Expr.values, alike.dissolves]
    split
    · exact ih
    · exact single (.parens alike)

/-- The texts between the values are the same. -/
theorem map_text?_leaves (alike : before.Alike serves after) (whole other : Expr) :
    (leaves other after).map Segment.text? = (leaves whole before).map Segment.text? := by
  induction alike generalizing whole other with
  | same expr => exact map_text?_leaves_whole other whole expr
  | fieldAccess => rfl
  | methodCall => rfl
  | binary operator type _ _ left right =>
    cases operator with
    | add =>
      cases type with
      | none => rfl
      | some type =>
        rw [leaves, leaves]
        split
        · rw [List.map_append, List.map_append, left, right]
        · rfl
    | _ => rfl
  | newClass => rfl
  | newArray => rfl
  | lambda => rfl
  | parens _ ih =>
    rw [leaves, leaves]
    exact ih whole other

end Alike

end Expr

/-- A level constant is part of the shape. -/
theorem Framework.levelSeverity?_of_alike {serves : Expr → Expr → Prop} {before after : Expr}
    (framework : Framework) (alike : before.Alike serves after) :
    framework.levelSeverity? after = framework.levelSeverity? before := by
  have names : framework.levelName? after = framework.levelName? before := by
    unfold levelName?
    generalize shape : before.bare = first
    generalize otherShape : after.bare = second
    have inside := alike.bare
    rw [shape, otherShape] at inside
    cases inside with
    | fieldAccess name type qualifier =>
      cases qualifier <;> rfl
    | same => rfl
    | methodCall => rfl
    | binary => rfl
    | newClass => rfl
    | newArray => rfl
    | lambda => rfl
    | parens => rfl
  rw [levelSeverity?, levelSeverity?, names]

namespace Expr

/-- The calls that may stand in place of others have primitive types. -/
def Primitive (serves : Expr → Expr → Prop) : Prop :=
  ∀ old new, serves old new → ∃ kind, new.staticType = some (.primitive kind)

/-- No call stands in place of the expression if it is an exception. -/
def Calm (serves : Expr → Expr → Prop) (expr : Expr) : Prop :=
  ∀ call, serves expr.bare call → expr.isThrowable = false

namespace Alike

variable {serves : Expr → Expr → Prop} {before after : Expr}

/-- A type that changes becomes primitive. -/
theorem staticType_eq_or_primitive (primitive : Primitive serves) (alike : before.Alike serves after) :
    after.staticType = before.staticType ∨
      serves before.bare after.bare ∧ ∃ kind, after.staticType = some (.primitive kind) := by
  obtain same | stands := alike.staticType
  · exact .inl same
  · obtain ⟨kind, known⟩ := primitive _ _ stands
    rw [staticType_bare] at known
    exact .inr ⟨stands, kind, known⟩

/-- Exceptions stay exceptions, and nothing becomes one. -/
theorem isThrowable (primitive : Primitive serves) (alike : before.Alike serves after)
    (calm : before.Calm serves) : after.isThrowable = before.isThrowable := by
  obtain same | ⟨stands, kind, new⟩ := alike.staticType_eq_or_primitive primitive
  · rw [Expr.isThrowable, Expr.isThrowable, hasType, hasType, same]
  · rw [calm _ stands, Expr.isThrowable, hasType, new]
    cases kind <;> rfl

/-- Nothing becomes a marker. -/
theorem isMarker {framework : Framework} (primitive : Primitive serves)
    (alike : before.Alike serves after) (unmarked : framework.isMarker before = false) :
    framework.isMarker after = false := by
  obtain same | ⟨-, kind, new⟩ := alike.staticType_eq_or_primitive primitive
  · rw [← unmarked]
    simp only [Framework.isMarker, hasType, same]
  · simp only [Framework.isMarker, hasType, new]
    cases framework <;> cases kind <;> rfl

/-- A known type stays known. -/
theorem isSome_staticType (primitive : Primitive serves) (alike : before.Alike serves after)
    (known : before.staticType.isSome = true) : after.staticType.isSome = true := by
  obtain same | ⟨-, kind, new⟩ := alike.staticType_eq_or_primitive primitive
  · rw [same, known]
  · rw [new]
    rfl

end Alike

end Expr

variable {serves : Expr → Expr → Prop}

/-! ## Messages -/

namespace Indexed

/-- Which segments a pattern makes depends on its parameters only for their number. -/
theorem map_text?_segments? {parameters others : List Expr} (length : others.length = parameters.length)
    (items : List Item) :
    (segments? others items).map (·.map Segment.text?) =
      (segments? parameters items).map (·.map Segment.text?) := by
  induction items with
  | nil => rfl
  | cons item rest ih =>
    -- For the rest of the pattern both lists fail, or both give segments with the same texts.
    have either : (segments? parameters rest = none ∧ segments? others rest = none) ∨
        ∃ segments texts, segments? parameters rest = some segments ∧
          segments? others rest = some texts ∧
          texts.map Segment.text? = segments.map Segment.text? := by
      cases found : segments? parameters rest with
      | none => exact .inl ⟨rfl, by simpa [found] using ih⟩
      | some segments =>
        obtain ⟨texts, read, same⟩ : ∃ texts, segments? others rest = some texts ∧
            texts.map Segment.text? = segments.map Segment.text? := by
          simpa [found] using ih
        exact .inr ⟨segments, texts, rfl, read, same⟩
    cases item with
    | char c =>
      rw [segments?, segments?]
      obtain ⟨missing, missingOther⟩ | ⟨segments, texts, found, foundOther, same⟩ := either
      · rw [missing, missingOther]
      · rw [found, foundOther]
        -- The character joins the first segment if that is a text, so it matters what comes first.
        cases texts with
        | nil =>
          cases segments with
          | nil => rfl
          | cons => cases same
        | cons front _ =>
          cases segments with
          | nil => cases same
          | cons back _ =>
            obtain ⟨head, tail⟩ := List.cons.inj same
            cases front <;> cases back <;> cases head <;> simp [Segment.text?, tail]
    | reference index =>
      rw [segments?, segments?]
      -- The lists are of one length, so an index is out of bounds for both or for neither.
      by_cases bound : index < parameters.length
      · rw [List.getElem?_eq_getElem bound,
          List.getElem?_eq_getElem (Nat.lt_of_lt_of_eq bound length.symm)]
        obtain ⟨missing, missingOther⟩ | ⟨segments, texts, found, foundOther, same⟩ := either
        · rw [missing, missingOther]
          rfl
        · rw [found, foundOther]
          exact congrArg (some <| none :: ·) same
      · rw [List.getElem?_eq_none (by omega), List.getElem?_eq_none (by omega)]
        rfl

/-- Whether a pattern can be read with its parameters is read off their shapes. -/
theorem isSome_message?_of_alike {parameters others : List Expr}
    (alike : Expr.AlikeList serves parameters others)
    (pattern : String) : (message? pattern others).isSome = (message? pattern parameters).isSome := by
  unfold message?
  cases items? pattern with
  | none => rfl
  | some items =>
    have texts := map_text?_segments? alike.length items
    dsimp only [Option.bind_eq_bind, Option.bind_some]
    cases found : segments? parameters items with
    | none =>
      have missing : segments? others items = none := by simpa [found] using texts
      rw [missing]
      rfl
    | some segments =>
      obtain ⟨read, foundOther, same⟩ : ∃ read, segments? others items = some read ∧
          read.map Segment.text? = segments.map Segment.text? := by
        simpa [found] using texts
      have pure := alike.all_eq fun _ _ alike => alike.isPure
      rw [foundOther]
      simp only [Option.bind_some, alike.length, pure, Segment.representable_eq, same]
      split
      · rfl
      · split
        · rfl
        · split <;> rfl

end Indexed

namespace Message

variable {operand other : Expr} {trailing others : List Expr}

/-- Nothing, or one exception, follows a message just if it did. -/
theorem onlyError?_of_alike (primitive : Expr.Primitive serves)
    (alike : Expr.AlikeList serves trailing others) (calm : ∀ expr ∈ trailing, expr.Calm serves) :
    (onlyError? others).isSome = (onlyError? trailing).isSome := by
  cases trailing with
  | nil => rw [alike.nil_cases]
  | cons first rest =>
    obtain ⟨second, others, rfl, head, alike⟩ := alike.cons_cases
    cases rest with
    | nil =>
      cases alike.nil_cases
      rw [onlyError?, onlyError?, head.isThrowable primitive (calm first List.mem_cons_self)]
      split <;> rfl
    | cons =>
      obtain ⟨_, _, rfl, -, -⟩ := alike.cons_cases
      rfl

/-- A template takes arguments of the same shapes. -/
theorem isSome_ofArguments?_of_alike (primitive : Expr.Primitive serves) (template : String)
    (alike : Expr.AlikeList serves trailing others) (calm : ∀ expr ∈ trailing, expr.Calm serves) :
    (ofArguments? template others).isSome = (ofArguments? template trailing).isSome := by
  -- A trailing exception is told from the other arguments by its type alone.
  have last : others.getLast?.map (·.isThrowable) = trailing.getLast?.map (·.isThrowable) := by
    rw [List.getLast?_eq_getElem?, List.getLast?_eq_getElem?, alike.length]
    cases known : trailing[trailing.length - 1]? with
    | none =>
      have short := List.getElem?_eq_none_iff.mp known
      rw [List.getElem?_eq_none (alike.length ▸ short)]
    | some first =>
      have bound := (List.getElem?_eq_some_iff.mp known).1
      have knownOther := List.getElem?_eq_getElem (Nat.lt_of_lt_of_eq bound alike.length.symm)
      rw [knownOther]
      exact congrArg some ((alike.each _ _ _ known knownOther).isThrowable primitive
        (calm first (List.mem_of_getElem? known)))
  unfold ofArguments?
  cases known : trailing.getLast? with
  | none =>
    have missing : others.getLast? = none := by simpa [known] using last
    rw [missing]
  | some first =>
    obtain ⟨second, knownOther, throwable⟩ : ∃ second, others.getLast? = some second ∧
        second.isThrowable = first.isThrowable := by
      simpa [known] using last
    simp only [knownOther, throwable, alike.length]
    split
    · rfl
    · split <;> rfl

theorem parameters?_cons_cons (first second : Expr) (rest : List Expr) :
    parameters? (first :: second :: rest) = none := by
  unfold parameters?
  split
  · rename_i single
    cases single
  · rename_i single
    cases single
  · rfl

/-- A pattern takes one array, or another single value, of the same shape. -/
theorem isSome_indexed_of_alike (raw : String) {first second : Expr}
    (alike : first.Alike serves second) :
    ((parameters? [second]).bind (Indexed.message? raw)).isSome =
      ((parameters? [first]).bind (Indexed.message? raw)).isSome := by
  have single := Indexed.isSome_message?_of_alike (.cons alike .nil) raw
  cases alike with
  | newArray element length each => exact Indexed.isSome_message?_of_alike ⟨length, each⟩ raw
  | same => rfl
  | fieldAccess => exact single
  | methodCall => exact single
  | binary => exact single
  | newClass => exact single
  | lambda => exact single
  | parens => exact single

/-- Whether a literal can be read with what follows it is read off the shapes of that. -/
theorem isSome_ofTemplate?_of_alike (primitive : Expr.Primitive serves) (style : TemplateStyle)
    (raw : String) (alike : Expr.AlikeList serves trailing others)
    (calm : ∀ expr ∈ trailing, expr.Calm serves) :
    (ofTemplate? style raw others).isSome = (ofTemplate? style raw trailing).isSome := by
  have only := onlyError?_of_alike primitive alike calm
  unfold ofTemplate?
  -- If nothing follows, or only an exception, the text is taken as it stands.
  cases found : onlyError? trailing with
  | some error =>
    obtain ⟨otherError, foundOther⟩ : ∃ otherError, onlyError? others = some otherError := by
      rw [found] at only
      exact Option.isSome_iff_exists.mp only
    rw [foundOther]
    simp only [verbatim?]
    split <;> rfl
  | none =>
    have missing : onlyError? others = none := by simpa [found] using only
    rw [missing]
    cases style with
    | anonymous => exact isSome_ofArguments?_of_alike primitive raw alike calm
    | concatenation => rfl
    | indexed =>
      -- What follows is an array, or another single value, or more than one.
      cases trailing with
      | nil => rw [alike.nil_cases]
      | cons first rest =>
        obtain ⟨second, others, rfl, head, alike⟩ := alike.cons_cases
        cases rest with
        | cons =>
          obtain ⟨_, _, rfl, -, -⟩ := alike.cons_cases
          simp only [parameters?_cons_cons]
        | nil =>
          cases alike.nil_cases
          exact isSome_indexed_of_alike raw head

/-- The segments of an operand can be read off their texts and the types of their values. -/
theorem readable_eq (segments : List Segment) : readable segments =
      (Segment.representable segments && (Segment.arguments segments).all (·.staticType.isSome)) := by
  induction segments with
  | nil => rfl
  | cons segment rest ih =>
    simp only [readable, Segment.representable, List.all_cons] at ih ⊢
    rw [ih]
    cases segment <;> simp [Bool.and_assoc, Bool.and_left_comm]

/-- An operand whose shape is kept can be read as it could before. -/
theorem readable_segments_of_alike (primitive : Expr.Primitive serves)
    (alike : operand.Alike serves other) (read : readable operand.segments = true) :
    readable other.segments = true := by
  rw [readable_eq, Expr.arguments_segments, Bool.and_eq_true] at read ⊢
  obtain ⟨texts, known⟩ := read
  refine ⟨?_, ?_⟩
  · -- The texts are the same, so they can stand in a template.
    rw [Segment.representable_eq] at texts ⊢
    have same := Segment.map_text?_merge (alike.map_text?_leaves operand other)
    rw [← texts, Expr.segments, Expr.segments, same]
  · -- The values correspond one by one, and no known type is lost.
    have values := alike.values
    rw [List.all_eq_true] at known ⊢
    intro second member
    obtain ⟨index, bound, rfl⟩ := List.mem_iff_getElem.mp member
    have boundBefore := Nat.lt_of_lt_of_eq bound values.length
    exact (values.each index _ _ (List.getElem?_eq_getElem boundBefore)
      (List.getElem?_eq_getElem bound)).isSome_staticType primitive (known _ (List.getElem_mem boundBefore))

/-- A message can still be read when its operand and what follows it keep their shapes. -/
theorem isSome_extract?_of_alike (primitive : Expr.Primitive serves) (style : TemplateStyle)
    (collapse : Bool) (alike : operand.Alike serves other)
    (list : Expr.AlikeList serves trailing others) (calm : ∀ expr ∈ trailing, expr.Calm serves)
    (read : (extract? style collapse operand trailing).isSome = true) :
    (extract? style collapse other others).isSome = true := by
  have literal : other.operandKind = .literal ↔ operand.operandKind = .literal := by
    rw [Expr.operandKind_eq_literal_iff, Expr.operandKind_eq_literal_iff, alike.stringLiteral?]
  unfold extract? at read ⊢
  -- A literal is a template for what follows it; anything else is taken apart.
  by_cases isLiteral : operand.operandKind = .literal
  · rw [if_pos isLiteral, Option.isSome_map, ofLiteral?] at read
    rw [if_pos (literal.mpr isLiteral), Option.isSome_map, ofLiteral?, alike.stringLiteral?]
    obtain ⟨raw, known⟩ := Expr.operandKind_eq_literal_iff.mp isLiteral
    rw [known] at read ⊢
    exact (isSome_ofTemplate?_of_alike primitive style raw list calm).trans read
  · rw [if_neg isLiteral] at read
    rw [if_neg fun isLiteralOther => isLiteral (literal.mp isLiteralOther)]
    obtain ⟨found, read⟩ := Option.isSome_iff_exists.mp read
    simp only [Option.bind_eq_bind, Option.bind_eq_some_iff] at read
    obtain ⟨error, only, type, known, read⟩ := read
    split at read
    · rename_i segments
      obtain ⟨otherError, onlyOther⟩ : ∃ otherError, onlyError? others = some otherError := by
        rw [← Option.isSome_iff_exists, onlyError?_of_alike primitive list calm, only]
        rfl
      obtain ⟨otherType, knownOther⟩ := Option.isSome_iff_exists.mp
        (alike.isSome_staticType primitive (by rw [known]; rfl))
      rw [onlyOther, knownOther]
      simp only [Option.bind_eq_bind, Option.bind_some, readable_segments_of_alike primitive alike segments]
      rfl
    · cases read

end Message

/-! ## Uses of a logger -/

namespace LogCall

variable {options : RecognizeOptions} {framework : Framework} {receiver : Expr}
  {arguments others : List Expr} {call : LogCall}

/-- A message without a marker can still be read when the arguments keep their shapes. -/
theorem ofFramework?_of_alike {severity : Severity} {hasLevelArgument : Bool}
    {method : ResolvedMethod} (primitive : Expr.Primitive serves)
    (alike : Expr.AlikeList serves arguments others) (calm : ∀ expr ∈ arguments, expr.Calm serves)
    (recognized : ofFramework? options framework severity hasLevelArgument receiver arguments method =
      some call) (unmarked : call.marker = none) :
    ∃ other, ofFramework? options framework severity hasLevelArgument receiver others method =
        some other ∧
      other.origin = .framework framework ∧ other.marker = none ∧ other.receiver = receiver := by
  obtain ⟨marker, operand, trailing, found, split, read, rfl⟩ := ofFramework?_cases recognized
  cases unmarked
  obtain rfl : arguments = operand :: trailing := Framework.eq_append_of_splitMarker split
  obtain ⟨other, rest, rfl, head, list⟩ := alike.cons_cases
  -- No marker was split off, and what has the shape of the first argument is none either.
  have plain : framework.isMarker operand = false := by
    rw [Framework.splitMarker] at split
    split at split
    · cases split
    · rename_i plain
      exact Bool.eq_false_iff.mpr plain
  have splitOther : framework.splitMarker (other :: rest) = (none, other :: rest) := by
    rw [Framework.splitMarker, head.isMarker primitive plain]
    rfl
  obtain ⟨message, readOther⟩ := Option.isSome_iff_exists.mp
    (Message.isSome_extract?_of_alike primitive framework.templateStyle options.collapseAccessors head
      list (fun expr member => calm expr (List.mem_cons_of_mem operand member)) (by rw [read]; rfl))
  unfold ofFramework? at recognized ⊢
  obtain ⟨type, known, -⟩ := Option.bind_eq_some_iff.mp recognized
  let record : LogCall := {
    severity, message := message.message, receiver, origin := .framework framework
    isCanonical := message.isCanonical, method, hasLevelArgument }
  refine ⟨record, ?_, rfl, rfl, rfl⟩
  rw [known, splitOther]
  simp only [Option.bind_eq_bind, Option.bind_some, readOther]
  rfl

/-- A call that logs without a marker is recognised when its arguments keep their shapes. -/
theorem recognize?_of_alike
    (primitive : Expr.Primitive serves) (alike : Expr.AlikeList serves arguments others)
    (calm : ∀ expr ∈ arguments, expr.Calm serves)
    (recognized : recognize? options (.methodCall (some receiver) name arguments method) = some call)
    (logs : call.origin = .framework framework) (unmarked : call.marker = none) :
    ∃ other, recognize? options (.methodCall (some receiver) name others method) = some other ∧
      other.origin = .framework framework ∧ other.marker = none ∧ other.receiver = receiver := by
  obtain ⟨_, _, _, method, whole, origin⟩ := recognize?_cases recognized
  cases whole
  obtain ⟨called, severity, resolved, made⟩ |
    ⟨called, severity, level, rest, resolved, rfl, known, made⟩ | made | made := origin
  · obtain ⟨other, madeOther, same, plain, through⟩ :=
      ofFramework?_of_alike primitive alike calm made unmarked
    obtain ⟨_, _, _, _, -, -, rfl⟩ := ofFramework?_cases made
    cases logs
    refine ⟨other, ?_, same, plain, through⟩
    rw [recognize?, resolved]
    exact madeOther
  · obtain ⟨otherLevel, others, rfl, head, alike⟩ := alike.cons_cases
    obtain ⟨other, madeOther, same, plain, through⟩ := ofFramework?_of_alike primitive alike
      (fun expr member => calm expr (List.mem_cons_of_mem level member)) made unmarked
    obtain ⟨_, _, _, _, -, -, rfl⟩ := ofFramework?_cases made
    cases logs
    refine ⟨other, ?_, same, plain, through⟩
    rw [recognize?, resolved]
    dsimp only [Option.bind_eq_bind, Option.bind_some]
    rw [framework.levelSeverity?_of_alike head, known]
    exact madeOther
  · -- The other two kinds of calls print and have no framework.
    obtain ⟨-, -, rfl⟩ := ofStackTrace?_cases made
    cases logs
  · obtain ⟨_, _, _, -, -, -, -, -, console⟩ := ofConsole?_cases made
    rw [console] at logs
    cases logs

end LogCall

/-- A check is the same check when its arguments keep their shapes. -/
theorem LevelCheck.recognize?_of_alike {receiver : Expr}
    {arguments others : List Expr} {check : LevelCheck}
    (alike : Expr.AlikeList serves arguments others)
    (recognized : recognize? (.methodCall (some receiver) name arguments method) = some check) :
    recognize? (.methodCall (some receiver) name others method) = some check := by
  cases method with
  | none => cases recognized
  | some method =>
    rw [recognize?] at recognized ⊢
    simp only [Option.bind_eq_bind, Option.bind_eq_some_iff] at recognized
    obtain ⟨type, known, ⟨framework, shape⟩, resolved, called, rfl, recognized⟩ := recognized
    rw [known, resolved]
    split at recognized
    · rename_i severity isCheck
      cases isCheck
      cases alike.nil_cases
      exact recognized
    · rename_i level isCheck
      cases isCheck
      obtain ⟨otherLevel, others, rfl, head, alike⟩ := alike.cons_cases
      cases alike.nil_cases
      dsimp only [Option.bind_eq_bind, Option.bind_some]
      rw [called.levelSeverity?_of_alike head]
      exact recognized
    · cases recognized

/-- What is a check does not log. -/
theorem LogCall.recognize?_of_check {options : RecognizeOptions} {expr : Expr} {check : LevelCheck}
    (recognized : LevelCheck.recognize? expr = some check) : recognize? options expr = none := by
  obtain ⟨name, arguments, method, rfl, ⟨resolved, -⟩ | ⟨resolved, -⟩⟩ :=
    LevelCheck.recognize?_cases recognized
  · rw [recognize?, resolved]
    rfl
  · rw [recognize?, resolved]
    rfl

namespace Migrate

variable {settings : Migrate}

/-- A use of a logger can be carried over when its arguments keep their shapes. -/
theorem isSome_plan?_of_alike {receiver : Expr} {arguments others : List Expr}
    (primitive : Expr.Primitive serves)
    (alike : Expr.AlikeList serves arguments others) (calm : ∀ expr ∈ arguments, expr.Calm serves)
    (planned : (settings.plan? (.methodCall (some receiver) name arguments method)).isSome = true) :
    (settings.plan? (.methodCall (some receiver) name others method)).isSome = true := by
  obtain ⟨use, planned⟩ := Option.isSome_iff_exists.mp planned
  obtain ⟨⟨retyped, known⟩, framework, -, migrates,
    ⟨call, rfl, recognized, origin, unmarked⟩ | ⟨check, rfl, -, recognized, rfl⟩⟩ := plan?_cases planned
  · obtain ⟨other, recognizedOther, originOther, unmarkedOther, through⟩ :=
      LogCall.recognize?_of_alike primitive alike calm recognized origin unmarked
    obtain ⟨_, _, _, _, _, _, whole, -⟩ := LogCall.recognize?_logs recognized origin
    cases whole
    have knownOther : other.receiver.retyped? settings.loggerType = some retyped := by
      rw [through]
      exact known
    rw [plan?, recognizedOther]
    simp [originOther, LogOrigin.framework?, migrates, unmarkedOther, knownOther]
  · -- A check is looked for only if nothing is logged.
    have recognizedOther := LevelCheck.recognize?_of_alike alike recognized
    have knownOther : check.receiver.retyped? settings.loggerType = some retyped := known
    rw [plan?, LogCall.recognize?_of_check recognizedOther, recognizedOther]
    simp [migrates, knownOther]

end Migrate

end LogCalls
