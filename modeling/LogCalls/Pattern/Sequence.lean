/-! # Patterns for lists

A pattern is a list of items, each of which takes one element or any number of elements in a row.
Matching answers the question for all suffixes of the list at once, from the last item of the
pattern to the first, so that its work is bounded by the product of the two lengths. -/

namespace LogCalls

/-- What one item of a pattern takes. -/
inductive PatternItem (α : Type) where
  /-- One element that passes a test. -/
  | one (test : α → Bool)
  /-- Any number of elements in a row, all of which pass a test. -/
  | many (test : α → Bool)

namespace PatternItem

variable {α : Type}

/-- What no items match: of the suffixes of a list, from the list itself to the empty one, only the
last. -/
def atEnd : List α → List Bool
  | [] => [true]
  | _ :: rest => false :: atEnd rest

/-- The suffixes that start with an element that passes, after which a suffix in `later` follows. -/
def stepOne (test : α → Bool) : List α → (later : List Bool) → List Bool
  | element :: rest, _ :: later => (later.headD false && test element) :: stepOne test rest later
  | _, _ => [false]

/-- The suffixes in `later`, and those that reach one over elements that pass. -/
def stepMany (test : α → Bool) : List α → (later : List Bool) → List Bool
  | element :: rest, here :: later =>
    let reached := stepMany test rest later
    (here || (reached.headD false && test element)) :: reached
  | _, later => later

/-- The suffixes that an item matches together with the items after it, of which `later` tells. -/
def step (elements : List α) : PatternItem α → (later : List Bool) → List Bool
  | one test, later => stepOne test elements later
  | many test, later => stepMany test elements later

/-- For each suffix of a list, from the list itself to the empty one, whether the items match it. -/
def suffixMatches (items : List (PatternItem α)) (elements : List α) : List Bool :=
  items.foldr (step elements) (atEnd elements)

/-- The items match the list: it can be cut into consecutive parts, one for each item. -/
def isMatch (items : List (PatternItem α)) (elements : List α) : Bool :=
  (suffixMatches items elements).headD false

end PatternItem

end LogCalls
