import LogCalls.CommandLine.Error
import LogCalls.CommandLine.FileTree

/-! # Where paths lead

A path is followed step by step, and what it leads to does not depend on the files that are there, as
long as there are directories on the way. Directories that are made and files that are written close no
way. -/

namespace LogCalls

variable {name : String}

/-! ## Texts between separators -/

/-- The parts consist of what is no separator. -/
theorem mem_of_mem_splitOn {separator c : Char} {text part : List Char}
    (listed : part ∈ text.splitOn separator) (inside : c ∈ part) : c ∈ text ∧ c ≠ separator := by
  induction text generalizing part with
  | nil =>
    cases List.mem_singleton.mp listed
    cases inside
  | cons head rest ih =>
    have later {part : List Char} (listed : part ∈ rest.splitOn separator) (inside : c ∈ part) :
        c ∈ head :: rest ∧ c ≠ separator :=
      (ih listed inside).imp_left (List.mem_cons_of_mem head)
    rw [List.splitOn_cons_eq_if_modifyHead] at listed
    split at listed
    · obtain rfl | listed := List.mem_cons.mp listed
      · cases inside
      · exact later listed inside
    · rename_i other
      cases parts : rest.splitOn separator with
      | nil => exact absurd parts (List.splitOn_ne_nil separator rest)
      | cons first others =>
        rw [parts] at listed later
        obtain rfl | listed := List.mem_cons.mp listed
        · obtain rfl | inside := List.mem_cons.mp inside
          · exact ⟨List.mem_cons_self, fun same => other (beq_iff_eq.mpr same)⟩
          · exact later List.mem_cons_self inside
        · exact later (List.mem_cons_of_mem first listed) inside

/-- What does not fail has a value. -/
theorem eq_ok_of_toOption {ε α : Type} {result : Except ε α} {value : α}
    (found : result.toOption = some value) : result = .ok value := by
  cases result with
  | error error => cases found
  | ok other =>
    cases found
    rfl

/-! ## Names -/

namespace FileName

/-- The text names something in a directory, and is no way to it. -/
def IsProper (name : String) : Prop :=
  PathStep.ofPart? name = some (.name name) ∧ '/' ∉ name.toList

instance (name : String) : Decidable (IsProper name) := inferInstanceAs (Decidable (_ ∧ _))

/-- A name is the part itself. -/
theorem ofPart?_eq_name {part text : String} (name : PathStep.ofPart? part = some (.name text)) :
    text = part := by
  unfold PathStep.ofPart? at name
  split at name
  · cases name
  · split at name
    · cases name
    · cases name
      rfl

end FileName

/-! ## Paths -/

/-- Where a step leads from the directory of the given names. -/
def PathStep.lead (names : List String) : PathStep → List String
  | .name text => names ++ [text]
  | .up => names.dropLast
  | _ => names

namespace Path

/-- A name adds one step to a path, whether the path ends in a slash or not. -/
theorem filterMap_parts_join (path : Path) (proper : FileName.IsProper name) :
    (path.join name).parts.filterMap PathStep.ofPart? =
      path.parts.filterMap PathStep.ofPart? ++ [.name name] := by
  have last : (name.toList.splitOn '/').map String.ofList = [name] := by
    rw [List.splitOn_eq_singleton proper.2, List.map_singleton, String.ofList_toList]
  have step : [name].filterMap PathStep.ofPart? = [.name name] := by
    rw [List.filterMap_cons_some proper.1, List.filterMap_nil]
  have empty : [""].filterMap PathStep.ofPart? = [] := rfl
  -- A path that ends in a slash, or is empty, has an empty last part, which the name replaces.
  have replaced {front : List String} (parts : path.parts = front ++ [""])
      (joined : (Path.mk (path.text ++ name)).parts = front ++ [name]) :
      (Path.mk (path.text ++ name)).parts.filterMap PathStep.ofPart? =
        path.parts.filterMap PathStep.ofPart? ++ [.name name] := by
    rw [parts, joined, List.filterMap_append, List.filterMap_append, step, empty, List.append_nil]
  unfold join
  split
  · rename_i ending
    cases slash : path.text.toList.getLast? with
    | none =>
      have empty := List.getLast?_eq_none_iff.mp slash
      have parts : path.parts = [] ++ [""] := by
        rw [Path.parts, empty]
        rfl
      exact replaced parts (by rw [Path.parts, String.toList_append, empty, List.nil_append, last]; rfl)
    | some c =>
      obtain ⟨front, same⟩ := List.getLast?_eq_some_iff.mp slash
      rw [slash, Option.all_some, decide_eq_true_eq] at ending
      subst ending
      have parts : path.parts = (front.splitOn '/').map String.ofList ++ [""] := by
        rw [Path.parts, same, List.splitOn_append_cons_self, List.map_append]
        rfl
      refine replaced parts ?_
      rw [Path.parts, String.toList_append, same, List.append_assoc, List.singleton_append,
        List.splitOn_append_cons_self, List.map_append, last]
  · have joined : (Path.mk (path.text ++ "/" ++ name)).parts = path.parts ++ [name] := by
      have slash : "/".toList = ['/'] := rfl
      rw [Path.parts, String.toList_append, String.toList_append, slash, List.append_assoc,
        List.singleton_append, List.splitOn_append_cons_self, List.map_append, last]
      rfl
    rw [joined, List.filterMap_append, step]

/-- A path starts where it started when a name is added. -/
theorem isAbsolute_join (path : Path) (proper : FileName.IsProper name) :
    (path.join name).isAbsolute = path.isAbsolute := by
  have start (front back : String) (notEmpty : front.toList ≠ []) :
      (front ++ back).toList.head? = front.toList.head? := by
    obtain ⟨c, rest, same⟩ := List.exists_cons_of_ne_nil notEmpty
    rw [String.toList_append, same]
    rfl
  unfold join isAbsolute
  by_cases empty : path.text.toList = []
  · rw [if_pos (by rw [empty]; rfl), String.toList_append, empty, List.nil_append]
    refine (beq_eq_false_iff_ne.mpr fun slash => proper.2 ?_).trans rfl
    exact List.mem_of_head? slash
  · split
    · rw [start _ _ empty]
    · rw [String.append_assoc, start _ _ empty]

end Path

/-! ## Trees -/

namespace FileTree

variable {tree later : FileTree} {path : Path} {text : String}

/-- What a path leads to if there are directories on the way. -/
def names (tree : FileTree) (path : Path) : List String :=
  (path.parts.filterMap PathStep.ofPart?).foldl PathStep.lead (tree.start path)

/-- Joining a name adds it. -/
theorem names_join (tree : FileTree) (path : Path) (proper : FileName.IsProper name) :
    tree.names (path.join name) = tree.names path ++ [name] := by
  rw [names, start, Path.filterMap_parts_join path proper, Path.isAbsolute_join path proper,
    List.foldl_append]
  rfl

/-- Further down in a directory, names are added to those of the directory. -/
theorem names_below (tree : FileTree) (path : Path) {names : List String}
    (proper : ∀ name ∈ names, FileName.IsProper name) :
    tree.names (path.below names) = tree.names path ++ names := by
  induction names generalizing path with
  | nil => exact (List.append_nil _).symm
  | cons name rest ih =>
    have below : path.below (name :: rest) = (path.join name).below rest := rfl
    rw [below, ih (path.join name)
      fun other listed => proper other (List.mem_cons_of_mem name listed),
      tree.names_join path (proper name List.mem_cons_self), List.append_assoc,
      List.singleton_append]

/-- A file is read if its path leads to its text. -/
theorem read_eq_ok_iff :
    tree.read path = .ok text ↔ ∃ names, tree.locate path = .ok names ∧ tree.text? names = some text := by
  unfold read
  cases tree.locate path with
  | error fault => exact iff_of_false (by rintro ⟨⟩) (by rintro ⟨_, ⟨⟩, _⟩)
  | ok names =>
    cases found : tree.text? names <;> simp [bind, Except.bind, found]

/-- The tree is the same later, but there may be more directories. -/
structure Extends (tree later : FileTree) : Prop where
  home : later.home = tree.home
  directories : ∀ names, tree.hasDirectory names = true → later.hasDirectory names = true

/-- A tree extends itself. -/
theorem Extends.refl (tree : FileTree) : tree.Extends tree := ⟨rfl, fun _ known => known⟩

/-- Trees extend in a chain. -/
theorem Extends.trans {first second third : FileTree} (former : first.Extends second)
    (latter : second.Extends third) : first.Extends third :=
  ⟨latter.home.trans former.home,
    fun names known => latter.directories names (former.directories names known)⟩

/-- Paths start where they did. -/
theorem Extends.start (extends_ : tree.Extends later) (path : Path) :
    later.start path = tree.start path := by
  rw [FileTree.start, FileTree.start, extends_.home]

/-- A path names the same in a larger tree. -/
theorem Extends.names (extends_ : tree.Extends later) (path : Path) :
    later.names path = tree.names path := by
  rw [FileTree.names, FileTree.names, extends_.start]

/-! ### Following paths -/

/-- Where parts lead does not depend on the tree. -/
theorem follow_eq_ok {names found : List String} {parts : List String}
    (followed : tree.follow names parts = .ok found) :
    found = (parts.filterMap PathStep.ofPart?).foldl PathStep.lead names := by
  induction parts generalizing names with
  | nil => exact (Except.ok.inj followed).symm
  | cons part rest ih =>
    rw [follow] at followed
    split at followed
    · cases step : PathStep.ofPart? part with
      | none =>
        rw [step] at followed
        rw [List.filterMap_cons_none step]
        exact ih followed
      | some taken =>
        rw [step] at followed
        rw [List.filterMap_cons_some step, List.foldl_cons]
        cases taken <;> exact ih followed
    · cases followed

/-- What is located has the names of the path. -/
theorem locate_eq_names {names : List String} (located : tree.locate path = .ok names) :
    names = tree.names path := by
  unfold locate at located
  split at located
  · cases located
  · exact follow_eq_ok located

/-- More directories close no way. -/
theorem Extends.follow (extends_ : tree.Extends later) {names found parts : List String}
    (followed : tree.follow names parts = .ok found) : later.follow names parts = .ok found := by
  induction parts generalizing names with
  | nil => exact followed
  | cons part rest ih =>
    rw [FileTree.follow] at followed ⊢
    split at followed
    · rename_i known
      rw [if_pos (extends_.directories names known)]
      split at followed
      all_goals exact ih followed
    · cases followed

/-- What is located stays so. -/
theorem Extends.locate (extends_ : tree.Extends later) {names : List String}
    (located : tree.locate path = .ok names) : later.locate path = .ok names := by
  unfold FileTree.locate at located ⊢
  split at located
  · cases located
  · rename_i written
    rw [if_neg written, extends_.start]
    exact extends_.follow located

/-! ### Making directories -/

/-- A new directory extends a tree. -/
theorem extends_addDirectory (tree : FileTree) (names : List String) :
    tree.Extends { tree with directories := tree.directories ++ [names] } := by
  refine ⟨rfl, fun other known => ?_⟩
  unfold hasDirectory at known ⊢
  simp only [Bool.or_eq_true, List.any_append] at known ⊢
  exact known.imp_left (Or.imp_right Or.inl)

/-- New directories leave files alone. -/
theorem makeAlong_eq_some {names parts : List String}
    (made : tree.makeAlong names parts = some later) :
    later.files = tree.files ∧ tree.Extends later := by
  induction parts generalizing tree names with
  | nil =>
    cases made
    exact ⟨rfl, .refl _⟩
  | cons part rest ih =>
    rw [makeAlong] at made
    split at made
    · dsimp only at made
      split at made
      · cases made
      · exact ih made
      · obtain ⟨files, extends_⟩ := ih made
        exact ⟨files, (extends_addDirectory tree _).trans extends_⟩
    · exact ih made
    · exact ih made

/-- To make directories changes no file. -/
theorem makeDirectories?_eq_some (made : tree.makeDirectories? path = some later) :
    later.files = tree.files ∧ tree.Extends later := by
  unfold makeDirectories? at made
  split at made
  · split at made
    · cases made
      exact ⟨rfl, .refl tree⟩
    · cases made
  · exact makeAlong_eq_some made

/-! ### Writing files -/

/-- What is put is found. -/
theorem lookup_put_self (names : List String) (text : String) (files : List (List String × String)) :
    (put names text files).lookup names = some text := by
  induction files with
  | nil => simp [put]
  | cons entry rest ih =>
    obtain ⟨file, old⟩ := entry
    rw [put]
    split
    · simp
    · rename_i other
      rw [List.lookup_cons, beq_false_of_ne (Ne.symm other)]
      exact ih

/-- Other entries stay. -/
theorem lookup_put_of_ne {names other : List String} (apart : other ≠ names) (text : String)
    (files : List (List String × String)) :
    (put names text files).lookup other = files.lookup other := by
  induction files with
  | nil => simp [put, List.lookup_cons, beq_false_of_ne apart]
  | cons entry rest ih =>
    obtain ⟨file, old⟩ := entry
    rw [put]
    split
    · rename_i same
      rw [List.lookup_cons, List.lookup_cons, same, beq_false_of_ne apart]
    · rw [List.lookup_cons, List.lookup_cons, ih]

/-- Every file that was there is there. -/
theorem any_put (names : List String) (text : String) (test : List String → Bool)
    {files : List (List String × String)} (known : files.any (fun entry => test entry.1) = true) :
    (put names text files).any (fun entry => test entry.1) = true := by
  induction files with
  | nil => cases known
  | cons entry rest ih =>
    obtain ⟨file, old⟩ := entry
    rw [put]
    rw [List.any_cons, Bool.or_eq_true] at known
    split
    · rename_i same
      rw [List.any_cons, Bool.or_eq_true, ← same]
      exact known
    · rw [List.any_cons, Bool.or_eq_true]
      exact known.imp_right ih

/-- A file is written where its path leads. -/
theorem write?_eq_some (written : tree.write? path text = some later) :
    tree.locate path = .ok (tree.names path) ∧
      later = { tree with files := put (tree.names path) text tree.files } := by
  unfold write? at written
  obtain ⟨names, found, rest⟩ := Option.bind_eq_some_iff.mp written
  have located : tree.locate path = .ok names := eq_ok_of_toOption found
  split at rest
  · cases rest
  · cases rest
    cases locate_eq_names located
    exact ⟨located, rfl⟩

/-- Writing extends a tree. -/
theorem extends_write? (written : tree.write? path text = some later) : tree.Extends later := by
  obtain ⟨-, rfl⟩ := write?_eq_some written
  refine ⟨rfl, fun names known => ?_⟩
  unfold hasDirectory at known ⊢
  rw [Bool.or_eq_true] at known ⊢
  exact known.imp_right (any_put (tree.names path) text
    fun file => names.isPrefixOf file && decide (names.length < file.length))

/-- What is written is read. -/
theorem read_write? (written : tree.write? path text = some later) : later.read path = .ok text := by
  obtain ⟨located, whole⟩ := write?_eq_some written
  refine read_eq_ok_iff.mpr ⟨_, (extends_write? written).locate located, ?_⟩
  rw [whole]
  exact lookup_put_self (tree.names path) text tree.files

/-- All other files are as before. -/
theorem text?_write? (written : tree.write? path text = some later) {names : List String}
    (apart : tree.names path ≠ names) : later.text? names = tree.text? names := by
  obtain ⟨-, rfl⟩ := write?_eq_some written
  exact lookup_put_of_ne (Ne.symm apart) text tree.files

/-! ### Actions -/

section Actions

variable {α β : Type} {middle : FileTree}

/-- What an action returns, and the tree that it leaves. -/
def run (tree : FileTree) (action : ExceptT ProgramError (StateM FileTree) α) :
    Except ProgramError α × FileTree :=
  action.run.run tree

/-- After a success the next action runs. -/
theorem run_bind_ok {action : ExceptT ProgramError (StateM FileTree) α} {value : α}
    (first : tree.run action = (.ok value, middle))
    (next : α → ExceptT ProgramError (StateM FileTree) β) :
    tree.run (action >>= next) = middle.run (next value) := by
  unfold run at first ⊢
  rw [ExceptT.run_bind, StateT.run_bind, first]
  rfl

/-- An error ends a run. -/
theorem run_bind_error {action : ExceptT ProgramError (StateM FileTree) α} {error : ProgramError}
    (first : tree.run action = (.error error, middle))
    (next : α → ExceptT ProgramError (StateM FileTree) β) :
    tree.run (action >>= next) = (.error error, middle) := by
  unfold run at first ⊢
  rw [ExceptT.run_bind, StateT.run_bind, first]
  rfl

/-- A run that succeeds does so step by step. -/
theorem run_bind_eq_ok {action : ExceptT ProgramError (StateM FileTree) α}
    {next : α → ExceptT ProgramError (StateM FileTree) β} {value : β}
    (ran : tree.run (action >>= next) = (.ok value, later)) :
    ∃ first middle, tree.run action = (.ok first, middle) ∧
      middle.run (next first) = (.ok value, later) := by
  cases first : tree.run action with
  | mk result middle =>
    cases result with
    | error error =>
      rw [run_bind_error first] at ran
      cases ran
    | ok returned =>
      rw [run_bind_ok first] at ran
      exact ⟨returned, middle, rfl, ran⟩

/-- An action that cannot fail is done. -/
theorem run_lift {action : StateM FileTree α} {value : α} (done : action.run tree = (value, later)) :
    tree.run (liftM action) = (.ok value, later) := by
  have lifted : tree.run (liftM action) = (.ok (action.run tree).1, (action.run tree).2) := rfl
  rw [lifted, done]

/-- A change that is possible is made. -/
theorem run_attempt_some (change : FileTree → Option FileTree) (made : change tree = some later) :
    (attempt change).run tree = (true, later) := by
  simp only [StateT.run, attempt, made]

/-- A change that is not possible is not made. -/
theorem run_attempt_none (change : FileTree → Option FileTree) (impossible : change tree = none) :
    (attempt change).run tree = (false, tree) := by
  simp only [StateT.run, attempt, impossible]

end Actions

end FileTree

end LogCalls
