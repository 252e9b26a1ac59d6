import LogCalls.CommandLine.UnitFile
import LogCalls.Proofs.CommandLine.FileTree

/-! # Where the results of files belong

A file is found in a directory by the names that lead to it, and its result belongs to the same names in
the output directory, with another extension. So results with different paths are different files. -/

namespace LogCalls

/-! ## Extensions -/

namespace FileName

variable {name : String}

theorem ofPart?_of_length (long : 2 < name.length) : PathStep.ofPart? name = some (.name name) := by
  have other (text : String) (short : text.length ≤ 2) : name ≠ text := by
    rintro rfl
    omega
  rw [PathStep.ofPart?, if_neg, if_neg (other ".." (by decide))]
  simp [other "" (by decide), other "." (by decide)]

theorem mem_of_mem_intercalate {separator c : Char} {parts : List (List Char)}
    (inside : c ∈ List.intercalate [separator] parts) : c = separator ∨ ∃ part ∈ parts, c ∈ part := by
  induction parts with
  | nil => cases inside
  | cons first rest ih =>
    cases rest with
    | nil => exact .inr ⟨first, List.mem_cons_self, by simpa [List.intercalate] using inside⟩
    | cons second others =>
      have split : List.intercalate [separator] (first :: second :: others) =
          first ++ separator :: List.intercalate [separator] (second :: others) := rfl
      rw [split] at inside
      obtain here | inside := List.mem_append.mp inside
      · exact .inr ⟨first, List.mem_cons_self, here⟩
      · obtain rfl | inside := List.mem_cons.mp inside
        · exact .inl rfl
        · obtain same | ⟨part, listed, inside⟩ := ih inside
          · exact .inl same
          · exact .inr ⟨part, List.mem_cons_of_mem first listed, inside⟩

/-- What stands before the extension is part of the name. -/
theorem mem_of_mem_stem {c : Char} (inside : c ∈ (stem name).toList)
    (other : c ≠ '.') : c ∈ name.toList := by
  unfold stem split? at inside
  split at inside
  · rename_i last before others reversed
    dsimp only at inside
    split at inside
    · exact inside
    · simp only [Option.map_some, Option.getD_some, String.toList_ofList] at inside
      obtain rfl | ⟨part, listed, inside⟩ := mem_of_mem_intercalate inside
      · exact absurd rfl other
      · have listed : part ∈ name.toList.splitOn '.' := by
          rw [← List.mem_reverse, reversed]
          exact List.mem_cons_of_mem last (List.mem_reverse.mp listed)
        exact (mem_of_mem_splitOn listed inside).1
  · exact inside

/-- A name with another extension is a name. -/
theorem IsProper.withExtension (proper : IsProper name) (format : OutputFormat) :
    IsProper (withExtension name format.extension) := by
  have long : 2 < format.extension.length := by cases format <;> decide
  refine ⟨ofPart?_of_length ?_, fun inside => ?_⟩
  · rw [FileName.withExtension, String.length_append, String.length_append]
    omega
  · have free : '/' ∉ ("." ++ format.extension).toList := by cases format <;> decide
    rw [FileName.withExtension, String.append_assoc, String.toList_append] at inside
    obtain inside | inside := List.mem_append.mp inside
    · exact proper.2 (mem_of_mem_stem inside (by decide))
    · exact free inside

end FileName

/-! ## Results -/

namespace UnitFile

variable {directory : Path} {format : OutputFormat} {files : List UnitFile}

/-- The way from the directory to the file consists of names. -/
def IsNamed (file : UnitFile) : Prop := ∀ name ∈ file.relative, FileName.IsProper name

instance (file : UnitFile) : Decidable file.IsNamed := inferInstanceAs (Decidable (∀ _ ∈ _, _))

/-- The result belongs below the directory, where the names lead up to the extension. -/
theorem names_target (tree : FileTree) {file : UnitFile} (named : file.IsNamed) :
    tree.names (file.target directory format) = tree.names directory ++ (file.relative.dropLast ++
      (file.relative.getLast?.map (FileName.withExtension · format.extension)).toList) := by
  refine tree.names_below directory fun name listed => ?_
  obtain listed | listed := List.mem_append.mp listed
  · exact named name ((List.dropLast_sublist file.relative).subset listed)
  · obtain ⟨last, found, rfl⟩ := Option.map_eq_some_iff.mp (Option.mem_toList.mp listed)
    exact (named last (List.mem_of_getLast? found)).withExtension format

/-- No two results have the same path. -/
def Apart (directory : Path) (format : OutputFormat) (files : List UnitFile) : Prop :=
  files.Pairwise fun file other =>
    (file.target directory format).isSame (other.target directory format) = false

/-- Results with different paths lead to different files. -/
theorem names_ne_of_apart (tree : FileTree) (named : ∀ file ∈ files, file.IsNamed)
    (apart : Apart directory format files) :
    files.Pairwise fun file other =>
      tree.names (other.target directory format) ≠ tree.names (file.target directory format) := by
  refine apart.imp_of_mem fun {file other} inFiles listed different same => ?_
  rw [names_target tree (named other listed), names_target tree (named file inFiles)] at same
  have together : file.target directory format = other.target directory format := by
    rw [target, target, List.append_cancel_left same]
  rw [together, Path.isSame, beq_self_eq_true] at different
  cases different

end UnitFile

/-! ## Files that are found -/

namespace FileTree

variable {tree : FileTree} {path : Path}

/-- What leads to a file or directory of the tree is made of names. -/
def IsNamed (tree : FileTree) : Prop :=
  ∀ entry ∈ tree.files, ∀ name ∈ entry.1, FileName.IsProper name

/-- The way to a directory leads through directories. -/
theorem hasDirectory_dropLast {names : List String} (known : tree.hasDirectory names = true) :
    tree.hasDirectory names.dropLast = true := by
  have shorter : names.dropLast.length ≤ names.length := by simp
  have isPrefix {other : List String} (before : names.isPrefixOf other = true) :
      names.dropLast.isPrefixOf other = true :=
    List.isPrefixOf_iff_prefix.mpr (( List.dropLast_prefix names).trans
      (List.isPrefixOf_iff_prefix.mp before))
  unfold hasDirectory at known ⊢
  simp only [Bool.or_eq_true, List.any_eq_true, Bool.and_eq_true, decide_eq_true_eq] at known ⊢
  obtain (empty | ⟨other, listed, before⟩) | ⟨entry, listed, before, longer⟩ := known
  · cases List.isEmpty_iff.mp empty
    exact .inl (.inl rfl)
  · exact .inl (.inr ⟨other, listed, isPrefix before⟩)
  · exact .inr ⟨entry, listed, isPrefix before, Nat.lt_of_le_of_lt shorter longer⟩

/-- Where parts do not lead to a directory, the last of them is a name. -/
theorem getLast?_of_follow {start names parts : List String}
    (followed : tree.follow start parts = .ok names) (file : tree.hasDirectory names = false) :
    (parts = [] ∧ names = start) ∨
      ∃ text, parts.getLast? = some text ∧ PathStep.ofPart? text = some (.name text) := by
  induction parts generalizing start with
  | nil => exact .inl ⟨rfl, (Except.ok.inj followed).symm⟩
  | cons part rest ih =>
    rw [follow] at followed
    split at followed
    · rename_i known
      -- The rest is followed from here, and unless it is empty it has the last name.
      have last {next : List String} (followed : tree.follow next rest = .ok names)
          (here : names = next → PathStep.ofPart? part = some (.name part)) :
          ∃ text, (part :: rest).getLast? = some text ∧
            PathStep.ofPart? text = some (.name text) := by
        obtain ⟨rfl, same⟩ | ⟨text, found, name⟩ := ih followed
        · exact ⟨part, rfl, here same⟩
        · refine ⟨text, ?_, name⟩
          rw [List.getLast?_cons, found]
          rfl
      have absurdAt {next : List String} (directory : tree.hasDirectory next = true)
          (same : names = next) : False := by
        rw [same, directory] at file
        cases file
      refine .inr ?_
      split at followed
      · rename_i text step
        cases FileName.ofPart?_eq_name step
        exact last followed fun _ => step
      · exact last followed fun same => (absurdAt (hasDirectory_dropLast known) same).elim
      · exact last followed fun same => (absurdAt known same).elim
    · cases followed

end FileTree

namespace Path

variable {path : Path} {text : String}

theorem isProper_of_mem_parts (listed : text ∈ path.parts)
    (name : PathStep.ofPart? text = some (.name text)) : FileName.IsProper text := by
  obtain ⟨part, inside, rfl⟩ := List.mem_map.mp listed
  refine ⟨name, fun slash => ?_⟩
  rw [String.toList_ofList] at slash
  exact (mem_of_mem_splitOn inside slash).2 rfl

/-- A path whose last part is a name ends in this name. -/
theorem fileName?_of_getLast? (last : path.parts.getLast? = some text)
    (name : PathStep.ofPart? text = some (.name text)) : path.fileName? = some text := by
  have ends : path.steps.getLast? = some (.name text) := by
    unfold steps
    cases parts : path.parts with
    | nil =>
      rw [parts] at last
      cases last
    | cons first rest =>
      rw [parts] at last
      cases rest with
      | nil =>
        obtain rfl : first = text := Option.some.inj last
        have notEmpty : first ≠ "" := by
          rintro rfl
          cases name
        have notHere : first ≠ "." := by
          rintro rfl
          cases name
        simp [notEmpty, notHere, name]
      | cons second others =>
        rw [List.getLast?_cons_cons] at last
        obtain ⟨front, same⟩ := List.getLast?_eq_some_iff.mp last
        dsimp only
        rw [same, List.filterMap_append, List.filterMap_cons_some name, List.filterMap_nil,
          ← List.append_assoc, List.getLast?_concat]
  rw [fileName?, ends]

end Path

/-- A path to a file ends in a name. -/
theorem FileTree.isProper_fileName? {tree : FileTree} {path : Path} {names : List String}
    (located : tree.locate path = .ok names) (known : tree.kindAt? names = some .file) :
    ∃ text, path.fileName? = some text ∧ FileName.IsProper text := by
  have file : tree.hasDirectory names = false := by
    unfold kindAt? at known
    split at known
    · cases known
    · rename_i other
      exact Bool.not_eq_true _ ▸ other
  unfold locate at located
  split at located
  · cases located
  · rename_i written
    obtain ⟨empty, -⟩ | ⟨text, last, name⟩ := getLast?_of_follow located file
    · exact absurd (List.map_eq_nil_iff.mp empty) (List.splitOn_ne_nil _ _)
    · exact ⟨text, Path.fileName?_of_getLast? last name,
        Path.isProper_of_mem_parts (List.mem_of_getLast? last) name⟩

namespace UnitFile

variable {tree later : FileTree}

theorem mem_of_mem_dropRepeated {file : UnitFile} {files : List UnitFile}
    (listed : file ∈ dropRepeated files) : file ∈ files := by
  induction files with
  | nil => cases listed
  | cons first rest ih =>
    rw [dropRepeated] at listed
    split at listed
    · exact List.mem_cons.mpr (.inl (List.mem_singleton.mp listed))
    · rename_i second others same
      rw [same] at ih
      split at listed
      · obtain rfl | listed := List.mem_cons.mp listed
        · exact List.mem_cons_self
        · exact List.mem_cons_of_mem first
            (ih (List.mem_cons_of_mem second listed))
      · obtain rfl | listed := List.mem_cons.mp listed
        · exact List.mem_cons_self
        · exact List.mem_cons_of_mem first (ih listed)

/-- Names lead to the files that a path leads to, and nothing is changed by looking for them. -/
theorem isNamed_of_ofPath (named : tree.IsNamed) {path : Path} {files : List UnitFile}
    (found : tree.run (ofPath path) = (.ok files, later)) :
    later = tree ∧ ∀ file ∈ files, file.IsNamed := by
  have asked : tree.run (liftM (FileAccess.kind? path : StateM FileTree (Option EntryKind))) =
      (.ok (tree.kind? path), tree) := FileTree.run_lift rfl
  unfold ofPath at found
  rw [FileTree.run_bind_ok asked] at found
  cases kind : tree.kind? path with
  | none =>
    rw [kind] at found
    cases found
  | some entry =>
    obtain ⟨names, leads, known⟩ := Option.bind_eq_some_iff.mp kind
    have located : tree.locate path = .ok names := eq_ok_of_toOption leads
    rw [kind] at found
    cases entry with
    | directory =>
      have listed : tree.run (liftM (FileAccess.filesBelow path : StateM FileTree _)) =
          (.ok (tree.filesBelow names), tree) := by
        refine FileTree.run_lift ?_
        change (((tree.locate path).toOption.map tree.filesBelow).getD [], tree) = _
        rw [located]
        rfl
      dsimp only at found
      rw [FileTree.run_bind_ok listed] at found
      cases found
      refine ⟨rfl, fun file inFiles name inside => ?_⟩
      obtain ⟨below, inBelow, rfl⟩ := List.mem_map.mp inFiles
      obtain ⟨entry, inTree, same⟩ := List.mem_filterMap.mp (List.mem_filter.mp inBelow).1
      obtain ⟨-, rest⟩ := Option.ite_none_right_eq_some.mp same
      cases rest
      exact named entry inTree name (List.mem_of_mem_drop inside)
    | file =>
      cases found
      refine ⟨rfl, fun file inFiles name inside => ?_⟩
      obtain ⟨text, ends, proper⟩ := FileTree.isProper_fileName? located known
      cases List.mem_singleton.mp inFiles
      rw [ends] at inside
      cases List.mem_singleton.mp inside
      exact proper

theorem isNamed_of_mapM (named : tree.IsNamed) {paths : List Path} {lists : List (List UnitFile)}
    (found : tree.run (paths.mapM ofPath) = (.ok lists, later)) :
    later = tree ∧ ∀ list ∈ lists, ∀ file ∈ list, file.IsNamed := by
  induction paths generalizing lists later with
  | nil =>
    cases found
    exact ⟨rfl, by simp⟩
  | cons path rest ih =>
    rw [List.mapM_cons] at found
    obtain ⟨first, middle, foundFirst, next⟩ := FileTree.run_bind_eq_ok found
    obtain ⟨rfl, namedFirst⟩ := isNamed_of_ofPath named foundFirst
    obtain ⟨others, last, foundOthers, made⟩ := FileTree.run_bind_eq_ok next
    obtain ⟨rfl, namedOthers⟩ := ih foundOthers
    cases made
    exact ⟨rfl, List.forall_mem_cons.mpr ⟨namedFirst, namedOthers⟩⟩

/-- **Names lead to all the files that are found.** -/
theorem isNamed_of_collect (named : tree.IsNamed) {paths : List Path} {files : List UnitFile}
    (found : tree.run (collect paths) = (.ok files, later)) : ∀ file ∈ files, file.IsNamed := by
  unfold collect at found
  obtain ⟨lists, middle, foundLists, made⟩ := FileTree.run_bind_eq_ok found
  obtain ⟨-, each⟩ := isNamed_of_mapM named foundLists
  cases made
  intro file listed
  have inLists := List.mem_mergeSort.mp (mem_of_mem_dropRepeated listed)
  obtain ⟨list, inLists, inside⟩ := List.mem_flatten.mp inLists
  exact each list inLists file inside

end UnitFile

end LogCalls
