import LogCalls.CommandLine.Batch
import LogCalls.Proofs.CommandLine.UnitFile
import LogCalls.Proofs.Interchange.RoundTrip
import Mathlib.Data.List.Nodup
import Mathlib.Data.List.Pairwise
import Mathlib.Logic.Relation

/-! # Batches whose units are finished in any order

The units of a batch are read and transformed side by side. Whatever the order in which they are
finished, they are put back into the order of the inputs, each with the file that it came from, and each
result is written once, where no other result belongs. -/

namespace LogCalls

/-- A directory could not be made, or a file could not be written. -/
def ProgramError.isFileFailure : ProgramError → Bool
  | outputDirectory _ => true
  | directory _ => true
  | unwritable _ => true
  | _ => false

/-- The status of a unit that was transformed or was not. -/
def FileStatus.ofResult : Except FileStatus Outcome → FileStatus
  | .ok outcome => .ofSummary outcome.summary
  | .error status => status

/-- The summary of a unit that was transformed to its end lists no errors. -/
theorem Engine.errors_of_transformFrom {engine : Engine} {unit visited : CompilationUnit}
    {remaining replacements : Nat} {statistics : Statistics} {outcome : Outcome}
    (converged :
      (engine.transformFrom unit remaining statistics visited replacements).1 = .ok outcome) :
    outcome.summary.errors = [] := by
  induction remaining generalizing statistics visited replacements with
  | zero => cases converged
  | succ remaining ih =>
    rw [transformFrom] at converged
    split at converged
    · cases converged
    · cases converged
      rfl
    · exact ih converged

namespace Batch

variable {batch : Batch} {directory : Path} {engine : Engine} {tree opened later : FileTree}

/-! ## Preparation -/

/-- A collision is found unless all results have a place of their own. -/
theorem collision?_eq_none_iff {format : OutputFormat} (seen files : List UnitFile) :
    collision? directory format seen files = none ↔
      UnitFile.Apart directory format files ∧ ∀ earlier ∈ seen, ∀ file ∈ files,
        (earlier.target directory format).isSame (file.target directory format) = false := by
  induction files generalizing seen with
  | nil => simp [collision?, UnitFile.Apart]
  | cons file rest ih =>
    rw [collision?, UnitFile.Apart, List.pairwise_cons]
    split
    · rename_i earlier found
      have same := List.find?_some found
      refine iff_of_false (by rintro ⟨⟩) ?_
      rintro ⟨-, apart⟩
      have other := apart earlier (List.mem_of_find?_eq_some found) file List.mem_cons_self
      exact absurd (other.symm.trans same) Bool.false_ne_true
    · rename_i found
      have apart : ∀ earlier ∈ seen, (earlier.target directory format).isSame
          (file.target directory format) = false := by
        simpa using List.find?_eq_none.mp found
      rw [ih, UnitFile.Apart]
      constructor
      · rintro ⟨others, free⟩
        refine ⟨⟨fun other listed => ?_, others⟩, fun earlier before other listed => ?_⟩
        · exact free file (by simp) other listed
        · obtain rfl | listed := List.mem_cons.mp listed
          · exact apart earlier before
          · exact free earlier (List.mem_append_left _ before) other listed
      · rintro ⟨⟨first, others⟩, free⟩
        refine ⟨others, fun earlier before other listed => ?_⟩
        obtain before | before := List.mem_append.mp before
        · exact free earlier before other (List.mem_cons_of_mem file listed)
        · cases List.mem_singleton.mp before
          exact first other listed

/-- The configuration is valid, its rules can be built, and all results have a place of their own. -/
structure Accepts (batch : Batch) (directory : Path) (files : List UnitFile) (engine : Engine) :
    Prop where
  valid : batch.configuration.validate = .ok ()
  built : Engine.ofConfiguration batch.configuration = .ok engine
  apart : UnitFile.Apart directory batch.format files

/-- The configuration is not valid, or a rule cannot be built, or two results belong to the same
place. -/
def Refuses (batch : Batch) (directory : Path) (files : List UnitFile) : Prop :=
  (∃ error, batch.configuration.validate = .error error) ∨
    (∃ error, Engine.ofConfiguration batch.configuration = .error error) ∨
    ¬ UnitFile.Apart directory batch.format files

/-- What is accepted is not refused. -/
theorem Accepts.not_refuses {files : List UnitFile} (accepts : batch.Accepts directory files engine) :
    ¬ batch.Refuses directory files := by
  rintro (⟨error, invalid⟩ | ⟨error, unbuilt⟩ | shared)
  · cases accepts.valid.symm.trans invalid
  · cases accepts.built.symm.trans unbuilt
  · exact shared accepts.apart

/-- A collision fails the whole batch. -/
theorem isFileFailure_collision? {format : OutputFormat} {seen files : List UnitFile}
    {error : ProgramError} (found : collision? directory format seen files = some error) :
    error.isFileFailure = false := by
  induction files generalizing seen with
  | nil => cases found
  | cons file rest ih =>
    rw [collision?] at found
    split at found
    · cases found
      rfl
    · exact ih found

section Prepare

variable {files : List UnitFile}

/-- A refused configuration ends the batch. -/
theorem run_prepare_of_library {error : Error}
    (failed : (do batch.configuration.validate; Engine.ofConfiguration batch.configuration) =
      Except.error error) :
    tree.run (batch.prepare files) = (.error (.library error), tree) := by
  unfold prepare
  rw [failed]
  exact FileTree.run_bind_error rfl _

/-- So do files with one target. -/
theorem run_prepare_of_collision (output : batch.output = some directory)
    (valid : batch.configuration.validate = .ok ())
    (built : Engine.ofConfiguration batch.configuration = .ok engine) {error : ProgramError}
    (found : collision? directory batch.format [] files = some error) :
    tree.run (batch.prepare files) = (.error error, tree) := by
  unfold prepare
  rw [valid, output]
  refine (FileTree.run_bind_ok (by rw [built]; rfl) _).trans ?_
  simp only [found]
  rfl

/-- What is left to do for a batch that is accepted is to make the output directory. -/
theorem run_prepare_of_accepts (output : batch.output = some directory)
    (accepts : batch.Accepts directory files engine) :
    tree.run (batch.prepare files) = tree.run (do
      if !(← (FileAccess.makeDirectories directory : StateM FileTree Bool)) then
        throw (.outputDirectory directory)
      return engine) := by
  have free : collision? directory batch.format [] files = none :=
    (collision?_eq_none_iff [] files).mpr ⟨accepts.apart, by simp⟩
  unfold prepare
  rw [accepts.valid, output]
  refine (FileTree.run_bind_ok (by rw [accepts.built]; rfl) _).trans ?_
  simp only [free]

end Prepare

/-- A batch that is refused leaves the tree as it is. Otherwise the output directory is made. -/
theorem run_prepare_cases (output : batch.output = some directory) (files : List UnitFile)
    (tree : FileTree) :
    (∃ error, tree.run (batch.prepare files) = (.error error, tree) ∧ error.isFileFailure = false ∧
        batch.Refuses directory files) ∨
      ∃ engine, batch.Accepts directory files engine ∧
        ((tree.makeDirectories? directory = none ∧
            tree.run (batch.prepare files) = (.error (.outputDirectory directory), tree)) ∨
          ∃ opened, tree.makeDirectories? directory = some opened ∧
            tree.run (batch.prepare files) = (.ok engine, opened)) := by
  cases valid : batch.configuration.validate with
  | error error =>
    refine .inl ⟨.library error, run_prepare_of_library ?_, rfl, .inl ⟨error, valid⟩⟩
    rw [valid]
    rfl
  | ok checked =>
    cases checked
    cases built : Engine.ofConfiguration batch.configuration with
    | error error =>
      refine .inl ⟨.library error, run_prepare_of_library ?_, rfl, .inr (.inl ⟨error, built⟩)⟩
      rw [valid, built]
      rfl
    | ok engine =>
      cases found : collision? directory batch.format [] files with
      | some error =>
        refine .inl ⟨error, run_prepare_of_collision output valid built found,
          isFileFailure_collision? found, .inr (.inr fun apart => ?_)⟩
        rw [(collision?_eq_none_iff [] files).mpr ⟨apart, by simp⟩] at found
        cases found
      | none =>
        have accepts : batch.Accepts directory files engine :=
          ⟨valid, built, ((collision?_eq_none_iff [] files).mp found).1⟩
        refine .inr ⟨engine, accepts, ?_⟩
        rw [run_prepare_of_accepts output accepts]
        cases made : tree.makeDirectories? directory with
        | none =>
          have failed := FileTree.run_lift
            (FileTree.run_attempt_none (·.makeDirectories? directory) made)
          exact .inl ⟨rfl, (FileTree.run_bind_ok failed _).trans rfl⟩
        | some opened =>
          have done := FileTree.run_lift
            (FileTree.run_attempt_some (·.makeDirectories? directory) made)
          exact .inr ⟨opened, rfl, (FileTree.run_bind_ok done _).trans rfl⟩

/-! ## Units that are finished in any order -/

/-- Read and transform the unit of a file, given with its place among the inputs. -/
def work (batch : Batch) (engine : Engine) (task : UnitFile × Nat) : StateM FileTree Finished := do
  let text ← FileAccess.read task.1.path
  return { index := task.2, file := task.1, result := batch.transform engine task.1.path text }

/-- What becomes of the unit of a file. -/
def resultIn (batch : Batch) (engine : Engine) (tree : FileTree) (file : UnitFile) :
    Except FileStatus Outcome :=
  batch.transform engine file.path (tree.read file.path)

/-- The unit of a file when it is done with. -/
def finish (batch : Batch) (engine : Engine) (tree : FileTree) (task : UnitFile × Nat) : Finished where
  index := task.2
  file := task.1
  result := batch.resultIn engine tree task.1

/-- To work on a unit changes no file. -/
theorem run_work (batch : Batch) (engine : Engine) (tree : FileTree) (task : UnitFile × Nat) :
    (batch.work engine task).run tree = (batch.finish engine tree task, tree) := rfl

/-- Work on units leaves the tree alone. -/
theorem run_mapM_work (batch : Batch) (engine : Engine) (tree : FileTree)
    (tasks : List (UnitFile × Nat)) :
    (tasks.mapM (batch.work engine)).run tree = (tasks.map (batch.finish engine tree), tree) := by
  induction tasks with
  | nil => rfl
  | cons task rest ih =>
    rw [List.mapM_cons, StateT.run_bind, run_work]
    change ((do let others ← rest.mapM (batch.work engine); pure (batch.finish engine tree task :: others) :
      StateM FileTree (List Finished))).run tree = _
    rw [StateT.run_bind, ih]
    rfl

/-- A batch at work: the files whose units are not finished yet, and the units that are, in the order in
which they were finished. -/
structure Stage where
  pending : List (UnitFile × Nat)
  finished : List Finished
  tree : FileTree

namespace Stage

/-- Work on any one of the pending units. -/
inductive Step (batch : Batch) (engine : Engine) : Stage → Stage → Prop where
  | finish {before after : List (UnitFile × Nat)} {task : UnitFile × Nat} {finished : List Finished}
      {unit : Finished} {tree later : FileTree} :
      (batch.work engine task).run tree = (unit, later) →
        Step batch engine ⟨before ++ task :: after, finished, tree⟩
          ⟨before ++ after, finished ++ [unit], later⟩

/-- Work on pending units, one after the other. -/
def Reaches (batch : Batch) (engine : Engine) : Stage → Stage → Prop :=
  Relation.ReflTransGen (Step batch engine)

/-- All units, as they are when they are done with. -/
def units (batch : Batch) (engine : Engine) (stage : Stage) : List Finished :=
  stage.finished ++ stage.pending.map (batch.finish engine stage.tree)

/-- Work on a unit leaves the files and the other units alone. -/
theorem Step.perm {stage next : Stage} (step : Step batch engine stage next) :
    next.tree = stage.tree ∧ (next.units batch engine).Perm (stage.units batch engine) := by
  cases step with
  | finish worked =>
    cases worked
    refine ⟨rfl, ?_⟩
    simp only [units, List.map_append, List.map_cons, List.append_assoc, List.singleton_append]
    exact (List.perm_middle.symm).append_left _

/-- **Every unit is finished once.** However work on units goes on, there are the same units, over the
same files. -/
theorem perm_of_reaches {stage next : Stage} (reaches : Reaches batch engine stage next) :
    next.tree = stage.tree ∧ (next.units batch engine).Perm (stage.units batch engine) := by
  induction reaches with
  | refl => exact ⟨rfl, .refl _⟩
  | tail _ step ih =>
    obtain ⟨sameTree, samePerm⟩ := step.perm
    exact ⟨sameTree.trans ih.1, samePerm.trans ih.2⟩

/-- Units may be finished in the order of the inputs. -/
theorem reaches_map (batch : Batch) (engine : Engine) (tree : FileTree) (pending : List (UnitFile × Nat))
    (finished : List Finished) :
    Reaches batch engine ⟨pending, finished, tree⟩
      ⟨[], finished ++ pending.map (batch.finish engine tree), tree⟩ := by
  induction pending generalizing finished with
  | nil =>
    rw [List.map_nil, List.append_nil]
    exact .refl
  | cons task rest ih =>
    have first : Step batch engine ⟨[] ++ task :: rest, finished, tree⟩
        ⟨[] ++ rest, finished ++ [batch.finish engine tree task], tree⟩ :=
      .finish (run_work batch engine tree task)
    have others := ih (finished ++ [batch.finish engine tree task])
    rw [List.append_assoc, List.singleton_append] at others
    exact .head first others

end Stage

/-- Units in any order are put back into the order of the inputs. -/
theorem inInputOrder_of_perm {files : List UnitFile} {finished : List Finished}
    (perm : finished.Perm (files.zipIdx.map (batch.finish engine tree))) :
    inInputOrder finished = files.zipIdx.map (batch.finish engine tree) := by
  let inputs := files.zipIdx.map (batch.finish engine tree)
  have indices : inputs.map (·.index) = List.range' 0 files.length := by
    rw [List.map_map]
    exact List.zipIdx_map_snd 0 files
  have distinct : (inputs.map (·.index)).Nodup := indices ▸ List.nodup_range'
  have increasing : inputs.Pairwise fun first second => first.index ≤ second.index := by
    apply List.pairwise_map.mp
    rw [indices]
    exact List.pairwise_le_range'
  have sorted : (inInputOrder finished).Pairwise fun first second => first.index ≤ second.index := by
    have ordered : (inInputOrder finished).Pairwise fun first second =>
        decide (first.index ≤ second.index) = true :=
      List.pairwise_mergeSort (by simpa using fun _ _ _ => Nat.le_trans)
        (by simpa using fun _ _ => Nat.le_total _ _) finished
    simpa using ordered
  have same : (inInputOrder finished).Perm inputs := (List.mergeSort_perm _ _).trans perm
  -- Both lists are sorted by index, and no two units have the same index.
  refine same.eq_of_pairwise (fun first second inFirst inSecond before after => ?_) sorted increasing
  exact List.inj_on_of_nodup_map distinct (same.mem_iff.mp inFirst) inSecond
    (Nat.le_antisymm before after)

/-- Units that were finished in any order are delivered as if it were that of the inputs. -/
theorem deliver_of_perm {files : List UnitFile} {finished : List Finished}
    (perm : finished.Perm (files.zipIdx.map (batch.finish engine opened))) :
    (batch.deliver finished : ExceptT ProgramError (StateM FileTree) BatchReport) =
      batch.deliver (files.zipIdx.map (batch.finish engine opened)) := by
  rw [deliver, deliver, inInputOrder_of_perm perm, inInputOrder_of_perm (List.Perm.refl _)]

/-- How a batch may end. It is refused, or its units are finished in some order and then delivered. -/
inductive Ends (batch : Batch) (files : List UnitFile) (tree : FileTree) :
    Except ProgramError BatchReport × FileTree → Prop where
  | refused {error : ProgramError} {opened : FileTree} :
      tree.run (batch.prepare files) = (.error error, opened) →
        Ends batch files tree (.error error, opened)
  | delivered {engine : Engine} {opened later : FileTree} {finished : List Finished} :
      tree.run (batch.prepare files) = (.ok engine, opened) →
        Stage.Reaches batch engine ⟨files.zipIdx, [], opened⟩ ⟨[], finished, later⟩ →
        Ends batch files tree (later.run (batch.deliver finished))

/-- A prepared batch is delivered. -/
theorem run_of_prepare {files : List UnitFile}
    (prepared : tree.run (batch.prepare files) = (.ok engine, opened)) :
    tree.run (batch.run files) =
      opened.run (batch.deliver (files.zipIdx.map (batch.finish engine opened))) := by
  have transformed := FileTree.run_lift (run_mapM_work batch engine opened files.zipIdx)
  unfold run
  exact (FileTree.run_bind_ok prepared _).trans (FileTree.run_bind_ok transformed _)

/-- **The order in which units are finished makes no difference.** Every batch ends as if they were
finished in the order of the inputs. -/
theorem ends_iff {files : List UnitFile} {ending : Except ProgramError BatchReport × FileTree} :
    batch.Ends files tree ending ↔ ending = tree.run (batch.run files) := by
  constructor
  · intro ends
    cases ends with
    | refused prepared => exact (FileTree.run_bind_error prepared _).symm
    | @delivered engine opened later finished prepared reaches =>
      obtain ⟨rfl, perm⟩ := Stage.perm_of_reaches reaches
      have all : finished.Perm (files.zipIdx.map (batch.finish engine later)) := by
        simpa [Stage.units] using perm
      rw [run_of_prepare prepared, deliver_of_perm all]
  · rintro rfl
    cases prepared : tree.run (batch.prepare files) with
    | mk result opened =>
      cases result with
      | error error =>
        have refused : tree.run (batch.run files) = (.error error, opened) :=
          FileTree.run_bind_error prepared _
        rw [refused]
        exact .refused prepared
      | ok engine =>
        rw [run_of_prepare prepared]
        exact .delivered prepared (Stage.reaches_map batch engine opened files.zipIdx [])

/-! ## Delivery -/

section Delivery

variable {files : List UnitFile} {result : UnitFile → Except FileStatus Outcome}

/-- What is said about a file that was not transformed. -/
def failure? (result : UnitFile → Except FileStatus Outcome) (file : UnitFile) : Option String :=
  match result file with
  | .ok _ => none
  | .error status => some (FileReport.line { path := file.path, status })

/-- The results of files are where they belong, and no other file has changed. -/
structure Written (batch : Batch) (directory : Path) (result : UnitFile → Except FileStatus Outcome)
    (files : List UnitFile) (tree later : FileTree) : Prop where
  extended : tree.Extends later
  written : ∀ file ∈ files, ∀ outcome, result file = .ok outcome →
    later.read (file.target directory batch.format) = .ok (batch.format.render outcome.unit)
  kept : ∀ names, (∀ file ∈ files, ∀ outcome, result file = .ok outcome →
    tree.names (file.target directory batch.format) ≠ names) → later.text? names = tree.text? names

/-- Nothing is written for no files. -/
theorem Written.nil (tree : FileTree) : batch.Written directory result [] tree tree where
  extended := .refl tree
  written _ listed := by cases listed
  kept _ _ := rfl

/-- To make directories before writes nothing. -/
theorem Written.of_makeDirectories? {path : Path} (made : tree.makeDirectories? path = some opened)
    (written : batch.Written directory result files opened later) :
    batch.Written directory result files tree later := by
  obtain ⟨sameFiles, more⟩ := FileTree.makeDirectories?_eq_some made
  refine ⟨more.trans written.extended, written.written, fun names free => ?_⟩
  rw [written.kept names, FileTree.text?, FileTree.text?, sameFiles]
  intro file listed outcome converged
  rw [more.names]
  exact free file listed outcome converged

/-- What is written later leaves alone what was written before, if it belongs elsewhere. -/
theorem Written.cons {file : UnitFile} (first : batch.Written directory result [file] tree opened)
    (others : batch.Written directory result files opened later)
    (apart : ∀ other ∈ files, tree.names (other.target directory batch.format) ≠
      tree.names (file.target directory batch.format)) :
    batch.Written directory result (file :: files) tree later where
  extended := first.extended.trans others.extended
  written other listed outcome converged := by
    obtain rfl | listed := List.mem_cons.mp listed
    · -- The way to the result stays open, and the other results are written elsewhere.
      have read := first.written other List.mem_cons_self outcome converged
      obtain ⟨names, located, text⟩ := FileTree.read_eq_ok_iff.mp read
      refine FileTree.read_eq_ok_iff.mpr ⟨names, others.extended.locate located, ?_⟩
      rw [others.kept, text]
      intro another listed _ _
      rw [FileTree.locate_eq_names located, first.extended.names, first.extended.names]
      exact apart another listed
    · exact others.written other listed outcome converged
  kept names free := by
    rw [others.kept names fun other listed => by
      rw [first.extended.names]
      exact free other (List.mem_cons_of_mem file listed)]
    refine first.kept names fun other listed => free other ?_
    cases List.mem_singleton.mp listed
    exact List.mem_cons_self

/-- The report after one more unit is delivered. -/
def deliverOne (batch : Batch) (report : BatchReport) (unit : Finished) :
    ExceptT ProgramError (StateM FileTree) BatchReport :=
  match unit.result with
  | .ok outcome => batch.emit unit.file outcome report
  | .error status => return report.addFailure unit.file.path status

/-- The entry of a file in the report: how it fared, and where its result was written. -/
def entry (batch : Batch) (directory : Path) (result : UnitFile → Except FileStatus Outcome)
    (file : UnitFile) : FileReport where
  path := file.path
  status := .ofResult (result file)
  writtenTo := (result file).toOption.map fun _ => file.target directory batch.format

/-- The report says of the files how they fared. -/
structure Reports (batch : Batch) (directory : Path) (result : UnitFile → Except FileStatus Outcome)
    (files : List UnitFile) (report next : BatchReport) : Prop where
  entries : next.files = report.files ++ files.map (batch.entry directory result)
  errors : next.summary.errors = report.summary.errors ++ files.filterMap (failure? result)

/-- The result of a unit is written, or a file operation fails. -/
theorem run_emit_cases (output : batch.output = some directory) (file : UnitFile) (outcome : Outcome)
    (report : BatchReport) (tree : FileTree) :
    (∃ error later, tree.run (batch.emit file outcome report) = (.error error, later) ∧
        error.isFileFailure = true) ∨
      ∃ opened later,
        tree.makeDirectories? (directory.below file.relative.dropLast) = some opened ∧
        opened.write? (file.target directory batch.format) (batch.format.render outcome.unit) =
          some later ∧
        tree.run (batch.emit file outcome report) =
          (.ok (report.addOutcome file.path outcome (some (file.target directory batch.format))),
            later) := by
  unfold emit
  simp only [output]
  cases made : tree.makeDirectories? (directory.below file.relative.dropLast) with
  | none =>
    have failed := FileTree.run_lift (FileTree.run_attempt_none
      (·.makeDirectories? (directory.below file.relative.dropLast)) made)
    exact .inl ⟨_, _, FileTree.run_bind_ok failed _, rfl⟩
  | some opened =>
    have done := FileTree.run_lift (FileTree.run_attempt_some
      (·.makeDirectories? (directory.below file.relative.dropLast)) made)
    cases written : opened.write? (file.target directory batch.format)
        (batch.format.render outcome.unit) with
    | none =>
      have failed := FileTree.run_lift (FileTree.run_attempt_none
        (·.write? (file.target directory batch.format) (batch.format.render outcome.unit)) written)
      exact .inl ⟨_, _, (FileTree.run_bind_ok done _).trans (FileTree.run_bind_ok failed _), rfl⟩
    | some later =>
      have stored := FileTree.run_lift (FileTree.run_attempt_some
        (·.write? (file.target directory batch.format) (batch.format.render outcome.unit)) written)
      exact .inr ⟨opened, later, rfl, written,
        (FileTree.run_bind_ok done _).trans (FileTree.run_bind_ok stored _)⟩

/-- One unit is delivered, or a file operation fails. -/
theorem run_deliverOne_cases (output : batch.output = some directory)
    (clean : ∀ file outcome, result file = .ok outcome → outcome.summary.errors = [])
    {unit : Finished} (known : unit.result = result unit.file) (report : BatchReport)
    (tree : FileTree) :
    (∃ error later, tree.run (batch.deliverOne report unit) = (.error error, later) ∧
        error.isFileFailure = true) ∨
      ∃ next later, tree.run (batch.deliverOne report unit) = (.ok next, later) ∧
        batch.Written directory result [unit.file] tree later ∧
        batch.Reports directory result [unit.file] report next := by
  cases ended : unit.result with
  | error status =>
    rw [ended] at known
    refine .inr ⟨report.addFailure unit.file.path status, tree, ?_,
      ⟨.refl tree, ?_, fun _ _ => rfl⟩, ?_⟩
    · simp only [deliverOne, ended]
      rfl
    · intro file listed outcome converged
      cases List.mem_singleton.mp listed
      cases known.trans converged
    · constructor
      · simp [BatchReport.addFailure, entry, ← known, FileStatus.ofResult, Except.toOption]
      · simp [BatchReport.addFailure, failure?, ← known]
  | ok outcome =>
    rw [ended] at known
    simp only [deliverOne, ended]
    obtain failed | ⟨opened, later, made, written, ran⟩ :=
      run_emit_cases output unit.file outcome report tree
    · exact .inl failed
    · refine .inr ⟨_, later, ran,
        .of_makeDirectories? made ⟨FileTree.extends_write? written, ?_, ?_⟩, ?_⟩
      · intro file listed other converged
        cases List.mem_singleton.mp listed
        cases known.trans converged
        exact FileTree.read_write? written
      · intro names free
        exact FileTree.text?_write? written (free unit.file List.mem_cons_self outcome known.symm)
      · constructor
        · simp [BatchReport.addOutcome, entry, ← known, FileStatus.ofResult, Except.toOption]
        · simp [BatchReport.addOutcome, Summary.merge, failure?, ← known,
            clean unit.file outcome known.symm]

/-- **All units are delivered, or a file operation fails.** -/
theorem run_deliverAll_cases (output : batch.output = some directory)
    (clean : ∀ file outcome, result file = .ok outcome → outcome.summary.errors = [])
    {units : List Finished} (known : ∀ unit ∈ units, unit.result = result unit.file)
    (apart : ∀ tree : FileTree, (units.map (·.file)).Pairwise fun file other =>
      tree.names (other.target directory batch.format) ≠
        tree.names (file.target directory batch.format))
    (report : BatchReport) (tree : FileTree) :
    (∃ error later, tree.run (units.foldlM batch.deliverOne report) = (.error error, later) ∧
        error.isFileFailure = true) ∨
      ∃ next later, tree.run (units.foldlM batch.deliverOne report) = (.ok next, later) ∧
        batch.Written directory result (units.map (·.file)) tree later ∧
        batch.Reports directory result (units.map (·.file)) report next := by
  induction units generalizing report tree with
  | nil => exact .inr ⟨report, tree, rfl, .nil tree, by simp, by simp⟩
  | cons unit rest ih =>
    have others := (List.pairwise_cons.mp (apart tree)).1
    have apart (tree : FileTree) := (List.pairwise_cons.mp (apart tree)).2
    rw [List.foldlM_cons]
    obtain ⟨error, later, failed, kind⟩ | ⟨next, opened, ran, written, reports⟩ :=
      run_deliverOne_cases output clean (known unit List.mem_cons_self) report tree
    · exact .inl ⟨error, later, FileTree.run_bind_error failed _, kind⟩
    · rw [FileTree.run_bind_ok ran]
      obtain failed | ⟨last, later, ranRest, writtenRest, reportsRest⟩ := ih
        (fun other listed => known other (List.mem_cons_of_mem unit listed)) apart next opened
      · exact .inl failed
      · refine .inr ⟨last, later, ranRest, written.cons writtenRest others, ?_, ?_⟩
        · rw [reportsRest.entries, reports.entries, List.append_assoc, ← List.map_append]
          rfl
        · rw [reportsRest.errors, reports.errors, List.append_assoc, ← List.filterMap_append]
          rfl

/-- What becomes of the units says nothing of errors. -/
theorem errors_resultIn {file : UnitFile} {outcome : Outcome}
    (converged : batch.resultIn engine tree file = .ok outcome) : outcome.summary.errors = [] := by
  unfold resultIn transform at converged
  split at converged
  · cases converged
  · split at converged
    · cases converged
    · rename_i unit _
      dsimp only at converged
      cases ended : (engine.transform engine.startStatistics
          { unit with sourcePath := unit.sourcePath.or (some file.path.text) }).1 with
      | error error =>
        rw [ended] at converged
        cases converged
      | ok transformed =>
        rw [ended] at converged
        cases converged
        exact Engine.errors_of_transformFrom ended

/-- What a batch has to report on files, and to write. -/
structure Delivered (batch : Batch) (directory : Path) (files : List UnitFile)
    (result : UnitFile → Except FileStatus Outcome) (tree later : FileTree) (report : BatchReport) :
    Prop where
  /-- There is one entry for each file, in the order of the inputs. -/
  entries : report.files = files.map (batch.entry directory result)
  /-- There is one line for each file that was not transformed, in the order of the inputs. -/
  errors : report.summary.errors = files.filterMap (failure? result)
  /-- Every result can be read where it belongs. -/
  written : ∀ file ∈ files, ∀ outcome, result file = .ok outcome →
    later.read (file.target directory batch.format) = .ok (batch.format.render outcome.unit)
  /-- A file that was not transformed has left nothing where its result would belong. -/
  skipped : ∀ file ∈ files, ∀ status, result file = .error status →
    later.text? (tree.names (file.target directory batch.format)) =
      tree.text? (tree.names (file.target directory batch.format))
  /-- All files where no result belongs are as they were. -/
  kept : ∀ names, (∀ file ∈ files, ∀ outcome, result file = .ok outcome →
    tree.names (file.target directory batch.format) ≠ names) → later.text? names = tree.text? names

theorem delivered_of_written
    (apart : files.Pairwise fun file other =>
      tree.names (other.target directory batch.format) ≠
        tree.names (file.target directory batch.format))
    (written : batch.Written directory result files tree later) {report : BatchReport}
    (reports : batch.Reports directory result files {} report) :
    batch.Delivered directory files result tree later report where
  entries := reports.entries
  errors := reports.errors
  written := written.written
  skipped file listed status failed := by
    refine written.kept _ fun other inFiles outcome converged same => ?_
    have distinct : file ≠ other := by
      rintro rfl
      cases failed.symm.trans converged
    have symmetric : Std.Symm fun file other : UnitFile =>
        tree.names (other.target directory batch.format) ≠
          tree.names (file.target directory batch.format) :=
      ⟨fun _ _ apart => apart.symm⟩
    exact apart.forall listed inFiles distinct same
  kept := written.kept

/-- A batch that has been accepted delivers the results of all its units, or a file operation fails. -/
theorem run_cases_of_accepts (output : batch.output = some directory)
    (named : ∀ file ∈ files, file.IsNamed) (accepts : batch.Accepts directory files engine)
    (made : tree.makeDirectories? directory = some opened)
    (prepared : tree.run (batch.prepare files) = (.ok engine, opened)) :
    (∃ error later, tree.run (batch.run files) = (.error error, later) ∧
        error.isFileFailure = true) ∨
      ∃ report later, tree.run (batch.run files) = (.ok report, later) ∧
        batch.Delivered directory files (batch.resultIn engine opened) tree later report := by
  let units := files.zipIdx.map (batch.finish engine opened)
  have inputs : units.map (·.file) = files := by
    rw [List.map_map]
    exact List.zipIdx_map_fst 0 files
  have known : ∀ unit ∈ units, unit.result = batch.resultIn engine opened unit.file := by
    intro unit listed
    obtain ⟨task, -, rfl⟩ := List.mem_map.mp listed
    rfl
  have clean : ∀ file outcome, batch.resultIn engine opened file = .ok outcome →
      outcome.summary.errors = [] := fun _ _ => errors_resultIn
  have apart (tree : FileTree) := UnitFile.names_ne_of_apart tree named accepts.apart
  have deliver : opened.run (batch.deliver units) =
      opened.run (units.foldlM batch.deliverOne {}) := by
    rw [Batch.deliver, inInputOrder_of_perm (List.Perm.refl _)]
    rfl
  rw [run_of_prepare prepared, deliver]
  obtain failed | ⟨report, later, delivered, written, reports⟩ :=
    run_deliverAll_cases output clean known (fun tree => inputs ▸ apart tree) {} opened
  · exact .inl failed
  · rw [inputs] at written reports
    exact .inr ⟨report, later, delivered,
      delivered_of_written (apart tree) (written.of_makeDirectories? made) reports⟩

end Delivery

end Batch

end LogCalls
