import DiffSlice.Cli.Run
import DiffSlice.Proofs.SplicedText
import Mathlib.Control.Basic

/-!
# What a command line does to files

A task that only reads leaves all files as they are (`ReadOnly.run_fst`), and every command but an injection that is to
be written is such a task (`readOnly_task`). An injection has read all that it needs, and its text is ready, before it
writes (`run_runInject`, `run_runInject_of_not_nonempty`). So a command line that comes to nothing has changed no file,
and one that writes has changed the file that it names (`commandLine_files`).
-/

namespace DiffSlice.Cli

open DiffSlice.Patch

/-! ## Tasks that only read -/

namespace Task

variable {α β : Type}

/-- The task writes nothing, whatever it reads. -/
inductive ReadOnly : Task α → Prop
  | done (result : α) : ReadOnly (done result)
  | stop (reason : Stop) : ReadOnly (stop reason)
  | read {path : String} {next : Except FileError String → Task α} (h : ∀ text, ReadOnly (next text)) :
      ReadOnly (read path next)

/-- A task that writes nothing leaves the files as they are. -/
theorem ReadOnly.run_fst {t : Task α} (h : t.ReadOnly) (fs : FileSystem) : (t.run fs).1 = fs := by
  induction h with
  | done => rfl
  | stop => rfl
  | read _ ih => exact ih (fs.read _)

/-- Two tasks that write nothing make one that writes nothing. -/
theorem ReadOnly.bind {t : Task α} {next : α → Task β} (h : t.ReadOnly) (hnext : ∀ a, (next a).ReadOnly) :
    (t >>= next).ReadOnly := by
  induction h with
  | done a => exact hnext a
  | stop reason => exact .stop reason
  | read _ ih => exact .read ih

theorem readOnly_pure (a : α) : (pure a : Task α).ReadOnly := .done a

theorem readOnly_readFile (path : String) : (readFile path).ReadOnly := by
  apply ReadOnly.read
  intro text
  cases text with
  | ok text => exact .done text
  | error e => exact .stop _

theorem readOnly_readFile? (path : String) : (readFile? path).ReadOnly := by
  apply ReadOnly.read
  intro text
  cases text with
  | ok text => exact .done (some text)
  | error e => exact .done none

theorem readOnly_orFail {ε : Type} (failure : ε → Failure) (result : Except ε α) :
    (orFail failure result).ReadOnly := by
  cases result with
  | ok a => exact .done a
  | error e => exact .stop _

theorem readOnly_orOverflow (result : Option α) : (orOverflow result).ReadOnly := by
  cases result with
  | some a => exact .done a
  | none => exact .stop _

end Task

section Reading

open Cli.Task

theorem readOnly_loadOptions {α : Type} (path : Option String) (default : α) (fieldNames : List String)
    (ofJson? : Json → Option α) : (loadOptions path default fieldNames ofJson?).ReadOnly := by
  unfold loadOptions
  split
  · exact readOnly_pure _
  · refine (readOnly_readFile _).bind fun text => ?_
    split
    · split
      · exact .done _
      · exact .stop _
    · exact .stop _

theorem readOnly_readOldTexts (root : String) (files : List FileSection) : (readOldTexts root files).ReadOnly := by
  induction files with
  | nil => exact readOnly_pure _
  | cons file rest ih =>
    unfold readOldTexts
    split
    · refine (readOnly_readFile? _).bind fun text => ?_
      exact ih.bind fun more => readOnly_pure _
    · exact ih

theorem readOnly_runSlice (before diff : String) (after : Option String) (post : Bool) (annotate : Option LineStyle)
    (config : Option String) (format : OutputFormat) :
    (runSlice before diff after post annotate config format).ReadOnly := by
  refine (readOnly_loadOptions _ _ _ _).bind fun loaded => ?_
  refine (readOnly_readFile _).bind fun beforeText => ?_
  refine (readOnly_readFile _).bind fun diffText => ?_
  cases after with
  | none =>
    refine (readOnly_orOverflow _).bind fun outcome => ?_
    cases format <;> exact readOnly_pure _
  | some path =>
    refine ReadOnly.bind ((readOnly_readFile path).bind fun text => readOnly_pure _) fun afterText => ?_
    refine (readOnly_orOverflow _).bind fun outcome => ?_
    cases format <;> exact readOnly_pure _

theorem readOnly_runPatch (diff root : String) (only : Option FileRole) (annotate : Option LineStyle)
    (layout : Option String) (format : OutputFormat) : (runPatch diff root only annotate layout format).ReadOnly := by
  refine (readOnly_loadOptions _ _ _ _).bind fun layout => ?_
  refine (readOnly_readFile _).bind fun diffText => ?_
  refine (readOnly_readOldTexts _ _).bind fun texts => ?_
  refine (readOnly_orOverflow _).bind fun slices => ?_
  cases format with
  | json => exact readOnly_pure _
  | text =>
    dsimp only
    split <;> exact readOnly_pure _

theorem readOnly_runChangedTests (before after : String) (config : Option String) (format : OutputFormat) :
    (runChangedTests before after config format).ReadOnly := by
  refine (readOnly_loadOptions _ _ _ _).bind fun callees => ?_
  refine (readOnly_readFile _).bind fun beforeText => ?_
  refine (readOnly_readFile _).bind fun afterText => ?_
  refine (readOnly_orFail _ _).bind fun changes => ?_
  cases format with
  | json => exact readOnly_pure _
  | text =>
    dsimp only
    split <;> exact readOnly_pure _

theorem readOnly_runOutline (file : String) (limit : Nat) (format : OutputFormat) :
    (runOutline file limit format).ReadOnly := by
  refine (readOnly_readFile _).bind fun text => ?_
  refine (readOnly_orFail _ _).bind fun tree => ?_
  cases format <;> exact readOnly_pure _

theorem readOnly_runScope (file : String) (line : Nat) (format : OutputFormat) :
    (runScope file line format).ReadOnly := by
  refine (readOnly_readFile _).bind fun text => ?_
  refine (readOnly_orFail _ _).bind fun tree => ?_
  cases format <;> exact readOnly_pure _

/-- An injection that is only shown. -/
theorem readOnly_runInject (file fragment : String) (suite : Option String) (asDiff : Bool) (format : OutputFormat) :
    (runInject file fragment suite false asDiff format).ReadOnly := by
  refine (readOnly_readFile _).bind fun fileText => ?_
  refine (readOnly_readFile _).bind fun fragmentText => ?_
  refine (readOnly_orFail _ _).bind fun injected => ?_
  cases format <;> exact readOnly_pure _

/-- All commands only read but an injection that is to be written. -/
theorem readOnly_task (i : Invocation)
    (h : ∀ file fragment suite asDiff, i.command ≠ .inject file fragment suite true asDiff) : i.task.ReadOnly := by
  obtain ⟨format, command⟩ := i
  cases command with
  | slice before diff after post annotate config => exact readOnly_runSlice _ _ _ _ _ _ _
  | patch diff root only annotate layout => exact readOnly_runPatch _ _ _ _ _ _
  | changedTests before after config => exact readOnly_runChangedTests _ _ _ _
  | inject file fragment suite write asDiff =>
    cases write with
    | false => exact readOnly_runInject _ _ _ _ _
    | true => exact absurd rfl (h file fragment suite asDiff)
  | outline file limit => exact readOnly_runOutline _ _ _
  | scope file line => exact readOnly_runScope _ _ _

end Reading

/-! ## Files -/

namespace FileSystem

variable {fs : FileSystem} {path text : String} {place : Place} {file : File}

/-- A file is found if its path leads to a place where a file stands. -/
theorem locate_eq_ok_iff : fs.locate path = .ok (place, file) ↔
    fs.resolve path = .ok place ∧ fs.entryAt? place = some (.file file) := by
  constructor
  · intro h
    unfold locate at h
    split at h
    case h_1 => cases h
    case h_2 found hplace =>
      split at h
      case h_1 there hentry =>
        cases h
        exact ⟨hplace, hentry⟩
      case h_2 => split at h <;> cases h
  · rintro ⟨hplace, hentry⟩
    simp only [locate, hplace, hentry]

/-- The text of a file can be read if the file is found and the system does not refuse to read it. -/
theorem read_eq_ok_iff : fs.read path = .ok text ↔
    ∃ place file, fs.locate path = .ok (place, file) ∧ file.readError = none ∧ file.text = text := by
  constructor
  · intro h
    unfold read at h
    split at h
    case h_1 => cases h
    case h_2 place file hlocated =>
      split at h
      case h_1 => cases h
      case h_2 hreadable =>
        cases h
        exact ⟨place, file, hlocated, hreadable, rfl⟩
  · rintro ⟨place, file, hlocated, hreadable, rfl⟩
    simp only [read, hlocated, hreadable]

/-- A file that is there is written unless the system refuses. -/
theorem write_of_locate (h : fs.locate path = .ok (place, file)) (text : String) :
    fs.write path text =
      match file.writeError with
      | some error => .error error
      | none => .ok (fs.put place { file with text }) := by
  obtain ⟨hplace, hentry⟩ := locate_eq_ok_iff.1 h
  cases hrefused : file.writeError <;> simp only [write, hplace, hentry, hrefused]

@[simp] theorem workingDirectory_put (fs : FileSystem) (place : Place) (file : File) :
    (fs.put place file).workingDirectory = fs.workingDirectory := by
  unfold put
  split <;> rfl

/-- A file is put at its place, and all else stands where it stood. -/
theorem entryAt?_put (fs : FileSystem) (place : Place) (file : File) (other : Place) :
    (fs.put place file).entryAt? other = if other = place then some (.file file) else fs.entryAt? other := by
  unfold put
  split
  case isTrue hsome =>
    -- an entry stands where it stood, so it is found by the same test
    have hfind : (fs.entries.map fun e => if e.1 == place then (place, .file file) else e).find? (fun e => e.1 == other) =
        (fs.entries.find? fun e => e.1 == other).map fun e => if e.1 == place then (place, .file file) else e := by
      rw [List.find?_map]
      congr 2
      funext e
      simp only [Function.comp]
      split <;> simp_all
    unfold entryAt? at hsome ⊢
    rw [hfind]
    cases hf : fs.entries.find? fun e => e.1 == other with
    | none =>
      have hother : other ≠ place := by
        rintro rfl
        simp [hf] at hsome
      simp [hother]
    | some e =>
      have hother : e.1 = other := by simpa using List.find?_some hf
      by_cases hplace : other = place <;> simp [hother, hplace]
  case isFalse hsome =>
    have hnone : fs.entries.find? (fun e => e.1 == place) = none := by
      simpa only [entryAt?, Option.isSome_map, Bool.not_eq_true, Option.isSome_eq_false_iff, Option.isNone_iff_eq_none]
        using hsome
    unfold entryAt?
    rw [List.find?_append]
    by_cases hplace : other = place
    · rw [hplace, hnone]
      simp
    · simp [hplace, Ne.symm hplace]

end FileSystem

/-! ## Injections -/

namespace Task

variable {α β : Type}

/-- The second task sees the files that the first one leaves, unless that was stopped. -/
theorem run_bind (t : Task α) (next : α → Task β) (fs : FileSystem) :
    (t >>= next).run fs =
      match t.run fs with
      | (after, .ok a) => (next a).run after
      | (after, .error reason) => (after, .error reason) := by
  induction t generalizing fs with
  | done => rfl
  | stop => rfl
  | read path k ih => exact ih (fs.read path) fs
  | write path text k ih =>
    show (write path text fun done => k done >>= next).run fs = _
    cases hwrite : fs.write path text with
    | ok written =>
      simp only [run, hwrite]
      exact ih _ written
    | error e =>
      simp only [run, hwrite]
      exact ih _ fs

theorem run_readFile (path : String) (fs : FileSystem) :
    (readFile path).run fs = (fs, (fs.read path).mapError fun e => .failure ⟨.io, path ++ ": " ++ e.message⟩) := by
  cases h : fs.read path <;> simp [readFile, fail, run, h, Except.mapError]

theorem run_orFail {ε : Type} (failure : ε → Failure) (result : Except ε α) (fs : FileSystem) :
    (orFail failure result).run fs = (fs, result.mapError fun e => .failure (failure e)) := by
  cases result <;> rfl

end Task

/-- A fragment that has a place in a file that may be written, with what the two files hold and the text that comes of
it. -/
structure Injection (fs : FileSystem) (file fragment : String) (suite : Option String) where
  place : Place
  old : File
  added : String
  new : String
  located : fs.locate file = .ok (place, old)
  readable : old.readError = none
  read : fs.read fragment = .ok added
  injected : inject old.text added suite ((SourceLanguage.ofPath? (displayName file)).getD .javaScript) {} = .ok new
  writable : old.writeError = none

section Writing

variable {fs : FileSystem} {file fragment : String} {suite : Option String}

/-- An injection is written where the file is. -/
theorem run_runInject (j : Injection fs file fragment suite) (asDiff : Bool) (format : OutputFormat) :
    ∃ printed, (runInject file fragment suite true asDiff format).run fs =
      (fs.put j.place { j.old with text := j.new }, .ok printed) := by
  have hfile : fs.read file = .ok j.old.text :=
    FileSystem.read_eq_ok_iff.2 ⟨j.place, j.old, j.located, j.readable, rfl⟩
  have hwrite : (Task.writeFile file j.new).run fs = (fs.put j.place { j.old with text := j.new }, .ok ()) := by
    simp only [Task.writeFile, Task.run, FileSystem.write_of_locate j.located, j.writable]
  unfold runInject
  rw [Task.run_bind, Task.run_readFile, hfile]
  dsimp only [Except.mapError]
  rw [Task.run_bind, Task.run_readFile, j.read]
  dsimp only [Except.mapError]
  rw [j.injected]
  show ∃ printed, (Task.writeFile file j.new >>= _).run fs = _
  rw [Task.run_bind, hwrite]
  cases format <;> exact ⟨_, rfl⟩

/-- Where there is no injection nothing is written. -/
theorem run_runInject_of_not_nonempty (h : ¬Nonempty (Injection fs file fragment suite)) (asDiff : Bool)
    (format : OutputFormat) :
    ∃ reason, (runInject file fragment suite true asDiff format).run fs = (fs, .error reason) := by
  unfold runInject
  rw [Task.run_bind, Task.run_readFile]
  cases hfile : fs.read file with
  | error e => exact ⟨_, rfl⟩
  | ok oldText =>
    dsimp only [Except.mapError]
    rw [Task.run_bind, Task.run_readFile]
    cases hfragment : fs.read fragment with
    | error e => exact ⟨_, rfl⟩
    | ok added =>
      dsimp only [Except.mapError]
      rw [Task.run_bind, Task.run_orFail]
      cases hnew : inject oldText added suite ((SourceLanguage.ofPath? (displayName file)).getD .javaScript) {} with
      | error e => exact ⟨_, rfl⟩
      | ok new =>
        obtain ⟨place, old, hlocated, hreadable, rfl⟩ := FileSystem.read_eq_ok_iff.1 hfile
        -- all is there for an injection, so it is the write that is refused
        obtain ⟨error, hrefused⟩ : ∃ error, old.writeError = some error := by
          refine Option.ne_none_iff_exists'.1 fun hwritable => h ?_
          exact ⟨⟨place, old, added, new, hlocated, hreadable, hfragment, hnew, hwritable⟩⟩
        have hwrite : (Task.writeFile file new).run fs =
            (fs, .error (.failure ⟨.io, file ++ ": " ++ error.message⟩)) := by
          simp only [Task.writeFile, Task.run, FileSystem.write_of_locate hlocated, hrefused, Task.fail]
        dsimp only [Except.mapError]
        show ∃ reason, (Task.writeFile file new >>= _).run fs = _
        rw [Task.run_bind, hwrite]
        exact ⟨_, rfl⟩

/-- An injection that is to be written succeeds exactly if the fragment has a place in a file that may be written. -/
theorem exists_printed_iff (asDiff : Bool) (format : OutputFormat) :
    (∃ printed, ((runInject file fragment suite true asDiff format).run fs).2 = .ok printed) ↔
      Nonempty (Injection fs file fragment suite) := by
  constructor
  · rintro ⟨printed, hprinted⟩
    apply Classical.byContradiction
    intro hplace
    obtain ⟨reason, hrun⟩ := run_runInject_of_not_nonempty hplace asDiff format
    rw [hrun] at hprinted
    cases hprinted
  · rintro ⟨j⟩
    obtain ⟨printed, hrun⟩ := run_runInject j asDiff format
    exact ⟨printed, by rw [hrun]⟩

end Writing

/-! ## Command lines -/

/-- Why a command line comes to nothing. -/
inductive Refusal where
  | usage (error : UsageError)
  | stopped (reason : Stop)

/-- The files after a command line, and what it prints. -/
def commandLine (fs : FileSystem) (arguments : List String) : FileSystem × Except Refusal Printed :=
  match Invocation.ofArguments arguments with
  | .error e => (fs, .error (.usage e))
  | .ok i => ((i.task.run fs).1, (i.task.run fs).2.mapError .stopped)

/-- A command line that can be read runs the task of its command. -/
theorem commandLine_of_invocation {arguments : List String} {i : Invocation}
    (h : Invocation.ofArguments arguments = .ok i) (fs : FileSystem) :
    commandLine fs arguments = ((i.task.run fs).1, (i.task.run fs).2.mapError .stopped) := by
  unfold commandLine
  rw [h]

theorem task_of_inject {i : Invocation} {file fragment : String} {suite : Option String} {write asDiff : Bool}
    (h : i.command = .inject file fragment suite write asDiff) :
    i.task = runInject file fragment suite write asDiff i.format := by
  unfold Invocation.task
  rw [h]

/-- A command that is stopped leaves the files as they are. -/
theorem run_fst_of_stop (i : Invocation) {fs : FileSystem} {reason : Stop}
    (h : (i.task.run fs).2 = .error reason) : (i.task.run fs).1 = fs := by
  by_cases hwrites : ∃ file fragment suite asDiff, i.command = .inject file fragment suite true asDiff
  · obtain ⟨file, fragment, suite, asDiff, hcommand⟩ := hwrites
    rw [task_of_inject hcommand] at h ⊢
    have hplace : ¬Nonempty (Injection fs file fragment suite) := by
      rw [← exists_printed_iff asDiff i.format, h]
      rintro ⟨printed, hprinted⟩
      cases hprinted
    obtain ⟨reason, hrun⟩ := run_runInject_of_not_nonempty hplace asDiff i.format
    rw [hrun]
  · refine (readOnly_task i fun file fragment suite asDiff hcommand => ?_).run_fst fs
    exact hwrites ⟨file, fragment, suite, asDiff, hcommand⟩

/-- A command line that comes to nothing leaves the files as they are. -/
theorem commandLine_fst_of_refusal {fs : FileSystem} {arguments : List String} {refusal : Refusal}
    (h : (commandLine fs arguments).2 = .error refusal) : (commandLine fs arguments).1 = fs := by
  cases hi : Invocation.ofArguments arguments with
  | error e =>
    unfold commandLine
    rw [hi]
  | ok i =>
    rw [commandLine_of_invocation hi] at h ⊢
    cases hrun : (i.task.run fs).2 with
    | ok printed =>
      rw [hrun] at h
      cases h
    | error reason => exact run_fst_of_stop i hrun

/-- A command line changes a file only if it is an injection that is to be written and that succeeds. Then the file that
it names has the text with the fragment in it, which is another one, and all else is as it was. -/
theorem commandLine_files (fs : FileSystem) (arguments : List String) :
    (∀ refusal, (commandLine fs arguments).2 = .error refusal → (commandLine fs arguments).1 = fs) ∧
      ∀ i, Invocation.ofArguments arguments = .ok i →
        match i.command with
        | .inject file fragment suite true _ =>
          ((∃ printed, (commandLine fs arguments).2 = .ok printed) ↔ Nonempty (Injection fs file fragment suite)) ∧
            ∀ j : Injection fs file fragment suite,
              j.new ≠ j.old.text ∧
                (commandLine fs arguments).1.entryAt? j.place = some (.file { j.old with text := j.new }) ∧
                (∀ other ≠ j.place, (commandLine fs arguments).1.entryAt? other = fs.entryAt? other) ∧
                (commandLine fs arguments).1.workingDirectory = fs.workingDirectory
        | _ => (commandLine fs arguments).1 = fs := by
  constructor
  · exact fun refusal => commandLine_fst_of_refusal
  · intro i hi
    rw [commandLine_of_invocation hi]
    split
    case h_1 file fragment suite asDiff hcommand =>
      rw [task_of_inject hcommand]
      constructor
      · rw [← exists_printed_iff asDiff i.format]
        cases ((runInject file fragment suite true asDiff i.format).run fs).2 <;> simp [Except.mapError]
      · intro j
        obtain ⟨printed, hrun⟩ := run_runInject j asDiff i.format
        rw [hrun]
        refine ⟨inject_ne j.injected, ?_, fun other hother => ?_, FileSystem.workingDirectory_put _ _ _⟩
        · rw [FileSystem.entryAt?_put, if_pos rfl]
        · rw [FileSystem.entryAt?_put, if_neg hother]
    case h_2 command hother => exact (readOnly_task i hother).run_fst fs

/-- Two files in a working directory, the first of which a link leads to. -/
def twoFiles : FileSystem where
  entries := [(["work", "a.js"], .file { text := "a;\n" }), (["work", "b.js"], .file { text := "b;\n" }),
    (["tmp", "link.js"], .link "../work/a.js")]
  workingDirectory := ["work"]

/-- A statement is put behind the one in the file that a link from the root leads to. The file that it comes from and the
link stay as they are. -/
theorem commandLine_files_appended :
    (commandLine twoFiles ["inject", "/tmp/link.js", "b.js", "--write"]).1.entryAt? ["work", "a.js"] =
        some (.file { text := "a;\n\nb;\n" }) ∧
      (commandLine twoFiles ["inject", "/tmp/link.js", "b.js", "--write"]).1.entryAt? ["work", "b.js"] =
        some (.file { text := "b;\n" }) ∧
      (commandLine twoFiles ["inject", "/tmp/link.js", "b.js", "--write"]).1.entryAt? ["tmp", "link.js"] =
        some (.link "../work/a.js") := by
  have hinjected : (inject "a;\n" "b;\n" none .javaScript {}).toOption = some "a;\n\nb;\n" := by
    decide +kernel
  have hnew : inject "a;\n" "b;\n" none .javaScript {} = .ok "a;\n\nb;\n" := by
    cases h : inject "a;\n" "b;\n" none .javaScript {} with
    | error e =>
      rw [h] at hinjected
      cases hinjected
    | ok new =>
      rw [h] at hinjected
      rw [Option.some.inj hinjected]
  have hfiles := (commandLine_files twoFiles ["inject", "/tmp/link.js", "b.js", "--write"]).2
    ⟨.text, .inject "/tmp/link.js" "b.js" none true false⟩ rfl
  obtain ⟨-, hfile, hothers, -⟩ := hfiles.2
    ⟨["work", "a.js"], { text := "a;\n" }, "b;\n", "a;\n\nb;\n", rfl, rfl, rfl, hnew, rfl⟩
  exact ⟨hfile, hothers ["work", "b.js"] (by simp), hothers ["tmp", "link.js"] (by simp)⟩

end DiffSlice.Cli
