import StyleBinding.Proofs.CommandLine.Steps
import StyleBinding.Proofs.Pass.Untouched
import StyleBinding.Proofs.Text.Utf8

/-!
# A result in another file

What a transform leaves in the file that its one result is sent to, when there is no
stylesheet to bind in the module: the UTF-8 form of the text that was read. Reading
makes every line end a line feed, so this is the file that was read if and only if there
is no carriage return in it.
-/

namespace StyleBinding

open Run

namespace Arguments

/-- Arguments that ask for the result of one file to be sent to another. -/
structure Sends (a : Arguments) (path target : Text) : Prop where
  noHelp : a.has .help = false
  noCheck : a.has .check = false
  notInPlace : a.has .inPlace = false
  file : a.positional = [path]
  output : a.value? .output = some target

end Arguments

variable {w : World} {path target : Text} {location destination : Location} {content : Bytes}
  {source : Text}

/-! ## Steps that succeed -/

theorem Run.run_readText (found : w.files.findFile path = .ok location)
    (there : w.files.content? location = some content)
    (read : Text.ofFile? content = some source) : (readText path).run w = (.ok source, w) := by
  rw [readText, run_bind_ok (run_get w), found]
  dsimp only [orFail]
  rw [run_bind_ok (run_pure location w), there, Option.getD_some, read]
  rfl

theorem Run.run_requireFile {parameter : Text} (found : w.files.find path = .ok (.file location)) :
    (requireFile parameter path).run w = (.ok (), w) := by
  rw [requireFile, run_bind_ok (run_get w), found]
  rfl

theorem Run.run_refuseDirectory {parameter : Text} (isPath : w.files.find path ≠ .error .notAPath)
    (noDirectory : ∀ place, w.files.find path ≠ .ok (.directory place)) :
    (refuseDirectory parameter path).run w = (.ok (), w) := by
  rw [refuseDirectory, run_bind_ok (run_get w)]
  split
  · exact absurd ‹_› isPath
  · exact absurd ‹_› (noDirectory _)
  · rfl

theorem Run.run_log (events : List Event) (w : World) :
    ∃ w', (log events).run w = (.ok (), w') ∧ w'.files = w.files ∧ w'.output = w.output := by
  induction events generalizing w with
  | nil => exact ⟨w, rfl, rfl, rfl⟩
  | cons e events ih =>
    obtain ⟨w', ran, kept⟩ :=
      ih (w.writeError (e.level.name ++ " jsx_stylesheet: " ++ e.message ++ "\n"))
    exact ⟨w', ran, kept⟩

namespace TransformPlan

variable {a : Arguments} {mode : Text} {settings : Settings} {p : TransformPlan} {output : Text}

/-- The plan to send one result. -/
theorem run_ofArguments (verbose : Bool) (asked : a.Sends path target)
    (described : a.settings mode = .ok settings)
    (found : w.files.find path = .ok (.file location))
    (isPath : w.files.find target ≠ .error .notAPath)
    (goal : w.files.findTarget target = .ok destination) :
    (ofArguments a mode verbose).run w =
      (.ok ⟨[path], settings, .file target, verbose⟩, w) := by
  have nonempty : target.isEmpty = false := by
    refine Bool.eq_false_iff.2 fun empty => ?_
    rw [List.isEmpty_iff.1 empty] at goal
    cases goal
  have checked : ((some target).forM (refuseDirectory "'-o' / '--output'")).run w = (.ok (), w) :=
    run_refuseDirectory isPath (FileTree.find_of_findTarget goal)
  have required : ([path].forM (requireFile "'FILES...'")).run w = (.ok (), w) :=
    run_bind_ok (run_requireFile found)
  have kept : (some target).filter (!·.isEmpty) = some target := by
    rw [Option.filter_some, nonempty]
    rfl
  have goesTo : destinationOf a (some target) = .file target := by
    rw [destinationOf, asked.noCheck, asked.notInPlace]
    rfl
  unfold ofArguments
  rw [asked.output, asked.file, kept, run_bind_ok checked]
  dsimp only
  rw [if_neg (by simp), run_bind_ok required, goesTo, asked.notInPlace, described]
  rfl

/-- The transform of a text, whatever is reported. -/
theorem run_result (path : Text) {d : Document} (read : Document.parse source = .ok d)
    (printed : (d.transform p.settings).print = .ok output) (w : World) :
    ∃ w', (p.result path source).run w = (.ok output, w') ∧ w'.files = w.files ∧
      w'.output = w.output := by
  rw [result, read]
  dsimp only
  rw [printed]
  split_ifs
  · obtain ⟨w', ran, kept⟩ := run_log (d.report p.settings) w
    exact ⟨w', run_bind_ok ran, kept⟩
  · exact ⟨w, rfl, rfl, rfl⟩

/-- The one result is written where it is sent. -/
theorem run_run {d : Document} (file : p.files = [path]) (goes : p.destination = .file target)
    (found : w.files.findFile path = .ok location)
    (there : w.files.content? location = some content)
    (read : Text.ofFile? content = some source) (isModule : Document.parse source = .ok d)
    (printed : (d.transform p.settings).print = .ok output)
    (goal : w.files.findTarget target = .ok destination) {written : Bytes}
    (form : output.toUtf8? = some written) :
    ∃ w', p.run.run w = (.ok (), w') ∧ w'.files = w.files.write destination written := by
  obtain ⟨w₁, made, kept, _⟩ := run_result path isModule printed w
  rw [← kept] at goal
  have delivered : (p.deliver path source output).run w₁ =
      (.ok (), { w₁ with files := w₁.files.write destination written }) := by
    rw [deliver, goes]
    exact run_writeText_ok goal form
  refine ⟨{ w₁ with files := w₁.files.write destination written }, ?_, ?_⟩
  · have one : (p.transformFile path).run w =
        (.ok (output != source), { w₁ with files := w₁.files.write destination written }) := by
      rw [transformFile, run_bind_ok (run_readText found there read), run_bind_ok made,
        run_bind_ok delivered]
      rfl
    have all : (p.transformFiles [path]).run w =
        (.ok (if output != source then [path] else []),
          { w₁ with files := w₁.files.write destination written }) := by
      rw [transformFiles, run_bind_ok one]
      rfl
    rw [TransformPlan.run, file, run_bind_ok all, goes]
    rfl
  · rw [← kept]

end TransformPlan

/-! ## The program -/

namespace Program

/-- The result of one module in which there is no stylesheet to bind, sent to another
file: the UTF-8 form of its text, which is the module byte for byte if and only if no
byte of it is a carriage return. -/
theorem run_unbindable (mode : Text) {arguments rest : List Text} {verbose : Bool}
    {files : FileTree} {world : World} {a : Arguments} {settings : Settings} {d : Document}
    (named : (dispatch arguments).run { files } = (.ok (.transform, verbose, rest), world))
    (parsed : Arguments.parse Command.transform.forms true rest = .ok a)
    (asked : a.Sends path target) (described : a.settings mode = .ok settings)
    (found : files.find path = .ok (.file location))
    (there : files.content? location = some content)
    (read : Text.ofFile? content = some source) (isModule : Document.parse source = .ok d)
    (unbindable : ∀ i ∈ d.imports, i.isBindable settings = false)
    (isPath : files.find target ≠ .error .notAPath)
    (goal : files.findTarget target = .ok destination) :
    (run mode arguments files).code = 0 ∧ (run mode arguments files).crash = none ∧
      ∃ written, (run mode arguments files).world.files = files.write destination written ∧
        source.toUtf8? = some written ∧ (written = content ↔ 0x0D ∉ content) := by
  have kept : world.files = files := by
    have := keepsFiles_dispatch arguments { files }
    rwa [named] at this
  obtain ⟨written, form, same⟩ := Text.toUtf8?_of_ofFile? read
  have printed : (d.transform settings).print = .ok source := by
    have laid := Document.laid_of_parse isModule
    rw [laid.transform_eq_self_iff.2 unbindable, laid.print_eq_source,
      Document.source_of_parse isModule]
  rw [← kept] at found there goal isPath
  have planned := TransformPlan.run_ofArguments verbose asked described found isPath goal
  obtain ⟨w', ran, left⟩ := TransformPlan.run_run (p := ⟨[path], settings, .file target, verbose⟩)
    rfl rfl (FileTree.findFile_of_find found) there read isModule printed goal form
  have ended : (runCommand .transform mode verbose rest).run world = (.ok (), w') := by
    rw [runCommand, parsed]
    dsimp only [orRefuse]
    rw [pure_bind, asked.noHelp]
    exact (run_bind_ok planned).trans ran
  rw [run, named]
  dsimp only
  rw [ended]
  refine ⟨rfl, rfl, written, ?_, form, same⟩
  rw [finish_files, left, kept]

/-- A file with a stylesheet that its author has bound. -/
def authoredFiles : FileTree where
  working := []
  files := [(["a.jsx"], (Document.styledSource.toUtf8?).getD [])]

theorem run_unbindable_authored :
    let ended := run [] ["transform", "--output=b.jsx", "a.jsx"] authoredFiles
    ended.code = 0 ∧ ended.crash = none ∧
      ended.world.files.content? ["b.jsx"] = authoredFiles.content? ["a.jsx"] := by
  have there : authoredFiles.content? ["a.jsx"] =
      some (Document.styledSource.toUtf8?.getD []) := by
    decide +kernel
  have read : Text.ofFile? (Document.styledSource.toUtf8?.getD []) =
      some Document.styledSource := by
    decide +kernel
  have noReturn : 0x0D ∉ Document.styledSource.toUtf8?.getD [] := by decide +kernel
  have clear : ((Document.parse Document.styledSource).toOption.any fun d =>
      ∀ i ∈ d.imports, i.isBindable (.default []) = false) = true := by
    decide +kernel
  obtain ⟨d, isModule, unbindable⟩ := (Option.any_eq_true _ _).1 clear
  have parsed : Arguments.parse Command.transform.forms true ["--output=b.jsx", "a.jsx"] =
      .ok { options := [⟨.output, some "b.jsx"⟩], positional := ["a.jsx"] } := by
    decide +kernel
  have asked : Arguments.Sends
      { options := [⟨.output, some "b.jsx"⟩], positional := ["a.jsx"] } "a.jsx" "b.jsx" :=
    ⟨rfl, rfl, rfl, rfl, by decide +kernel⟩
  have named : (dispatch ["transform", "--output=b.jsx", "a.jsx"]).run
      { files := authoredFiles } =
        (.ok (.transform, false, ["--output=b.jsx", "a.jsx"]), { files := authoredFiles }) := rfl
  have goal : authoredFiles.findTarget "b.jsx" = .ok ["b.jsx"] := by decide +kernel
  obtain ⟨code, crash, written, files, -, same⟩ :=
    run_unbindable [] named parsed asked rfl (by decide +kernel) there read
      (Document.parse_of_toOption isModule) (of_decide_eq_true unbindable) (by decide +kernel) goal
  refine ⟨code, crash, ?_⟩
  rw [files, FileTree.content?_write, if_pos rfl, there, same.2 noReturn]

/-- A file with a carriage return at the end of a line. -/
def returnedFiles : FileTree where
  working := []
  files := [(["a.jsx"], [0x61, 0x3B, 0x0D, 0x0A])]

/-- A module without any import does not come out byte for byte. -/
theorem returnedFiles_not_copied :
    ∃ content source d, returnedFiles.content? ["a.jsx"] = some content ∧
      Text.ofUtf8? content = some source ∧ Document.parse source = .ok d ∧ d.imports = [] ∧
      (run [] ["transform", "a.jsx", "-o", "b.jsx"] returnedFiles).world.files.content?
        ["b.jsx"] ≠ some content := by
  have clear : ((Document.parse "a;\r\n").toOption.any fun d => d.imports.isEmpty) = true := by
    decide +kernel
  obtain ⟨d, isModule, empty⟩ := (Option.any_eq_true _ _).1 clear
  exact ⟨[0x61, 0x3B, 0x0D, 0x0A], "a;\r\n", d, by decide +kernel, by decide +kernel,
    Document.parse_of_toOption isModule, List.isEmpty_iff.1 empty, by decide +kernel⟩

end Program

end StyleBinding
