import StyleBinding.Proofs.CommandLine.Steps
import StyleBinding.Proofs.Text.Utf8

/-!
# Results in place

What a transform in place leaves in the files, however it ends. Each file holds what
it held, or the complete UTF-8 form of the transform of its text, once more for
each further path that leads to it. The exception is a file whose transform holds a
surrogate: it is emptied before the transform turns out not to have a form, and the
command fails there.
-/

namespace StyleBinding

open Run

variable {settings : Settings} {α β : Type} {x : Run α} {f : α → Run β}

/-! ## One file -/

/-- A number of results have been put in place of a content, one after another: each of
them is the complete UTF-8 form of the transform of the text that was there. -/
inductive Rewritten (settings : Settings) (first : Bytes) : Nat → Bytes → Prop where
  | original : Rewritten settings first 0 first
  | result {n : Nat} {content after : Bytes} {source output : Text}
      (earlier : Rewritten settings first n content)
      (read : Text.ofFile? content = some source)
      (transformed : transformText settings source = .ok output)
      (written : output.toUtf8? = some after) : Rewritten settings first (n + 1) after

theorem Rewritten.trans {n m : Nat} {first content after : Bytes}
    (earlier : Rewritten settings first n content) (later : Rewritten settings content m after) :
    Rewritten settings first (n + m) after := by
  induction later with
  | original => exact earlier
  | result _ read transformed written ih => exact .result ih read transformed written

/-! ## All files -/

/-- How many of the paths lead to a file. -/
def FileTree.countPaths (t : FileTree) (paths : List Text) (location : Location) : Nat :=
  paths.countP fun path => (t.findFile path).toOption = some location

/-- The same files are there, each of them rewritten at most as often as paths lead to
it. -/
structure Swept (settings : Settings) (paths : List Text) (t u : FileTree) : Prop where
  names : t.SameNames u
  contents : ∀ location first, t.content? location = some first → ∃ n after,
    n ≤ t.countPaths paths location ∧ u.content? location = some after ∧
      Rewritten settings first n after

/-- One file has been emptied, and the transform of its text holds a surrogate. -/
inductive Emptied (settings : Settings) (t : FileTree) : FileTree → Prop where
  | at {location : Location} {content : Bytes} {source output : Text}
      (there : t.content? location = some content)
      (read : Text.ofFile? content = some source)
      (transformed : transformText settings source = .ok output)
      (surrogate : ∃ c ∈ output, c.isSurrogate = true) : Emptied settings t (t.write location [])

theorem Swept.refl (settings : Settings) (paths : List Text) (t : FileTree) :
    Swept settings paths t t :=
  ⟨.refl t, fun _ first there => ⟨0, first, Nat.zero_le _, there, .original⟩⟩

theorem Swept.trans {paths more : List Text} {t u v : FileTree}
    (first : Swept settings paths t u) (second : Swept settings more u v) :
    Swept settings (paths ++ more) t v := by
  refine ⟨first.names.trans second.names, fun location content there => ?_⟩
  obtain ⟨n, middle, le, reached, rewritten⟩ := first.contents location content there
  obtain ⟨m, after, le', left, further⟩ := second.contents location middle reached
  refine ⟨n + m, after, ?_, left, rewritten.trans further⟩
  have same : u.countPaths more location = t.countPaths more location := by
    rw [FileTree.countPaths, FileTree.countPaths]
    simp only [first.names.findFile_eq]
  rw [FileTree.countPaths, List.countP_append]
  rw [same] at le'
  exact Nat.add_le_add le le'

/-- The result for a file that a path leads to is put in its place. -/
theorem Swept.write {t : FileTree} {path : Text} {location : Location} {content after : Bytes}
    {source output : Text} (found : t.findFile path = .ok location)
    (there : t.content? location = some content) (read : Text.ofFile? content = some source)
    (transformed : transformText settings source = .ok output)
    (written : output.toUtf8? = some after) :
    Swept settings [path] t (t.write location after) := by
  refine ⟨.write (Option.isSome_iff_exists.2 ⟨content, there⟩) after, fun other first held => ?_⟩
  rw [FileTree.content?_write]
  by_cases same : other = location
  · subst same
    obtain rfl := Option.some.inj (there.symm.trans held)
    refine ⟨1, after, ?_, if_pos rfl, .result .original read transformed written⟩
    rw [FileTree.countPaths, List.countP_singleton, found]
    simp [Except.toOption]
  · exact ⟨0, first, Nat.zero_le _, (if_neg same).trans held, .original⟩

/-! ## Steps -/

/-- However the step ends, the files that the paths lead to have been rewritten, or the
step has failed on one more file and emptied it. -/
def Sweeps (settings : Settings) (paths : List Text) (x : Run α) : Prop :=
  ∀ w, ∃ u, Swept settings paths w.files u ∧ ((x.run w).2.files = u ∨
    (x.run w).1 = .error (.crash .unencodable) ∧ Emptied settings u (x.run w).2.files)

theorem Run.KeepsFiles.sweeps (h : KeepsFiles x) (paths : List Text) :
    Sweeps settings paths x :=
  fun w => ⟨w.files, .refl .., .inl (h w)⟩

theorem Sweeps.bind {paths more : List Text} (first : Sweeps settings paths x)
    (second : ∀ a, Sweeps settings more (f a)) : Sweeps settings (paths ++ more) (x >>= f) := by
  intro w
  obtain ⟨u, swept, ended⟩ := first w
  rw [run_bind]
  rcases ran : x.run w with ⟨e | a, w'⟩ <;> rw [ran] at ended
  · have nothing : Swept settings (paths ++ more) w.files u := swept.trans (.refl ..)
    obtain same | ⟨failed, emptied⟩ := ended
    · exact ⟨u, nothing, .inl same⟩
    · cases failed
      exact ⟨u, nothing, .inr ⟨rfl, emptied⟩⟩
  · obtain same | ⟨failed, _⟩ := ended
    · obtain ⟨v, further, ended⟩ := second a w'
      rw [show w'.files = u from same] at further
      exact ⟨v, swept.trans further, ended⟩
    · cases failed

theorem Run.Finds.sweeps_bind {paths : List Text} {Q : FileTree → α → Prop}
    (first : Finds x Q) (second : ∀ t a, Q t a → Sweeps settings paths (f a)) :
    Sweeps settings paths (x >>= f) := by
  intro w
  have kept := first.keeps w
  rw [run_bind]
  rcases ran : x.run w with ⟨e | a, w'⟩ <;> rw [ran] at kept
  · exact ⟨w.files, .refl .., .inl kept⟩
  · rw [← show w'.files = w.files from kept]
    exact second _ a (first.result w a w' ran) w'

/-- A step that gives no result is the last one. -/
theorem Run.Finds.keepsFiles_bind {Q : FileTree → α → Prop} (first : Finds x Q)
    (none : ∀ t a, ¬Q t a) : KeepsFiles (x >>= f) := by
  intro w
  have kept := first.keeps w
  rw [run_bind]
  rcases ran : x.run w with ⟨e | a, w'⟩ <;> rw [ran] at kept
  · exact kept
  · exact absurd (first.result w a w' ran) (none w.files a)

namespace TransformPlan

variable {p : TransformPlan}

theorem deliver_sweeps (inPlace : p.destination = .inPlace ∨ p.destination = .nowhere)
    {path source result : Text} {location : Location} {content : Bytes} {w : World}
    (found : w.files.findFile path = .ok location)
    (there : w.files.content? location = some content)
    (read : Text.ofFile? content = some source)
    (transformed : transformText p.settings source = .ok result) :
    ∃ u, Swept p.settings [path] w.files u ∧
      (((p.deliver path source result).run w).2.files = u ∨
        ((p.deliver path source result).run w).1 = .error (.crash .unencodable) ∧
          Emptied p.settings u ((p.deliver path source result).run w).2.files) := by
  rw [deliver]
  obtain inPlace | nowhere := inPlace
  · rw [inPlace]
    dsimp only
    split_ifs with same
    · exact ⟨w.files, .refl .., .inl rfl⟩
    cases target : w.files.findTarget path with
    | error e =>
      rw [run_writeText_lost target]
      exact ⟨w.files, .refl .., .inl rfl⟩
    | ok written =>
      obtain rfl := FileTree.findTarget_of_findFile found target
      cases form : result.toUtf8? with
      | some after =>
        rw [run_writeText_ok target form]
        exact ⟨_, .write found there read transformed form, .inl rfl⟩
      | none =>
        rw [run_writeText_unencodable target form]
        refine ⟨w.files, .refl .., .inr ⟨rfl, .at there read transformed ?_⟩⟩
        by_contra clear
        have encodable := Text.toUtf8?_isSome_iff.2 fun c inside => by
          by_contra isSurrogate
          exact clear ⟨c, inside, by simpa using isSurrogate⟩
        rw [form] at encodable
        cases encodable
  · rw [nowhere]
    exact ⟨w.files, .refl .., .inl rfl⟩

theorem transformFile_sweeps (inPlace : p.destination = .inPlace ∨ p.destination = .nowhere)
    (path : Text) : Sweeps p.settings [path] (p.transformFile path) := by
  intro w
  have reading := finds_readText path
  have kept := reading.keeps w
  rw [transformFile, run_bind]
  rcases read : (readText path).run w with ⟨e | source, w₁⟩ <;> rw [read] at kept
  · exact ⟨w.files, .refl .., .inl kept⟩
  obtain ⟨location, content, found, there, isText⟩ := reading.result w source w₁ read
  have transforming := finds_result p path source
  have kept' := (transforming.keeps w₁).trans kept
  dsimp only
  rw [run_bind]
  rcases made : (p.result path source).run w₁ with ⟨e | result, w₂⟩ <;> rw [made] at kept'
  · exact ⟨w.files, .refl .., .inl kept'⟩
  have transformed := transforming.result w₁ result w₂ made
  rw [← show w₂.files = w.files from kept'] at found there ⊢
  obtain ⟨u, swept, ended⟩ := deliver_sweeps inPlace found there isText transformed
  dsimp only
  rw [run_bind]
  rcases delivered : (p.deliver path source result).run w₂ with ⟨e | _, w₃⟩ <;>
    rw [delivered] at ended
  · refine ⟨u, swept, ended.imp_right fun ⟨failed, emptied⟩ => ?_⟩
    cases failed
    exact ⟨rfl, emptied⟩
  · refine ⟨u, swept, ended.imp_right fun ⟨failed, _⟩ => ?_⟩
    cases failed

theorem transformFiles_sweeps (inPlace : p.destination = .inPlace ∨ p.destination = .nowhere)
    (paths : List Text) : Sweeps p.settings paths (p.transformFiles paths) := by
  induction paths with
  | nil => exact (keepsFiles_pure _).sweeps []
  | cons path rest ih =>
    have further (changed : Bool) : Sweeps p.settings rest (do
        let others ← p.transformFiles rest
        return if changed then path :: others else others) := by
      have last (others : List Text) : Sweeps p.settings []
          (pure (if changed then path :: others else others)) := (keepsFiles_pure _).sweeps []
      have := ih.bind last
      rwa [List.append_nil] at this
    exact (transformFile_sweeps inPlace path).bind further

theorem run_sweeps (inPlace : p.destination = .inPlace ∨ p.destination = .nowhere) :
    Sweeps p.settings p.files p.run := by
  have told (changed : List Text) : KeepsFiles (do
      if p.destination = .nowhere then
        changed.forM fun path => printLine ("would transform " ++ path)
        stop (.exit (if changed.isEmpty then 0 else 1))) :=
    .ite ((keepsFiles_forM changed fun path => keepsFiles_printLine _).bind fun _ =>
      keepsFiles_stop _) (keepsFiles_pure _)
  have := (transformFiles_sweeps inPlace p.files).bind fun changed => (told changed).sweeps []
  rwa [List.append_nil] at this

theorem destinationOf_of_inPlace {a : Arguments} (inPlace : a.has .inPlace = true)
    (target : Option Text) :
    destinationOf a target = .inPlace ∨ destinationOf a target = .nowhere := by
  unfold destinationOf
  rw [inPlace]
  split
  · exact .inr rfl
  · exact .inl rfl

end TransformPlan

/-! ## The program -/

namespace Program

variable (mode : Text) {arguments rest : List Text} (verbose : Bool) {files : FileTree}
  {world : World}

/-- Arguments that ask for results in place change the files only as a sweep does, and
none at all unless their settings are sound. -/
theorem runCommand_sweeps
    (inPlace : ∀ a, Arguments.parse Command.transform.forms true rest = .ok a →
      a.has .inPlace = true) :
    KeepsFiles (runCommand .transform mode verbose rest) ∨
      ∃ a settings, Arguments.parse Command.transform.forms true rest = .ok a ∧
        a.settings mode = .ok settings ∧
        Sweeps settings a.positional (runCommand .transform mode verbose rest) := by
  have parsing := finds_orRefuse id (Arguments.parse Command.transform.forms true rest)
  rw [runCommand]
  cases parsed : Arguments.parse Command.transform.forms true rest with
  | error e =>
    rw [parsed] at parsing
    exact .inl (parsing.keepsFiles_bind fun _ _ same => by cases same)
  | ok a =>
    have help := keepsFiles_showHelp (helpPage Command.transform.synopsis
      Command.transform.explanation)
    have planning := TransformPlan.finds_ofArguments a mode verbose
    dsimp only [orRefuse]
    rw [pure_bind]
    cases described : a.settings mode with
    | error e =>
      have none : KeepsFiles (TransformPlan.ofArguments a mode verbose >>= (·.run)) :=
        planning.keepsFiles_bind fun _ p found => by
          rw [described] at found
          cases found.2.1
      exact .inl (.ite (help.bind fun _ => none) none)
    | ok settings =>
      have carried : Sweeps settings a.positional
          (TransformPlan.ofArguments a mode verbose >>= (·.run)) := by
        refine planning.sweeps_bind fun _ p ⟨same, asked, target, destination⟩ => ?_
        obtain rfl := Except.ok.inj (described.symm.trans asked)
        rw [← same]
        exact TransformPlan.run_sweeps
          (destination ▸ TransformPlan.destinationOf_of_inPlace (inPlace a parsed) target)
      refine .inr ⟨a, settings, rfl, described, ?_⟩
      split_ifs
      · exact help.finds.sweeps_bind fun _ _ _ => carried
      · exact carried

/-- A transform in place leaves every file as it was or completely rewritten, except
for one whose transform holds a surrogate: there the command fails and the file is
empty. -/
theorem run_inPlace
    (named : (dispatch arguments).run { files } = (.ok (.transform, verbose, rest), world))
    (inPlace : ∀ a, Arguments.parse Command.transform.forms true rest = .ok a →
      a.has .inPlace = true) :
    (run mode arguments files).world.files = files ∨
      ∃ a settings tree, Arguments.parse Command.transform.forms true rest = .ok a ∧
        a.settings mode = .ok settings ∧ Swept settings a.positional files tree ∧
        ((run mode arguments files).world.files = tree ∨
          (run mode arguments files).crash = some .unencodable ∧
            Emptied settings tree (run mode arguments files).world.files) := by
  have kept : world.files = files := by
    have := keepsFiles_dispatch arguments { files }
    rwa [named] at this
  rw [run, named]
  dsimp only
  rw [finish_files]
  rcases runCommand_sweeps mode verbose inPlace with
    keeps | ⟨a, settings, parsed, described, sweeps⟩
  · exact .inl ((keeps world).trans kept)
  · obtain ⟨tree, swept, ended⟩ := sweeps world
    rw [kept] at swept
    refine .inr ⟨a, settings, tree, parsed, described, swept, ?_⟩
    refine ended.imp_right fun ⟨failed, emptied⟩ => ⟨?_, emptied⟩
    rcases ran : (runCommand .transform mode verbose rest).run world with ⟨r, w⟩
    rw [ran] at failed
    cases failed
    rfl

/-- A module with a class name. -/
def plainSource : Text := "import './a.css';\n<b className='x'/>;\n"

/-- A module with a class name that is half of a surrogate pair. -/
def halvedSource : Text := "import './a.css';\n<b className=\x7b'\\uD83D'\x7d/>;\n"

/-- Two files, the second of which has a transform without a UTF-8 form. -/
def halvedFiles : FileTree where
  working := []
  files := [(["a.jsx"], plainSource.toUtf8?.getD []), (["b.jsx"], halvedSource.toUtf8?.getD [])]

theorem run_inPlace_halved :
    (dispatch ["transform", "--in-place", "a.jsx", "b.jsx"]).run { files := halvedFiles } =
        (.ok (.transform, false, ["--in-place", "a.jsx", "b.jsx"]), { files := halvedFiles }) ∧
      let ended := run [] ["transform", "--in-place", "a.jsx", "b.jsx"] halvedFiles
      ∃ a settings tree, Arguments.parse Command.transform.forms true
            ["--in-place", "a.jsx", "b.jsx"] = .ok a ∧ a.has .inPlace = true ∧
        a.settings [] = .ok settings ∧ Swept settings a.positional halvedFiles tree ∧
        (ended.world.files = tree ∨
          ended.crash = some .unencodable ∧ Emptied settings tree ended.world.files) := by
  have named : (dispatch ["transform", "--in-place", "a.jsx", "b.jsx"]).run
      { files := halvedFiles } =
        (.ok (.transform, false, ["--in-place", "a.jsx", "b.jsx"]), { files := halvedFiles }) := rfl
  have parsed : Arguments.parse Command.transform.forms true ["--in-place", "a.jsx", "b.jsx"] =
      .ok { options := [⟨.inPlace, none⟩], positional := ["a.jsx", "b.jsx"] } := by
    decide +kernel
  have changed : (run [] ["transform", "--in-place", "a.jsx", "b.jsx"] halvedFiles).world.files ≠
      halvedFiles := by
    decide +kernel
  refine ⟨named, ?_⟩
  obtain unchanged | ⟨a, settings, tree, same, rest⟩ :=
    run_inPlace [] false named fun a same => by
      rw [parsed] at same
      cases same
      rfl
  · exact absurd unchanged changed
  · refine ⟨a, settings, tree, same, ?_, rest⟩
    rw [parsed] at same
    cases same
    rfl

/-- A file is left empty, which is neither what it held nor the form of a result. -/
theorem halvedFiles_emptied :
    ∃ location content after, halvedFiles.content? location = some content ∧
      (run [] ["transform", "--in-place", "a.jsx", "b.jsx"] halvedFiles).world.files.content?
        location = some after ∧
      after ≠ content ∧ ∀ source output, Text.ofFile? content = some source →
        transformText (.default []) source = .ok output → output.toUtf8? ≠ some after := by
  refine ⟨["b.jsx"], halvedSource.toUtf8?.getD [], [], by decide +kernel, by decide +kernel,
    by decide +kernel, fun source output read transformed => ?_⟩
  have isSource : Text.ofFile? (halvedSource.toUtf8?.getD []) = some halvedSource := by
    decide +kernel
  have noForm : ((transformText (.default []) halvedSource).toOption.all fun output =>
      output.toUtf8?.isNone) = true := by
    decide +kernel
  obtain rfl := Option.some.inj (isSource.symm.trans read)
  rw [transformed] at noForm
  rw [Option.isNone_iff_eq_none.1 noForm]
  exact fun same => by cases same

end Program

end StyleBinding
