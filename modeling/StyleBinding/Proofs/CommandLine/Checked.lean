import StyleBinding.Proofs.CommandLine.InPlace
import StyleBinding.Proofs.CommandLine.Sent
import StyleBinding.Proofs.Pass.Encodable
import StyleBinding.Proofs.Text.ControlSequence
import StyleBinding.Proofs.Text.ReadBack

/-!
# What a check tells

A check writes nothing and tells which files a transform in place would change. Files are
compared as texts, with line feeds for line ends, and written as bytes, so the two could
differ. They do not: a result differs from the text of a file if and only if the bytes
that are written in its place differ from those of the file, since no transform brings
a carriage return in.
-/

namespace StyleBinding

open Run

variable {settings : Settings} {content : Bytes} {path : Text} {location : Location}

/-! ## Contents -/

/-- The bytes of a module whose transform has a UTF-8 form. -/
structure HoldsModule (settings : Settings) (content : Bytes) (source : Text) (d : Document) :
    Prop where
  read : Text.ofFile? content = some source
  isModule : Document.parse source = .ok d
  encodable : ∀ output, transformText settings source = .ok output → output.Encodable

theorem exists_holdsModule {source : Text} (read : Text.ofFile? content = some source)
    (isModule : (Document.parse source).toOption.isSome = true)
    (encodable : ((transformText settings source).toOption.all fun output =>
      output.toUtf8?.isSome) = true) : ∃ d, HoldsModule settings content source d := by
  obtain ⟨d, found⟩ := Option.isSome_iff_exists.1 isModule
  refine ⟨d, read, Document.parse_of_toOption found, fun output transformed => ?_⟩
  rw [transformed] at encodable
  exact Text.toUtf8?_isSome_iff.1 encodable

/-- Whether the transform of the text that bytes are read as is another text. -/
def changesContent (settings : Settings) (content : Bytes) : Bool :=
  (Text.ofFile? content).any fun source =>
    (transformText settings source).toOption.any fun output => output != source

namespace HoldsModule

variable {source : Text} {d : Document}

/-- The transform of the module is printed, and has a UTF-8 form. -/
theorem exists_written (h : HoldsModule settings content source d) :
    ∃ output after, (d.transform settings).print = .ok output ∧
      transformText settings source = .ok output ∧ output.toUtf8? = some after := by
  obtain ⟨output, printed⟩ := (Document.laid_of_parse h.isModule).print_transform_ok settings
  have transformed : transformText settings source = .ok output := by
    rw [transformText, h.isModule]
    dsimp only
    rw [printed]
  obtain ⟨after, form⟩ :=
    Option.isSome_iff_exists.1 (Text.toUtf8?_isSome_iff.2 (h.encodable output transformed))
  exact ⟨output, after, printed, transformed, form⟩

theorem changesContent_eq (h : HoldsModule settings content source d) {output : Text}
    (transformed : transformText settings source = .ok output) :
    changesContent settings content = (output != source) := by
  rw [changesContent, h.read, Option.any_some, transformed]
  rfl

/-- What is written differs from the bytes that were read if the texts differ. -/
theorem form_ne (h : HoldsModule settings content source d) {output : Text} {after : Bytes}
    (transformed : transformText settings source = .ok output)
    (form : output.toUtf8? = some after) (differs : output ≠ source) : after ≠ content := by
  rintro rfl
  have noReturn : .scalar '\r' ∉ output := fun inside => by
    have inSource := Document.mem_source_of_blank transformed inside (by decide) (by decide)
    have read := h.read
    rw [Text.ofFile?] at read
    obtain ⟨raw, _, rfl⟩ := Option.map_eq_some_iff.1 read
    exact Text.return_not_mem_unifyLineEnds raw inSource
  exact differs (Text.eq_of_written h.read noReturn form)

end HoldsModule

/-! ## Trees -/

namespace FileTree

variable {t u v : FileTree} {paths more : List Text}

/-- What the file that a path leads to holds. -/
def bytes? (t : FileTree) (path : Text) : Option Bytes :=
  (t.findFile path).toOption.bind t.content?

/-- No file stands in the place of a directory. -/
def Sound (t : FileTree) : Prop := ∀ f ∈ t.files, t.isDirectory f.1 = false

instance (t : FileTree) : Decidable t.Sound :=
  inferInstanceAs (Decidable (∀ f ∈ t.files, t.isDirectory f.1 = false))

theorem bytes?_of_findFile (found : t.findFile path = .ok location) :
    t.bytes? path = t.content? location := by
  rw [bytes?, found]
  rfl

theorem findFile_of_bytes? (holds : t.bytes? path = some content) :
    ∃ location, t.findFile path = .ok location ∧ t.content? location = some content := by
  rw [bytes?] at holds
  cases found : t.findFile path with
  | error e =>
    rw [found] at holds
    cases holds
  | ok location =>
    rw [found] at holds
    exact ⟨location, rfl, holds⟩

theorem Sound.isDirectory_eq_false (sound : t.Sound) (there : (t.content? location).isSome) :
    t.isDirectory location = false := by
  obtain ⟨f, member, rfl⟩ := List.mem_map.1 (content?_isSome_iff.1 there)
  exact sound f member

/-- A file is written where it is read. -/
theorem Sound.findTarget_eq (sound : t.Sound) (found : t.findFile path = .ok location) :
    t.findTarget path = .ok location := by
  obtain ⟨names, name, directory, steps, reached, last⟩ := steps_of_findFile found
  obtain ⟨noUp, rfl, there⟩ := step_eq_file last
  rw [findTarget, steps, List.getLast?_concat, List.dropLast_concat, reached]
  dsimp only
  rw [noUp, sound.isDirectory_eq_false there]
  rfl

theorem SameNames.sound (same : t.SameNames u) (sound : t.Sound) : u.Sound := by
  intro f member
  have before := List.mem_map_of_mem (f := (·.1)) member
  rw [same.locations] at before
  rw [same.isDirectory_eq]
  exact sound.isDirectory_eq_false (content?_isSome_iff.2 before)

/-- Trees that differ at most in what the files hold that some paths lead to. -/
structure Within (paths : List Text) (t u : FileTree) : Prop where
  names : t.SameNames u
  others : ∀ location, (∀ path ∈ paths, t.findFile path ≠ .ok location) →
    u.content? location = t.content? location

theorem Within.refl (paths : List Text) (t : FileTree) : Within paths t t :=
  ⟨.refl t, fun _ _ => rfl⟩

theorem Within.trans (first : Within paths t u) (second : Within more u v) :
    Within (paths ++ more) t v := by
  refine ⟨first.names.trans second.names, fun location apart => ?_⟩
  rw [second.others location fun path member => ?_,
    first.others location fun path member => apart path (List.mem_append_left _ member)]
  rw [first.names.findFile_eq]
  exact apart path (List.mem_append_right _ member)

theorem Within.write (found : t.findFile path = .ok location)
    (there : t.content? location = some content) (after : Bytes) :
    Within [path] t (t.write location after) := by
  refine ⟨.write (Option.isSome_iff_exists.2 ⟨content, there⟩) after, fun other apart => ?_⟩
  rw [content?_write, if_neg]
  rintro rfl
  exact apart path (List.mem_singleton_self path) found

/-- What other files hold stays. -/
theorem Within.bytes?_eq (h : Within paths t u)
    (apart : ∀ other ∈ paths, t.findFile other ≠ t.findFile path) :
    u.bytes? path = t.bytes? path := by
  rw [bytes?, bytes?, h.names.findFile_eq]
  cases found : t.findFile path with
  | error e => rfl
  | ok location => exact h.others location fun other member => found ▸ apart other member

/-- Whether the transform of the file that a path leads to is another text. -/
def changes (settings : Settings) (t : FileTree) (path : Text) : Bool :=
  (t.bytes? path).any (changesContent settings)

/-- Files that can be transformed: different ones, each of them there, with the bytes of
a module whose transform has a UTF-8 form. -/
structure Inputs (settings : Settings) (t : FileTree) (paths : List Text) : Prop where
  sound : t.Sound
  files : ∀ path ∈ paths, ∃ content source d,
    t.bytes? path = some content ∧ HoldsModule settings content source d
  distinct : paths.Pairwise fun p q => t.findFile p ≠ t.findFile q

/-- Changing one of the files leaves the others as inputs, with the same answers. -/
theorem Inputs.of_within (h : Inputs settings t (path :: paths)) (within : Within [path] t u) :
    Inputs settings u paths ∧ ∀ other ∈ paths, u.bytes? other = t.bytes? other := by
  obtain ⟨apart, distinct⟩ := List.pairwise_cons.1 h.distinct
  have same : ∀ other ∈ paths, u.bytes? other = t.bytes? other := fun other member =>
    within.bytes?_eq fun p isPath => List.mem_singleton.1 isPath ▸ apart other member
  refine ⟨⟨within.names.sound h.sound, fun other member => ?_, ?_⟩, same⟩
  · rw [same other member]
    exact h.files other (List.mem_cons_of_mem path member)
  · exact distinct.imp fun {p q} differ => by
      rwa [within.names.findFile_eq, within.names.findFile_eq]

end FileTree

/-! ## Transforming -/

namespace TransformPlan

variable {p : TransformPlan} {w w' : World} {paths : List Text}

/-- What transforming files comes to, whether in place or for a check: nothing is shown,
and in place those files get other bytes whose transform is another text. -/
structure Reaches (p : TransformPlan) (paths : List Text) (w w' : World) : Prop where
  silent : w'.output = w.output
  within : FileTree.Within paths w.files w'.files
  kept : p.destination = .nowhere → w'.files = w.files
  changed : p.destination = .inPlace → ∀ path ∈ paths,
    w'.files.bytes? path ≠ w.files.bytes? path ↔ w.files.changes p.settings path = true

/-- Nothing is written for a check, nor in place of a text that stays the same. -/
theorem run_deliver_of_kept {source output : Text}
    (kept : p.destination = .nowhere ∨ p.destination = .inPlace ∧ output = source) (w : World) :
    (p.deliver path source output).run w = (.ok (), w) := by
  rw [deliver]
  obtain nowhere | ⟨inPlace, same⟩ := kept
  · rw [nowhere]
    rfl
  · rw [inPlace]
    dsimp only
    rw [if_pos same]
    rfl

theorem run_deliver_inPlace {source output : Text} {after : Bytes}
    (inPlace : p.destination = .inPlace) (differs : output ≠ source)
    (target : w.files.findTarget path = .ok location) (form : output.toUtf8? = some after) :
    (p.deliver path source output).run w =
      (.ok (), { w with files := w.files.write location after }) := by
  rw [deliver, inPlace]
  dsimp only
  rw [if_neg differs]
  exact run_writeText_ok target form

/-- A file whose transform is another text gets other bytes. -/
theorem Reaches.of_write {after : Bytes} (inPlace : p.destination = .inPlace)
    (found : w.files.findFile path = .ok location)
    (there : w.files.content? location = some content) (differs : after ≠ content)
    (changes : w.files.changes p.settings path = true) (silent : w'.output = w.output)
    (written : w'.files = w.files.write location after) : Reaches p [path] w w' := by
  have within := FileTree.Within.write found there after
  refine ⟨silent, written ▸ within, fun nowhere => ?_, fun _ other member => ?_⟩
  · rw [inPlace] at nowhere
    cases nowhere
  · obtain rfl := List.mem_singleton.1 member
    have now : w'.files.bytes? other = some after := by
      rw [written, FileTree.bytes?_of_findFile (within.names.findFile_eq other ▸ found),
        FileTree.content?_write, if_pos rfl]
    rw [now, FileTree.bytes?_of_findFile found, there]
    exact iff_of_true (mt Option.some.inj differs) changes

theorem transformFile_reaches (goes : p.destination = .nowhere ∨ p.destination = .inPlace)
    {source : Text} {d : Document} (sound : w.files.Sound)
    (there : w.files.bytes? path = some content)
    (holds : HoldsModule p.settings content source d) :
    ∃ w', (p.transformFile path).run w = (.ok (w.files.changes p.settings path), w') ∧
      Reaches p [path] w w' := by
  obtain ⟨location, found, atLocation⟩ := FileTree.findFile_of_bytes? there
  obtain ⟨output, after, printed, transformed, form⟩ := holds.exists_written
  obtain ⟨w₁, made, sameFiles, sameOutput⟩ := run_result path holds.isModule printed w
  have answer : w.files.changes p.settings path = (output != source) := by
    rw [FileTree.changes, there, Option.any_some, holds.changesContent_eq transformed]
  have delivering {w₂ : World} (delivered : (p.deliver path source output).run w₁ = (.ok (), w₂)) :
      (p.transformFile path).run w = (.ok (w.files.changes p.settings path), w₂) := by
    rw [transformFile, run_bind_ok (run_readText found atLocation holds.read), run_bind_ok made,
      run_bind_ok delivered, answer]
    rfl
  -- a file is written only in place, and only when the texts differ
  by_cases writes : p.destination = .inPlace ∧ output ≠ source
  · obtain ⟨inPlace, differs⟩ := writes
    have target : w₁.files.findTarget path = .ok location := by
      rw [sameFiles]
      exact sound.findTarget_eq found
    refine ⟨_, delivering (run_deliver_inPlace inPlace differs target form),
      .of_write inPlace found atLocation (holds.form_ne transformed form differs) ?_ sameOutput ?_⟩
    · rw [answer]
      exact bne_iff_ne.2 differs
    · rw [sameFiles]
  · have same : p.destination = .inPlace → output = source := fun inPlace =>
      by_contra fun differs => writes ⟨inPlace, differs⟩
    have kept := goes.imp_right fun inPlace => And.intro inPlace (same inPlace)
    refine ⟨w₁, delivering (run_deliver_of_kept kept w₁), sameOutput, sameFiles ▸ .refl ..,
      fun _ => sameFiles, fun inPlace other member => ?_⟩
    obtain rfl := List.mem_singleton.1 member
    rw [sameFiles, answer, same inPlace]
    simp

/-- Transforming files gives those whose transform is another text. An earlier file has no
part in what a later one holds. -/
theorem transformFiles_reaches (goes : p.destination = .nowhere ∨ p.destination = .inPlace)
    (inputs : FileTree.Inputs p.settings w.files paths) :
    ∃ w', (p.transformFiles paths).run w =
        (.ok (paths.filter (w.files.changes p.settings)), w') ∧ Reaches p paths w w' := by
  induction paths generalizing w with
  | nil => exact ⟨w, rfl, rfl, .refl .., fun _ => rfl, fun _ _ member => by cases member⟩
  | cons path paths ih =>
    obtain ⟨content, source, d, there, holds⟩ := inputs.files path List.mem_cons_self
    obtain ⟨w₁, first, reached⟩ := transformFile_reaches goes inputs.sound there holds
    obtain ⟨others, same⟩ := inputs.of_within reached.within
    obtain ⟨w', rest, further⟩ := ih others
    have answers : paths.filter (w₁.files.changes p.settings) =
        paths.filter (w.files.changes p.settings) :=
      List.filter_congr fun other member => by
        rw [FileTree.changes, FileTree.changes, same other member]
    refine ⟨w', ?_, further.silent.trans reached.silent, reached.within.trans further.within,
      fun nowhere => (further.kept nowhere).trans (reached.kept nowhere), ?_⟩
    · rw [transformFiles, run_bind_ok first, run_bind_ok rest, answers, List.filter_cons]
      rfl
    · intro inPlace other member
      obtain rfl | later := List.mem_cons.1 member
      · have untouched : w'.files.bytes? other = w₁.files.bytes? other :=
          further.within.bytes?_eq fun q isLater => by
            rw [reached.within.names.findFile_eq, reached.within.names.findFile_eq]
            exact ((List.pairwise_cons.1 inputs.distinct).1 q isLater).symm
        rw [untouched]
        exact reached.changed inPlace other (List.mem_singleton_self other)
      · have := further.changed inPlace other later
        rwa [FileTree.changes, same other later] at this

/-! ## Telling -/

/-- The line that tells of a file that would change. -/
def notice (path : Text) : Text := "would transform " ++ (path.withoutControls ++ "\n")

theorem run_notice (shown : path.Encodable) (w : World) :
    (printLine ("would transform " ++ path)).run w =
      (.ok (), { w with output := w.output ++ notice path }) := by
  have line : (("would transform " ++ path : Text) ++ "\n").withoutControls = notice path := by
    rw [List.append_assoc, Text.withoutControls_append (by decide), Text.withoutControls_line]
    rfl
  have encodable : (notice path).any (·.isSurrogate) = false := by
    rw [notice]
    simp only [List.any_append, Bool.or_eq_false_iff, List.any_eq_false]
    exact ⟨by decide, fun c inside => by simp [shown.withoutControls c inside], by decide⟩
  rw [printLine, print, line, if_neg (by simp [encodable])]
  rfl

theorem run_notices (shown : ∀ path ∈ paths, path.Encodable) (w : World) :
    (paths.forM fun path => printLine ("would transform " ++ path)).run w =
      (.ok (), { w with output := w.output ++ paths.flatMap notice }) := by
  induction paths generalizing w with
  | nil => simp [List.forM_nil]
  | cons path paths ih =>
    refine (run_bind_ok (run_notice (shown path List.mem_cons_self) w)).trans ?_
    rw [ih fun other member => shown other (List.mem_cons_of_mem path member)]
    simp [List.append_assoc]

/-! ## The plan -/

variable {a b : Arguments} {mode : Text}

/-- The plan for results that are not sent to a file. -/
theorem run_ofArguments_of_noOutput (verbose : Bool) (noOutput : a.value? .output = none)
    (some : a.positional ≠ [])
    (named : ∀ path ∈ a.positional, ∃ location, w.files.find path = .ok (.file location))
    (described : a.settings mode = .ok settings) :
    (ofArguments a mode verbose).run w =
      (.ok ⟨a.positional, settings, destinationOf a none, verbose⟩, w) := by
  have required (paths : List Text)
      (named : ∀ path ∈ paths, ∃ location, w.files.find path = .ok (.file location)) :
      (paths.forM (requireFile "'FILES...'")).run w = (.ok (), w) := by
    induction paths with
    | nil => rfl
    | cons path paths ih =>
      obtain ⟨location, found⟩ := named path List.mem_cons_self
      exact (run_bind_ok (run_requireFile found)).trans
        (ih fun other member => named other (List.mem_cons_of_mem path member))
  have unsent : ((none : Option Text).forM (refuseDirectory "'-o' / '--output'")).run w =
      (.ok (), w) := rfl
  unfold ofArguments
  rw [noOutput, run_bind_ok unsent]
  dsimp only
  rw [if_neg (by simpa using some), run_bind_ok (required a.positional named), described]
  rfl

/-- A check of inputs tells which of them change, and writes nothing. -/
theorem run_run_nowhere (goes : p.destination = .nowhere)
    (inputs : FileTree.Inputs p.settings w.files p.files)
    (shown : ∀ path ∈ p.files, path.Encodable) :
    ∃ w', p.run.run w = (.error (.exit
        (if (p.files.filter (w.files.changes p.settings)).isEmpty then 0 else 1)), w') ∧
      w'.files = w.files ∧
      w'.output = w.output ++ (p.files.filter (w.files.changes p.settings)).flatMap notice := by
  obtain ⟨w', ran, reached⟩ := transformFiles_reaches (.inl goes) inputs
  let changed := p.files.filter (w.files.changes p.settings)
  have told := run_notices (fun path (member : path ∈ changed) =>
    shown path (List.mem_of_mem_filter member)) w'
  refine ⟨{ w' with output := w'.output ++ changed.flatMap notice }, ?_, reached.kept goes, ?_⟩
  · rw [TransformPlan.run, run_bind_ok ran, if_pos goes, run_bind_ok told]
    rfl
  · rw [reached.silent]

/-- A transform of inputs in place. -/
theorem run_run_inPlace (goes : p.destination = .inPlace)
    (inputs : FileTree.Inputs p.settings w.files p.files) :
    ∃ w', p.run.run w = (.ok (), w') ∧ Reaches p p.files w w' := by
  obtain ⟨w', ran, reached⟩ := transformFiles_reaches (.inr goes) inputs
  refine ⟨w', ?_, reached⟩
  rw [TransformPlan.run, run_bind_ok ran, if_neg (by rw [goes]; decide)]
  rfl

end TransformPlan

/-! ## The program -/

namespace Arguments

/-- Arguments that ask for a check. -/
structure Checks (a : Arguments) : Prop where
  noHelp : a.has .help = false
  check : a.has .check = true
  noOutput : a.value? .output = none

/-- Arguments that ask for results in place. -/
structure Rewrites (a : Arguments) : Prop where
  noHelp : a.has .help = false
  noCheck : a.has .check = false
  inPlace : a.has .inPlace = true
  noOutput : a.value? .output = none

/-- Arguments that name the same files and describe the same settings. -/
structure Alike (a b : Arguments) : Prop where
  files : b.positional = a.positional
  keeps : b.has .keepClasses = a.has .keepClasses
  extensions : b.values .extension = a.values .extension
  environment : b.value? .environment = a.value? .environment

theorem Alike.settings_eq {a b : Arguments} (alike : a.Alike b) (mode : Text) :
    b.settings mode = a.settings mode := by
  rw [settings, settings, alike.keeps, alike.extensions, alike.environment]

end Arguments

namespace Program

variable (mode : Text) {arguments rest : List Text} {verbose : Bool} {files : FileTree}
  {world : World} {a : Arguments}

/-- A run that transforms files is that of their plan. -/
theorem run_eq_finish_plan (named : (dispatch arguments).run { files } =
      (.ok (.transform, verbose, rest), world))
    (parsed : Arguments.parse Command.transform.forms true rest = .ok a)
    (noHelp : a.has .help = false) (noOutput : a.value? .output = none)
    (some : a.positional ≠ [])
    (found : ∀ path ∈ a.positional, ∃ location, files.find path = .ok (.file location))
    (described : a.settings mode = .ok settings) :
    ∃ hint, run mode arguments files = finish hint (TransformPlan.run
      ⟨a.positional, settings, TransformPlan.destinationOf a none, verbose⟩ |>.run { files }) := by
  cases quiet_dispatch arguments _ _ _ named
  have planned := TransformPlan.run_ofArguments_of_noOutput (w := { files }) verbose noOutput some
    found described
  have ended : (runCommand .transform mode verbose rest).run { files } = (TransformPlan.run
      ⟨a.positional, settings, TransformPlan.destinationOf a none, verbose⟩ |>.run { files }) := by
    rw [runCommand, parsed]
    dsimp only [orRefuse]
    rw [pure_bind, noHelp]
    exact run_bind_ok planned
  refine ⟨usageHint Command.transform.synopsis ("jsx-stylesheet " ++ Command.transform.name), ?_⟩
  rw [run, named]
  dsimp only
  rw [ended]

/-- A check of different modules whose transforms have UTF-8 forms writes nothing and tells
of exactly the files whose bytes a transform in place changes, in the order in which they
are named, and its code says whether there are any. -/
theorem run_check {checking rewriting checked rewritten : List Text} {verbose loud : Bool}
    {w w' : World} {b : Arguments}
    (namedCheck : (dispatch checking).run { files } = (.ok (.transform, verbose, checked), w))
    (namedInPlace : (dispatch rewriting).run { files } =
      (.ok (.transform, loud, rewritten), w'))
    (parsedCheck : Arguments.parse Command.transform.forms true checked = .ok a)
    (parsedInPlace : Arguments.parse Command.transform.forms true rewritten = .ok b)
    (checks : a.Checks) (rewrites : b.Rewrites) (alike : a.Alike b)
    (described : a.settings mode = .ok settings) (some : a.positional ≠ [])
    (found : ∀ path ∈ a.positional, ∃ location, files.find path = .ok (.file location))
    (shown : ∀ path ∈ a.positional, path.Encodable)
    (inputs : FileTree.Inputs settings files a.positional) :
    let check := run mode checking files
    let inPlace := run mode rewriting files
    let changed := a.positional.filter fun path =>
      inPlace.world.files.bytes? path != files.bytes? path
    check.world.files = files ∧ check.crash = none ∧
      check.world.output = changed.flatMap TransformPlan.notice ∧
      check.code = (if changed.isEmpty then 0 else 1) ∧
      inPlace.code = 0 ∧ inPlace.crash = none ∧
      FileTree.Within a.positional files inPlace.world.files := by
  have toNowhere : TransformPlan.destinationOf a none = .nowhere := by
    rw [TransformPlan.destinationOf, checks.check]
    rfl
  have toPlace : TransformPlan.destinationOf b none = .inPlace := by
    rw [TransformPlan.destinationOf, rewrites.noCheck, rewrites.inPlace]
    rfl
  obtain ⟨hint, checkRun⟩ := run_eq_finish_plan mode namedCheck parsedCheck checks.noHelp
    checks.noOutput some found described
  obtain ⟨hint', inPlaceRun⟩ := run_eq_finish_plan mode namedInPlace parsedInPlace rewrites.noHelp
    rewrites.noOutput (alike.files ▸ some) (alike.files ▸ found)
    ((alike.settings_eq mode).trans described)
  rw [toNowhere] at checkRun
  rw [toPlace, alike.files] at inPlaceRun
  obtain ⟨w₁, told, kept, lines⟩ := TransformPlan.run_run_nowhere
    (p := ⟨a.positional, settings, .nowhere, verbose⟩) (w := { files }) rfl inputs shown
  obtain ⟨w₂, written, reached⟩ := TransformPlan.run_run_inPlace
    (p := ⟨a.positional, settings, .inPlace, loud⟩) (w := { files }) rfl inputs
  rw [checkRun, told, inPlaceRun, written]
  have changed : (a.positional.filter fun path => w₂.files.bytes? path != files.bytes? path) =
      a.positional.filter (files.changes settings) :=
    List.filter_congr fun path member => by
      rw [Bool.eq_iff_iff, bne_iff_ne]
      exact reached.changed rfl path member
  dsimp only [finish]
  rw [changed]
  exact ⟨kept, rfl, lines, rfl, rfl, rfl, reached.within⟩

/-- A module without any stylesheet, with a carriage return at the end of its line. -/
def returnedSource : Text := "a;\r\n"

/-- A file that a transform changes, and one that it does not. -/
def mixedFiles : FileTree where
  working := []
  files := [(["a.jsx"], plainSource.toUtf8?.getD []), (["b.jsx"], returnedSource.toUtf8?.getD [])]

theorem exists_holdsModule_plain :
    ∃ d, HoldsModule (.default []) (plainSource.toUtf8?.getD []) plainSource d :=
  exists_holdsModule (by decide +kernel) (by decide +kernel) (by decide +kernel)

theorem run_check_mixed :
    let check := run [] ["transform", "--check", "a.jsx", "b.jsx"] mixedFiles
    let inPlace := run [] ["transform", "--in-place", "a.jsx", "b.jsx"] mixedFiles
    check.world.files = mixedFiles ∧ check.world.output = "would transform a.jsx\n" ∧
      check.code = 1 ∧ inPlace.world.files.bytes? "a.jsx" ≠ mixedFiles.bytes? "a.jsx" ∧
      inPlace.world.files.bytes? "b.jsx" = mixedFiles.bytes? "b.jsx" := by
  have parsedCheck : Arguments.parse Command.transform.forms true ["--check", "a.jsx", "b.jsx"] =
      .ok { options := [⟨.check, none⟩], positional := ["a.jsx", "b.jsx"] } := by
    decide +kernel
  have parsedInPlace : Arguments.parse Command.transform.forms true
      ["--in-place", "a.jsx", "b.jsx"] =
        .ok { options := [⟨.inPlace, none⟩], positional := ["a.jsx", "b.jsx"] } := by
    decide +kernel
  have found : ∀ path ∈ (["a.jsx", "b.jsx"] : List Text),
      mixedFiles.find path = .ok (.file [path]) := by
    decide +kernel
  have second : ∃ d, HoldsModule (.default []) (returnedSource.toUtf8?.getD []) "a;\n" d :=
    exists_holdsModule (by decide +kernel) (by decide +kernel) (by decide +kernel)
  obtain ⟨d, holds⟩ := exists_holdsModule_plain
  obtain ⟨d', holds'⟩ := second
  have inputs : FileTree.Inputs (.default []) mixedFiles ["a.jsx", "b.jsx"] := by
    refine ⟨by decide +kernel, ?_, by decide +kernel⟩
    simp only [List.forall_mem_cons]
    exact ⟨⟨_, _, d, by decide +kernel, holds⟩, ⟨_, _, d', by decide +kernel, holds'⟩, nofun⟩
  have shown : ∀ path ∈ (["a.jsx", "b.jsx"] : List Text), path.Encodable := by
    simp only [List.forall_mem_cons]
    exact ⟨Text.encodable_ofString _, Text.encodable_ofString _, nofun⟩
  have namedCheck : (dispatch ["transform", "--check", "a.jsx", "b.jsx"]).run
      { files := mixedFiles } =
        (.ok (.transform, false, ["--check", "a.jsx", "b.jsx"]), { files := mixedFiles }) := rfl
  have namedInPlace : (dispatch ["transform", "--in-place", "a.jsx", "b.jsx"]).run
      { files := mixedFiles } =
        (.ok (.transform, false, ["--in-place", "a.jsx", "b.jsx"]), { files := mixedFiles }) := rfl
  have agree := run_check [] namedCheck namedInPlace parsedCheck parsedInPlace
    ⟨rfl, rfl, rfl⟩ ⟨rfl, rfl, rfl, rfl⟩ ⟨rfl, rfl, rfl, rfl⟩ rfl nofun
    (fun path member => ⟨[path], found path member⟩) shown inputs
  have changed :
      (run [] ["transform", "--in-place", "a.jsx", "b.jsx"] mixedFiles).world.files.bytes? "a.jsx" ≠
        mixedFiles.bytes? "a.jsx" := by
    decide +kernel
  have unchanged :
      (run [] ["transform", "--in-place", "a.jsx", "b.jsx"] mixedFiles).world.files.bytes? "b.jsx" =
        mixedFiles.bytes? "b.jsx" := by
    decide +kernel
  dsimp only at agree ⊢
  generalize run [] ["transform", "--check", "a.jsx", "b.jsx"] mixedFiles = check at agree ⊢
  generalize run [] ["transform", "--in-place", "a.jsx", "b.jsx"] mixedFiles = inPlace
    at agree changed unchanged ⊢
  obtain ⟨kept, -, output, code, -⟩ := agree
  have told : (["a.jsx", "b.jsx"] : List Text).filter (fun path =>
      inPlace.world.files.bytes? path != mixedFiles.bytes? path) = [("a.jsx" : Text)] := by
    rw [List.filter_cons_of_pos (by simpa using changed),
      List.filter_cons_of_neg (by simpa using unchanged), List.filter_nil]
  rw [told] at output code
  exact ⟨kept, output, code, changed, unchanged⟩

/-- A name with a control sequence in it. -/
def boldName : Text := "a\x1b[1mb.jsx"

/-- A file with that name. -/
def boldFiles : FileTree where
  working := []
  files := [([boldName], plainSource.toUtf8?.getD [])]

/-- The file would change, but the check does not tell its name. -/
theorem boldFiles_not_told :
    boldFiles.find boldName = .ok (.file [boldName]) ∧
      FileTree.Inputs (.default []) boldFiles [boldName] ∧
      (run [] ["transform", "--in-place", boldName] boldFiles).world.files.bytes? boldName ≠
        boldFiles.bytes? boldName ∧
      ¬boldName <:+: (run [] ["transform", "--check", boldName] boldFiles).world.output := by
  obtain ⟨d, holds⟩ := exists_holdsModule_plain
  refine ⟨?_, ⟨?_, ?_, ?_⟩, ?_, ?_⟩
  · decide +kernel
  · decide +kernel
  · simp only [List.forall_mem_cons]
    exact ⟨⟨_, _, d, by decide +kernel, holds⟩, nofun⟩
  · exact List.pairwise_singleton ..
  · decide +kernel
  · decide +kernel

end Program

end StyleBinding
