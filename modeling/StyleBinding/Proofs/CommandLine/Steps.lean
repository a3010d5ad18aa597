import StyleBinding.CommandLine.Program
import StyleBinding.Proofs.CommandLine.Files

/-!
# Steps of commands

How the steps of a command are carried out one after another, and which of them leave
every file as it is: all but those that write one. A command reads its arguments
before it writes, and the command is found without a trace in the world.
-/

namespace StyleBinding

namespace Run

variable {α β : Type} {x : Run α} {f : α → Run β} {w w' : World} {a : α} {e : Ending}

/-! ## One after another -/

theorem run_bind (x : Run α) (f : α → Run β) (w : World) :
    (x >>= f).run w = match x.run w with
      | (.ok a, w') => (f a).run w'
      | (.error e, w') => (.error e, w') := by
  change ExceptT.bindCont (fun a => f a) (x.run w).1 (x.run w).2 = _
  rcases x.run w with ⟨e | a, w'⟩
  · rfl
  · rfl

theorem run_bind_ok (h : x.run w = (.ok a, w')) : (x >>= f).run w = (f a).run w' := by
  rw [run_bind, h]

theorem run_bind_error (h : x.run w = (.error e, w')) :
    (x >>= f).run w = (.error e, w') := by
  rw [run_bind, h]

@[simp] theorem run_pure (a : α) (w : World) : (pure a : Run α).run w = (.ok a, w) := rfl

@[simp] theorem run_stop (e : Ending) (w : World) :
    (stop e : Run α).run w = (.error e, w) := rfl

@[simp] theorem run_fail (c : Crash) (w : World) :
    (fail c : Run α).run w = (.error (.crash c), w) := rfl

@[simp] theorem run_get (w : World) : (get : Run World).run w = (.ok w, w) := rfl

@[simp] theorem run_modify (g : World → World) (w : World) :
    (modify g : Run PUnit).run w = (.ok ⟨⟩, g w) := rfl

/-! ## Leaving the files alone -/

/-- A step that leaves every file as it is, however it ends. -/
def KeepsFiles (x : Run α) : Prop := ∀ w, (x.run w).2.files = w.files

theorem KeepsFiles.bind (first : KeepsFiles x) (second : ∀ a, KeepsFiles (f a)) :
    KeepsFiles (x >>= f) := by
  intro w
  have kept := first w
  rw [run_bind]
  rcases h : x.run w with ⟨e | a, w'⟩ <;> rw [h] at kept
  · exact kept
  · exact (second a w').trans kept

theorem KeepsFiles.ite {c : Prop} [Decidable c] {y : Run α} (yes : KeepsFiles x)
    (no : KeepsFiles y) : KeepsFiles (if c then x else y) := by
  split
  · exact yes
  · exact no

/-- A step that leaves every file as it is, and whose result, if it gives one, has to do
with the files in the given way. -/
structure Finds (x : Run α) (Q : FileTree → α → Prop) : Prop where
  keeps : KeepsFiles x
  result : ∀ w a w', x.run w = (.ok a, w') → Q w.files a

section Finding

variable {P : FileTree → α → Prop} {Q : FileTree → β → Prop}

theorem Finds.bind (first : Finds x P)
    (second : ∀ a, Finds (f a) fun t b => P t a → Q t b) : Finds (x >>= f) Q := by
  refine ⟨first.keeps.bind fun a => (second a).keeps, fun w b w' ran => ?_⟩
  rw [run_bind] at ran
  rcases h : x.run w with ⟨e | a, w₁⟩ <;> rw [h] at ran
  · cases ran
  · have kept := first.keeps w
    rw [h] at kept
    have found := (second a).result w₁ b w' ran
    rw [show w₁.files = w.files from kept] at found
    exact found (first.result w a w₁ h)

theorem KeepsFiles.finds (h : KeepsFiles x) : Finds x fun _ _ => True :=
  ⟨h, fun _ _ _ _ => trivial⟩

theorem Finds.after (first : KeepsFiles x) (second : ∀ a, Finds (f a) Q) :
    Finds (x >>= f) Q :=
  first.finds.bind fun a => ⟨(second a).keeps, fun w b w' ran _ => (second a).result w b w' ran⟩

theorem Finds.ite {c : Prop} [Decidable c] {y : Run α} (yes : c → Finds x P)
    (no : ¬c → Finds y P) : Finds (if c then x else y) P := by
  split
  · exact yes ‹c›
  · exact no ‹¬c›

theorem finds_pure (h : ∀ t, P t a) : Finds (pure a : Run α) P := by
  refine ⟨fun _ => rfl, fun w b w' ran => ?_⟩
  cases ran
  exact h w.files

theorem finds_stop (e : Ending) : Finds (stop e : Run α) P :=
  ⟨fun _ => rfl, fun _ _ _ ran => by cases ran⟩

theorem finds_fail (c : Crash) : Finds (fail c : Run α) P := finds_stop _

theorem finds_get : Finds (get : Run World) fun t w => t = w.files := by
  refine ⟨fun _ => rfl, fun w b w' ran => ?_⟩
  cases ran
  rfl

theorem finds_orFail {ε : Type} (g : ε → Crash) (r : Except ε α) :
    Finds (orFail g r) fun _ a => r = .ok a := by
  cases r with
  | error e => exact finds_fail _
  | ok a => exact finds_pure fun _ => rfl

theorem finds_orRefuse {ε : Type} (g : ε → UsageError) (r : Except ε α) :
    Finds (orRefuse g r) fun _ a => r = .ok a := by
  cases r with
  | error e => exact finds_stop _
  | ok a => exact finds_pure fun _ => rfl

end Finding

theorem keepsFiles_pure (a : α) : KeepsFiles (pure a : Run α) := fun _ => rfl

theorem keepsFiles_get : KeepsFiles (get : Run World) := fun _ => rfl

theorem keepsFiles_stop (e : Ending) : KeepsFiles (stop e : Run α) := fun _ => rfl

theorem keepsFiles_fail (c : Crash) : KeepsFiles (fail c : Run α) := fun _ => rfl

theorem keepsFiles_forM {ι : Type} (items : List ι) {g : ι → Run PUnit}
    (each : ∀ i, KeepsFiles (g i)) : KeepsFiles (items.forM g) := by
  induction items with
  | nil => exact keepsFiles_pure _
  | cons i items ih => exact (each i).bind fun _ => ih

theorem keepsFiles_print (t : Text) : KeepsFiles (print t) := by
  unfold print
  dsimp only
  split
  · exact keepsFiles_fail _
  · exact fun _ => rfl

theorem keepsFiles_printLine (t : Text) : KeepsFiles (printLine t) := keepsFiles_print _

theorem keepsFiles_printError (t : Text) : KeepsFiles (printError t) := fun _ => rfl

theorem keepsFiles_log (events : List Event) : KeepsFiles (log events) :=
  keepsFiles_forM events fun _ _ => rfl

/-- What is read is the text of the file that the path leads to. -/
theorem finds_readText (path : Text) :
    Finds (readText path) fun t text => ∃ location content,
      t.findFile path = .ok location ∧ t.content? location = some content ∧
      Text.ofFile? content = some text := by
  refine finds_get.bind fun world => (finds_orFail _ _).bind fun location => ?_
  split
  · rename_i text read
    refine finds_pure fun t found same => ?_
    obtain ⟨content, there⟩ := FileTree.content?_of_findFile found
    rw [there] at read
    subst same
    exact ⟨location, content, found, there, read⟩
  · exact finds_fail _

/-! ## Writing -/

section Writing

variable {path text : Text} {location : Location} {content : Bytes}

theorem run_writeText_ok (found : w.files.findTarget path = .ok location)
    (form : text.toUtf8? = some content) :
    (writeText path text).run w =
      (.ok (), { w with files := w.files.write location content }) := by
  rw [writeText, run_bind_ok (run_get w), found]
  dsimp only [orFail]
  rw [run_bind_ok (run_pure location w), setContent, run_bind_ok (run_modify _ w), form]
  dsimp only
  rw [setContent, run_modify, FileTree.write_write]

/-- A text that cannot be encoded leaves the file empty. -/
theorem run_writeText_unencodable (found : w.files.findTarget path = .ok location)
    (noForm : text.toUtf8? = none) :
    (writeText path text).run w =
      (.error (.crash .unencodable), { w with files := w.files.write location [] }) := by
  rw [writeText, run_bind_ok (run_get w), found]
  dsimp only [orFail]
  rw [run_bind_ok (run_pure location w), setContent, run_bind_ok (run_modify _ w), noForm]
  dsimp only
  rw [run_fail]

theorem run_writeText_lost {e : FileError} (lost : w.files.findTarget path = .error e) :
    (writeText path text).run w = (.error (.crash (.file e)), w) := by
  rw [writeText, run_bind_ok (run_get w), lost]
  dsimp only [orFail]
  rw [run_bind_error (run_fail (.file e) w)]

end Writing

/-! ## Checking parameters -/

theorem keepsFiles_requireFile (parameter path : Text) :
    KeepsFiles (requireFile parameter path) := by
  refine keepsFiles_get.bind fun world => ?_
  split
  · exact keepsFiles_fail _
  · exact keepsFiles_stop _
  · exact keepsFiles_stop _
  · exact keepsFiles_pure _

theorem keepsFiles_refuseDirectory (parameter path : Text) :
    KeepsFiles (refuseDirectory parameter path) := by
  refine keepsFiles_get.bind fun world => ?_
  split
  · exact keepsFiles_fail _
  · exact keepsFiles_stop _
  · exact keepsFiles_pure _

/-! ## Giving a result without a trace -/

/-- A step that has changed nothing if it gives a result. -/
def Quiet (x : Run α) : Prop := ∀ w a w', x.run w = (.ok a, w') → w' = w

theorem Quiet.bind (first : Quiet x) (second : ∀ a, Quiet (f a)) : Quiet (x >>= f) := by
  intro w b w' ran
  rw [run_bind] at ran
  rcases h : x.run w with ⟨e | a, w₁⟩ <;> rw [h] at ran
  · cases ran
  · exact (second a w₁ b w' ran).trans (first w a w₁ h)

theorem Quiet.ite {c : Prop} [Decidable c] {y : Run α} (yes : Quiet x) (no : Quiet y) :
    Quiet (if c then x else y) := by
  split
  · exact yes
  · exact no

theorem quiet_pure (a : α) : Quiet (pure a : Run α) := by
  rintro w b w' ⟨⟩
  rfl

theorem quiet_stop (e : Ending) : Quiet (stop e : Run α) := nofun

/-- What ends the command gives no result, whatever it has shown before. -/
theorem quiet_bind_stop (x : Run α) (e : Ending) :
    Quiet (x >>= fun _ => (stop e : Run β)) := by
  intro w b w' ran
  rw [run_bind] at ran
  rcases h : x.run w with ⟨r | a, w₁⟩ <;> rw [h] at ran <;> cases ran

theorem quiet_orRefuse {ε : Type} (g : ε → UsageError) (r : Except ε α) :
    Quiet (orRefuse g r) := by
  cases r with
  | error e => exact quiet_stop _
  | ok a => exact quiet_pure a

end Run

open Run

/-! ## Reading arguments -/

namespace Program

theorem keepsFiles_showHelp (page : Text) : KeepsFiles (showHelp page) :=
  (keepsFiles_printLine page).bind fun _ => keepsFiles_stop _

theorem keepsFiles_answerGeneral (options : List GivenOption) :
    KeepsFiles (answerGeneral options) := by
  induction options with
  | nil => exact keepsFiles_pure _
  | cons o rest ih =>
    have further : KeepsFiles (if o.form = .help then
        showHelp (helpPage generalSynopsis generalExplanation) >>= fun _ => answerGeneral rest
        else answerGeneral rest) :=
      ((keepsFiles_showHelp _).bind fun _ => ih).ite ih
    unfold answerGeneral
    exact KeepsFiles.ite
      ((keepsFiles_printLine _).bind fun _ => (keepsFiles_stop _).bind fun _ => further) further

theorem keepsFiles_readGeneral (arguments : List Text) :
    KeepsFiles (readGeneral arguments) := by
  have read : KeepsFiles (do
      let a ← orRefuse id (Arguments.parse OptionForm.general false arguments)
      answerGeneral a.options
      return a) :=
    (finds_orRefuse _ _).keeps.bind fun a =>
      (keepsFiles_answerGeneral a.options).bind fun _ => keepsFiles_pure a
  exact KeepsFiles.ite ((keepsFiles_showHelp _).bind fun _ => read) read

theorem keepsFiles_readCommand (name : Text) : KeepsFiles (readCommand name) := by
  unfold readCommand
  split
  · exact keepsFiles_pure _
  · exact KeepsFiles.ite ((keepsFiles_showHelp _).bind fun _ => keepsFiles_stop _)
      (keepsFiles_stop _)

theorem keepsFiles_dispatch (arguments : List Text) : KeepsFiles (dispatch arguments) := by
  refine (keepsFiles_readGeneral arguments).bind fun a => ?_
  split
  · exact keepsFiles_stop _
  · exact (keepsFiles_readCommand _).bind fun c => keepsFiles_pure _

theorem quiet_showHelp (page : Text) : Quiet (showHelp page) := quiet_bind_stop _ _

theorem quiet_answerGeneral (options : List GivenOption) : Quiet (answerGeneral options) := by
  induction options with
  | nil => exact quiet_pure _
  | cons o rest ih =>
    unfold answerGeneral
    have further : Quiet (if o.form = .help then
        showHelp (helpPage generalSynopsis generalExplanation) >>= fun _ => answerGeneral rest
        else answerGeneral rest) :=
      ((quiet_showHelp _).bind fun _ => ih).ite ih
    have version := (quiet_bind_stop (printLine versionLine) (.exit 0)).bind fun _ : Unit => further
    rw [bind_assoc] at version
    exact version.ite further

theorem quiet_readGeneral (arguments : List Text) : Quiet (readGeneral arguments) := by
  have read : Quiet (do
      let a ← orRefuse id (Arguments.parse OptionForm.general false arguments)
      answerGeneral a.options
      return a) :=
    (quiet_orRefuse _ _).bind fun a => (quiet_answerGeneral a.options).bind fun _ => quiet_pure a
  exact ((quiet_showHelp _).bind fun _ => read).ite read

theorem quiet_readCommand (name : Text) : Quiet (readCommand name) := by
  unfold readCommand
  split
  · exact quiet_pure _
  · exact ((quiet_showHelp _).bind fun _ => quiet_stop _).ite (quiet_stop _)

/-- A command is found without anything being shown. -/
theorem quiet_dispatch (arguments : List Text) : Quiet (dispatch arguments) := by
  refine (quiet_readGeneral arguments).bind fun a => ?_
  split
  · exact quiet_stop _
  · exact (quiet_readCommand _).bind fun c => quiet_pure _

@[simp] theorem finish_files (hint : Text) (ended : Except Ending Unit × World) :
    (finish hint ended).world.files = ended.2.files := by
  rcases ended with ⟨(_ | _ | _) | _, world⟩ <;> rfl

end Program

namespace TransformPlan

/-- A plan is about the files that the arguments name, with the settings they describe. -/
theorem finds_ofArguments (a : Arguments) (mode : Text) (verbose : Bool) :
    Finds (ofArguments a mode verbose) fun _ p =>
      p.files = a.positional ∧ a.settings mode = .ok p.settings ∧
        ∃ target, p.destination = destinationOf a target := by
  have plan (target : Option Text) : Finds
      (orRefuse .badExtension (a.settings mode) >>= fun settings =>
        pure (TransformPlan.mk a.positional settings (destinationOf a target) verbose))
      fun _ p => p.files = a.positional ∧ a.settings mode = .ok p.settings ∧
        ∃ target, p.destination = destinationOf a target :=
    (finds_orRefuse _ _).bind fun settings => finds_pure fun _ same => ⟨rfl, same, target, rfl⟩
  have output : KeepsFiles ((a.value? .output).forM (refuseDirectory "'-o' / '--output'")) := by
    cases a.value? .output with
    | none => exact keepsFiles_pure _
    | some path => exact keepsFiles_refuseDirectory _ _
  have guarded {c : Bool} {e : UsageError} {β : Type} {next : Run β} {Q : FileTree → β → Prop}
      (h : Finds next Q) :
      Finds (if c then stop (.usage e) >>= fun (_ : Unit) => next else next) Q :=
    .ite (fun _ => .after (keepsFiles_stop _) fun _ => h) fun _ => h
  refine .after output fun _ => guarded (.after ?_ fun _ => guarded (guarded (plan _)))
  exact keepsFiles_forM _ (keepsFiles_requireFile _)

/-- The result for the text of a file is its transform. -/
theorem finds_result (p : TransformPlan) (path source : Text) :
    Finds (p.result path source) fun _ result => transformText p.settings source = .ok result := by
  unfold result
  split
  · exact .after (keepsFiles_printError _) fun _ => finds_stop _
  · exact finds_fail _
  · rename_i d read
    have printed : Finds (orFail .unprintable (d.transform p.settings).print)
        fun _ result => transformText p.settings source = .ok result := by
      have found := finds_orFail .unprintable (d.transform p.settings).print
      refine ⟨found.keeps, fun w output w' ran => ?_⟩
      rw [transformText, read]
      dsimp only
      rw [found.result w output w' ran]
    exact .ite (fun _ => .after (keepsFiles_log _) fun _ => printed) fun _ => printed

end TransformPlan

end StyleBinding
