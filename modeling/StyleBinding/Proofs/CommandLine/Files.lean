import Mathlib.Data.List.Induction
import StyleBinding.CommandLine.FileTree

/-!
# Files that are written

Writing a file changes its content and no other. When the file was there before, every
path leads where it led. A path that leads to a file is also the way to write
it, unless the tree has a directory in the same place.
-/

namespace StyleBinding

namespace FileTree

variable {t u v : FileTree} {location : Location} {content : Bytes} {path : Text}

/-! ## Contents -/

theorem content?_write (t : FileTree) (location : Location) (content : Bytes)
    (other : Location) :
    (t.write location content).content? other =
      if other = location then some content else t.content? other := by
  rw [write, content?, content?]
  dsimp only
  induction t.files with
  | nil =>
    by_cases same : location = other
    · simp [setContent, same]
    · simp [setContent, same, Ne.symm same]
  | cons f files ih =>
    by_cases here : f.1 = location
    · by_cases same : location = other
      · simp [setContent, here, same]
      · simp [setContent, here, same, Ne.symm same]
    · by_cases same : f.1 = other
      · have apart : other ≠ location := same ▸ here
        simp [setContent, same, apart]
      · simp only [setContent, beq_iff_eq, here, if_false, List.find?_cons,
          beq_eq_false_iff_ne.2 same]
        exact ih

theorem setContent_setContent (location : Location) (before after : Bytes)
    (files : List (Location × Bytes)) :
    setContent location after (setContent location before files) =
      setContent location after files := by
  induction files with
  | nil => simp [setContent]
  | cons f files ih =>
    by_cases here : f.1 = location
    · simp [setContent, here]
    · simp [setContent, here, ih]

/-- The last content that is written counts. -/
theorem write_write (t : FileTree) (location : Location) (before after : Bytes) :
    (t.write location before).write location after = t.write location after := by
  rw [write, write, write, setContent_setContent]

/-! ## Names -/

/-- The same files and directories are there, whatever the files hold. -/
structure SameNames (t u : FileTree) : Prop where
  working : u.working = t.working
  directories : u.directories = t.directories
  locations : u.files.map (·.1) = t.files.map (·.1)

theorem SameNames.refl (t : FileTree) : t.SameNames t := ⟨rfl, rfl, rfl⟩

theorem SameNames.trans (first : t.SameNames u) (second : u.SameNames v) : t.SameNames v :=
  ⟨second.working.trans first.working, second.directories.trans first.directories,
    second.locations.trans first.locations⟩

theorem content?_isSome_iff : (t.content? location).isSome ↔ location ∈ t.files.map (·.1) := by
  simp [content?, List.find?_isSome]

theorem SameNames.write (there : (t.content? location).isSome) (content : Bytes) :
    t.SameNames (t.write location content) := by
  refine ⟨rfl, rfl, ?_⟩
  replace there := content?_isSome_iff.1 there
  rw [FileTree.write]
  dsimp only
  generalize t.files = files at there ⊢
  induction files with
  | nil => cases there
  | cons f files ih =>
    by_cases here : f.1 = location
    · simp [setContent, here]
    · have further := (List.mem_cons.1 there).resolve_left (Ne.symm here)
      simp [setContent, here, ih further]

/-! ## Paths -/

theorem SameNames.isDirectory_eq (h : t.SameNames u) (location : Location) :
    u.isDirectory location = t.isDirectory location := by
  have among (s : FileTree) : (s.files.any fun f => location.isPrefixOf f.1.dropLast) =
      (s.files.map (·.1)).any fun l => location.isPrefixOf l.dropLast := by
    rw [List.any_map]
    rfl
  rw [isDirectory, isDirectory, h.working, h.directories, among u, among t, h.locations]

theorem SameNames.entry_eq (h : t.SameNames u) (location : Location) :
    u.entry location = t.entry location := by
  have there : (u.content? location).isSome = (t.content? location).isSome := by
    rw [Bool.eq_iff_iff, content?_isSome_iff, content?_isSome_iff, h.locations]
  rw [entry, entry, there, h.isDirectory_eq]

theorem SameNames.findFile_eq (h : t.SameNames u) (path : Text) :
    u.findFile path = t.findFile path := by
  have step : u.step = t.step := by
    funext place name
    cases place with
    | file location => rfl
    | directory location => rw [FileTree.step, FileTree.step, h.entry_eq]
  rw [findFile, findFile, step, start, start, h.working]

theorem foldlM_step_file {names : List Text} {l : Location} {place : Place}
    (h : names.foldlM t.step (.file l) = .ok place) : names = [] ∧ place = .file l := by
  cases names with
  | nil =>
    cases h
    exact ⟨rfl, rfl⟩
  | cons name names => cases h

/-- Components that lead nowhere can be left out. -/
theorem foldlM_step_filter {components : List Text} {start place : Place}
    (h : components.foldlM t.step start = .ok place) :
    (components.filter (!Text.isHere ·)).foldlM t.step start = .ok place := by
  induction components generalizing start with
  | nil => exact h
  | cons name components ih =>
    rw [List.foldlM_cons] at h
    cases reached : t.step start name with
    | error e =>
      rw [reached] at h
      cases h
    | ok next =>
      rw [reached] at h
      cases here : Text.isHere name with
      | false =>
        rw [List.filter_cons_of_pos (by simp [here]), List.foldlM_cons, reached]
        exact ih h
      | true =>
        rw [List.filter_cons_of_neg (by simp [here])]
        cases start with
        | file l => cases reached
        | directory l =>
          rw [FileTree.step, if_pos here] at reached
          cases reached
          exact ih h

/-- A path that leads to a file is the way to read it. -/
theorem findFile_of_find (h : t.find path = .ok (.file location)) :
    t.findFile path = .ok location := by
  rw [find] at h
  split_ifs at h
  rw [findFile, Text.steps, foldlM_step_filter h]

/-- The last name of a path to a file stands in a directory. -/
theorem steps_of_findFile (h : t.findFile path = .ok location) :
    ∃ names name directory, path.steps = names ++ [name] ∧
      names.foldlM t.step (t.start path) = .ok (.directory directory) ∧
      t.step (.directory directory) name = .ok (.file location) := by
  rw [findFile] at h
  split at h
  · cases h
  · cases h
  · rename_i found
    cases h
    cases steps : path.steps using List.reverseRecOn with
    | nil =>
      rw [steps] at found
      cases found
    | append_singleton names name =>
      rw [steps, List.foldlM_append] at found
      cases reached : names.foldlM t.step (t.start path) with
      | error e =>
        rw [reached] at found
        cases found
      | ok place =>
        rw [reached] at found
        replace found : [name].foldlM t.step place = .ok (.file location) := found
        cases place with
        | file l => exact absurd (foldlM_step_file found).1 (List.cons_ne_nil _ _)
        | directory directory =>
          refine ⟨names, name, directory, rfl, reached, ?_⟩
          rw [List.foldlM_cons] at found
          cases stepped : t.step (.directory directory) name with
          | error e =>
            rw [stepped] at found
            cases found
          | ok place =>
            rw [stepped] at found
            cases found
            rfl

theorem step_eq_file {directory : Location} {name : Text}
    (h : t.step (.directory directory) name = .ok (.file location)) :
    Text.isUp name = false ∧ location = directory ++ [name] ∧ (t.content? location).isSome := by
  rw [step] at h
  split_ifs at h with here up
  · cases h
  · cases h
  · rw [entry] at h
    split_ifs at h with there
    · cases h
      exact ⟨Bool.eq_false_iff.2 up, rfl, there⟩
    · cases h

theorem content?_of_findFile (h : t.findFile path = .ok location) :
    ∃ content, t.content? location = some content := by
  obtain ⟨_, _, _, _, _, last⟩ := steps_of_findFile h
  exact Option.isSome_iff_exists.1 (step_eq_file last).2.2

/-- A file is written where it is read, or not at all. -/
theorem findTarget_of_findFile {target : Location} (read : t.findFile path = .ok location)
    (written : t.findTarget path = .ok target) : target = location := by
  obtain ⟨names, name, directory, steps, reached, last⟩ := steps_of_findFile read
  obtain ⟨noUp, rfl, _⟩ := step_eq_file last
  rw [findTarget, steps, List.getLast?_concat, List.dropLast_concat, reached] at written
  dsimp only at written
  split_ifs at written
  cases written
  rfl

/-- A path under which a file can be written leads to no directory. -/
theorem find_of_findTarget {target : Location} (written : t.findTarget path = .ok target)
    (place : Location) : t.find path ≠ .ok (.directory place) := by
  intro found
  rw [find] at found
  split_ifs at found
  replace found := foldlM_step_filter found
  rw [findTarget] at written
  rw [← Text.steps] at found
  cases steps : path.steps using List.reverseRecOn with
  | nil =>
    rw [steps] at written
    cases written
  | append_singleton names name =>
    rw [steps, List.getLast?_concat, List.dropLast_concat] at written
    rw [steps, List.foldlM_append] at found
    cases reached : names.foldlM t.step (t.start path) with
    | error e =>
      rw [reached] at written
      cases written
    | ok middle =>
      rw [reached] at written found
      replace found : t.step middle name >>= pure = .ok (.directory place) := found
      rw [bind_pure] at found
      cases middle with
      | file l => cases found
      | directory directory =>
        dsimp only at written
        split_ifs at written with taken
        rw [Bool.or_eq_true, not_or] at taken
        rw [step] at found
        have noHere : ¬ Text.isHere name = true := by
          have := (List.mem_filter.1 (steps ▸ List.mem_append_right names
            (List.mem_singleton_self name) : name ∈ path.steps)).2
          simpa using this
        rw [if_neg noHere, if_neg taken.1, entry, if_neg taken.2] at found
        split_ifs at found
        cases found

end FileTree

end StyleBinding
