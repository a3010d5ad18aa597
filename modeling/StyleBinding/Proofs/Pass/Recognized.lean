import StyleBinding.Proofs.Text.Extension
import StyleBinding.Stylesheet.Settings

/-!
# Which imports are stylesheets

An import is a stylesheet if the last component of its path, in lower case, is a stem with
one of the configured extensions behind it. An extension is only found behind the last full
stop of a component, so one that holds a second full stop is accepted and never found.
-/

namespace StyleBinding

namespace Text

theorem mem_insertAscending {t u : Text} {ts : List Text} (h : u ∈ insertAscending t ts) :
    u = t ∨ u ∈ ts := by
  induction ts with
  | nil => exact .inl (List.mem_singleton.1 h)
  | cons v ts ih =>
    rw [insertAscending] at h
    split at h
    · exact .inr h
    · split at h
      · exact List.mem_cons.1 h
      · rcases List.mem_cons.1 h with rfl | h
        · exact .inr List.mem_cons_self
        · exact (ih h).imp_right (List.mem_cons_of_mem v)

theorem mem_of_mem_ascending {u : Text} {ts : List Text} (h : u ∈ ascending ts) : u ∈ ts := by
  induction ts with
  | nil => exact h
  | cons t ts ih =>
    rcases mem_insertAscending h with rfl | h
    · exact List.mem_cons_self
    · exact List.mem_cons_of_mem t (ih h)

/-- Cutting off a query or a fragment leaves a path that has none as it is. -/
theorem withoutQuery_append {path suffix : Text}
    (plain : ∀ c ∈ path, c ≠ .scalar '?' ∧ c ≠ .scalar '#')
    (begins : suffix.head?.all (fun c => c.is '?' || c.is '#') = true) :
    (path ++ suffix).withoutQuery = path := by
  rw [withoutQuery, List.takeWhile_append_of_pos (by simpa [CodePoint.is] using plain)]
  cases suffix with
  | nil => exact List.append_nil path
  | cons c suffix =>
    rw [List.head?_cons, Option.all_some] at begins
    rw [List.takeWhile_cons_of_neg (by rw [begins]; decide), List.append_nil]

end Text

namespace Settings

/-- A full stop begins every extension that is accepted, and letters follow it. -/
theorem canonicalExtension_shape {written e : Text} (h : canonicalExtension written = .ok e) :
    ∃ letters, e = .scalar '.' :: letters := by
  unfold canonicalExtension at h
  dsimp only at h
  split at h
  · cases h
  · split at h
    · rename_i begins
      cases h
      obtain ⟨letters, same⟩ := List.isPrefixOf_iff_prefix.1 begins
      exact ⟨letters, same.symm⟩
    · cases h
      exact ⟨_, rfl⟩

/-- What a list of results holds was found for something in the list they were found for. -/
theorem exists_of_mem_mapM {α β ε : Type} {f : α → Except ε β} {xs : List α} {ys : List β}
    (h : xs.mapM f = .ok ys) {y : β} (member : y ∈ ys) : ∃ x ∈ xs, f x = .ok y := by
  induction xs generalizing ys with
  | nil =>
    cases h
    cases member
  | cons x xs ih =>
    rw [List.mapM_cons] at h
    cases first : f x with
    | error e =>
      rw [first] at h
      cases h
    | ok z =>
      cases others : xs.mapM f with
      | error e =>
        rw [first, others] at h
        cases h
      | ok zs =>
        rw [first, others] at h
        cases h
        rcases List.mem_cons.1 member with rfl | member
        · exact ⟨x, List.mem_cons_self, first⟩
        · obtain ⟨x', member', same⟩ := ih others member
          exact ⟨x', List.mem_cons_of_mem x member', same⟩

theorem requireExtensions_shape {written : List Value} {extensions : List Text}
    (h : requireExtensions written = .ok extensions) {e : Text} (member : e ∈ extensions) :
    ∃ letters, e = .scalar '.' :: letters := by
  unfold requireExtensions at h
  split at h
  · cases h
  · cases h
  · rename_i accepted
    cases h
    unfold canonicalExtensions at accepted
    cases each : written.mapM fun v => (textOf v).bind canonicalExtension with
    | error e =>
      rw [each] at accepted
      cases accepted
    | ok found =>
      rw [each] at accepted
      cases accepted
      obtain ⟨v, -, canonical⟩ := exists_of_mem_mapM each (Text.mem_of_mem_ascending member)
      cases text : textOf v with
      | error e =>
        rw [text] at canonical
        cases canonical
      | ok t =>
        rw [text] at canonical
        exact canonicalExtension_shape canonical

/-- With extensions that are accepted, a path names a stylesheet if and only if its last
component has one of them in lower case, and that one has no second full stop. -/
theorem isStylesheet_iff {written : List Value} {s : Settings}
    (accepted : requireExtensions written = .ok s.extensions) {path suffix : Text}
    (plain : ∀ c ∈ path, c ≠ .scalar '?' ∧ c ≠ .scalar '#')
    (begins : suffix.head?.all (fun c => c.is '?' || c.is '#') = true)
    (alone : path.extension.LowersAlone) :
    s.isStylesheet (path ++ suffix) = true ↔
      ∃ e ∈ s.extensions, .scalar '.' ∉ e.tail ∧ path.lastComponent.lower.HasExtension e := by
  rw [isStylesheet, Text.withoutQuery_append plain begins, List.contains_iff_mem]
  constructor
  · intro member
    obtain ⟨letters, shape⟩ := requireExtensions_shape accepted member
    have none : .scalar '.' ∉ letters := Text.not_mem_of_lower_splitExtension shape
    refine ⟨_, member, ?_, ?_⟩
    · rw [shape]
      exact none
    · rw [shape]
      exact (Text.lower_component none alone).1 shape
  · rintro ⟨e, member, none, has⟩
    obtain ⟨letters, rfl⟩ := requireExtensions_shape accepted member
    rw [Text.extension, (Text.lower_component none alone).2 has]
    exact member

theorem isStylesheet_iff_modules :
    let s : Settings := ⟨false, [".css", ".module.css"], ""⟩
    requireExtensions [.text " CSS", .text ".Module.css"] = .ok s.extensions ∧
      s.isStylesheet ("./b.d/A.module.Css" ++ "?x#y") = true ∧
      ∃ e ∈ s.extensions, .scalar '.' ∉ e.tail ∧
        ("./b.d/A.module.Css" : Text).lastComponent.lower.HasExtension e := by
  intro s
  have accepted : requireExtensions [.text " CSS", .text ".Module.css"] = .ok s.extensions := by
    decide +kernel
  have named : s.isStylesheet ("./b.d/A.module.Css" ++ "?x#y") = true := by decide +kernel
  exact ⟨accepted, named, (isStylesheet_iff accepted (by decide +kernel) (by decide +kernel)
    (by decide +kernel)).1 named⟩

/-- An extension with a second full stop is accepted, and the path that has it behind a stem
names no stylesheet. -/
theorem isStylesheet_twofold_extension :
    let s : Settings := ⟨false, [".module.css"], ""⟩
    requireExtensions [.text ".module.css"] = .ok s.extensions ∧
      ("./a.module.css" : Text).lastComponent.lower.HasExtension ".module.css" ∧
      s.isStylesheet "./a.module.css" = false :=
  ⟨by decide +kernel, ⟨"a", by decide +kernel, .scalar 'a', by decide +kernel, by decide⟩,
    by decide +kernel⟩

end Settings

end StyleBinding
