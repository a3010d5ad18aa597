import StyleBinding.Proofs.Pass.Bound

/-!
# Generated names are identifiers

A generated name is made of ASCII letters, digits and underscores, and starts with no
digit, whatever the path is like that it is made from. A number put behind it to set it
apart from the names in use keeps it so.
-/

namespace StyleBinding

/-! ## Letters and digits -/

/-- The ASCII letters and digits, one by one. -/
def alphanumerics : List Char := ((List.range 0x80).map Char.ofNat).filter (·.isAlphanum)

theorem mem_alphanumerics {x : Char} (h : x.isAlphanum = true) : x ∈ alphanumerics := by
  have small : x.toNat < 0x80 := by
    have below {c : Char} (le : x ≤ c) (small : c.toNat < 0x80) : x.toNat < 0x80 :=
      Nat.lt_of_le_of_lt (UInt32.le_iff_toNat_le.1 le) small
    rcases Bool.or_eq_true_iff.1 h with letter | digit
    · rcases Bool.or_eq_true_iff.1 letter with upper | lower
      · exact below (c := 'Z') (of_decide_eq_true upper).2 (by decide)
      · exact below (c := 'z') (of_decide_eq_true (Bool.and_eq_true_iff.1 lower).2) (by decide)
    · exact below (c := '9') (of_decide_eq_true (Bool.and_eq_true_iff.1 digit).2) (by decide)
  exact List.mem_filter.2 ⟨List.mem_map.2 ⟨x.toNat, List.mem_range.2 small, Char.ofNat_toNat x⟩, h⟩

namespace CodePoint

/-- Whether a code point is one that generated names are made of. -/
def isPlain (c : CodePoint) : Bool := c.isIn fun x => x.isAlphanum || x == '_'

theorem exists_of_isPlain {c : CodePoint} (h : c.isPlain = true) :
    ∃ x ∈ '_' :: alphanumerics, c = .scalar x := by
  cases c with
  | surrogate => cases h
  | scalar x =>
    refine ⟨x, ?_, rfl⟩
    rcases Bool.or_eq_true_iff.1 h with alphanumeric | same
    · exact List.mem_cons_of_mem _ (mem_alphanumerics alphanumeric)
    · exact (beq_iff_eq.1 same) ▸ List.mem_cons_self

theorem isPlain_of_isIn {p : Char → Bool} {c : CodePoint} (h : c.isIn p = true)
    (within : ∀ x, p x = true → x.isAlphanum = true) : c.isPlain = true := by
  cases c with
  | scalar x => exact Bool.or_eq_true_iff.2 (.inl (within x h))
  | surrogate => cases h

/-- Changing the case of a letter or digit leaves it one. -/
theorem isAlphanum_mapPoint {c : CodePoint} {f : Char → Char}
    (keeps : alphanumerics.all (fun x => (f x).isAlphanum) = true)
    (h : c.isIn Char.isAlphanum = true) :
    (Text.mapPoint f c).isIn Char.isAlphanum = true := by
  cases c with
  | scalar x => exact List.all_eq_true.1 keeps x (mem_alphanumerics h)
  | surrogate => cases h

theorem isName_of_isPlain {c : CodePoint} (h : c.isPlain = true) : c.isName = true := by
  have names : ('_' :: alphanumerics).all (fun x => isName (.scalar x)) = true := by
    decide +kernel
  obtain ⟨x, member, rfl⟩ := exists_of_isPlain h
  exact List.all_eq_true.1 names x member

/-- The only decimal digits among plain code points are the ASCII ones. -/
theorem isDecimal_of_isPlain {c : CodePoint} (h : c.isPlain = true) :
    c.isDecimal = c.isIn Char.isDigit := by
  have digits : ('_' :: alphanumerics).all
      (fun x => isDecimal (.scalar x) == x.isDigit) = true := by
    decide +kernel
  obtain ⟨x, member, rfl⟩ := exists_of_isPlain h
  exact beq_iff_eq.1 (List.all_eq_true.1 digits x member)

end CodePoint

/-! ## Identifiers -/

namespace Text

/-- Whether all code points of a text are plain ones. -/
def IsPlain (t : Text) : Prop := ∀ c ∈ t, c.isPlain = true

instance (t : Text) : Decidable t.IsPlain := inferInstanceAs (Decidable (∀ c ∈ t, _))

/-- A text of plain code points that starts with no digit. -/
structure IsIdentifier (t : Text) : Prop where
  plain : t.IsPlain
  starts : t.head?.any (!·.isIn Char.isDigit) = true

variable {t u w : Text}

theorem IsPlain.append (h : t.IsPlain) (k : u.IsPlain) : (t ++ u).IsPlain := by
  intro c inside
  exact (List.mem_append.1 inside).elim (h c) (k c)

theorem isDigit_of_mem_ofNat {n : Nat} {c : CodePoint} (inside : c ∈ ofNat n) :
    c.isIn Char.isDigit = true := by
  obtain ⟨x, member, rfl⟩ := List.mem_map.1 inside
  rw [Nat.toList_repr] at member
  exact Nat.isDigit_of_mem_toDigits (by decide) (by decide) member

theorem isPlain_ofNat (n : Nat) : (ofNat n).IsPlain := fun _ inside =>
  CodePoint.isPlain_of_isIn (isDigit_of_mem_ofNat inside) fun x h => by
    rw [Char.isAlphanum, h, Bool.or_true]

theorem IsIdentifier.append (h : t.IsIdentifier) (k : u.IsPlain) : (t ++ u).IsIdentifier := by
  refine ⟨h.plain.append k, ?_⟩
  have starts := h.starts
  cases t with
  | nil => cases starts
  | cons => exact starts

/-- An identifier is a name to every reader of names. -/
theorem IsIdentifier.isName (h : t.IsIdentifier) :
    t.all (·.isName) = true ∧ t.head?.any (!·.isDecimal) = true := by
  refine ⟨List.all_eq_true.2 fun c inside => CodePoint.isName_of_isPlain (h.plain c inside), ?_⟩
  obtain ⟨plain, starts⟩ := h
  cases t with
  | nil => cases starts
  | cons c t =>
    rw [List.head?_cons, Option.any_some] at starts ⊢
    rw [CodePoint.isDecimal_of_isPlain (plain c List.mem_cons_self), starts]

/-! ## Words in camel case -/

theorem isAlphanum_of_mem_asciiPieces (member : w ∈ asciiPieces t) :
    ∀ c ∈ w, c.isIn Char.isAlphanum = true := by
  intro c inside
  fun_induction asciiPieces t generalizing w with
  | case1 =>
    rw [List.mem_singleton.1 member] at inside
    cases inside
  | case2 d rest isWord none ih =>
    obtain rfl := List.mem_singleton.1 member
    obtain rfl := List.mem_singleton.1 inside
    exact isWord
  | case3 d rest isWord piece more pieces ih =>
    rw [pieces] at ih
    obtain rfl | member := List.mem_cons.1 member
    · obtain rfl | inside := List.mem_cons.1 inside
      · exact isWord
      · exact ih List.mem_cons_self inside
    · exact ih (List.mem_cons_of_mem piece member) inside
  | case4 d rest noWord ih =>
    obtain rfl | member := List.mem_cons.1 member
    · cases inside
    · exact ih member inside

theorem isPlain_mapFirst {f : Char → Char}
    (keeps : alphanumerics.all (fun x => (f x).isAlphanum) = true)
    (h : ∀ c ∈ w, c.isIn Char.isAlphanum = true) : (mapFirst f w).IsPlain := by
  have plain {c : CodePoint} (h : c.isIn Char.isAlphanum = true) : c.isPlain = true :=
    CodePoint.isPlain_of_isIn h fun _ => id
  cases w with
  | nil => exact nofun
  | cons c w =>
    obtain ⟨first, behind⟩ := List.forall_mem_cons.1 h
    exact List.forall_mem_cons.2 ⟨plain (CodePoint.isAlphanum_mapPoint keeps first),
      fun c inside => plain (behind c inside)⟩

theorem isPlain_camelCase (path : Text) : (camelCase path.asciiWords).IsPlain := by
  have words : ∀ w ∈ path.asciiWords, ∀ c ∈ w, c.isIn Char.isAlphanum = true :=
    fun w member => isAlphanum_of_mem_asciiPieces (List.mem_filter.1 member).1
  generalize path.asciiWords = words' at words
  cases words' with
  | nil => exact nofun
  | cons first rest =>
    obtain ⟨front, behind⟩ := List.forall_mem_cons.1 words
    refine (isPlain_mapFirst (by decide +kernel) front).append fun c inside => ?_
    obtain ⟨w, member, inside⟩ := List.mem_flatMap.1 inside
    exact isPlain_mapFirst (by decide +kernel) (behind w member) c inside

end Text

/-! ## Generated names -/

theorem isIdentifier_generatedName (path : Text) : (generatedName path).IsIdentifier := by
  have plain := Text.isPlain_camelCase path.withoutQuery.stem
  have ending : Vocabulary.bindingEnding.IsIdentifier := ⟨by decide, by decide⟩
  unfold generatedName
  split
  · exact ⟨by decide, by decide⟩
  · dsimp only
    generalize Text.camelCase _ = name at plain
    cases name with
    | nil => exact ending
    | cons c rest =>
      dsimp only
      cases isDigit : c.isIn Char.isDigit with
      | true =>
        rw [if_pos rfl]
        have start : ("_" : Text).IsIdentifier := ⟨by decide, by decide⟩
        exact (start.append plain).append ending.plain
      | false =>
        rw [if_neg Bool.false_ne_true]
        have whole : Text.IsIdentifier (c :: rest) :=
          ⟨plain, by rw [List.head?_cons, Option.any_some, isDigit]; rfl⟩
        exact whole.append ending.plain

theorem isIdentifier_freeName {name : Text} (h : name.IsIdentifier) (taken : List Text) :
    (freeName name taken).IsIdentifier := by
  unfold freeName
  cases found : (candidates name taken).find? fun n => !taken.contains n with
  | none => exact h
  | some candidate =>
    obtain rfl | member := List.mem_cons.1 (List.mem_of_find?_eq_some found)
    · exact h
    · obtain ⟨k, _, rfl⟩ := List.mem_map.1 member
      exact h.append (Text.isPlain_ofNat k)

/-- Names that imports are given are identifiers. -/
theorem BoundImports.isIdentifier_of_mem {settings : Settings} {taken bound : List Text}
    {imports : List ImportDeclaration} {name : Text}
    (member : name ∈ (ofImports settings taken bound imports).bindings) : name.IsIdentifier := by
  fun_induction ofImports settings taken bound imports with
  | case1 => cases member
  | case2 taken bound i rest path passed ih => exact ih member
  | case3 taken bound i rest path _ binds ih => exact ih member
  | case4 taken bound i rest path _ _ again ih => exact ih member
  | case5 taken bound i rest path _ _ new free ih =>
    rcases List.mem_cons.1 member with rfl | member
    · exact isIdentifier_freeName (isIdentifier_generatedName path) taken
    · exact ih member

end StyleBinding
