import StyleBinding.Text.Blank

/-!
# Texts

A text is a list of code points, and every offset and length counts them. This
module holds what the rest of the library does with texts whatever they mean:
cutting, searching, splitting on blanks, joining and ordering.
-/

namespace StyleBinding

/-- A sequence of code points. -/
abbrev Text := List CodePoint

namespace Text

/-- The text of a string, character by character. -/
def ofString (s : String) : Text := s.toList.map .scalar

instance : Coe String Text := ⟨ofString⟩

/-- A number in decimal digits. -/
def ofNat (n : Nat) : Text := ofString (Nat.repr n)

/-- A number in decimal digits, a minus sign in front when it is negative. -/
def ofInt (i : Int) : Text :=
  if i < 0 then .scalar '-' :: ofNat i.natAbs else ofNat i.natAbs

/-- Whether a text begins with the characters of a string. -/
def startsWith (t : Text) (s : String) : Bool := (ofString s).isPrefixOf t

/-- The code points from one offset up to another, as far as the text goes. -/
def slice (t : Text) (start stop : Nat) : Text := (t.drop start).take (stop - start)

/-- How many code points at the head of a text belong to a class. -/
def countWhile (p : CodePoint → Bool) : Text → Nat
  | [] => 0
  | c :: rest => if p c then countWhile p rest + 1 else 0

/-- The offset of the first place where a pattern occurs. -/
def offsetOf? (pattern : Text) : Text → Option Nat
  | [] => if pattern.isEmpty then some 0 else none
  | c :: rest =>
    if pattern.isPrefixOf (c :: rest) then some 0 else (offsetOf? pattern rest).map (· + 1)

/-- The part of a text before the first occurrence of a character. -/
def before (x : Char) (t : Text) : Text := t.takeWhile (!·.is x)

/-- A text without the blanks in front. -/
def trimStart (t : Text) : Text := t.dropWhile (·.isBlank)

/-- A text without the blanks at its end. -/
def trimEnd (t : Text) : Text := (t.reverse.dropWhile (·.isBlank)).reverse

/-- A text without the blanks at both ends. -/
def trim (t : Text) : Text := trimEnd (trimStart t)

/-! ## Words -/

/-- The pieces between blanks, the empty ones included. -/
def pieces : Text → List Text
  | [] => [[]]
  | c :: rest =>
    if c.isBlank then [] :: pieces rest
    else
      match pieces rest with
      | [] => [[c]]
      | piece :: more => (c :: piece) :: more

/-- The maximal runs without blanks. -/
def words (t : Text) : List Text := (pieces t).filter (!·.isEmpty)

/-- Texts set one after another with a separator between them. -/
def join (separator : Text) (parts : List Text) : Text := List.intercalate separator parts

/-! ## Order -/

/-- Whether a text comes strictly before another, code point by code point. -/
def lt : Text → Text → Bool
  | _, [] => false
  | [], _ :: _ => true
  | a :: s, b :: t => a.toNat < b.toNat || (a == b && lt s t)

/-- A text put into an ascending list, unless it is there already. -/
def insertAscending (t : Text) : List Text → List Text
  | [] => [t]
  | u :: rest =>
    if t == u then u :: rest
    else if lt t u then t :: u :: rest
    else u :: insertAscending t rest

/-- The distinct texts of a list in ascending order. -/
def ascending (ts : List Text) : List Text := ts.foldr insertAscending []

/-! ## Bounds -/

theorem countWhile_le (p : CodePoint → Bool) (t : Text) : countWhile p t ≤ t.length := by
  induction t with
  | nil => simp [countWhile]
  | cons c rest ih =>
    simp only [countWhile, List.length_cons]
    split <;> omega

theorem offsetOf?_le {pattern t : Text} {n : Nat} (h : offsetOf? pattern t = some n) :
    n + pattern.length ≤ t.length := by
  induction t generalizing n with
  | nil =>
    simp only [offsetOf?] at h
    split at h
    · rename_i empty
      simp only [List.isEmpty_iff] at empty
      cases h
      simp [empty]
    · cases h
  | cons c rest ih =>
    simp only [offsetOf?] at h
    split at h
    · rename_i isHead
      obtain ⟨u, hu⟩ := List.isPrefixOf_iff_prefix.1 isHead
      cases h
      have := congrArg List.length hu
      simp only [List.length_append, List.length_cons] at this ⊢
      omega
    · obtain ⟨m, hm, rfl⟩ := Option.map_eq_some_iff.1 h
      have := ih hm
      simp only [List.length_cons]
      omega

end Text

end StyleBinding
