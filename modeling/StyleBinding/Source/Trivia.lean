import StyleBinding.Source.Cursor
import StyleBinding.Source.Refusal

/-!
# Blanks and comments

What separates tokens and means nothing. In scripts any blank separates, and a
comment that is not closed is an error. Import clauses and attribute values are
read by grammars that know five separating characters only and take an unclosed
comment for no comment.
-/

namespace StyleBinding.Cursor

/-- The length of the comment at the head of a text that opens one, up to the
line feed or through the closing mark. -/
def commentLength? (t : Text) : Option Nat :=
  if t.startsWith "//" then some (Text.countWhile (!·.is '\n') t)
  else if t.startsWith "/*" then (Text.offsetOf? "*/" (t.drop 2)).map (· + 4)
  else none

theorem commentLength?_bounds {t : Text} {n : Nat} (h : commentLength? t = some n) :
    0 < n ∧ n ≤ t.length := by
  unfold commentLength? at h
  split at h
  · rename_i opens
    cases h
    refine ⟨?_, Text.countWhile_le ..⟩
    obtain ⟨u, rfl⟩ := List.isPrefixOf_iff_prefix.1 opens
    simp [Text.ofString, Text.countWhile, CodePoint.is]
  · split at h
    · obtain ⟨m, hm, rfl⟩ := Option.map_eq_some_iff.1 h
      have := Text.offsetOf?_le hm
      simp only [Text.ofString, List.length_map, List.length_drop] at this
      have two : ("*/" : String).toList.length = 2 := by decide
      omega
    · cases h

/-- Moves past blanks and comments in a script. -/
def skipTrivia (c : Cursor) : Except Refusal { d : Cursor // c.Upto d } :=
  match hr : c.rest with
  | [] => .ok ⟨c, .refl c⟩
  | x :: _ =>
    if x.isBlank then
      match skipTrivia (c.advance 1) with
      | .error e => .error e
      | .ok ⟨d, hd⟩ => .ok ⟨d, (past_of_cons hr).upto.trans hd⟩
    else
      match hn : commentLength? c.rest with
      | some n =>
        have h := commentLength?_bounds hn
        match skipTrivia (c.advance n) with
        | .error e => .error e
        | .ok ⟨d, hd⟩ => .ok ⟨d, (upto_advance h.2).trans hd⟩
      | none =>
        if c.rest.startsWith "/*" then .error (.at .unterminatedComment c.offset)
        else .ok ⟨c, .refl c⟩
termination_by c.rest.length
decreasing_by
  · exact (past_of_cons hr).length_lt
  · exact (past_advance h.1 h.2).length_lt

/-- Whether a code point separates the tokens of import clauses and values. -/
def isSeparator (c : CodePoint) : Bool :=
  c.is ' ' || c.is '\t' || c.is '\x0c' || c.is '\r' || c.is '\n'

/-- Moves past separators and comments in an import clause or a value. -/
def skipSeparators (c : Cursor) : { d : Cursor // c.Upto d } :=
  match hr : c.rest with
  | [] => ⟨c, .refl c⟩
  | x :: _ =>
    if isSeparator x then
      let ⟨d, hd⟩ := skipSeparators (c.advance 1)
      ⟨d, (past_of_cons hr).upto.trans hd⟩
    else
      match hn : commentLength? c.rest with
      | some n =>
        have h := commentLength?_bounds hn
        let ⟨d, hd⟩ := skipSeparators (c.advance n)
        ⟨d, (upto_advance h.2).trans hd⟩
      | none => ⟨c, .refl c⟩
termination_by c.rest.length
decreasing_by
  · exact (past_of_cons hr).length_lt
  · exact (past_advance h.1 h.2).length_lt

end StyleBinding.Cursor
