import StyleBinding.Text.Basic

/-!
# Similar texts

How much two texts have in common: the longest run of code points that occurs in
both is matched first, the earliest of several, and then the parts before it and
the parts behind it in the same way. Two texts are similar when the matched code
points make up at least three fifths of both together.
-/

namespace StyleBinding.Text

/-- The length of the common beginning of two texts. -/
def commonLength : Text → Text → Nat
  | a :: s, b :: t => if a = b then commonLength s t + 1 else 0
  | _, _ => 0

/-- A run that occurs in two texts: where it starts in either, and its length. -/
structure CommonRun where
  left : Nat
  right : Nat
  length : Nat
deriving DecidableEq

/-- The first longest run at the head of `s` and anywhere in a text, if it is
longer than the one found before. -/
def longerRun (s : Text) (left : Nat) : Text → Nat → CommonRun → CommonRun
  | [], _, found => found
  | b :: t, right, found =>
    let length := commonLength s (b :: t)
    longerRun s left t (right + 1) (if found.length < length then ⟨left, right, length⟩ else found)

/-- The first longest run that occurs in both texts. -/
def longestRun (t : Text) : Text → Nat → CommonRun → CommonRun
  | [], _, found => found
  | a :: s, left, found => longestRun t s (left + 1) (longerRun (a :: s) left t 0 found)

/-- How many code points of two texts are matched. -/
def matched (s t : Text) : Nat :=
  let run := longestRun t s 0 ⟨0, 0, 0⟩
  if h : 0 < run.length ∧ run.left < s.length then
    have _before : min run.left s.length < s.length := by omega
    have _behind : s.length - (run.left + run.length) < s.length := by omega
    matched (s.take run.left) (t.take run.right) + run.length +
      matched (s.drop (run.left + run.length)) (t.drop (run.right + run.length))
  else 0
termination_by s.length
decreasing_by
  · simp only [List.length_take]; omega
  · simp only [List.length_drop]; omega

/-- Whether two texts are similar. -/
def isSimilar (s t : Text) : Bool := 3 * (s.length + t.length) ≤ 10 * matched s t

/-- Whether a text is more like a given one than another is: more of it is matched
in proportion, or as much and it comes later in the order of texts. -/
def isCloser (word s t : Text) : Bool :=
  let a := matched s word * (t.length + word.length)
  let b := matched t word * (s.length + word.length)
  b < a || (a == b && lt t s)

/-- Puts a text into a list that is ordered by closeness to a word. -/
def insertCloser (word s : Text) : List Text → List Text
  | [] => [s]
  | t :: rest => if isCloser word s t then s :: t :: rest else t :: insertCloser word s rest

/-- The texts similar to a word, the closest first, three at most. -/
def closeMatches (word : Text) (texts : List Text) : List Text :=
  ((texts.filter (isSimilar · word)).foldr (insertCloser word) []).take 3

end StyleBinding.Text
