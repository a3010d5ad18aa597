import StyleBinding.Text.Basic

/-!
# Control sequences

Terminals take orders, such as colours and moves of the cursor, from control
sequences: an escape character and an opening bracket, then parameters made of
digits, semicolons and question marks, then an ASCII letter. What breaks off
before its letter is ordinary text. `Text.withoutControls` takes control
sequences out in one pass, so what is left may happen to read as another one.
-/

namespace StyleBinding.Text

/-- Whether a code point can stand among the parameters of a control sequence. -/
def isParameter (c : CodePoint) : Bool := c.isIn fun x => x.isDigit || x == ';' || x == '?'

/-- The length of the control sequence at the head of a text. -/
def controlLength? : Text → Option Nat
  | .scalar '\x1b' :: .scalar '[' :: rest =>
    let parameters := countWhile isParameter rest
    if (rest.drop parameters).head?.any (·.isIn Char.isAlpha) then some (parameters + 3) else none
  | _ => none

/-- A text without its control sequences. Its first `skip` code points belong to
one that has already been met. -/
def withoutControlsAfter : Nat → Text → Text
  | _, [] => []
  | skip + 1, _ :: rest => withoutControlsAfter skip rest
  | 0, c :: rest =>
    match controlLength? (c :: rest) with
    | some n => withoutControlsAfter (n - 1) rest
    | none => c :: withoutControlsAfter 0 rest

/-- A text without its control sequences. -/
def withoutControls (t : Text) : Text := withoutControlsAfter 0 t

end StyleBinding.Text
