import StyleBinding.Number.Shortest
import StyleBinding.Text.Quoted

/-!
# Scalars

The values without parts: nothing, truth values, numbers and texts. A scalar
has two texts, the one it is shown with inside another value, where a text is
quoted, and the one it is displayed with on its own.
-/

namespace StyleBinding

/-- A value without parts. -/
inductive Scalar where
  | null
  | boolean (b : Bool)
  | integer (n : Int)
  | double (x : Double)
  | text (t : Text)
deriving DecidableEq

namespace Scalar

/-- A scalar as it is shown inside another value. -/
def shown : Scalar → Text
  | null => "None"
  | boolean b => if b then "True" else "False"
  | integer n => Text.ofInt n
  | double x => x.display
  | text t => Text.quoted t

/-- A scalar as it is displayed on its own. -/
def display : Scalar → Text
  | text t => t
  | s => s.shown

/-- Whether a scalar counts as true. -/
def isTruthy : Scalar → Bool
  | null => false
  | boolean b => b
  | integer n => n != 0
  | double x => !x.isZero
  | text t => !t.isEmpty

/-- The integer that a scalar is equal to; truth values count as one and zero. -/
def toInt? : Scalar → Option Int
  | boolean b => some b.toNat
  | integer n => some n
  | double x => x.toInt?
  | _ => none

/-- Whether two scalars name the same entry: numbers by what they are equal to,
whatever their kind, and what is no number by its payload. -/
def same (a b : Scalar) : Bool :=
  match a.toInt?, b.toInt? with
  | some m, some n => m == n
  | none, none => a == b
  | _, _ => false

/-- Whether an integer lies below a number. -/
def integerLess (n : Int) : Double → Bool
  | .nan _ => false
  | .infinite negative => !negative
  | .finite negative m e => Double.finiteLess n 0 (if negative then -m else m) e

/-- Whether a number lies below an integer. -/
def lessInteger : Double → Int → Bool
  | .nan _, _ => false
  | .infinite negative, _ => negative
  | .finite negative m e, n => Double.finiteLess (if negative then -m else m) e n 0

/-- Whether a scalar comes before another one: texts by their code points, numbers
by their size. Nothing else has an order. -/
def less? : Scalar → Scalar → Option Bool
  | text s, text t => some (Text.lt s t)
  | double x, double y => some (x.less y)
  | double x, b => b.toInt?.map (lessInteger x)
  | a, double y => a.toInt?.map (integerLess · y)
  | a, b =>
    match a.toInt?, b.toInt? with
    | some m, some n => some (m < n)
    | _, _ => none

end Scalar

end StyleBinding
