import StyleBinding.Text.Basic

/-!
# Spans

A span is a half-open range of offsets into a source text. Nothing in the
library holds a range that ends before it starts; bounds that come from outside
are checked once, by `Span.ofBounds`.
-/

namespace StyleBinding

/-- The offsets from `start` up to, and without, `stop`. -/
structure Span where
  start : Nat
  stop : Nat
  le : start ≤ stop
deriving DecidableEq

/-- Two bounds in the wrong order. -/
structure ReversedBounds where
  start : Nat
  stop : Nat
deriving DecidableEq

/-- Says which bounds are in the wrong order. -/
def ReversedBounds.message (b : ReversedBounds) : Text :=
  "Invalid span: " ++ Text.ofNat b.start ++ " > " ++ Text.ofNat b.stop

namespace Span

/-- The span between two bounds, if they are in order. -/
def ofBounds (start stop : Nat) : Except ReversedBounds Span :=
  if h : start ≤ stop then .ok ⟨start, stop, h⟩ else .error ⟨start, stop⟩

/-- The empty span at an offset. -/
def point (offset : Nat) : Span := ⟨offset, offset, Nat.le_refl _⟩

/-- A span grown at its end to reach an offset. -/
def extendTo (s : Span) (offset : Nat) : Span :=
  ⟨s.start, max s.stop offset, Nat.le_trans s.le (Nat.le_max_left _ _)⟩

/-- The number of code points in a span. -/
def length (s : Span) : Nat := s.stop - s.start

/-- Whether a span holds nothing. -/
def isEmpty (s : Span) : Bool := s.start == s.stop

/-- The part of a source that a span covers. -/
def text (s : Span) (source : Text) : Text := source.slice s.start s.stop

/-- The span moved by a distance. -/
def shift (distance : Nat) (s : Span) : Span :=
  ⟨s.start + distance, s.stop + distance, Nat.add_le_add_right s.le _⟩

end Span

end StyleBinding
