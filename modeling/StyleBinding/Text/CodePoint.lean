/-!
# Code points

A text is a sequence of Unicode code points. Escapes in string literals can
name half of a surrogate pair on its own, so a code point here is either a
scalar value or an unpaired surrogate; the two cases are disjoint and together
cover every number below `0x110000`.
-/

namespace StyleBinding

/-- A Unicode code point: a scalar value, or one of the `0x800` surrogates. -/
inductive CodePoint where
  | scalar (c : Char)
  | surrogate (index : Fin 0x800)
deriving DecidableEq

namespace CodePoint

instance : Coe Char CodePoint := ⟨scalar⟩

/-- The number of a code point. -/
def toNat : CodePoint → Nat
  | scalar c => c.toNat
  | surrogate i => 0xD800 + i.val

/-- The code point with a given number, if the number is one. -/
def ofNat? (n : Nat) : Option CodePoint :=
  if h : n.isValidChar then
    some (scalar (Char.ofNatAux n h))
  else if h : 0xD800 ≤ n ∧ n < 0xE000 then
    some (surrogate ⟨n - 0xD800, by omega⟩)
  else
    none

/-- Whether a code point is half of a surrogate pair. -/
def isSurrogate : CodePoint → Bool
  | scalar _ => false
  | surrogate _ => true

/-- Whether a code point is the given character. -/
def is (c : CodePoint) (x : Char) : Bool := c == scalar x

/-- Whether a code point is a character of the given class. -/
def isIn (c : CodePoint) (p : Char → Bool) : Bool :=
  match c with
  | scalar x => p x
  | surrogate _ => false

@[simp] theorem scalar_inj {a b : Char} : scalar a = scalar b ↔ a = b := by
  constructor
  · intro h; injection h
  · intro h; rw [h]

@[simp] theorem is_iff {c : CodePoint} {x : Char} : c.is x = true ↔ c = scalar x := by
  simp [is]

theorem toNat_lt (c : CodePoint) : c.toNat < 0x110000 := by
  cases c with
  | scalar c =>
    have v := c.valid
    have e : c.val.toNat = c.toNat := rfl
    simp only [UInt32.isValidChar, Nat.isValidChar, e] at v
    simp only [toNat]
    omega
  | surrogate i =>
    simp only [toNat]
    omega

/-- Every number below the limit is the number of a code point. -/
theorem ofNat?_isSome_iff {n : Nat} : (ofNat? n).isSome ↔ n < 0x110000 := by
  by_cases valid : n.isValidChar
  · rw [ofNat?, dif_pos valid]
    simp only [Nat.isValidChar] at valid
    exact ⟨fun _ => by omega, fun _ => rfl⟩
  · by_cases half : 0xD800 ≤ n ∧ n < 0xE000
    · rw [ofNat?, dif_neg valid, dif_pos half]
      exact ⟨fun _ => by omega, fun _ => rfl⟩
    · rw [ofNat?, dif_neg valid, dif_neg half]
      simp only [Nat.isValidChar] at valid
      exact ⟨fun h => Bool.noConfusion h, fun _ => by omega⟩

end CodePoint

end StyleBinding
