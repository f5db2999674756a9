import InsnEncoding.Numeral
import InsnEncoding.Word

/-!
# Operand transforms

The bits that an instruction stores for an operand need not be the operand itself: a branch offset
may be stored in units of four bytes, a count less one. A transform says how the value is had from
the stored bits. Its arithmetic is that of 64-bit two's complement words.
-/

namespace InsnEncoding

/-- How the value of an operand is had from its stored bits. -/
inductive Transform where
  | identity
  | add (amount : UInt32)
  | shiftLeft (amount : UInt32)
  deriving DecidableEq

namespace Transform

/-- The value is the stored one. -/
def isIdentity : Transform → Bool
  | .identity => true
  | _ => false

/-- Add the amount, modulo `2 ^ 64`, or shift by it. A shift by 64 or more leaves no bit. -/
def apply : Transform → Value → Value
  | .identity, value => value
  | .add amount, value => value + BitVec.ofNat 64 amount.toNat
  | .shiftLeft amount, value => value <<< min amount.toNat 64

/-- The text of a transform: the letter of the operation and the amount. -/
def spell : Transform → List Char
  | .identity => []
  | .add amount => 'p' :: Numeral.write amount
  | .shiftLeft amount => 's' :: Numeral.write amount

/-- What a transform adds to the text of its operand. -/
def suffix (transform : Transform) : List Char :=
  if transform.isIdentity then [] else 'p' :: transform.spell

/-- The text of a transform by itself, for instance `s2`. -/
def repr (transform : Transform) : String :=
  String.ofList transform.spell

/-- The operation and its amount, as the display of a faulty format lists them. -/
def fields : Transform → String
  | .identity => "None"
  | .add amount => s!"Add({amount.toNat})"
  | .shiftLeft amount => s!"ShiftLeft({amount.toNat})"

theorem isIdentity_iff {transform : Transform} : transform.isIdentity ↔ transform = .identity := by
  cases transform <;> simp [isIdentity]

end Transform

end InsnEncoding
