import InsnEncoding.ValidationError.Basic
import InsnEncoding.Operand.Spelling

/-!
# Formats

A format is the list of the operands of an instruction, in the order in which they are written. The
bits that no operand covers are fixed; `Format.encode` puts operands into a word and leaves the fixed
bits alone.
-/

namespace InsnEncoding

/-- The operands of an instruction, in order. -/
structure Format where
  operands : List Operand := []
  deriving DecidableEq

namespace Format

/-- The number of operands. -/
def size (format : Format) : Nat :=
  format.operands.length

/-- The format has no operands. -/
def isEmpty (format : Format) : Bool :=
  format.operands.isEmpty

/-- The bits of the word that some operand covers. -/
def mask (format : Format) : Word :=
  format.operands.foldr (fun operand covered => operand.mask ||| covered) 0

/-- The bits of the word that no operand covers. -/
def fixedMask (format : Format) : Word :=
  ~~~ format.mask

/-- Put one raw value per operand into a word. -/
def encode (format : Format) (base : Word) (values : List Word) : Except ValidationError Word :=
  if values.length = format.size then
    .ok ((format.operands.zip values).foldl (fun word entry => entry.1.insert word entry.2) base)
  else .error (.operandCountMismatch format.size values.length)

/-- The raw value and the value of every operand in a word. -/
def decode (format : Format) (word : Word) : List (Word × Value) :=
  format.operands.map fun operand => (operand.extract word, operand.decode word)

/-- The text of the format without operands. -/
def emptyText : List Char :=
  ['E', 'M', 'P', 'T', 'Y']

/-- The text of a format, in characters: the texts of its operands without anything between. -/
def spell (format : Format) : List Char :=
  if format.isEmpty then emptyText else format.operands.flatMap Operand.spell

/-- The text of a format, for instance `DJSk14`. -/
def repr (format : Format) : String :=
  String.ofList format.spell

/-- The mask holds the bits of the word that some slot of some operand covers. -/
@[simp] theorem getLsbD_mask (format : Format) (bit : Nat) :
    format.mask.getLsbD bit =
      (decide (bit < 32) &&
        decide (∃ operand ∈ format.operands, ∃ slot ∈ operand.slots, slot.Covers bit)) := by
  rw [mask]
  induction format.operands with
  | nil => simp
  | cons operand rest ih =>
    rw [List.foldr_cons, BitVec.getLsbD_or, Operand.getLsbD_mask, ih, ← Bool.and_or_distrib_left,
      ← Bool.decide_or]
    simp

end Format

end InsnEncoding
