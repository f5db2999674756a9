import InsnEncoding.Operand.Basic

/-!
# The text of an operand

An integer register is the capital letter of its position. Any other register is the letter of its
kind and the letter of its position. An immediate is the letter of its kind followed by its slots,
and then, if it has a transform, by `p` and the transform.

Every operand has a text. Of one that is not well formed the text leaves out what has no place in
it, and shows a question mark for a position without a letter.
-/

namespace InsnEncoding

namespace Operand

/-- The letter of the first slot's position in the table of the kind, or a question mark. -/
def firstMark (operand : Operand) : Char :=
  (operand.slots.head?.bind fun slot => operand.kind.letters.letter? slot.offset).getD '?'

/-- The part of the text that tells where the bits are. -/
def spellSlots (operand : Operand) : List Char :=
  if operand.kind.isImmediate then operand.slots.flatMap Slot.spell else [operand.firstMark]

/-- The text of an operand, in characters. -/
def spell (operand : Operand) : List Char :=
  operand.kind.lead?.toList ++ operand.spellSlots ++ operand.transform.suffix

/-- The text of an operand, for instance `Sd5k16`. -/
def repr (operand : Operand) : String :=
  String.ofList operand.spell

end Operand

end InsnEncoding
