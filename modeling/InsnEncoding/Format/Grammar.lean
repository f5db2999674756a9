import InsnEncoding.Format.Basic
import InsnEncoding.Numeral

/-!
# The grammar of formats

Which texts stand for which format, said without a reader. A text spells a format if it is made of
texts of the operands, one behind the other; the word for a format without operands is one more
spelling of it. Numbers may have leading zeros, so a format with numbers has many spellings, of which
`Format.spell` gives the shortest.
-/

namespace InsnEncoding

/-- The text is made of slots: each a letter of its position and a numeral of its width. -/
inductive SlotsSpelled : List Char → List Slot → Prop where
  | nil : SlotsSpelled [] []
  | cons {letter : Char} {digits rest : List Char} {slot : Slot} {slots : List Slot} :
      (slot.offset, letter) ∈ fieldLetters → Numeral.Spells digits slot.width →
      SlotsSpelled rest slots → SlotsSpelled (letter :: digits ++ rest) (slot :: slots)

/-- The text is what stands behind the slots of an immediate. -/
inductive TransformSpelled : List Char → Transform → Prop where
  | identity : TransformSpelled [] .identity
  | add {digits : List Char} {amount : UInt32} :
      Numeral.Spells digits amount → TransformSpelled ('p' :: 'p' :: digits) (.add amount)
  | shiftLeft {digits : List Char} {amount : UInt32} :
      Numeral.Spells digits amount → TransformSpelled ('p' :: 's' :: digits) (.shiftLeft amount)

/-- The text spells one operand. -/
inductive OperandSpelled : List Char → Operand → Prop where
  | intRegister {letter : Char} {offset : UInt32} :
      (offset, letter) ∈ intRegisterLetters →
      OperandSpelled [letter] (.register .intRegister offset)
  | register {kind : Kind} {lead letter : Char} {offset : UInt32} :
      kind.isRegister → kind.lead? = some lead → (offset, letter) ∈ fieldLetters →
      OperandSpelled [lead, letter] (.register kind offset)
  | immediate {kind : Kind} {lead : Char} {body suffix : List Char} {slots : List Slot}
      {transform : Transform} :
      kind.isImmediate → kind.lead? = some lead → slots ≠ [] → SlotsSpelled body slots →
      TransformSpelled suffix transform →
      OperandSpelled (lead :: body ++ suffix) ⟨kind, slots, transform⟩

/-- The text is made of spellings of the operands in their order. -/
inductive OperandsSpelled : List Char → List Operand → Prop where
  | nil : OperandsSpelled [] []
  | cons {text rest : List Char} {operand : Operand} {operands : List Operand} :
      OperandSpelled text operand → OperandsSpelled rest operands →
      OperandsSpelled (text ++ rest) (operand :: operands)

namespace Format

/-- The text spells the format. -/
def SpelledBy (format : Format) (text : List Char) : Prop :=
  text = emptyText ∧ format.operands = [] ∨ OperandsSpelled text format.operands

end Format

end InsnEncoding
