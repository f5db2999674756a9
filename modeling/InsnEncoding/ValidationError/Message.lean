import InsnEncoding.Operand.Validity

/-!
# The wording of validation errors

Words are written in hexadecimal with eight digits, slots and operands as they are displayed.
-/

namespace InsnEncoding

namespace ValidationError

/-- The message of an error. -/
def message : ValidationError → String
  | .malformedSlot slot fault =>
    s!"malformed slot (offset {slot.offset.toNat}, width {slot.width.toNat}): {fault.reason}"
  | .malformedOperand kind fault => s!"malformed {kind.name} arg: {fault.reason}"
  | .overlappingSlot slot => s!"slot {slot.display} overlapped with other slots"
  | .overlappingOperand operand => s!"arg {operand.display} overlapped with other args"
  | .registerAfterImmediate operand => s!"register arg {operand.display} comes after immediate arg"
  | .emptyMnemonic => "empty mnemonic"
  | .wordOverlapsOperands word mask =>
    s!"insn word {Word.hexText word} has non-zero bits {Word.hexText (word &&& mask)} " ++
      "inside arg slots"
  | .manualBitsDiffer formatMask manualMask =>
    s!"orig_fmt claims bits {Word.hexText manualMask} but format claims {Word.hexText formatMask}"
  | .operandCountMismatch expected found => s!"expected {expected} operands, got {found}"

end ValidationError

end InsnEncoding
