import InsnEncoding.Operand.Basic

/-!
# Validation errors

The values here are causes. Their wording is `ValidationError.message`, in a module of its own,
because a message shows the offending slot or operand and so needs its text.
-/

namespace InsnEncoding

/-- Why an operand cannot stand in any format. -/
inductive OperandFault where
  | noSlots
  | registerSlotCount (found : Nat)
  | registerWidth (found expected : UInt32)
  | registerTransform
  | unnamedPosition (offset : UInt32)
  deriving DecidableEq

/-- The wording of an operand's fault. -/
def OperandFault.reason : OperandFault → String
  | .noSlots => "arg has no slots"
  | .registerSlotCount found => s!"register arg needs exactly one slot, found {found}"
  | .registerWidth found expected =>
    s!"register slot width is {found.toNat}, expected {expected.toNat}"
  | .registerTransform => "register arg cannot carry a postprocess op"
  | .unnamedPosition offset => s!"slot offset {offset.toNat} has no canonical character"

/-- Why a slot, an operand, a format or a description is refused, or why operands cannot be put into
    a format. -/
inductive ValidationError where
  /-- The slot does not lie inside the word. -/
  | malformedSlot (slot : Slot) (fault : SlotFault)
  /-- The operand cannot stand in any format. -/
  | malformedOperand (kind : Kind) (fault : OperandFault)
  /-- The slot shares a bit with an earlier slot of its operand. -/
  | overlappingSlot (slot : Slot)
  /-- The operand shares a bit with an earlier operand. -/
  | overlappingOperand (operand : Operand)
  /-- The operand is a register and an immediate stands before it. -/
  | registerAfterImmediate (operand : Operand)
  /-- The description has no mnemonic. -/
  | emptyMnemonic
  /-- The fixed word has a bit set that some operand covers. -/
  | wordOverlapsOperands (word mask : Word)
  /-- The manual format covers other bits than the format. -/
  | manualBitsDiffer (formatMask manualMask : Word)
  /-- The number of operands given is not that of the format. -/
  | operandCountMismatch (expected found : Nat)
  deriving DecidableEq

end InsnEncoding
