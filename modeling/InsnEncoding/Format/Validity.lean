import InsnEncoding.Format.Basic
import InsnEncoding.Operand.Validity

/-!
# Valid formats

In a valid format every operand is valid and no two operands share a bit. The canonical order asks
in addition that no register stands after an immediate; the order of a manual is free.
-/

namespace InsnEncoding

/-- What a format is asked about the order of its operands. -/
inductive OperandOrder where
  /-- Registers stand before immediates. -/
  | canonical
  /-- Any order. -/
  | manual
  deriving DecidableEq

namespace Format

/-- Look at operands from the first to the last. The bits of those before are `seen`, and
    `afterImmediate` tells whether an immediate is among them. -/
def validateOperands (order : OperandOrder) :
    Word → Bool → List Operand → Except ValidationError Unit
  | _, _, [] => .ok ()
  | seen, afterImmediate, operand :: rest =>
    match operand.validate with
    | .error fault => .error fault
    | .ok () =>
      if operand.mask &&& seen ≠ 0 then .error (.overlappingOperand operand)
      else if order = .canonical ∧ operand.kind.isRegister ∧ afterImmediate then
        .error (.registerAfterImmediate operand)
      else
        validateOperands order (seen ||| operand.mask)
          (afterImmediate || operand.kind.isImmediate) rest

/-- The first thing wrong with a format, if there is any. -/
def validate (order : OperandOrder) (format : Format) : Except ValidationError Unit :=
  validateOperands order 0 false format.operands

/-- The format is valid in the canonical order. -/
def isCanonical (format : Format) : Bool :=
  (format.validate .canonical).toBool

/-- A format in a message: its text if it is valid in the canonical order, otherwise its parts. -/
def display (format : Format) : String :=
  if format.isCanonical then s!"<InsnFormat {format.repr}>"
  else "<invalid InsnFormat [" ++ ", ".intercalate (format.operands.map Operand.fields) ++ "]>"

end Format

end InsnEncoding
