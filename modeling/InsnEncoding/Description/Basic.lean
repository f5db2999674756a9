import InsnEncoding.Format.Validity
import Std.Data.ExtTreeMap

/-!
# Instruction descriptions

A description gives the fixed bits of an instruction, its mnemonic and its operands. A manual may
write the operands in another order or with transforms; then the description carries a second format
for that. Attributes are free pairs of a key and a value.

A word is an encoding of the instruction when it has the fixed bits of the description, whatever its
operand bits are.
-/

namespace InsnEncoding

/-- Keys with their values. Two such maps are equal when they give every key the same value. -/
abbrev Attributes := Std.ExtTreeMap String String

/-- An instruction: its fixed bits, its name, and how its operands are stored and written. -/
structure Description where
  /-- The fixed bits; the bits of the operands are zero. -/
  word : Word
  mnemonic : String
  format : Format
  /-- The operands as the manual writes them, where that is different from `format`. -/
  manualFormat : Option Format := none
  attributes : Attributes := ∅
  deriving DecidableEq

namespace Description

/-- The value of an attribute that is given by its key alone. -/
def flagValue : String :=
  "true"

/-- The first thing wrong with a description, its manual format left aside. -/
def validate (description : Description) : Except ValidationError Unit :=
  if description.mnemonic.isEmpty then .error .emptyMnemonic
  else
    match description.format.validate .canonical with
    | .error fault => .error fault
    | .ok () =>
      if description.word &&& description.format.mask ≠ 0 then
        .error (.wordOverlapsOperands description.word description.format.mask)
      else .ok ()

/-- The first thing wrong with the manual format: it may be in any order, and it must cover exactly
    the bits that the format covers. -/
def validateManualFormat (description : Description) : Except ValidationError Unit :=
  match description.manualFormat with
  | none => .ok ()
  | some manual =>
    match manual.validate .manual with
    | .error fault => .error fault
    | .ok () =>
      if description.format.mask ≠ manual.mask then
        .error (.manualBitsDiffer description.format.mask manual.mask)
      else .ok ()

/-- The word is an encoding of the instruction: it has the fixed bits of the description. -/
def isEncoding (description : Description) (word : Word) : Bool :=
  word &&& description.format.fixedMask == description.word

/-- Put one raw value per operand into the fixed bits. -/
def encode (description : Description) (values : List Word) : Except ValidationError Word :=
  description.format.encode description.word values

/-- The format in which the operands are shown: the manual one if there is one. -/
def shownFormat (description : Description) : Format :=
  description.manualFormat.getD description.format

/-- The value of an attribute. -/
def attribute? (description : Description) (key : String) : Option String :=
  description.attributes[key]?

/-- The attribute is set as a flag. -/
def hasFlag (description : Description) (key : String) : Bool :=
  description.attribute? key == some flagValue

/-- Descriptions in ascending order of their words; those with the same word stay as they stood. -/
def sortByWord (descriptions : List Description) : List Description :=
  descriptions.mergeSort fun first second => first.word ≤ second.word

end Description

end InsnEncoding
