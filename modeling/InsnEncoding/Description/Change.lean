import InsnEncoding.Description.Basic
import InsnEncoding.Format.Reader

/-!
# Changes to a description

A description may be changed in any of its parts, whether or not it is valid afterwards. Only a
change that has to read a text can fail, and then the description stays as it is.
-/

namespace InsnEncoding

/-- A change to one part of a description. -/
inductive Change where
  | setWord (word : Word)
  | setMnemonic (mnemonic : String)
  /-- Add an operand at the end of the format. -/
  | pushOperand (operand : Operand)
  /-- Remove the last operand of the format, if there is one. -/
  | popOperand
  /-- Give another transform to an operand of the format. -/
  | setTransform (index : Nat) (transform : Transform)
  /-- Read a manual format. -/
  | setManualFormat (text : String)
  | dropManualFormat
  | setAttribute (key value : String)
  | eraseAttribute (key : String)

namespace Change

/-- The description after a change. -/
def apply (description : Description) : Change → Except LexicalError Description
  | .setWord word => .ok { description with word }
  | .setMnemonic mnemonic => .ok { description with mnemonic }
  | .pushOperand operand =>
    .ok { description with format := ⟨description.format.operands ++ [operand]⟩ }
  | .popOperand => .ok { description with format := ⟨description.format.operands.dropLast⟩ }
  | .setTransform index transform =>
    .ok { description with
      format := ⟨description.format.operands.modify index fun operand =>
        { operand with transform }⟩ }
  | .setManualFormat text =>
    match Format.ofText text with
    | .error fault => .error fault
    | .ok manual => .ok { description with manualFormat := some manual }
  | .dropManualFormat => .ok { description with manualFormat := none }
  | .setAttribute key value =>
    .ok { description with attributes := description.attributes.insert key value }
  | .eraseAttribute key =>
    .ok { description with attributes := description.attributes.erase key }

/-- Make changes one after the other up to the first that fails. The description is given as it is
    then, together with the failure. -/
def applyAll (description : Description) : List Change → Description × Option LexicalError
  | [] => (description, none)
  | change :: rest =>
    match change.apply description with
    | .error fault => (description, some fault)
    | .ok changed => applyAll changed rest

end Change

end InsnEncoding
