import InsnEncoding.Description.Reader
import Mathlib.Data.Nat.Digits.Defs

/-!
# The meaning of description lines

What a line that is laid out well stands for, said of its parts and without an order of work. Of
attributes with the same key only the last one counts (`Line.lastValue?`), the manual format is one of
them, and the first of the faults that a line may have is the one that is told (`Line.Yields`).
-/

namespace InsnEncoding

namespace Line

/-- The value of the last attribute with the key. -/
def lastValue? (line : Line) (key : String) : Option String :=
  (line.attributes.filter fun entry => String.ofList entry.key == key).getLast?.map
    LineAttribute.value

/-- The description has in each of its parts what the line says, whether or not it is valid. -/
structure Describes (line : Line) (description : Description) : Prop where
  word : description.word.toNat = Nat.ofDigits 16 (line.word.reverse.map Word.hexDigitValue)
  mnemonic : description.mnemonic = String.ofList line.mnemonic
  format : Format.ofText (String.ofList line.format) = .ok description.format
  manualFormat : (line.lastValue? Description.manualFormatKey).map Format.ofText =
    description.manualFormat.map Except.ok
  attributes : ∀ key, description.attribute? key =
    if key = Description.manualFormatKey then none else line.lastValue? key

/-- What comes out of a line. -/
inductive Yields (line : Line) : Except LineError Description → Prop where
  | malformedFormat {fault : LexicalError} :
      Format.ofText (String.ofList line.format) = .error fault →
      Yields line (.error (.malformedFormat fault))
  | malformedManualFormat {format : Format} {value : String} {fault : LexicalError} :
      Format.ofText (String.ofList line.format) = .ok format →
      line.lastValue? Description.manualFormatKey = some value →
      Format.ofText value = .error fault →
      Yields line (.error (.malformedAttribute Description.manualFormatKey fault))
  | invalid {description : Description} {fault : ValidationError} :
      line.Describes description → description.validate = .error fault →
      Yields line (.error (.invalid fault))
  | valid {description : Description} :
      line.Describes description → description.validate = .ok () →
      Yields line (.ok description)

end Line

end InsnEncoding
