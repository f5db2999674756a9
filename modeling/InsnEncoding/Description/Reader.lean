import InsnEncoding.Description.Basic
import InsnEncoding.Description.Line
import InsnEncoding.Format.Reader
import InsnEncoding.ValidationError.Message

/-!
# Reading a description from a line

What the parts of a line mean: the digits are the fixed word, the text of the format is read, and of
attributes with the same key the last one counts. The attribute `orig_fmt` is the manual format and is
not kept among the attributes. A description that has been read is valid; its manual format has a
text but need not be valid.

The first fault is told, in this order: the layout of the line, the value of the word, the text of the
format, the text of the manual format, the description.
-/

namespace InsnEncoding

/-- Why a line gives no description. -/
inductive LineError where
  /-- The text of the format is wrong. -/
  | malformedFormat (fault : LexicalError)
  /-- The line does not have the layout of a description, or its word no value. -/
  | malformedLine (fault : LineFault)
  /-- The value of an attribute should be the text of a format and is not. -/
  | malformedAttribute (key : String) (fault : LexicalError)
  /-- The line says something that is no valid description. -/
  | invalid (fault : ValidationError)
  deriving DecidableEq

/-- The message of an error. -/
def LineError.message : LineError → String
  | .malformedFormat fault => fault.message
  | .malformedLine fault => s!"malformed insn description line: {fault.reason}"
  | .malformedAttribute key fault => s!"malformed value for attribute '{key}': {fault.message}"
  | .invalid fault => fault.message

namespace LineAttribute

/-- The value of an attribute; one that is given by its key alone is a flag. -/
def value (entry : LineAttribute) : String :=
  match entry.value? with
  | none => Description.flagValue
  | some value => String.ofList value

end LineAttribute

namespace Line

/-- The attributes of a line, the last one of each key. -/
def attributeMap (line : Line) : Attributes :=
  line.attributes.foldl
    (fun attributes entry => attributes.insert (String.ofList entry.key) entry.value) ∅

end Line

namespace Description

/-- The key of the attribute whose value is the manual format. -/
def manualFormatKey : String :=
  "orig_fmt"

/-- The manual format that some attributes give. -/
def readManualFormat (attributes : Attributes) : Except LineError (Option Format) :=
  match attributes[manualFormatKey]? with
  | none => .ok none
  | some value =>
    match Format.ofText value with
    | .error fault => .error (.malformedAttribute manualFormatKey fault)
    | .ok manual => .ok (some manual)

/-- The fixed word that the digits of a line give. -/
def readWord (digits : List Char) : Except LineError Word :=
  match Word.ofHex? digits with
  | none => .error (.malformedLine .wordValue)
  | some word => .ok word

/-- The description that the parts of a line make. -/
def ofParts (line : Line) : Except LineError Description := do
  let word ← readWord line.word
  let format ← (Format.read line.format).mapError .malformedFormat
  let manualFormat ← readManualFormat line.attributeMap
  let description : Description :=
    { word
      mnemonic := String.ofList line.mnemonic
      format
      manualFormat
      attributes := line.attributeMap.erase manualFormatKey }
  description.validate.mapError .invalid
  return description

/-- Read a description from a line. -/
def ofLine (text : String) : Except LineError Description :=
  match Line.scan text.toList with
  | .error fault => .error (.malformedLine fault)
  | .ok line => ofParts line

/-- Read a description from a line and, if `strict`, ask for a valid manual format as well. -/
def ofLineWith (strict : Bool) (text : String) : Except LineError Description := do
  let description ← ofLine text
  if strict then description.validateManualFormat.mapError .invalid
  return description

end Description

end InsnEncoding
