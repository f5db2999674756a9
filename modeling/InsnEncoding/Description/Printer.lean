import InsnEncoding.Description.Grammar
import InsnEncoding.Description.Reader

/-!
# Writing a description as a line

A line is not determined by its description: it may have more spaces, and its attributes may stand in
any order. `Description.write` takes both as arguments; `Description.entries` are the attributes that
the line needs, the manual format among them.

A line has no quoting, so the mnemonic and the attributes can be written only if they have a form that a
line can hold: `Description.Writable`.
-/

namespace InsnEncoding

namespace Description

/-- The attributes of a line of the description, with their values. -/
def entries (description : Description) : List (String × String) :=
  description.attributes.toList ++
    (description.manualFormat.map fun manual => (manualFormatKey, manual.repr)).toList

/-- An attribute with one space before it. -/
def writeEntry (entry : String × String) : List Char :=
  [' ', '@'] ++ entry.1.toList ++ '=' :: entry.2.toList

/-- The line of a description with some attributes, and with that many more spaces than one behind the
    mnemonic. -/
def write (description : Description) (spaces : Nat) (entries : List (String × String)) :
    List Char :=
  Word.hexDigits description.word ++ ' ' :: description.mnemonic.toList ++
    List.replicate (spaces + 1) ' ' ++ description.format.spell ++ entries.flatMap writeEntry

/-- The mnemonic and the attributes have a form that a line can hold, and the manual format can be read
    back from its text. -/
structure Writable (description : Description) : Prop where
  mnemonic_start : ∃ first, description.mnemonic.toList.head? = some first ∧ first.isLower
  mnemonic_chars : ∀ char ∈ description.mnemonic.toList, Line.isMnemonicChar char
  attributes : ∀ key value, description.attribute? key = some value →
    key ≠ "" ∧ key ≠ manualFormatKey ∧ AttributeText key.toList ∧ AttributeText value.toList
  manualFormat : ∀ manual ∈ description.manualFormat, Format.ofText manual.repr = .ok manual

end Description

end InsnEncoding
