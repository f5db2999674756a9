import InsnEncoding.Description.Line

/-!
# The grammar of description lines

Which texts are laid out as which line, said without a scanner. Between the parts stand as many spaces
as the layout allows: exactly one behind the word, at least one behind the mnemonic, any number before
an attribute, none at the end.
-/

namespace InsnEncoding

/-- A text over the characters of attributes. -/
def AttributeText (text : List Char) : Prop :=
  ∀ char ∈ text, Line.isAttributeChar char

instance (text : List Char) : Decidable (AttributeText text) :=
  List.decidableBAll _ text

/-- The word for no operands or a text over the characters of formats. -/
def FormatText (text : List Char) : Prop :=
  text = Format.emptyText ∨ text ≠ [] ∧ ∀ char ∈ text, Line.isFormatChar char

namespace LineAttribute

/-- What stands behind the key of an attribute. -/
def valueText (entry : LineAttribute) : List Char :=
  match entry.value? with
  | none => []
  | some value => '=' :: value

/-- The attribute without spaces before it. -/
def spell (entry : LineAttribute) : List Char :=
  '@' :: entry.key ++ entry.valueText

/-- The attribute has a key, and it and the value have only characters of attributes. -/
def WellFormed (entry : LineAttribute) : Prop :=
  entry.key ≠ [] ∧ AttributeText entry.key ∧ ∀ value ∈ entry.value?, AttributeText value

instance (entry : LineAttribute) : Decidable entry.WellFormed :=
  inferInstanceAs (Decidable (_ ∧ _ ∧ _))

end LineAttribute

/-- The text is made of attributes, each with its number of spaces before it. -/
inductive AttributesLaidOut : List Char → List Nat → List LineAttribute → Prop where
  | nil : AttributesLaidOut [] [] []
  | cons {rest : List Char} {gaps : List Nat} {entry : LineAttribute} {entries : List LineAttribute}
      (gap : Nat) :
      entry.WellFormed → AttributesLaidOut rest gaps entries →
      AttributesLaidOut (List.replicate gap ' ' ++ (entry.spell ++ rest)) (gap :: gaps)
        (entry :: entries)

namespace Line

/-- How many spaces a line has where the layout leaves their number free. -/
structure Spacing where
  /-- Behind the mnemonic, besides the one that must be there. -/
  format : Nat
  /-- Before each attribute. -/
  attributes : List Nat

/-- Each part of the line but the attributes has its own form. -/
structure WellFormed (line : Line) : Prop where
  word_length : line.word.length = 8
  word_digits : ∀ char ∈ line.word, isWordDigit char
  mnemonic_start : ∃ first, line.mnemonic.head? = some first ∧ first.isLower
  mnemonic_chars : ∀ char ∈ line.mnemonic, isMnemonicChar char
  format_text : FormatText line.format

/-- The text is laid out as the line, with so many spaces. -/
def LaidOutWith (line : Line) (spacing : Spacing) (text : List Char) : Prop :=
  line.WellFormed ∧ ∃ tail, AttributesLaidOut tail spacing.attributes line.attributes ∧
    text = line.word ++ ' ' :: (line.mnemonic ++ (List.replicate (spacing.format + 1) ' ' ++
      (line.format ++ tail)))

/-- The text is laid out as the line. -/
def LaidOutAs (line : Line) (text : List Char) : Prop :=
  ∃ spacing, line.LaidOutWith spacing text

end Line

end InsnEncoding
