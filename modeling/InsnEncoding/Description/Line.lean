import InsnEncoding.Format.Basic

/-!
# The layout of a description line

A line has a word of eight lowercase hexadecimal digits, one space, a mnemonic, spaces, the text of a
format, and any number of attributes. An attribute begins with `@`, and spaces may stand before it:

    20000000 ll.w                   DJSk14          @orig_fmt=DJSk14ps2 @atomics

`Line.scan` splits a line into these parts and says nothing about what they mean.
-/

namespace InsnEncoding

/-- Why a line is malformed: it does not have the layout of a description line, or its word no value. -/
inductive LineFault where
  | wordDigits
  | wordSpace
  | mnemonicStart
  | mnemonicSpaces
  | missingFormat
  | trailingSpaces
  | attributeStart
  | emptyKey
  /-- The digits of the word stand for no word. -/
  | wordValue
  deriving DecidableEq

/-- The wording of a line's fault. -/
def LineFault.reason : LineFault → String
  | .wordDigits => "expected 8 lowercase hex digits"
  | .wordSpace => "expected a single space after insn word"
  | .mnemonicStart => "mnemonic must start with a lowercase letter"
  | .mnemonicSpaces => "expected spaces after mnemonic"
  | .missingFormat => "expected insn format"
  | .trailingSpaces => "trailing spaces"
  | .attributeStart => "expected '@' to start an attribute"
  | .emptyKey => "attribute key is empty"
  | .wordValue => "insn word is not a 32-bit hex value"

/-- An attribute as it stands in a line; one without `=` has no value of its own. -/
structure LineAttribute where
  key : List Char
  value? : Option (List Char)
  deriving DecidableEq

/-- The parts of a description line. -/
structure Line where
  word : List Char
  mnemonic : List Char
  format : List Char
  attributes : List LineAttribute
  deriving DecidableEq

namespace Line

/-- A lowercase hexadecimal digit. -/
def isWordDigit (char : Char) : Bool :=
  char.isDigit || 'a' ≤ char && char ≤ 'f'

/-- A character of a mnemonic. -/
def isMnemonicChar (char : Char) : Bool :=
  char.isLower || char.isDigit || char == '_' || char == '.'

/-- A character of the text of a format. The letter that announces a transform is not among them. -/
def isFormatChar (char : Char) : Bool :=
  char.isDigit || ['D', 'J', 'K', 'A', 'C', 'F', 'V', 'X', 'S', 'U', 'd', 'j', 'k', 'a', 'm',
    'n'].contains char

/-- A character of the key or of the value of an attribute. -/
def isAttributeChar (char : Char) : Bool :=
  char.isAlphanum || char == '_' || char == '.'

/-- Split off the text of a format. -/
def scanFormat (text : List Char) : List Char × List Char :=
  if Format.emptyText.isPrefixOf text then (Format.emptyText, text.drop Format.emptyText.length)
  else text.span isFormatChar

/-- Split off the value of an attribute, if an equals sign announces one. -/
def scanValue : List Char → Option (List Char) × List Char
  | '=' :: rest => (some (rest.takeWhile isAttributeChar), rest.dropWhile isAttributeChar)
  | rest => (none, rest)

theorem scanValue_rest_length_le (text : List Char) :
    (scanValue text).2.length ≤ text.length := by
  unfold scanValue
  split
  · exact Nat.le_succ_of_le (List.dropWhile_sublist _).length_le
  · exact Nat.le_refl _

/-- The text is nothing but spaces, of which there is one. -/
def isTrailing (text : List Char) : Bool :=
  !text.isEmpty && text.all (· == ' ')

/-- Split the rest of a line, the spaces before it taken away, into attributes. -/
def scanAttributes : List Char → Except LineFault (List LineAttribute)
  | [] => .ok []
  | '@' :: rest =>
    let key := rest.takeWhile isAttributeChar
    let value := scanValue (rest.dropWhile isAttributeChar)
    if key.isEmpty then .error .emptyKey
    else if isTrailing value.2 then .error .trailingSpaces
    else
      match scanAttributes (value.2.dropWhile (· == ' ')) with
      | .error fault => .error fault
      | .ok attributes => .ok (⟨key, value.1⟩ :: attributes)
  | _ => .error .attributeStart
termination_by text => text.length
decreasing_by
  have letters := (List.dropWhile_sublist (l := rest) isAttributeChar).length_le
  have behind := scanValue_rest_length_le (rest.dropWhile isAttributeChar)
  have spaces := (List.dropWhile_sublist (l := value.2) (· == ' ')).length_le
  exact Nat.lt_succ_of_le (Nat.le_trans spaces (Nat.le_trans behind letters))

/-- Split what stands behind the format into attributes. -/
def scanTail (text : List Char) : Except LineFault (List LineAttribute) :=
  if isTrailing text then .error .trailingSpaces else scanAttributes (text.dropWhile (· == ' '))

/-- Split a line into its parts, or tell the first place where its layout is wrong. -/
def scan (text : List Char) : Except LineFault Line :=
  let (word, text) := text.span isWordDigit
  if word.length ≠ 8 then .error .wordDigits
  else
    match text with
    | ' ' :: text =>
      let (mnemonic, text) := text.span isMnemonicChar
      if !mnemonic.head?.any Char.isLower then .error .mnemonicStart
      else
        let (spaces, text) := text.span (· == ' ')
        if spaces.isEmpty then .error .mnemonicSpaces
        else
          let (format, text) := scanFormat text
          if format.isEmpty then .error .missingFormat
          else (scanTail text).map fun attributes => { word, mnemonic, format, attributes }
    | _ => .error .wordSpace

end Line

end InsnEncoding
