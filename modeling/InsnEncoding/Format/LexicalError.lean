import InsnEncoding.Text.Quoted

/-!
# Why a text is no format

Every error but one tells where in the text it arose. An index counts characters from 0.
-/

namespace InsnEncoding

/-- What a text that ends too early should have gone on with. -/
inductive Expected where
  | positionLetter
  | transformLetter
  deriving DecidableEq

/-- The words for what was expected. -/
def Expected.description : Expected → String
  | .positionLetter => "offset char"
  | .transformLetter => "postprocess op kind char"

/-- Why a text is no format. -/
inductive LexicalError where
  /-- No operand begins with the character. -/
  | invalidLead (char : Char) (index : Nat)
  /-- The character is not the letter of a position. -/
  | invalidPosition (char : Char) (index : Nat)
  /-- The character is not the letter of a transform. -/
  | invalidTransform (char : Char) (index : Nat)
  /-- An immediate has no slots. -/
  | noSlot (index : Nat)
  /-- There is no digit where a number should begin. -/
  | missingNumber (index : Nat)
  /-- The number that begins there is not below `2 ^ 32`. -/
  | numberOverflow (index : Nat)
  /-- The text ends where it should go on. -/
  | unexpectedEnd (expected : Expected)
  deriving DecidableEq

namespace LexicalError

/-- The message of an error. -/
def message : LexicalError → String
  | .invalidLead char index => s!"invalid prefix char {Text.quoteChar char} at {index}"
  | .invalidPosition char index => s!"invalid offset char {Text.quoteChar char} at {index}"
  | .invalidTransform char index =>
    s!"invalid postprocess op kind char {Text.quoteChar char} at {index}"
  | .noSlot index => s!"no slot was consumed at {index}"
  | .missingNumber index => s!"expected decimal number at {index}"
  | .numberOverflow index => s!"decimal number starting at {index} is out of range"
  | .unexpectedEnd expected => s!"unexpected end of format, expected {expected.description}"

/-- The index that the error tells. -/
def index? : LexicalError → Option Nat
  | .invalidLead _ index | .invalidPosition _ index | .invalidTransform _ index | .noSlot index
  | .missingNumber index | .numberOverflow index => some index
  | .unexpectedEnd _ => none

end LexicalError

end InsnEncoding
