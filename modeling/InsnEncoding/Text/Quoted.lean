import InsnEncoding.Text.DefaultIgnorable
import InsnEncoding.Text.GraphemeExtend
import InsnEncoding.Text.Nonprinting

/-!
# Quoted characters and lines

Messages show a character between single quotes and a line between double quotes. Tab, line feed,
carriage return, the null character, the backslash and the enclosing quote have short escapes. A
character that is not printed by itself, that leaves no trace, or that would join the one before it,
is given by its code point in braces. Everything else stands for itself.
-/

namespace InsnEncoding

namespace Text

/-- The character has no appearance of its own. -/
def isNonprinting (char : Char) : Bool :=
  char != ' ' && CodeRange.contains nonprintingRanges char.toNat

/-- The character is drawn upon the one before it. The two halfwidth sound marks extend a grapheme as
    well, but each stands in a cell of its own. -/
def joinsPrevious (char : Char) : Bool :=
  char != '\uff9e' && char != '\uff9f' && CodeRange.contains graphemeExtendRanges char.toNat

/-- The character leaves no trace where it is not understood. -/
def isDefaultIgnorable (char : Char) : Bool :=
  CodeRange.contains defaultIgnorableRanges char.toNat

/-- A character between two quotes `enclosing`. -/
def escape (enclosing char : Char) : List Char :=
  if char = '\x00' then ['\\', '0']
  else if char = '\t' then ['\\', 't']
  else if char = '\r' then ['\\', 'r']
  else if char = '\n' then ['\\', 'n']
  else if char = '\\' ∨ char = enclosing then ['\\', char]
  else if joinsPrevious char || isDefaultIgnorable char || isNonprinting char then
    ['\\', 'u', '\x7b'] ++ Nat.toDigits 16 char.toNat ++ ['\x7d']
  else [char]

/-- A character in single quotes. -/
def quoteChar (char : Char) : String :=
  String.ofList ('\'' :: escape '\'' char ++ ['\''])

/-- A text in double quotes. -/
def quote (text : String) : String :=
  String.ofList ('"' :: text.toList.flatMap (escape '"') ++ ['"'])

end Text

end InsnEncoding
