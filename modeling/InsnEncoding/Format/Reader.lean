import InsnEncoding.Format.Basic
import InsnEncoding.Format.LexicalError
import InsnEncoding.Numeral

/-!
# Reading a format from its text

The reader goes through the text once, from left to right, and looks at one character to decide what
follows. Operands have nothing between them, so a run of digits or of slots goes on as long as it
can. What is read is any format that has a text, valid or not.

Each reader is given the text from some place on and the index of that place, and returns what it has
read together with the number of characters that this took. What it does not take is left to the
next reader, so no reader goes back.
-/

namespace InsnEncoding

namespace Numeral

/-- Go on reading the number that began at `start`. So far `taken` digits have been read, and `value`
    is their number. -/
def readDigits (start : Nat) (value : UInt32) (taken : Nat) :
    List Char → Except LexicalError (UInt32 × Nat)
  | [] => .ok (value, taken)
  | char :: rest =>
    if char.isDigit then
      match push? value char with
      | none => .error (.numberOverflow start)
      | some next => readDigits start next (taken + 1) rest
    else .ok (value, taken)

/-- Read a number: all digits that follow, of which there must be one. -/
def read (index : Nat) (text : List Char) : Except LexicalError (UInt32 × Nat) :=
  match readDigits index 0 0 text with
  | .error fault => .error fault
  | .ok (value, taken) => if taken = 0 then .error (.missingNumber index) else .ok (value, taken)

end Numeral

namespace Slot

/-- Read the letter of a position. -/
def readPosition (index : Nat) : List Char → Except LexicalError UInt32
  | [] => .error (.unexpectedEnd .positionLetter)
  | letter :: _ =>
    match fieldLetters.offset? letter with
    | none => .error (.invalidPosition letter index)
    | some offset => .ok offset

/-- Read slots as long as the letter of a position follows. -/
def readAll (index : Nat) : List Char → Except LexicalError (List Slot × Nat)
  | [] => .ok ([], 0)
  | letter :: rest =>
    match fieldLetters.offset? letter with
    | none => .ok ([], 0)
    | some offset =>
      match Numeral.read (index + 1) rest with
      | .error fault => .error fault
      | .ok (width, taken) =>
        match readAll (index + 1 + taken) (rest.drop taken) with
        | .error fault => .error fault
        | .ok (slots, more) => .ok (⟨offset, width⟩ :: slots, 1 + taken + more)
termination_by text => text.length
decreasing_by exact Nat.lt_succ_of_le (List.drop_sublist _ _).length_le

end Slot

namespace Transform

/-- Read the transform of an immediate, if the letter `p` announces one. -/
def read (index : Nat) : List Char → Except LexicalError (Transform × Nat)
  | ['p'] => .error (.unexpectedEnd .transformLetter)
  | 'p' :: 'p' :: rest =>
    (Numeral.read (index + 2) rest).map fun (amount, taken) => (.add amount, 2 + taken)
  | 'p' :: 's' :: rest =>
    (Numeral.read (index + 2) rest).map fun (amount, taken) => (.shiftLeft amount, 2 + taken)
  | 'p' :: letter :: _ => .error (.invalidTransform letter (index + 1))
  | _ => .ok (.identity, 0)

end Transform

namespace Operand

/-- Read what follows the letter of a register: its position. -/
def readRegister (kind : Kind) (index : Nat) (text : List Char) :
    Except LexicalError (Operand × Nat) :=
  (Slot.readPosition index text).map fun offset => (.register kind offset, 1)

/-- Read what follows the letter of an immediate: its slots, of which there must be one, and its
    transform. -/
def readImmediate (kind : Kind) (index : Nat) (text : List Char) :
    Except LexicalError (Operand × Nat) :=
  match Slot.readAll index text with
  | .error fault => .error fault
  | .ok ([], _) => .error (.noSlot index)
  | .ok (slots, taken) =>
    (Transform.read (index + taken) (text.drop taken)).map fun (transform, more) =>
      ({ kind, slots, transform }, taken + more)

/-- Read an operand whose first character is `lead`. The characters that it takes of the text behind
    `lead` are counted. -/
def read (index : Nat) (lead : Char) (text : List Char) :
    Except LexicalError (Operand × Nat) :=
  match intRegisterLetters.offset? lead with
  | some offset => .ok (.register .intRegister offset, 0)
  | none =>
    match Kind.ofLead? lead with
    | none => .error (.invalidLead lead index)
    | some kind =>
      if kind.isImmediate then readImmediate kind (index + 1) text
      else readRegister kind (index + 1) text

end Operand

namespace Format

/-- Read operands up to the end of the text. -/
def readOperands (index : Nat) : List Char → Except LexicalError (List Operand)
  | [] => .ok []
  | lead :: rest =>
    match Operand.read index lead rest with
    | .error fault => .error fault
    | .ok (operand, taken) =>
      match readOperands (index + 1 + taken) (rest.drop taken) with
      | .error fault => .error fault
      | .ok operands => .ok (operand :: operands)
termination_by text => text.length
decreasing_by exact Nat.lt_succ_of_le (List.drop_sublist _ _).length_le

/-- Read a format from its characters. No characters at all are a format without operands, and so
    is the text that `spell` gives to it. -/
def read (text : List Char) : Except LexicalError Format :=
  if text = emptyText then .ok {}
  else (readOperands 0 text).map Format.mk

/-- Read a format from its text. -/
def ofText (text : String) : Except LexicalError Format :=
  read text.toList

end Format

end InsnEncoding
