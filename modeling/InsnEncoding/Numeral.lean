/-!
# Decimal numerals of 32-bit numbers

A numeral is a run of ASCII digits of any length, leading zeros included. `Numeral.value?` goes
through the digits in 32-bit arithmetic, a checked product and a checked sum for each of them, and gives
up at the first that leads past `2 ^ 32 - 1`; what has been read can only grow, so it gives up exactly
when the whole number does not fit.
`Numeral.Spells` says which numeral stands for which number without computing in 32 bits.
-/

namespace InsnEncoding

namespace Numeral

/-- The product of two numbers, if it is a 32-bit number. -/
def mul? (first second : UInt32) : Option UInt32 :=
  if first.toNat * second.toNat < UInt32.size then some (first * second) else none

/-- The sum of two numbers, if it is a 32-bit number. -/
def add? (first second : UInt32) : Option UInt32 :=
  if first.toNat + second.toNat < UInt32.size then some (first + second) else none

/-- The number that a digit stands for. -/
def digitValue (digit : Char) : UInt32 :=
  UInt32.ofNat (digit.toNat - '0'.toNat)

/-- The number so far with one more digit after it, if that is still a 32-bit number. -/
def push? (value : UInt32) (digit : Char) : Option UInt32 :=
  (mul? value 10).bind fun tens => add? tens (digitValue digit)

/-- The number that a run of digits stands for, if it is a 32-bit number. -/
def value? (digits : List Char) : Option UInt32 :=
  digits.foldlM push? 0

/-- The numeral of a number, without leading zeros. -/
def write (value : UInt32) : List Char :=
  Nat.toDigits 10 value.toNat

/-- The text is a numeral of the number. -/
def Spells (text : List Char) (value : UInt32) : Prop :=
  text ≠ [] ∧ (∀ digit ∈ text, digit.isDigit) ∧ Nat.ofDigitChars 10 text 0 = value.toNat

end Numeral

end InsnEncoding
