/-!
# Instruction words

A `Word` is a 32-bit instruction word, and also the raw value of an operand before it is
interpreted. A `Value` is an operand as the programmer reads it: 64 bits, two's complement.

Shift amounts come from unchecked field positions and may be of any size, so `Word.shl` and
`Word.lowMask` are total in them. `getLsbD_lowMask` and `getLsbD_shl` say what they do to each bit;
later proofs cite these two and do not unfold the definitions.
-/

namespace InsnEncoding

/-- A 32-bit instruction word, or the raw bits of one operand. -/
abbrev Word := BitVec 32

/-- An operand after sign extension and its transform. -/
abbrev Value := BitVec 64

namespace Word

/-- The word whose lowest `count` bits are set; all of them from 32 on. -/
def lowMask (count : Nat) : Word :=
  BitVec.allOnes 32 >>> (32 - count)

/-- Shift to the left by any amount. Every amount from 32 on clears the word, so none larger is
    ever computed. -/
def shl (word : Word) (amount : Nat) : Word :=
  word <<< min amount 32

/-- The eight lowercase hexadecimal digits of a word, the most significant first. -/
def hexDigits (word : Word) : List Char :=
  [28, 24, 20, 16, 12, 8, 4, 0].map fun place => Nat.digitChar (word.toNat >>> place % 16)

/-- A word as messages write it: `0x` and eight digits. -/
def hexText (word : Word) : String :=
  String.ofList ('0' :: 'x' :: hexDigits word)

/-- The number that a hexadecimal digit stands for. -/
def hexDigitValue (digit : Char) : Nat :=
  if digit.isDigit then digit.toNat - '0'.toNat else digit.toNat - 'a'.toNat + 10

/-- The number that a hexadecimal digit of either case stands for. -/
def hexDigit? (char : Char) : Option Nat :=
  if char.isDigit then some (char.toNat - '0'.toNat)
  else if 'a' ≤ char ∧ char ≤ 'f' then some (char.toNat - 'a'.toNat + 10)
  else if 'A' ≤ char ∧ char ≤ 'F' then some (char.toNat - 'A'.toNat + 10)
  else none

/-- The digits of a number, before which a plus sign may stand. -/
def withoutSign : List Char → List Char
  | '+' :: digits => digits
  | text => text

/-- The word that a text stands for in base 16. There must be a digit, and the number must fit into the
    word. -/
def ofHex? (text : List Char) : Option Word :=
  let digits := withoutSign text
  if digits.isEmpty then none
  else
    match digits.mapM hexDigit? with
    | none => none
    | some values =>
      let number := values.foldl (fun number value => 16 * number + value) 0
      if number < UInt32.size then some (BitVec.ofNat 32 number) else none

/-- The word that some lowercase hexadecimal digits spell. -/
def ofHexDigits (digits : List Char) : Word :=
  BitVec.ofNat 32 (digits.foldl (fun number digit => 16 * number + hexDigitValue digit) 0)

@[simp] theorem getLsbD_lowMask (count bit : Nat) :
    (lowMask count).getLsbD bit = (decide (bit < count) && decide (bit < 32)) := by
  rw [lowMask, BitVec.getLsbD_ushiftRight, BitVec.getLsbD_allOnes, ← Bool.decide_and,
    decide_eq_decide]
  omega

@[simp] theorem getLsbD_shl (word : Word) (amount bit : Nat) :
    (shl word amount).getLsbD bit =
      (decide (bit < 32) && decide (amount ≤ bit) && word.getLsbD (bit - amount)) := by
  rw [shl, BitVec.getLsbD_shiftLeft]
  by_cases small : amount < 32
  · rw [Nat.min_eq_left (Nat.le_of_lt small)]
    by_cases below : bit < amount
    · simp [below, Nat.not_le_of_lt below]
    · simp [below, Nat.le_of_not_lt below]
  · rw [Nat.min_eq_right (Nat.le_of_not_lt small)]
    by_cases inside : bit < 32
    · have above : ¬ amount ≤ bit := by omega
      simp [inside, above]
    · simp [inside]

theorem hexDigitValue_digitChar {number : Nat} (h : number < 16) :
    hexDigitValue (Nat.digitChar number) = number := by
  have all : ∀ number : Fin 16, hexDigitValue (Nat.digitChar number) = number := by decide
  exact all ⟨number, h⟩

/-- The number above a digit and the digit make the number that ends with it. -/
theorem shiftRight_digit (number shift : Nat) :
    16 * (number >>> (shift + 4)) + number >>> shift % 16 = number >>> shift := by
  rw [Nat.shiftRight_add, Nat.shiftRight_eq_div_pow (number >>> shift)]
  exact Nat.div_add_mod _ _

/-- The digits of a word spell that word. -/
@[simp] theorem ofHexDigits_hexDigits (word : Word) : ofHexDigits (hexDigits word) = word := by
  have digit (number : Nat) := hexDigitValue_digitChar (Nat.mod_lt number (by decide : 16 > 0))
  have bound := word.isLt
  have top : word.toNat >>> 28 % 16 = word.toNat >>> 28 := by
    rw [Nat.shiftRight_eq_div_pow]
    omega
  rw [ofHexDigits, hexDigits]
  simp only [List.map_cons, List.map_nil, List.foldl_cons, List.foldl_nil, digit]
  rw [Nat.mul_zero, Nat.zero_add, top, shiftRight_digit _ 24, shiftRight_digit _ 20,
    shiftRight_digit _ 16, shiftRight_digit _ 12, shiftRight_digit _ 8, shiftRight_digit _ 4,
    shiftRight_digit _ 0, Nat.shiftRight_zero, BitVec.ofNat_toNat, BitVec.setWidth_eq]

theorem length_hexDigits (word : Word) : (hexDigits word).length = 8 := rfl

end Word

end InsnEncoding
