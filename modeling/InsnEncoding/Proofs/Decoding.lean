import InsnEncoding.Proofs.Placement
import Mathlib.Data.Nat.ModEq
import Mathlib.Tactic.Positivity

/-!
# The value of an operand

The bits that are read from an operand stand for a number, which may be negative if the operand is a signed
immediate (`Kind.number`), and a transform makes a value of it (`Transform.onNumber`).
`Operand.decode_insert_exact` says that `decode` computes just this, without wrapping around unless bits are
shifted out of 64.

A value tells a number up to a multiple of a power of two (`Transform.apply_ofInt_eq_iff`), and a number tells
the bits it stands for up to a multiple of another (`Kind.dvd_number_sub`). Which of the two is larger decides
whether the bits can be had back from the value: `Operand.decode_lossless_iff`.
-/

namespace InsnEncoding

namespace Value

/-- Two numbers have the same lowest 64 bits exactly if they differ by a multiple of `2 ^ 64`. -/
theorem ofInt_eq_ofInt_iff {first second : Int} :
    (BitVec.ofInt 64 first : Value) = BitVec.ofInt 64 second ↔ (2 ^ 64 : Int) ∣ first - second := by
  rw [← BitVec.toInt_inj, BitVec.toInt_ofInt, BitVec.toInt_ofInt,
    Int.bmod_eq_bmod_iff_bmod_sub_eq_zero, ← Int.dvd_iff_bmod_eq_zero]
  rfl

theorem ofInt_shiftLeft (number : Int) (amount : Nat) :
    (BitVec.ofInt 64 number : Value) <<< amount = BitVec.ofInt 64 (number * 2 ^ amount) := by
  have power : BitVec.ofInt 64 (2 ^ amount) = BitVec.twoPow 64 amount := by
    rw [← BitVec.toNat_inj, BitVec.toNat_twoPow]
    norm_cast
  rw [BitVec.ofInt_mul, power, BitVec.shiftLeft_eq_mul_twoPow]

end Value

namespace Kind

/-- The number that the bits of an operand stand for. Those of a signed immediate are in two's complement. -/
def number (kind : Kind) (width raw : Nat) : Int :=
  if kind = .signedImmediate ∧ raw.testBit (width - 1) then raw - 2 ^ width else raw

theorem number_bounds (kind : Kind) {width raw : Nat} (narrow : raw < 2 ^ width) :
    -(2 ^ width : Int) ≤ kind.number width raw ∧ kind.number width raw < (2 ^ width : Int) := by
  have below : (raw : Int) < 2 ^ width := by exact_mod_cast narrow
  rw [number]
  split <;> omega

/-- A number differs from its bits, read without a sign, by a multiple of `2 ^ width`. -/
theorem dvd_number_sub (kind : Kind) (width raw : Nat) :
    (2 ^ width : Int) ∣ kind.number width raw - raw := by
  rw [number]
  split
  · exact ⟨-1, by omega⟩
  · exact ⟨0, by omega⟩

/-- Two numbers of one width agree in some of their lowest bits exactly if the bits they stand for do. -/
theorem dvd_number_sub_number_iff (kind : Kind) {width kept : Nat} (within : kept ≤ width)
    (first second : Nat) :
    (2 ^ kept : Int) ∣ kind.number width first - kind.number width second ↔
      (2 ^ kept : Int) ∣ (first : Int) - second := by
  have divides : (2 ^ kept : Int) ∣ 2 ^ width := pow_dvd_pow 2 within
  have change := Int.dvd_sub (Int.dvd_trans divides (kind.dvd_number_sub width first))
    (Int.dvd_trans divides (kind.dvd_number_sub width second))
  have split : kind.number width first - kind.number width second =
      (kind.number width first - first - (kind.number width second - second)) +
        ((first : Int) - second) := by omega
  rw [split, Int.dvd_add_right change]

end Kind

namespace Transform

/-- What a transform makes of a number: a sum is exact, and a multiple is cut to 64 bits in two's
    complement. -/
def onNumber : Transform → Int → Int
  | .identity, number => number
  | .add amount, number => number + amount.toNat
  | .shiftLeft amount, number => (number * 2 ^ amount.toNat).bmod (2 ^ 64)

/-- How many of the lowest bits of a number can be told from its value. -/
def keptBits : Transform → Nat
  | .shiftLeft amount => 64 - amount.toNat
  | _ => 64

theorem apply_add_ofInt (amount : UInt32) (number : Int) :
    (Transform.add amount).apply (BitVec.ofInt 64 number) = BitVec.ofInt 64 (number + amount.toNat) := by
  rw [apply, BitVec.ofInt_add, BitVec.ofInt_natCast]

theorem apply_shiftLeft_ofInt (amount : UInt32) (number : Int) :
    (Transform.shiftLeft amount).apply (BitVec.ofInt 64 number) =
      BitVec.ofInt 64 (number * 2 ^ amount.toNat) := by
  rw [← Value.ofInt_shiftLeft, apply]
  by_cases small : amount.toNat ≤ 64
  · rw [Nat.min_eq_left small]
  · rw [Nat.min_eq_right (by omega), BitVec.shiftLeft_eq_zero (Nat.le_refl 64),
      BitVec.shiftLeft_eq_zero (by omega)]

/-- Numbers of at most 32 bits and a sign are far from the ends of the range, so that no sum leaves it. -/
theorem toInt_apply_ofInt (transform : Transform) {number : Int} (lower : -(2 ^ 32 : Int) ≤ number)
    (upper : number < (2 ^ 32 : Int)) :
    (transform.apply (BitVec.ofInt 64 number)).toInt = transform.onNumber number := by
  cases transform with
  | identity =>
    rw [apply, BitVec.toInt_ofInt]
    exact Int.bmod_eq_of_le (by omega) (by omega)
  | add amount =>
    have bound : amount.toNat < 2 ^ 32 := amount.toNat_lt
    rw [apply_add_ofInt, BitVec.toInt_ofInt]
    exact Int.bmod_eq_of_le (by omega) (by omega)
  | shiftLeft amount => rw [apply_shiftLeft_ofInt, BitVec.toInt_ofInt, onNumber]

/-- A value determines the number it was made of up to a multiple of `2 ^ keptBits`. -/
theorem apply_ofInt_eq_iff (transform : Transform) {first second : Int} :
    transform.apply (BitVec.ofInt 64 first) = transform.apply (BitVec.ofInt 64 second) ↔
      (2 ^ transform.keptBits : Int) ∣ first - second := by
  cases transform with
  | identity => exact Value.ofInt_eq_ofInt_iff
  | add amount =>
    rw [apply_add_ofInt, apply_add_ofInt, Value.ofInt_eq_ofInt_iff, Int.add_sub_add_right]
    rfl
  | shiftLeft amount =>
    rw [apply_shiftLeft_ofInt, apply_shiftLeft_ofInt, Value.ofInt_eq_ofInt_iff, ← Int.sub_mul, keptBits]
    by_cases small : amount.toNat ≤ 64
    · have power : (2 ^ 64 : Int) = 2 ^ (64 - amount.toNat) * 2 ^ amount.toNat := by
        rw [← Int.pow_add, Nat.sub_add_cancel small]
      rw [power, Int.mul_dvd_mul_iff_right (by positivity)]
    · have divides : (2 ^ 64 : Int) ∣ 2 ^ amount.toNat := pow_dvd_pow 2 (by omega)
      rw [Nat.sub_eq_zero_of_le (by omega), Int.pow_zero]
      exact iff_of_true (Int.dvd_mul_of_dvd_right divides) (Int.one_dvd _)

/-- Of at most 64 bits, only a shift past the 64th loses any. -/
theorem le_keptBits_iff (transform : Transform) {width : Nat} (wide : 1 ≤ width)
    (narrow : width ≤ 64) :
    width ≤ transform.keptBits ↔
      ¬ ∃ amount, transform = .shiftLeft amount ∧ 64 < amount.toNat + width := by
  cases transform with
  | identity => simpa [keptBits] using narrow
  | add amount => simpa [keptBits] using narrow
  | shiftLeft amount =>
    have fits : width ≤ 64 - amount.toNat ↔ ¬ 64 < amount.toNat + width := by omega
    simpa [keptBits] using fits

end Transform

namespace Operand

/-- The number that the operand's bits of a word stand for. -/
def number (operand : Operand) (word : Word) : Int :=
  operand.kind.number operand.totalWidth (operand.extract word).toNat

theorem number_bounds {operand : Operand} (placed : operand.Placed) (word : Word) :
    -(2 ^ 32 : Int) ≤ operand.number word ∧ operand.number word < (2 ^ 32 : Int) := by
  have bounds : -(2 ^ operand.totalWidth : Int) ≤ operand.number word ∧
      operand.number word < (2 ^ operand.totalWidth : Int) :=
    operand.kind.number_bounds (extract_lt placed word)
  have power : (2 ^ operand.totalWidth : Int) ≤ 2 ^ 32 :=
    pow_le_pow_right₀ (by decide) placed.totalWidth_le
  omega

/-- To decode is to extend the sign and then to apply the transform. -/
theorem decode_eq_apply {operand : Operand} (valid : operand.validate = .ok ()) (word : Word) :
    operand.decode word = operand.transform.apply (BitVec.ofInt 64 (operand.number word)) := by
  have wide := one_le_totalWidth valid
  have raw : (operand.extract word).setWidth 64 =
      BitVec.ofInt 64 ((operand.extract word).toNat : Int) := by
    rw [BitVec.ofInt_natCast, BitVec.ofNat_toNat]
  have top : ((operand.extract word).setWidth 64).getLsbD (operand.totalWidth - 1) =
      (operand.extract word).toNat.testBit (operand.totalWidth - 1) := by
    rw [← BitVec.testBit_toNat, BitVec.toNat_setWidth_of_le (by decide)]
  have sign : 1#64 <<< operand.totalWidth = BitVec.ofInt 64 (2 ^ operand.totalWidth) := by
    rw [← Int.one_mul (2 ^ operand.totalWidth), ← Value.ofInt_shiftLeft]
    rfl
  rw [decode, number, Kind.number, top]
  by_cases negative : operand.kind = .signedImmediate ∧
      (operand.extract word).toNat.testBit (operand.totalWidth - 1)
  · rw [if_pos ⟨negative.1, wide, negative.2⟩, if_pos negative, raw, sign, BitVec.sub_eq_add_neg,
      ← BitVec.ofInt_neg, ← BitVec.ofInt_add, Int.sub_eq_add_neg]
  · rw [if_neg fun both => negative ⟨both.1, both.2.2⟩, if_neg negative, raw]

theorem toInt_decode {operand : Operand} (valid : operand.validate = .ok ()) (word : Word) :
    (operand.decode word).toInt = operand.transform.onNumber (operand.number word) := by
  obtain ⟨lower, upper⟩ := number_bounds (placed_of_validate valid) word
  rw [decode_eq_apply valid, operand.transform.toInt_apply_ofInt lower upper]

/-- The number in an operand that was written is that of the lowest bits of what was written. -/
theorem number_insert {operand : Operand} (placed : operand.Placed) (word value : Word) :
    operand.number (operand.insert word value) =
      operand.kind.number operand.totalWidth (value.toNat % 2 ^ operand.totalWidth) := by
  rw [number, extract_insert placed, Word.toNat_and_lowMask]

/-- To decode what was written to a valid operand gives the number that its lowest bits stand for, as many
    of them as the operand has: the number itself, the exact sum of it and an amount, or the lowest 64 bits
    of a multiple of it, in two's complement. -/
theorem decode_insert_exact {operand : Operand} (valid : operand.validate = .ok ())
    (word value : Word) :
    (operand.decode (operand.insert word value)).toInt =
      operand.transform.onNumber
        (operand.kind.number operand.totalWidth (value.toNat % 2 ^ operand.totalWidth)) := by
  rw [toInt_decode valid, number_insert (placed_of_validate valid)]

/-- A signed immediate as wide as the word, in two slots, whose value is shifted far to the left. -/
def wideShifted : Operand :=
  ⟨.signedImmediate, [⟨0, 16⟩, ⟨16, 16⟩], .shiftLeft 40⟩

theorem decode_insert_exact_wideShifted : wideShifted.validate = .ok () ∧
    (wideShifted.decode (wideShifted.insert 0 0x80000001)).toInt =
      ((1 - 2 ^ 31 : Int) * 2 ^ 40).bmod (2 ^ 64) := by
  have valid : wideShifted.validate = .ok () := by decide
  exact ⟨valid, (decode_insert_exact valid 0 0x80000001).trans (by decide)⟩

/-- Two words have one value in an operand exactly if their numbers agree in the bits that the transform
    keeps. -/
theorem decode_eq_iff {operand : Operand} (valid : operand.validate = .ok ()) {first second : Word} :
    operand.decode first = operand.decode second ↔
      (2 ^ operand.transform.keptBits : Int) ∣ operand.number first - operand.number second := by
  rw [decode_eq_apply valid, decode_eq_apply valid, Transform.apply_ofInt_eq_iff]

/-- If the transform keeps as many bits as the operand has, none is lost. -/
theorem extract_eq_of_decode_eq {operand : Operand} (valid : operand.validate = .ok ())
    (kept : operand.totalWidth ≤ operand.transform.keptBits) {first second : Word}
    (same : operand.decode first = operand.decode second) :
    operand.extract first = operand.extract second := by
  have placed := placed_of_validate valid
  have divides : (2 ^ operand.totalWidth : Int) ∣ 2 ^ operand.transform.keptBits :=
    pow_dvd_pow 2 kept
  have numbers := Int.dvd_trans divides ((decode_eq_iff valid).mp same)
  have raws := (operand.kind.dvd_number_sub_number_iff (Nat.le_refl _) _ _).mp numbers
  have congruent : (operand.extract second).toNat ≡ (operand.extract first).toNat
      [MOD 2 ^ operand.totalWidth] := by
    rw [Nat.modEq_iff_dvd, Nat.cast_pow]
    exact raws
  apply BitVec.eq_of_toNat_eq
  exact (congruent.eq_of_lt_of_lt (extract_lt placed second) (extract_lt placed first)).symm

/-- If the transform keeps fewer bits than the operand has, the lowest bit that it does not keep may be
    set or not without a change of the value. -/
theorem exists_decode_eq_of_lt {operand : Operand} (valid : operand.validate = .ok ())
    (lost : operand.transform.keptBits < operand.totalWidth) :
    ∃ first second, operand.decode first = operand.decode second ∧
      operand.extract first ≠ operand.extract second := by
  have placed := placed_of_validate valid
  have narrow := placed.totalWidth_le
  have bit : (BitVec.twoPow 32 operand.transform.keptBits).toNat % 2 ^ operand.totalWidth =
      2 ^ operand.transform.keptBits := by
    have inWord : 2 ^ operand.transform.keptBits < 2 ^ 32 := Nat.pow_lt_pow_right (by decide) (by omega)
    have inOperand := Nat.pow_lt_pow_right (by decide : 1 < 2) lost
    rw [BitVec.toNat_twoPow, Nat.mod_eq_of_lt inWord, Nat.mod_eq_of_lt inOperand]
  -- The bit stands for a multiple of a power of two that the value does not tell from zero.
  refine ⟨operand.insert 0 (BitVec.twoPow 32 operand.transform.keptBits), operand.insert 0 0, ?_, ?_⟩
  · rw [decode_eq_iff valid, number_insert placed, number_insert placed, bit,
      operand.kind.dvd_number_sub_number_iff (Nat.le_of_lt lost)]
    simp
  · intro same
    have numbers := congrArg BitVec.toNat same
    rw [extract_insert placed, extract_insert placed, Word.toNat_and_lowMask, Word.toNat_and_lowMask,
      bit] at numbers
    simp at numbers

/-- The value of a valid operand determines its bits, unless it is shifted so far that the highest of them
    leaves the 64 bits. -/
theorem decode_lossless_iff {operand : Operand} (valid : operand.validate = .ok ()) :
    (∀ first second, operand.decode first = operand.decode second →
      operand.extract first = operand.extract second) ↔
    ¬ ∃ amount, operand.transform = .shiftLeft amount ∧
      64 < amount.toNat + operand.totalWidth := by
  have placed := placed_of_validate valid
  have narrow : operand.totalWidth ≤ 64 := Nat.le_trans placed.totalWidth_le (by decide)
  rw [← operand.transform.le_keptBits_iff (one_le_totalWidth valid) narrow]
  constructor
  · intro lossless
    by_contra lost
    obtain ⟨first, second, same, different⟩ := exists_decode_eq_of_lt valid (Nat.lt_of_not_le lost)
    exact different (lossless first second same)
  · intro kept first second same
    exact extract_eq_of_decode_eq valid kept same

/-- A signed offset of 14 bits, shifted to the left. -/
def shifted (amount : UInt32) : Operand :=
  ⟨.signedImmediate, [⟨10, 14⟩], .shiftLeft amount⟩

theorem decode_lossless_iff_shifted :
    ((shifted 50).validate = .ok () ∧
      ∀ first second, (shifted 50).decode first = (shifted 50).decode second →
        (shifted 50).extract first = (shifted 50).extract second) ∧
    (shifted 51).validate = .ok () ∧
      ¬ ∀ first second, (shifted 51).decode first = (shifted 51).decode second →
        (shifted 51).extract first = (shifted 51).extract second := by
  have validAtEdge : (shifted 50).validate = .ok () := by decide
  have validPastEdge : (shifted 51).validate = .ok () := by decide
  refine ⟨⟨validAtEdge, (decode_lossless_iff validAtEdge).mpr ?_⟩, validPastEdge, ?_⟩
  · rintro ⟨amount, same, past⟩
    cases same
    exact absurd past (by decide)
  · exact fun lossless => (decode_lossless_iff validPastEdge).mp lossless ⟨51, rfl, by decide⟩

end Operand

end InsnEncoding
