import InsnEncoding.Numeral
import InsnEncoding.Position
import InsnEncoding.Word

/-!
# Slots: contiguous bits of an instruction word

A slot is `width` bits from bit `offset` upwards, bit 0 being the least significant. Any two
32-bit numbers make a slot; `Slot.fault?` says what is wrong with one that does not lie inside the
word, and every other function is total in the faulty ones as well.

`getLsbD_mask`, `getLsbD_get` and `getLsbD_put` give each operation bit by bit.
-/

namespace InsnEncoding

/-- The bits `offset, …, offset + width - 1` of a word. -/
structure Slot where
  offset : UInt32
  width : UInt32
  deriving DecidableEq

/-- Why a slot does not lie inside the word. -/
inductive SlotFault where
  | offsetOutsideWord
  | zeroWidth
  | spansBeyondWord
  deriving DecidableEq

/-- The wording of a slot's fault. -/
def SlotFault.reason : SlotFault → String
  | .offsetOutsideWord => "offset exceeds bit 31"
  | .zeroWidth => "width is zero"
  | .spansBeyondWord => "slot spans beyond insn word"

namespace Slot

/-- The slot covers a bit, counted without any upper limit. -/
def Covers (slot : Slot) (bit : Nat) : Prop :=
  slot.offset.toNat ≤ bit ∧ bit < slot.offset.toNat + slot.width.toNat

instance (slot : Slot) (bit : Nat) : Decidable (slot.Covers bit) :=
  inferInstanceAs (Decidable (_ ∧ _))

/-- The slot has at least one bit and all its bits are bits of the word. -/
def Fits (slot : Slot) : Prop :=
  slot.offset.toNat < 32 ∧ 1 ≤ slot.width.toNat ∧ slot.offset.toNat + slot.width.toNat ≤ 32

instance (slot : Slot) : Decidable slot.Fits :=
  inferInstanceAs (Decidable (_ ∧ _ ∧ _))

/-- The index of the highest bit of the slot. The sum of offset and width stops at the largest
    32-bit number, and an empty slot at bit 0 has index 0. -/
def msb (slot : Slot) : Nat :=
  min (slot.offset.toNat + slot.width.toNat) (UInt32.size - 1) - 1

/-- What is wrong with a slot, the offset being looked at before the width. -/
def fault? (slot : Slot) : Option SlotFault :=
  if 32 ≤ slot.offset.toNat then some .offsetOutsideWord
  else if slot.width = 0 then some .zeroWidth
  else if 32 ≤ slot.msb then some .spansBeyondWord
  else none

/-- The bits of the word that the slot covers. -/
def mask (slot : Slot) : Word :=
  if slot.width = 0 then 0
  else Word.lowMask (slot.msb + 1) &&& ~~~ Word.lowMask slot.offset.toNat

/-- Read the slot's bits of a word, moved down to bit 0. A slot that starts outside the word is read
    from the word's highest bit. -/
def get (slot : Slot) (word : Word) : Word :=
  (word >>> min slot.offset.toNat 31) &&& Word.lowMask slot.width.toNat

/-- Write the lowest bits of `field` into the slot's bits of a word. Bits past the word are lost. -/
def put (slot : Slot) (word field : Word) : Word :=
  (word &&& ~~~ slot.mask) |||
    Word.shl (field &&& Word.lowMask slot.width.toNat) slot.offset.toNat

/-- The number of bits of some slots together. -/
def widthSum : List Slot → Nat
  | [] => 0
  | slot :: rest => slot.width.toNat + widthSum rest

/-- The letter of a slot's position, or a question mark where there is none. -/
def mark (slot : Slot) : Char :=
  (fieldLetters.letter? slot.offset).getD '?'

/-- A slot in the text of a format: the letter of its position, then its width. -/
def spell (slot : Slot) : List Char :=
  slot.mark :: Numeral.write slot.width

/-- The text of a slot by itself, for instance `k16`. -/
def repr (slot : Slot) : String :=
  String.ofList slot.spell

/-- A slot in a message. One that has no spelling is shown by its two numbers. -/
def display (slot : Slot) : String :=
  if slot.fault? = none ∧ (fieldLetters.letter? slot.offset).isSome then s!"<Slot {slot.repr}>"
  else s!"<invalid Slot offset={slot.offset.toNat} width={slot.width.toNat}>"

/-- The two numbers of a slot, as the display of a faulty operand lists them. -/
def fields (slot : Slot) : String :=
  s!"Slot \x7b offset: {slot.offset.toNat}, width: {slot.width.toNat} \x7d"

@[simp] theorem widthSum_nil : widthSum [] = 0 := rfl

@[simp] theorem widthSum_cons (slot : Slot) (rest : List Slot) :
    widthSum (slot :: rest) = slot.width.toNat + widthSum rest := rfl

@[simp] theorem widthSum_append (before behind : List Slot) :
    widthSum (before ++ behind) = widthSum before + widthSum behind := by
  induction before with
  | nil => simp
  | cons slot rest ih => simp [ih, Nat.add_assoc]

theorem fault?_eq_none_iff {slot : Slot} : slot.fault? = none ↔ slot.Fits := by
  have size : UInt32.size = 4294967296 := rfl
  have nonzero : slot.width = 0 ↔ slot.width.toNat = 0 := UInt32.toNat_inj.symm
  rw [fault?, msb, Fits]
  by_cases outside : 32 ≤ slot.offset.toNat
  · rw [if_pos outside]
    simp only [reduceCtorEq, false_iff]
    omega
  · by_cases empty : slot.width.toNat = 0
    · rw [if_neg outside, if_pos (nonzero.mpr empty)]
      simp only [reduceCtorEq, false_iff]
      omega
    · by_cases beyond : 32 ≤ min (slot.offset.toNat + slot.width.toNat) (UInt32.size - 1) - 1
      · rw [if_neg outside, if_neg (mt nonzero.mp empty), if_pos beyond]
        simp only [reduceCtorEq, false_iff]
        omega
      · rw [if_neg outside, if_neg (mt nonzero.mp empty), if_neg beyond]
        simp only [true_iff]
        omega

/-- The mask holds exactly the bits of the word that the slot covers, however large its numbers. -/
@[simp] theorem getLsbD_mask (slot : Slot) (bit : Nat) :
    slot.mask.getLsbD bit = (decide (bit < 32) && decide (slot.Covers bit)) := by
  have size : UInt32.size = 4294967296 := rfl
  have nonzero : slot.width = 0 ↔ slot.width.toNat = 0 := UInt32.toNat_inj.symm
  rw [Bool.eq_iff_iff, Bool.and_eq_true, decide_eq_true_eq, decide_eq_true_eq, Covers, mask, msb]
  by_cases empty : slot.width.toNat = 0
  · rw [if_pos (nonzero.mpr empty)]
    simp only [BitVec.ofNat_eq_ofNat, BitVec.getLsbD_zero, Bool.false_eq_true, false_iff]
    omega
  · rw [if_neg (mt nonzero.mp empty)]
    simp only [BitVec.getLsbD_and, BitVec.getLsbD_not, Word.getLsbD_lowMask, Bool.and_eq_true,
      decide_eq_true_eq, Bool.not_eq_true', Bool.and_eq_false_iff, decide_eq_false_iff_not]
    omega

@[simp] theorem getLsbD_get (slot : Slot) (word : Word) (bit : Nat) :
    (slot.get word).getLsbD bit =
      (word.getLsbD (min slot.offset.toNat 31 + bit) && decide (bit < slot.width.toNat)) := by
  rw [get, BitVec.getLsbD_and, BitVec.getLsbD_ushiftRight, Word.getLsbD_lowMask]
  by_cases inside : bit < 32
  · simp [inside]
  · rw [BitVec.getLsbD_of_ge word _ (by omega)]
    simp

@[simp] theorem getLsbD_put (slot : Slot) (word field : Word) (bit : Nat) :
    (slot.put word field).getLsbD bit =
      if slot.Covers bit ∧ bit < 32 then field.getLsbD (bit - slot.offset.toNat)
      else word.getLsbD bit := by
  rw [put, BitVec.getLsbD_or, BitVec.getLsbD_and, BitVec.getLsbD_not, getLsbD_mask,
    Word.getLsbD_shl, BitVec.getLsbD_and, Word.getLsbD_lowMask]
  by_cases inside : bit < 32
  · by_cases covered : slot.Covers bit
    · have below : bit - slot.offset.toNat < slot.width.toNat := by
        have := covered.1
        have := covered.2
        omega
      have near : bit - slot.offset.toNat < 32 := by omega
      simp [inside, covered, covered.1, below, near]
    · by_cases above : slot.offset.toNat ≤ bit
      · have past : ¬ bit - slot.offset.toNat < slot.width.toNat := by
          intro below
          exact covered ⟨above, by omega⟩
        simp [inside, covered, above, past]
      · simp [inside, covered, above]
  · simp [inside, BitVec.getLsbD_of_ge word bit (by omega)]

end Slot

end InsnEncoding
