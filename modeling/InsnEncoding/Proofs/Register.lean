import InsnEncoding.Proofs.Placement
import InsnEncoding.Proofs.Result
import InsnEncoding.Register
import Mathlib.Algebra.Order.Ring.Int

/-!
# Arithmetic in registers stays in range

Slots and transforms may be of any size, and still no shift, sum or difference that is computed for them is
past the limits of its register: `Register.computes_without_fault`. Each function in registers has one equation
with the function without them, `Register.slotMask_eq` and those behind it. Their loops run side by side
(`exists_foldlM_eq_ok`), the upper half of the register being ignored.

`Format.masks_exact` says of all slots what the masks are.
-/

namespace InsnEncoding

namespace Register

section Masks

theorem toNat_one_shiftLeft {count : Nat} (small : count < 64) : (1#64 <<< count).toNat = 2 ^ count := by
  rw [BitVec.toNat_shiftLeft, BitVec.toNat_ofNat, Nat.one_mod_two_pow (by decide), Nat.one_shiftLeft,
    Nat.mod_eq_of_lt (Nat.pow_lt_pow_right (by decide) small)]

theorem exists_ones {count : Nat} (small : count < 64) :
    ∃ mask, ones count = .ok mask ∧ mask.toNat = 2 ^ count - 1 := by
  have power := toNat_one_shiftLeft small
  have positive : (1#64).toNat ≤ (1#64 <<< count).toNat := by
    rw [power]
    exact Nat.one_le_two_pow
  refine ⟨1#64 <<< count - 1#64, ?_, ?_⟩
  · rw [ones, shiftLeft_of_lt small, ok_bind, sub_of_le positive]
  · rw [BitVec.toNat_sub_of_le positive, power]
    rfl

theorem exists_lowMask (count : UInt32) :
    ∃ mask, lowMask count = .ok mask ∧
      ∀ bit, mask.getLsbD bit = (decide (bit < count.toNat) && decide (bit < 64)) := by
  unfold lowMask
  by_cases wide : 64 ≤ count.toNat
  · rw [if_pos wide]
    refine ⟨_, rfl, fun bit => ?_⟩
    rw [BitVec.getLsbD_allOnes, ← Bool.decide_and, decide_eq_decide]
    omega
  · rw [if_neg wide]
    obtain ⟨mask, computed, value⟩ := exists_ones (Nat.lt_of_not_le wide)
    refine ⟨mask, computed, fun bit => ?_⟩
    rw [← BitVec.testBit_toNat, value, Nat.testBit_two_pow_sub_one, ← Bool.decide_and, decide_eq_decide]
    omega

/-- What is left of a run of low bits when a shorter one is taken away. -/
theorem testBit_ones_sub_ones {low high : Nat} (le : low ≤ high) (bit : Nat) :
    ((2 ^ high - 1) - (2 ^ low - 1)).testBit bit = (decide (low ≤ bit) && decide (bit < high)) := by
  have difference : (2 ^ high - 1) - (2 ^ low - 1) = 2 ^ low * (2 ^ (high - low) - 1) := by
    rw [Nat.mul_sub, ← Nat.pow_add, Nat.add_sub_cancel' le, Nat.mul_one]
    have := @Nat.one_le_two_pow low
    omega
  rw [difference, Nat.testBit_two_pow_mul, Nat.testBit_two_pow_sub_one, ← Bool.decide_and,
    ← Bool.decide_and, decide_eq_decide]
  omega

/-- A slot without bits in the word covers none of it. -/
theorem mask_eq_zero {slot : Slot} (nothing : slot.width = 0 ∨ 32 ≤ slot.offset.toNat) : slot.mask = 0 := by
  apply BitVec.eq_of_getLsbD_eq
  intro bit inWord
  have outside : ¬ slot.Covers bit := by
    rintro ⟨begins, ends⟩
    rcases nothing with empty | behind
    · rw [empty] at ends
      exact absurd ends (Nat.not_lt_of_le begins)
    · omega
  simp [outside]

/-- The mask of a slot is the difference of two runs of low bits. However large the slot is, the longer run
    has no more than 32 bits and the shorter one is part of it. -/
theorem slotMask_eq (slot : Slot) : slotMask slot = .ok slot.mask := by
  unfold slotMask
  by_cases nothing : slot.width = 0 ∨ 32 ≤ slot.offset.toNat
  · rw [if_pos nothing, mask_eq_zero nothing]
  · rw [if_neg nothing]
    obtain ⟨nonempty, inside⟩ := not_or.mp nothing
    have wide : slot.width.toNat ≠ 0 := fun zero => nonempty (UInt32.toNat_inj.mp zero)
    have size : UInt32.size = 4294967296 := rfl
    have msb : slot.msb = min (slot.offset.toNat + slot.width.toNat) (UInt32.size - 1) - 1 := rfl
    have highest : (BitVec.ofNat 64 (min slot.msb 31)).toNat = min slot.msb 31 := by
      rw [BitVec.toNat_ofNat, Nat.mod_eq_of_lt (by omega)]
    have one : (1#64).toNat = 1 := rfl
    have bits : (BitVec.ofNat 64 (min slot.msb 31) + 1#64).toNat = min slot.msb 31 + 1 := by
      rw [BitVec.toNat_add_of_lt (by omega), highest, one]
    obtain ⟨below, computedBelow, belowValue⟩ := @exists_ones slot.offset.toNat (by omega)
    obtain ⟨through, computedThrough, throughValue⟩ := @exists_ones (min slot.msb 31 + 1) (by omega)
    have nested : below.toNat ≤ through.toNat := by
      rw [belowValue, throughValue]
      exact Nat.sub_le_sub_right (Nat.pow_le_pow_right (by decide) (by omega)) 1
    rw [computedBelow, ok_bind, add_of_lt (by omega), ok_bind, bits, computedThrough, ok_bind,
      sub_of_le nested, ok_bind]
    refine congrArg Except.ok (BitVec.eq_of_getLsbD_eq fun bit inWord => ?_)
    rw [BitVec.getLsbD_setWidth, Slot.getLsbD_mask, ← BitVec.testBit_toNat, BitVec.toNat_sub_of_le nested,
      throughValue, belowValue, testBit_ones_sub_ones (by omega), ← Bool.decide_and, ← Bool.decide_and,
      ← Bool.decide_and, decide_eq_decide, Slot.Covers]
    omega

/-- To add masks one after the other from the left is to add them all. -/
theorem foldl_or_eq {ι : Type} (mask : ι → Word) (inputs : List ι) (covered : Word) :
    inputs.foldl (fun covered input => covered ||| mask input) covered =
      covered ||| inputs.foldr (fun input covered => mask input ||| covered) 0 := by
  induction inputs generalizing covered with
  | nil => exact BitVec.or_zero.symm
  | cons input rest ih => rw [List.foldl_cons, ih, List.foldr_cons, BitVec.or_assoc]

theorem operandMask_eq (operand : Operand) : operandMask operand = .ok operand.mask := by
  have each (covered : Word) (slot : Slot) :
      (do return covered ||| (← slotMask slot)) = Except.ok (ε := ArithmeticFault) (covered ||| slot.mask) := by
    rw [slotMask_eq]
    rfl
  rw [operandMask, foldlM_eq_ok each, foldl_or_eq, Operand.mask]
  exact congrArg Except.ok BitVec.zero_or

theorem formatMask_eq (format : Format) : formatMask format = .ok format.mask := by
  have each (covered : Word) (operand : Operand) :
      (do return covered ||| (← operandMask operand)) =
        Except.ok (ε := ArithmeticFault) (covered ||| operand.mask) := by
    rw [operandMask_eq]
    rfl
  rw [formatMask, foldlM_eq_ok each, foldl_or_eq, Format.mask]
  exact congrArg Except.ok BitVec.zero_or

end Masks

theorem apply_eq (transform : Transform) (value : Value) :
    apply transform value = .ok (transform.apply value) := by
  cases transform with
  | identity => rfl
  | add amount => rfl
  | shiftLeft amount =>
    rw [apply, Transform.apply]
    by_cases far : 64 ≤ amount.toNat
    · rw [if_pos far, Nat.min_eq_right far, BitVec.shiftLeft_eq_zero (Nat.le_refl 64)]
      rfl
    · have small := Nat.lt_of_not_le far
      rw [if_neg far, shiftLeft_of_lt small, Nat.min_eq_left (Nat.le_of_lt small)]

section Reading

/-- The lower half of a mask of low bits. -/
theorem exists_lowMask_word (count : UInt32) :
    ∃ mask, lowMask count = .ok mask ∧ mask.setWidth 32 = Word.lowMask count.toNat := by
  obtain ⟨mask, computed, masked⟩ := exists_lowMask count
  refine ⟨mask, computed, BitVec.eq_of_getLsbD_eq fun bit inWord => ?_⟩
  have inRegister : bit < 64 := by omega
  rw [BitVec.getLsbD_setWidth, masked, Word.getLsbD_lowMask]
  simp [inWord, inRegister]

/-- What is gathered in a register is cut to the word in the end, so only its lower half counts. -/
theorem exists_gatherSlot (word : Word) (value : BitVec 64) (slot : Slot) :
    ∃ next, gatherSlot word value slot = .ok next ∧
      next.setWidth 32 = (Word.shl (value.setWidth 32) slot.width.toNat ||| slot.get word) := by
  obtain ⟨mask, computed, masked⟩ := exists_lowMask_word slot.width
  refine ⟨value <<< min slot.width.toNat 32 |||
    (word.setWidth 64 >>> min slot.offset.toNat 31 &&& mask), ?_, ?_⟩
  · rw [gatherSlot, shiftRight_of_lt (by omega), ok_bind, computed, ok_bind, shiftLeft_of_lt (by omega),
      ok_bind]
    rfl
  · rw [BitVec.setWidth_or, BitVec.setWidth_shiftLeft_of_le (by decide), BitVec.setWidth_and, masked,
      ← BitVec.setWidth_ushiftRight (by decide), BitVec.setWidth_setWidth_of_le _ (by decide),
      BitVec.setWidth_eq, Word.shl, Slot.get]

theorem extract_eq (operand : Operand) (word : Word) :
    extract operand word = .ok (operand.extract word) := by
  have each : ∀ (value : BitVec 64) (other : Word) (slot : Slot), value.setWidth 32 = other →
      ∃ next, gatherSlot word value slot = .ok next ∧
        next.setWidth 32 = (Word.shl other slot.width.toNat ||| slot.get word) := by
    rintro value other slot rfl
    exact exists_gatherSlot word value slot
  have start : (0#64).setWidth 32 = 0#32 := rfl
  obtain ⟨last, gathered, same⟩ := exists_foldlM_eq_ok each operand.slots start
  rw [extract, gathered, ok_bind, same]
  rfl

end Reading

section Writing

theorem exists_fieldOf (value : Word) (below : Nat) (slot : Slot) :
    ∃ field, fieldOf value below slot = .ok field ∧
      field.setWidth 32 = (value >>> below) &&& Word.lowMask slot.width.toNat := by
  unfold fieldOf
  by_cases far : 32 ≤ below
  · rw [if_pos far, BitVec.ushiftRight_eq_zero far, BitVec.zero_and]
    exact ⟨_, rfl, rfl⟩
  · rw [if_neg far]
    obtain ⟨mask, computed, masked⟩ := exists_lowMask_word slot.width
    refine ⟨value.setWidth 64 >>> below &&& mask, ?_, ?_⟩
    · rw [shiftRight_of_lt (by omega), ok_bind, computed, ok_bind]
      rfl
    · rw [BitVec.setWidth_and, masked, ← BitVec.setWidth_ushiftRight (by decide),
        BitVec.setWidth_setWidth_of_le _ (by decide), BitVec.setWidth_eq]

/-- Nothing is written to a slot that begins outside the word. -/
theorem put_of_outside {slot : Slot} (outside : 32 ≤ slot.offset.toNat) (word field : Word) :
    slot.put word field = word := by
  apply BitVec.eq_of_getLsbD_eq
  intro bit inWord
  rw [Slot.getLsbD_put, if_neg]
  rintro ⟨⟨begins, -⟩, -⟩
  omega

theorem exists_scatterSlot (value : Word) (register : BitVec 64) (remaining : Nat) (slot : Slot) :
    ∃ next, scatterSlot value (register, remaining) slot = .ok (next, remaining - slot.width.toNat) ∧
      next.setWidth 32 =
        slot.put (register.setWidth 32) (value >>> (remaining - slot.width.toNat)) := by
  unfold scatterSlot
  by_cases outside : 32 ≤ slot.offset.toNat
  · refine ⟨register, ?_, (put_of_outside outside _ _).symm⟩
    simp only [outside, if_true]
    rfl
  · obtain ⟨field, computed, fieldBits⟩ := exists_fieldOf value (remaining - slot.width.toNat) slot
    refine ⟨(register &&& ~~~ slot.mask.setWidth 64) |||
      (field <<< slot.offset.toNat &&& 0xffffffff#64), ?_, ?_⟩
    · simp only [outside, if_false]
      rw [computed, ok_bind, slotMask_eq, ok_bind, shiftLeft_of_lt (by omega), ok_bind]
      rfl
    · have lowerHalf : (0xffffffff#64).setWidth 32 = BitVec.allOnes 32 := by decide
      rw [BitVec.setWidth_or, BitVec.setWidth_and, BitVec.setWidth_and, lowerHalf, BitVec.and_allOnes,
        BitVec.setWidth_shiftLeft_of_le (by decide), fieldBits, BitVec.setWidth_not (by decide),
        BitVec.setWidth_setWidth_of_le _ (by decide), BitVec.setWidth_eq, Slot.put, Word.shl,
        Nat.min_eq_left (by omega)]

theorem exists_scatter (value : Word) (slots : List Slot) (register : BitVec 64) (remaining : Nat) :
    ∃ last, slots.foldlM (scatterSlot value) (register, remaining) = .ok last ∧
      last.1.setWidth 32 = Operand.scatter value remaining slots (register.setWidth 32) := by
  induction slots generalizing register remaining with
  | nil => exact ⟨_, rfl, rfl⟩
  | cons slot rest ih =>
    obtain ⟨next, here, written⟩ := exists_scatterSlot value register remaining slot
    obtain ⟨last, later, same⟩ := ih next (remaining - slot.width.toNat)
    refine ⟨last, ?_, ?_⟩
    · rw [List.foldlM_cons, here, ok_bind, later]
    · rw [same, written, Operand.scatter]

theorem insert_eq (operand : Operand) (word value : Word) :
    insert operand word value = .ok (operand.insert word value) := by
  obtain ⟨last, scattered, same⟩ :=
    exists_scatter value operand.slots (word.setWidth 64) operand.totalWidth
  rw [BitVec.setWidth_setWidth_of_le _ (by decide), BitVec.setWidth_eq] at same
  rw [insert, scattered, ok_bind, Operand.insert, ← same]
  rfl

theorem encode_eq (format : Format) (base : Word) (values : List Word) :
    encode format base values = .ok (format.encode base values) := by
  have each (word : Word) (entry : Operand × Word) :
      insert entry.1 word entry.2 = .ok (entry.1.insert word entry.2) := insert_eq entry.1 word entry.2
  unfold encode Format.encode
  split
  · rw [foldlM_eq_ok each, ok_bind]
    rfl
  · rfl

end Writing

section Values

/-- A word less a power of two that is no larger than the word's size is far from the ends of the register. -/
theorem subSigned_one_shiftLeft (raw : Word) {width : Nat} (small : width ≤ 32) :
    subSigned (raw.setWidth 64) (1#64 <<< width) = .ok (raw.setWidth 64 - 1#64 <<< width) := by
  have bound := raw.isLt
  have minuend : (raw.setWidth 64).toInt = (raw.toNat : Int) := by
    rw [BitVec.toInt_eq_toNat_of_lt (by rw [BitVec.toNat_setWidth_of_le (by decide)]; omega),
      BitVec.toNat_setWidth_of_le (by decide)]
  have subtrahend : (1#64 <<< width).toInt = 2 ^ width := by
    rw [← BitVec.twoPow_eq, BitVec.toInt_twoPow, if_neg (by omega), if_neg (by omega)]
  have most : (2 ^ width : Int) ≤ 2 ^ 32 := pow_le_pow_right₀ (by decide) small
  have positive : (0 : Int) < 2 ^ width := pow_pos (by decide) width
  exact subSigned_of_bounds (by rw [minuend, subtrahend]; omega) (by rw [minuend, subtrahend]; omega)

/-- To test the highest bit and to take twice its worth from the value is to extend the sign. A value that has
    the bit has it inside the word, whatever width is told. -/
theorem extend_eq (raw : Word) {width : Nat} (wide : 1 ≤ width) (narrow : width < 64) :
    extend (raw.setWidth 64) width =
      .ok (if (raw.setWidth 64).getLsbD (width - 1) then raw.setWidth 64 - 1#64 <<< width
        else raw.setWidth 64) := by
  have number : (BitVec.ofNat 32 width).toNat = width := by
    rw [BitVec.toNat_ofNat, Nat.mod_eq_of_lt (by omega)]
  have one : (1#32).toNat = 1 := rfl
  have top : (BitVec.ofNat 32 width - 1#32).toNat = width - 1 := by
    rw [BitVec.toNat_sub_of_le (by rw [BitVec.le_def]; omega), number, one]
  have sign : raw.setWidth 64 &&& 1#64 <<< (width - 1) =
      if (raw.setWidth 64).getLsbD (width - 1) then 1#64 <<< (width - 1) else 0 := BitVec.and_twoPow _ _
  rw [extend, sub_of_le (by omega), ok_bind, top, shiftLeft_of_lt (by omega), ok_bind, sign]
  by_cases negative : (raw.setWidth 64).getLsbD (width - 1)
  · have inWord : width - 1 < 32 := by
      rw [BitVec.getLsbD_setWidth, Bool.and_eq_true] at negative
      exact BitVec.lt_of_getLsbD negative.2
    have nonzero : 1#64 <<< (width - 1) ≠ 0 := by
      intro zero
      have power := @toNat_one_shiftLeft (width - 1) (by omega)
      rw [zero] at power
      exact absurd power.symm (Nat.two_pow_pos _).ne'
    have twice : 1#64 <<< (width - 1) <<< 1 = 1#64 <<< width := by
      rw [← BitVec.shiftLeft_add, Nat.sub_add_cancel wide]
    rw [if_pos negative, if_pos negative, if_neg nonzero, shiftLeft_of_lt (by decide), ok_bind, twice]
    exact subSigned_one_shiftLeft raw (by omega)
  · rw [if_neg negative, if_neg negative]
    rfl

theorem decode_eq (operand : Operand) (word : Word) :
    decode operand word = .ok (operand.decode word) := by
  rw [decode, extract_eq, ok_bind, Operand.decode]
  by_cases signed : operand.kind = .signedImmediate ∧ 1 ≤ operand.totalWidth ∧ operand.totalWidth < 64
  · obtain ⟨kind, wide, narrow⟩ := signed
    have top : (operand.kind = .signedImmediate ∧ 0 < operand.totalWidth ∧
        ((operand.extract word).setWidth 64).getLsbD (operand.totalWidth - 1)) ↔
          ((operand.extract word).setWidth 64).getLsbD (operand.totalWidth - 1) :=
      ⟨fun all => all.2.2, fun bit => ⟨kind, wide, bit⟩⟩
    simp only [if_pos (And.intro kind (And.intro wide narrow)), extend_eq _ wide narrow, ok_bind, apply_eq,
      top]
  · have unsigned : ¬ (operand.kind = .signedImmediate ∧ 0 < operand.totalWidth ∧
        ((operand.extract word).setWidth 64).getLsbD (operand.totalWidth - 1)) := by
      rintro ⟨kind, wide, bit⟩
      rw [BitVec.getLsbD_setWidth, Bool.and_eq_true] at bit
      have inWord := BitVec.lt_of_getLsbD bit.2
      exact signed ⟨kind, wide, by omega⟩
    simp only [if_neg signed, if_neg unsigned]
    exact apply_eq _ _

end Values

/-- No computation in registers meets a fault, whatever the slots, the transforms and the words are: every
    shift is by fewer bits than the register has, and every sum and difference is a number of its type. The
    results are the masks, the operands and the words that the functions without registers give. -/
theorem computes_without_fault :
    (∀ slot : Slot, slotMask slot = .ok slot.mask) ∧
    (∀ operand : Operand, operandMask operand = .ok operand.mask) ∧
    (∀ count : UInt32, ∃ mask, lowMask count = .ok mask ∧
      ∀ bit, mask.getLsbD bit = (decide (bit < count.toNat) && decide (bit < 64))) ∧
    (∀ (operand : Operand) (word : Word), extract operand word = .ok (operand.extract word)) ∧
    (∀ (operand : Operand) (word value : Word),
      insert operand word value = .ok (operand.insert word value)) ∧
    (∀ (operand : Operand) (word : Word), decode operand word = .ok (operand.decode word)) ∧
    (∀ (transform : Transform) (value : Value), apply transform value = .ok (transform.apply value)) ∧
    ∀ (format : Format) (base : Word) (values : List Word),
      encode format base values = .ok (format.encode base values) :=
  ⟨slotMask_eq, operandMask_eq, exists_lowMask, extract_eq, insert_eq, decode_eq, apply_eq, encode_eq⟩

end Register

namespace Format

/-- The mask of a format, as it is computed in registers, has those bits of the word that a slot of an operand
    covers, and the fixed mask has the others. This holds of slots of any size: where the highest bit of a slot
    is no 32-bit number or lies behind the word, no bit of the word is lost or added. -/
theorem masks_exact (format : Format) :
    Register.formatMask format = .ok format.mask ∧
    ∀ bit : Nat,
      (format.mask.getLsbD bit ↔ bit < 32 ∧ ∃ operand ∈ format.operands, ∃ slot ∈ operand.slots,
        slot.offset.toNat ≤ bit ∧ bit < slot.offset.toNat + slot.width.toNat) ∧
      (format.fixedMask.getLsbD bit ↔ bit < 32 ∧ ¬ ∃ operand ∈ format.operands, ∃ slot ∈ operand.slots,
        slot.offset.toNat ≤ bit ∧ bit < slot.offset.toNat + slot.width.toNat) := by
  refine ⟨Register.formatMask_eq format, fun bit => ?_⟩
  have covered : format.mask.getLsbD bit ↔ bit < 32 ∧ ∃ operand ∈ format.operands,
      ∃ slot ∈ operand.slots, slot.Covers bit := by
    rw [getLsbD_mask, Bool.and_eq_true, decide_eq_true_eq, decide_eq_true_eq]
  refine ⟨covered, ?_⟩
  rw [fixedMask, BitVec.getLsbD_not, Bool.and_eq_true, decide_eq_true_eq, Bool.not_eq_true',
    ← Bool.not_eq_true, covered, not_and]
  exact ⟨fun both => ⟨both.1, both.2 both.1⟩, fun both => ⟨both.1, fun _ => both.2⟩⟩

example : Register.formatMask ⟨[⟨.unsignedImmediate, [⟨4, 0xFFFFFFFF⟩], .identity⟩]⟩ = .ok 0xFFFFFFF0 := by
  decide

end Format

end InsnEncoding
