import InsnEncoding.Proofs.Validity
import Mathlib.Data.Finset.Card
import Mathlib.Order.Interval.Finset.Nat

/-!
# Where the bits of an operand are

Slots are placed if each lies inside the word and no two share a bit; those of a valid operand and of a
valid format are. A slot of placed slots stands between those before it and those after it, and the
slots after it hold the bits below its own: bit `bit` of the slot is bit
`Slot.widthSum behind + bit` of the operand. `getLsbD_extract_of_split` and `getLsbD_insert_of_split`
say so of reading and of writing, and every bit of the operand is found in this way
(`Slot.exists_split_of_lt_widthSum`).

The law between reading and writing is `Operand.extract_insert`, and what writing leaves alone is
`Operand.getLsbD_insert_of_not_covers`. `Operand.bits_in_slot_order` says all of it for a valid operand.
-/

namespace InsnEncoding

/-- To mask a word is to reduce it modulo a power of two. -/
theorem Word.toNat_and_lowMask (word : Word) (count : Nat) :
    (word &&& Word.lowMask count).toNat = word.toNat % 2 ^ count := by
  apply Nat.eq_of_testBit_eq
  intro bit
  rw [BitVec.testBit_toNat, BitVec.getLsbD_and, Word.getLsbD_lowMask, Nat.testBit_mod_two_pow,
    BitVec.testBit_toNat]
  by_cases inWord : bit < 32
  · simp [inWord, Bool.and_comm]
  · simp [BitVec.getLsbD_of_ge word bit (Nat.le_of_not_lt inWord)]

namespace Slot

/-- Every slot lies inside the word and no two share a bit. -/
structure Placed (slots : List Slot) : Prop where
  fits : ∀ slot ∈ slots, slot.Fits
  disjoint : slots.Pairwise Slot.Disjoint

theorem Placed.of_sublist {slots part : List Slot} (placed : Placed slots)
    (sublist : part.Sublist slots) : Placed part :=
  ⟨fun slot member => placed.fits slot (sublist.subset member), placed.disjoint.sublist sublist⟩

/-- The bits of the word that some of the slots cover. -/
def coveredBits (slots : List Slot) : Finset Nat :=
  (Finset.range 32).filter fun bit => ∃ slot ∈ slots, slot.Covers bit

theorem Fits.coveredBits_eq {slot : Slot} (fits : slot.Fits) :
    coveredBits [slot] = Finset.Ico slot.offset.toNat (slot.offset.toNat + slot.width.toNat) := by
  ext bit
  rw [coveredBits, Finset.mem_filter, Finset.mem_range, Finset.mem_Ico]
  constructor
  · rintro ⟨-, other, member, covers⟩
    rw [List.mem_singleton] at member
    exact member ▸ covers
  · intro covers
    exact ⟨fits.lt_of_covers covers, slot, List.mem_singleton_self slot, covers⟩

theorem coveredBits_cons (slot : Slot) (rest : List Slot) :
    coveredBits (slot :: rest) = coveredBits [slot] ∪ coveredBits rest := by
  ext bit
  simp only [coveredBits, Finset.mem_union, Finset.mem_filter, List.exists_mem_cons_iff,
    List.not_mem_nil, false_and, exists_false, or_false, and_or_left]

/-- Placed slots cover as many bits as they are wide together. -/
theorem Placed.card_coveredBits {slots : List Slot} (placed : Placed slots) :
    (coveredBits slots).card = widthSum slots := by
  induction slots with
  | nil => simp [coveredBits]
  | cons slot rest ih =>
    have apart : ∀ bit ∈ coveredBits [slot], bit ∉ coveredBits rest := by
      intro bit first second
      rw [coveredBits, Finset.mem_filter] at first second
      obtain ⟨-, self, same, coversFirst⟩ := first
      obtain ⟨-, other, member, covers⟩ := second
      rw [List.mem_singleton] at same
      exact (List.pairwise_cons.mp placed.disjoint).1 other member bit ⟨same ▸ coversFirst, covers⟩
    have width : (coveredBits [slot]).card = slot.width.toNat := by
      rw [(placed.fits slot List.mem_cons_self).coveredBits_eq, Nat.card_Ico, Nat.add_sub_cancel_left]
    rw [coveredBits_cons, Finset.card_union_of_disjoint (Finset.disjoint_left.mpr apart), width,
      ih (placed.of_sublist (List.sublist_cons_self slot rest)), widthSum_cons]

theorem Placed.widthSum_le {slots : List Slot} (placed : Placed slots) : widthSum slots ≤ 32 := by
  calc widthSum slots
      = (coveredBits slots).card := placed.card_coveredBits.symm
    _ ≤ (Finset.range 32).card := Finset.card_filter_le _ _
    _ = 32 := Finset.card_range 32

/-- Every bit of an operand is a bit of one of its slots. -/
theorem exists_split_of_lt_widthSum {slots : List Slot} {bit : Nat} (inside : bit < widthSum slots) :
    ∃ before slot behind low, slots = before ++ slot :: behind ∧ low < slot.width.toNat ∧
      bit = widthSum behind + low := by
  induction slots with
  | nil => simp at inside
  | cons slot rest ih =>
    by_cases below : bit < widthSum rest
    · obtain ⟨before, inner, behind, low, rfl, within, place⟩ := ih below
      exact ⟨slot :: before, inner, behind, low, rfl, within, place⟩
    · rw [widthSum_cons] at inside
      exact ⟨[], slot, rest, bit - widthSum rest, rfl, by omega, by omega⟩

/-- The slot at an index stands between those before it and those after it. -/
theorem eq_append_of_getElem? {slots : List Slot} {index : Nat} {slot : Slot}
    (here : slots[index]? = some slot) :
    slots = slots.take index ++ slot :: slots.drop (index + 1) := by
  obtain ⟨inList, rfl⟩ := List.getElem?_eq_some_iff.mp here
  rw [List.getElem_cons_drop, List.take_append_drop]

/-- What is read from a slot inside the word, bit by bit. -/
theorem Fits.getLsbD_get {slot : Slot} (fits : slot.Fits) (word : Word) (bit : Nat) :
    (slot.get word).getLsbD bit =
      (word.getLsbD (slot.offset.toNat + bit) && decide (bit < slot.width.toNat)) := by
  rw [Slot.getLsbD_get, Nat.min_eq_left (Nat.le_of_lt_succ fits.1)]

/-- Go on gathering bits from slots, `value` being what was gathered before. -/
def gather (word : Word) (value : Word) (slots : List Slot) : Word :=
  slots.foldl (fun value slot => Word.shl value slot.width.toNat ||| slot.get word) value

/-- What was gathered before moves up by the width of the slots. -/
theorem getLsbD_gather_add {word value : Word} {slots : List Slot} {bit : Nat}
    (inWord : widthSum slots + bit < 32) :
    (gather word value slots).getLsbD (widthSum slots + bit) = value.getLsbD bit := by
  induction slots generalizing value bit with
  | nil => rw [widthSum_nil, Nat.zero_add]; rfl
  | cons slot rest ih =>
    rw [widthSum_cons] at inWord
    have place : widthSum (slot :: rest) + bit = widthSum rest + (slot.width.toNat + bit) := by
      rw [widthSum_cons]
      omega
    have step : gather word value (slot :: rest) =
        gather word (Word.shl value slot.width.toNat ||| slot.get word) rest := rfl
    have above : ¬ slot.width.toNat + bit < slot.width.toNat := by omega
    have inside : slot.width.toNat + bit < 32 := by omega
    rw [place, step, ih (by omega), BitVec.getLsbD_or, Word.getLsbD_shl, getLsbD_get]
    simp [above, inside]

/-- A bit of a slot, be it inside the word or not, is found above the bits of the slots behind it. -/
theorem getLsbD_gather_of_split {word value : Word} {before behind : List Slot} {slot : Slot}
    {low : Nat} (inside : low < slot.width.toNat) (inWord : widthSum behind + low < 32) :
    (gather word value (before ++ slot :: behind)).getLsbD (widthSum behind + low) =
      word.getLsbD (min slot.offset.toNat 31 + low) := by
  have near : low < 32 := by omega
  have step : gather word value (before ++ slot :: behind) =
      gather word (Word.shl (gather word value before) slot.width.toNat ||| slot.get word) behind := by
    rw [gather, List.foldl_append, List.foldl_cons]
    rfl
  rw [step, getLsbD_gather_add inWord, BitVec.getLsbD_or, Word.getLsbD_shl, getLsbD_get]
  simp [inside, Nat.not_le_of_lt inside]

end Slot

namespace Operand

/-- The slots of the operand are placed. -/
abbrev Placed (operand : Operand) : Prop :=
  Slot.Placed operand.slots

theorem placed_of_validate {operand : Operand} (valid : operand.validate = .ok ()) :
    operand.Placed := by
  obtain ⟨wellFormed, disjoint⟩ := validate_eq_ok_iff.mp valid
  exact ⟨wellFormed.fits, disjoint⟩

theorem Placed.totalWidth_eq {operand : Operand} (placed : operand.Placed) :
    operand.totalWidth = Slot.widthSum operand.slots := by
  have bound := placed.widthSum_le
  exact Nat.min_eq_left (Nat.le_trans bound (by decide))

theorem Placed.totalWidth_le {operand : Operand} (placed : operand.Placed) :
    operand.totalWidth ≤ 32 :=
  placed.totalWidth_eq ▸ placed.widthSum_le

theorem one_le_totalWidth {operand : Operand} (valid : operand.validate = .ok ()) :
    1 ≤ operand.totalWidth := by
  have nonempty := (wellShaped_iff.mp (validate_eq_ok_iff.mp valid).1.1).1
  have placed := placed_of_validate valid
  obtain ⟨slot, rest, slots⟩ := List.exists_cons_of_ne_nil nonempty
  have fits : slot.Fits := placed.fits slot (by simp [slots])
  rw [placed.totalWidth_eq, slots, Slot.widthSum_cons]
  exact Nat.le_add_right_of_le fits.2.1

theorem extract_eq_gather (operand : Operand) (word : Word) :
    operand.extract word = Slot.gather word 0 operand.slots := rfl

/-- Bit by bit, what is read from a slot. -/
theorem getLsbD_extract_of_split {operand : Operand} (placed : operand.Placed)
    {before behind : List Slot} {slot : Slot} (split : operand.slots = before ++ slot :: behind)
    (word : Word) {low : Nat} (inside : low < slot.width.toNat) :
    (operand.extract word).getLsbD (Slot.widthSum behind + low) =
      word.getLsbD (slot.offset.toNat + low) := by
  have bound := placed.widthSum_le
  rw [split, Slot.widthSum_append, Slot.widthSum_cons] at bound
  have fits : slot.Fits := placed.fits slot (by simp [split])
  rw [extract_eq_gather, split, Slot.getLsbD_gather_of_split inside (by omega),
    Nat.min_eq_left (Nat.le_of_lt_succ fits.1)]

/-- Nothing is read above the width of the operand. -/
theorem getLsbD_extract_of_le {operand : Operand} (word : Word) {bit : Nat}
    (above : Slot.widthSum operand.slots ≤ bit) : (operand.extract word).getLsbD bit = false := by
  by_cases inWord : bit < 32
  · obtain ⟨low, rfl⟩ := Nat.exists_eq_add_of_le above
    rw [extract_eq_gather, Slot.getLsbD_gather_add inWord]
    exact BitVec.getLsbD_zero
  · exact BitVec.getLsbD_of_ge _ _ (Nat.le_of_not_lt inWord)

theorem scatter_append (value : Word) (remaining : Nat) (before behind : List Slot) (word : Word) :
    scatter value remaining (before ++ behind) word =
      scatter value (remaining - Slot.widthSum before) behind
        (scatter value remaining before word) := by
  induction before generalizing remaining word with
  | nil => rfl
  | cons slot rest ih =>
    rw [List.cons_append, scatter, ih, Slot.widthSum_cons, Nat.sub_add_eq, scatter]

/-- Writing over slots leaves every bit alone that none of them covers. -/
theorem getLsbD_scatter_of_not_covers {value : Word} {remaining : Nat} {slots : List Slot}
    {word : Word} {bit : Nat} (outside : ∀ slot ∈ slots, ¬ slot.Covers bit) :
    (scatter value remaining slots word).getLsbD bit = word.getLsbD bit := by
  induction slots generalizing remaining word with
  | nil => rfl
  | cons slot rest ih =>
    obtain ⟨first, others⟩ := List.forall_mem_cons.mp outside
    rw [scatter, ih others, Slot.getLsbD_put, if_neg (fun covered => first covered.1)]

/-- Writing an operand leaves every bit alone that the operand does not cover. -/
theorem getLsbD_insert_of_not_covers {operand : Operand} {word value : Word} {bit : Nat}
    (outside : ¬ operand.Covers bit) :
    (operand.insert word value).getLsbD bit = word.getLsbD bit :=
  getLsbD_scatter_of_not_covers fun slot member covers => outside ⟨slot, member, covers⟩

/-- Bit by bit, what is written to a slot. -/
theorem getLsbD_insert_of_split {operand : Operand} (placed : operand.Placed)
    {before behind : List Slot} {slot : Slot} (split : operand.slots = before ++ slot :: behind)
    (word value : Word) {low : Nat} (inside : low < slot.width.toNat) :
    (operand.insert word value).getLsbD (slot.offset.toNat + low) =
      value.getLsbD (Slot.widthSum behind + low) := by
  have fits : slot.Fits := placed.fits slot (by simp [split])
  have covers : slot.Covers (slot.offset.toNat + low) := ⟨Nat.le_add_right _ _, by omega⟩
  have disjoint := placed.disjoint
  rw [split] at disjoint
  have apart := (List.pairwise_cons.mp (List.pairwise_append.mp disjoint).2.1).1
  have outside : ∀ other ∈ behind, ¬ other.Covers (slot.offset.toNat + low) :=
    fun other member coversToo => apart other member _ ⟨covers, coversToo⟩
  have below : operand.totalWidth - Slot.widthSum before - slot.width.toNat =
      Slot.widthSum behind := by
    rw [placed.totalWidth_eq, split, Slot.widthSum_append, Slot.widthSum_cons]
    omega
  rw [insert, split, scatter_append, scatter, getLsbD_scatter_of_not_covers outside,
    Slot.getLsbD_put, if_pos ⟨covers, fits.lt_of_covers covers⟩, below,
    BitVec.getLsbD_ushiftRight, Nat.add_sub_cancel_left]

/-- What is written to an operand is read again, cut to the width of the operand. -/
theorem extract_insert {operand : Operand} (placed : operand.Placed) (word value : Word) :
    operand.extract (operand.insert word value) = value &&& Word.lowMask operand.totalWidth := by
  apply BitVec.eq_of_getLsbD_eq
  intro bit inWord
  rw [BitVec.getLsbD_and, Word.getLsbD_lowMask, placed.totalWidth_eq]
  by_cases inside : bit < Slot.widthSum operand.slots
  · obtain ⟨before, slot, behind, low, split, within, rfl⟩ :=
      Slot.exists_split_of_lt_widthSum inside
    rw [getLsbD_extract_of_split placed split _ within, getLsbD_insert_of_split placed split _ _ within]
    simp [inside, inWord]
  · rw [getLsbD_extract_of_le _ (Nat.le_of_not_lt inside)]
    simp [inside]

/-- What is read from an operand depends on the bits that it covers only. -/
theorem extract_congr {operand : Operand} (placed : operand.Placed) {first second : Word}
    (agree : ∀ bit, operand.Covers bit → first.getLsbD bit = second.getLsbD bit) :
    operand.extract first = operand.extract second := by
  apply BitVec.eq_of_getLsbD_eq
  intro bit _
  by_cases inside : bit < Slot.widthSum operand.slots
  · obtain ⟨before, slot, behind, low, split, within, rfl⟩ :=
      Slot.exists_split_of_lt_widthSum inside
    rw [getLsbD_extract_of_split placed split _ within, getLsbD_extract_of_split placed split _ within]
    exact agree _ ⟨slot, by simp [split], Nat.le_add_right _ _, by omega⟩
  · rw [getLsbD_extract_of_le _ (Nat.le_of_not_lt inside),
      getLsbD_extract_of_le _ (Nat.le_of_not_lt inside)]

/-- What is read from an operand determines the bits that it covers. -/
theorem getLsbD_eq_of_extract_eq {operand : Operand} (placed : operand.Placed) {first second : Word}
    (same : operand.extract first = operand.extract second) {bit : Nat}
    (covers : operand.Covers bit) : first.getLsbD bit = second.getLsbD bit := by
  obtain ⟨slot, member, begins, ends⟩ := covers
  obtain ⟨before, behind, split⟩ := List.append_of_mem member
  obtain ⟨low, rfl⟩ := Nat.exists_eq_add_of_le begins
  have within : low < slot.width.toNat := by omega
  rw [← getLsbD_extract_of_split placed split _ within, same,
    getLsbD_extract_of_split placed split _ within]

/-- What is read from an operand is narrower than the operand. -/
theorem extract_lt {operand : Operand} (placed : operand.Placed) (word : Word) :
    (operand.extract word).toNat < 2 ^ operand.totalWidth := by
  rw [placed.totalWidth_eq]
  apply Nat.lt_pow_two_of_testBit
  intro bit above
  rw [BitVec.testBit_toNat]
  exact getLsbD_extract_of_le word above

/-- Above the bits of the slots behind it stands what is read from the first slot. -/
theorem extract_ushiftRight_of_cons {operand : Operand} (placed : operand.Placed) {first : Slot}
    {rest : List Slot} (slots : operand.slots = first :: rest) (word : Word) :
    operand.extract word >>> Slot.widthSum rest = first.get word := by
  have fits : first.Fits := placed.fits first (by simp [slots])
  have split : operand.slots = [] ++ first :: rest := slots
  apply BitVec.eq_of_getLsbD_eq
  intro bit _
  rw [BitVec.getLsbD_ushiftRight, fits.getLsbD_get]
  by_cases inside : bit < first.width.toNat
  · rw [getLsbD_extract_of_split placed split word inside]
    simp [inside]
  · have above : Slot.widthSum operand.slots ≤ Slot.widthSum rest + bit := by
      rw [slots, Slot.widthSum_cons]
      omega
    rw [getLsbD_extract_of_le word above]
    simp [inside]

/-- Into the first slot goes what stands above the bits of the slots behind it. -/
theorem get_insert_of_cons {operand : Operand} (placed : operand.Placed) {first : Slot}
    {rest : List Slot} (slots : operand.slots = first :: rest) (word value : Word) :
    first.get (operand.insert word value) =
      (value >>> Slot.widthSum rest) &&& Word.lowMask first.width.toNat := by
  have fits : first.Fits := placed.fits first (by simp [slots])
  have split : operand.slots = [] ++ first :: rest := slots
  apply BitVec.eq_of_getLsbD_eq
  intro bit inWord
  rw [fits.getLsbD_get, BitVec.getLsbD_and, BitVec.getLsbD_ushiftRight, Word.getLsbD_lowMask]
  by_cases inside : bit < first.width.toNat
  · rw [getLsbD_insert_of_split placed split word value inside]
    simp [inside, inWord]
  · simp [inside]

/-- In a valid operand the bits of a slot stand above those of all slots behind it, both in what is read
    and in what is written. Nothing is read above the width of the operand, and nothing is written outside
    its slots. Hence the first slot is the most significant part in both directions. -/
theorem bits_in_slot_order {operand : Operand} (valid : operand.validate = .ok ())
    (word value : Word) :
    (∀ (index : Nat) (slot : Slot) (low : Nat), operand.slots[index]? = some slot →
      low < slot.width.toNat →
      (operand.extract word).getLsbD (Slot.widthSum (operand.slots.drop (index + 1)) + low) =
        word.getLsbD (slot.offset.toNat + low) ∧
      (operand.insert word value).getLsbD (slot.offset.toNat + low) =
        value.getLsbD (Slot.widthSum (operand.slots.drop (index + 1)) + low)) ∧
    (∀ bit, operand.totalWidth ≤ bit → (operand.extract word).getLsbD bit = false) ∧
    (∀ bit, (∀ slot ∈ operand.slots, ¬ slot.Covers bit) →
      (operand.insert word value).getLsbD bit = word.getLsbD bit) ∧
    ∀ first rest, operand.slots = first :: rest →
      operand.extract word >>> Slot.widthSum rest = first.get word ∧
      first.get (operand.insert word value) =
        (value >>> Slot.widthSum rest) &&& Word.lowMask first.width.toNat := by
  have placed := placed_of_validate valid
  refine ⟨fun index slot low here inside => ?_, fun bit above => ?_, fun bit outside => ?_,
    fun first rest slots => ?_⟩
  · have split := Slot.eq_append_of_getElem? here
    exact ⟨getLsbD_extract_of_split placed split word inside,
      getLsbD_insert_of_split placed split word value inside⟩
  · rw [placed.totalWidth_eq] at above
    exact getLsbD_extract_of_le word above
  · exact getLsbD_insert_of_not_covers fun ⟨slot, member, covers⟩ => outside slot member covers
  · exact ⟨extract_ushiftRight_of_cons placed slots word, get_insert_of_cons placed slots word value⟩

/-- A branch offset whose upper bits are stored below its lower ones. -/
def splitOffset : Operand :=
  ⟨.signedImmediate, [⟨0, 5⟩, ⟨10, 16⟩], .identity⟩

theorem bits_in_slot_order_splitOffset : splitOffset.validate = .ok () ∧
    (splitOffset.insert 0x40000000 0x1A5A5A).getLsbD (0 + 3) =
      (0x1A5A5A : Word).getLsbD (16 + 3) ∧
    (splitOffset.insert 0x40000000 0x1A5A5A).getLsbD 30 = true ∧
    Slot.get ⟨0, 5⟩ (splitOffset.insert 0x40000000 0x1A5A5A) = 0x1A := by
  have valid : splitOffset.validate = .ok () := by decide
  obtain ⟨slotwise, -, unchanged, mostSignificant⟩ :=
    bits_in_slot_order valid 0x40000000 0x1A5A5A
  refine ⟨valid, (slotwise 0 ⟨0, 5⟩ 3 rfl (by decide)).2, ?_, ?_⟩
  · exact unchanged 30 (by decide)
  · exact (mostSignificant ⟨0, 5⟩ [⟨10, 16⟩] rfl).2.trans (by decide)

end Operand

end InsnEncoding
