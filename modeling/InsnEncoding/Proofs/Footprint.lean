import InsnEncoding.Proofs.Encoding

/-!
# The bits that an operand touches

Nothing is asked of the slots here: they may share bits, be empty or leave the word. The bits that an
operand claims are those of its mask.

What is written is confined to the mask, and it overwrites all of it. Every bit of the mask takes its value
from one and the same bit of the number that is written, whatever the word held before
(`Operand.exists_source_of_covers`), and every other bit stays as it is. From this follow the laws of writing:
the last write to an operand counts, only the lowest bits of the number count, and disjoint operands are
written in any order. `Format.encode_confined_to_mask` says it of all operands of a format.

What is read is not always confined to the mask. A slot that begins outside the word claims no bit, and still
it is read from the highest bit of the word. `Operand.extract_confined_to_mask_iff` tells the operands that
read only what they claim from those that stray.
-/

namespace InsnEncoding

/-- Bits that are cut off a number make no difference. -/
theorem Word.and_lowMask_eq_iff {first second : Word} {count : Nat} :
    first &&& Word.lowMask count = second &&& Word.lowMask count ↔
      first.toNat % 2 ^ count = second.toNat % 2 ^ count := by
  rw [← BitVec.toNat_inj, Word.toNat_and_lowMask, Word.toNat_and_lowMask]

namespace Operand

section Writing

/-- A bit that some slot covers is written with one bit of the value, that of the last slot to cover it.
    If the value is as wide as the slots, it is a bit of the value. -/
theorem exists_source_of_scatter {slots : List Slot} {bit : Nat} (inWord : bit < 32)
    (covered : ∃ slot ∈ slots, slot.Covers bit) (remaining : Nat) :
    ∃ source, (Slot.widthSum slots ≤ remaining → source < remaining) ∧
      ∀ value word, (scatter value remaining slots word).getLsbD bit = value.getLsbD source := by
  induction slots generalizing remaining with
  | nil =>
    obtain ⟨slot, member, _⟩ := covered
    contradiction
  | cons slot rest ih =>
    by_cases later : ∃ other ∈ rest, other.Covers bit
    · obtain ⟨source, within, written⟩ := ih later (remaining - slot.width.toNat)
      refine ⟨source, fun enough => ?_, fun value word => ?_⟩
      · rw [Slot.widthSum_cons] at enough
        have := within (by omega)
        omega
      · rw [scatter, written]
    · obtain ⟨begins, ends⟩ : slot.Covers bit :=
        ((List.exists_mem_cons_iff _ _ _).mp covered).resolve_right later
      have outside : ∀ other ∈ rest, ¬ other.Covers bit :=
        fun other member covers => later ⟨other, member, covers⟩
      refine ⟨remaining - slot.width.toNat + (bit - slot.offset.toNat), fun enough => ?_,
        fun value word => ?_⟩
      · rw [Slot.widthSum_cons] at enough
        omega
      · rw [scatter, getLsbD_scatter_of_not_covers outside, Slot.getLsbD_put,
          if_pos ⟨⟨begins, ends⟩, inWord⟩, BitVec.getLsbD_ushiftRight]

variable {operand first second : Operand} {bit : Nat}

/-- A bit that the operand covers is written with one bit of the value, which is first cut to the width of
    the operand. The total width of many slots stops at a large number, but a word has no bit there. -/
theorem exists_source_of_covers (inWord : bit < 32) (covers : operand.Covers bit) :
    ∃ source, ∀ word value, (operand.insert word value).getLsbD bit =
      (value &&& Word.lowMask operand.totalWidth).getLsbD source := by
  obtain ⟨source, within, written⟩ := exists_source_of_scatter inWord covers operand.totalWidth
  have kept : source < 32 → source < operand.totalWidth := by
    intro small
    by_cases unsaturated : Slot.widthSum operand.slots ≤ UInt32.size - 1
    · exact within (Nat.le_of_eq (Nat.min_eq_left unsaturated).symm)
    · have saturated : operand.totalWidth = UInt32.size - 1 := Nat.min_eq_right (by omega)
      have size : UInt32.size = 4294967296 := rfl
      omega
  refine ⟨source, fun word value => ?_⟩
  rw [insert, written, BitVec.getLsbD_and, Word.getLsbD_lowMask]
  by_cases small : source < 32
  · simp [small, kept small]
  · simp [BitVec.getLsbD_of_ge value source (Nat.le_of_not_lt small)]

/-- What a bit is after a write does not depend on the word where the operand covers the bit. -/
theorem getLsbD_insert_congr {word other : Word} (inWord : bit < 32)
    (agree : ¬ operand.Covers bit → word.getLsbD bit = other.getLsbD bit) (value : Word) :
    (operand.insert word value).getLsbD bit = (operand.insert other value).getLsbD bit := by
  by_cases covers : operand.Covers bit
  · obtain ⟨source, written⟩ := exists_source_of_covers inWord covers
    rw [written, written]
  · rw [getLsbD_insert_of_not_covers covers, getLsbD_insert_of_not_covers covers, agree covers]

/-- Of two writes to an operand the last one counts. -/
theorem insert_insert (operand : Operand) (word earlier later : Word) :
    operand.insert (operand.insert word earlier) later = operand.insert word later := by
  apply BitVec.eq_of_getLsbD_eq
  intro bit inWord
  exact getLsbD_insert_congr inWord getLsbD_insert_of_not_covers later

/-- Of the value only as many bits count as the operand is wide. -/
theorem insert_congr {word value other : Word}
    (same : value.toNat % 2 ^ operand.totalWidth = other.toNat % 2 ^ operand.totalWidth) :
    operand.insert word value = operand.insert word other := by
  apply BitVec.eq_of_getLsbD_eq
  intro bit inWord
  by_cases covers : operand.Covers bit
  · obtain ⟨source, written⟩ := exists_source_of_covers inWord covers
    rw [written, written, Word.and_lowMask_eq_iff.mpr same]
  · rw [getLsbD_insert_of_not_covers covers, getLsbD_insert_of_not_covers covers]

/-- Disjoint operands may be written in any order. -/
theorem insert_comm (apart : first.Disjoint second) (word value other : Word) :
    second.insert (first.insert word value) other = first.insert (second.insert word other) value := by
  apply BitVec.eq_of_getLsbD_eq
  intro bit inWord
  by_cases covers : first.Covers bit
  · have outside : ¬ second.Covers bit := fun coversToo => apart bit ⟨covers, coversToo⟩
    obtain ⟨source, written⟩ := exists_source_of_covers inWord covers
    rw [getLsbD_insert_of_not_covers outside, written, written]
  · rw [getLsbD_insert_of_not_covers covers]
    exact getLsbD_insert_congr inWord (fun _ => getLsbD_insert_of_not_covers covers) other

/-- After some writes, a bit that one of them covers does not depend on the word. -/
theorem getLsbD_insertAll_congr {writes : List (Operand × Word)} {word other : Word}
    (inWord : bit < 32)
    (agree : (∀ write ∈ writes, ¬ write.1.Covers bit) → word.getLsbD bit = other.getLsbD bit) :
    (insertAll word writes).getLsbD bit = (insertAll other writes).getLsbD bit := by
  induction writes generalizing word other with
  | nil => exact agree nofun
  | cons write rest ih =>
    rw [insertAll_cons, insertAll_cons]
    refine ih fun outside => getLsbD_insert_congr inWord (fun first => agree ?_) write.2
    exact List.forall_mem_cons.mpr ⟨first, outside⟩

end Writing

end Operand

namespace Format

variable {format : Format} {base word other : Word} {values : List Word}

/-- To encode leaves the bits outside the mask as they are in the base. -/
theorem encode_and_fixedMask (encoded : format.encode base values = .ok word) :
    word &&& format.fixedMask = base &&& format.fixedMask :=
  and_fixedMask_congr fun _ => getLsbD_of_encode encoded

/-- The bits in the mask of an encoding do not depend on the base. -/
theorem encode_and_mask {another : Word} (encoded : format.encode base values = .ok word)
    (encodedToo : format.encode another values = .ok other) :
    word &&& format.mask = other &&& format.mask := by
  obtain ⟨length, rfl⟩ := encode_eq_ok_iff.mp encoded
  obtain ⟨-, rfl⟩ := encode_eq_ok_iff.mp encodedToo
  rw [Word.and_eq_and_iff]
  intro bit masked
  obtain ⟨inWord, covered⟩ := getLsbD_mask_iff_covers.mp masked
  obtain ⟨operand, member, covers⟩ := covers_iff.mp covered
  apply Operand.getLsbD_insertAll_congr inWord
  intro outside
  have operands : (format.operands.zip values).map Prod.fst = format.operands :=
    List.map_fst_zip (Nat.le_of_eq length.symm)
  rw [← operands, List.mem_map] at member
  obtain ⟨write, inWrites, rfl⟩ := member
  exact absurd covers (outside write inWrites)

/-- Whatever the slots of a format, its operands are put into the bits of its mask and nowhere else, and they
    determine these bits. Of two writes to an operand the last one counts, and of what is written as many bits
    as the operand is wide. -/
theorem encode_confined_to_mask :
    (∀ (format : Format) (first second : Word) (values : List Word),
      values.length = format.size →
        ∃ word other, format.encode first values = .ok word ∧
          format.encode second values = .ok other ∧
          word &&& format.fixedMask = first &&& format.fixedMask ∧
          word &&& format.mask = other &&& format.mask) ∧
    (∀ (operand : Operand) (word earlier later : Word),
      operand.insert (operand.insert word earlier) later = operand.insert word later) ∧
    ∀ (operand : Operand) (word value other : Word),
      value.toNat % 2 ^ operand.totalWidth = other.toNat % 2 ^ operand.totalWidth →
        operand.insert word value = operand.insert word other := by
  refine ⟨fun format first second values length => ?_, Operand.insert_insert,
    fun operand word value other => Operand.insert_congr⟩
  have encoded := encode_of_length_eq first length
  have encodedToo := encode_of_length_eq second length
  exact ⟨_, _, encoded, encodedToo, encode_and_fixedMask encoded, encode_and_mask encoded encodedToo⟩

/-- Slots that share bits, run past the end of the word, begin behind it, or are too wide to be counted. -/
def tangled : Format :=
  ⟨[⟨.unsignedImmediate, [⟨4, 8⟩, ⟨8, 4⟩, ⟨30, 5⟩], .identity⟩,
    ⟨.signedImmediate, [⟨0, 4294967295⟩, ⟨40, 3⟩, ⟨6, 0⟩], .add 1⟩]⟩

theorem encode_confined_to_mask_tangled :
    (∃ word other, tangled.encode 0 [0x1ABCD, 0x12345678] = .ok word ∧
      tangled.encode 0xFFFFFFFF [0x1ABCD, 0x12345678] = .ok other ∧
      word &&& tangled.fixedMask = 0 &&& tangled.fixedMask ∧
      word &&& tangled.mask = other &&& tangled.mask) ∧
    Operand.insert ⟨.unsignedImmediate, [⟨4, 8⟩, ⟨8, 4⟩], .identity⟩ 0 0xFFFF =
      Operand.insert ⟨.unsignedImmediate, [⟨4, 8⟩, ⟨8, 4⟩], .identity⟩ 0 0x0FFF := by
  obtain ⟨encodes, -, truncates⟩ := encode_confined_to_mask
  exact ⟨encodes tangled _ _ _ rfl, truncates _ _ _ _ (by decide)⟩

end Format

namespace Operand

section Reading

/-- A slot of the operand begins outside the word and is not empty, and what is read of it is not moved out
    of the value by the slots behind it. -/
def Strays (operand : Operand) : Prop :=
  ∃ before slot behind, operand.slots = before ++ slot :: behind ∧ 32 ≤ slot.offset.toNat ∧
    0 < slot.width.toNat ∧ Slot.widthSum behind < 32

variable {operand : Operand} {first second : Word}

theorem getLsbD_extract_of_append {before behind : List Slot} {slot : Slot}
    (split : operand.slots = before ++ slot :: behind) (word : Word) {low : Nat}
    (inside : low < slot.width.toNat) (inWord : Slot.widthSum behind + low < 32) :
    (operand.extract word).getLsbD (Slot.widthSum behind + low) =
      word.getLsbD (min slot.offset.toNat 31 + low) := by
  rw [extract_eq_gather, split, Slot.getLsbD_gather_of_split inside inWord]

/-- What is read depends on the bits of the mask, and on the highest bit of the word if the operand strays. -/
theorem extract_eq_of_agree (agree : first &&& operand.mask = second &&& operand.mask)
    (highest : operand.Strays → first.getLsbD 31 = second.getLsbD 31) :
    operand.extract first = operand.extract second := by
  apply BitVec.eq_of_getLsbD_eq
  intro bit inWord
  by_cases inside : bit < Slot.widthSum operand.slots
  · obtain ⟨before, slot, behind, low, split, within, rfl⟩ :=
      Slot.exists_split_of_lt_widthSum inside
    rw [getLsbD_extract_of_append split _ within inWord, getLsbD_extract_of_append split _ within inWord]
    by_cases past : 32 ≤ min slot.offset.toNat 31 + low
    · rw [BitVec.getLsbD_of_ge first _ past, BitVec.getLsbD_of_ge second _ past]
    · by_cases begins : slot.offset.toNat < 32
      · have place : min slot.offset.toNat 31 + low = slot.offset.toNat + low := by omega
        rw [place]
        refine Word.and_eq_and_iff.mp agree _ (getLsbD_mask_iff_covers.mpr ⟨by omega, slot, ?_, ?_⟩)
        · simp [split]
        · exact ⟨Nat.le_add_right _ _, Nat.add_lt_add_left within _⟩
      · -- Of such a slot only the lowest bit is read, since the others would be behind the word.
        have place : min slot.offset.toNat 31 + low = 31 := by omega
        rw [place]
        exact highest ⟨before, slot, behind, split, by omega, by omega, by omega⟩
  · rw [getLsbD_extract_of_le _ (Nat.le_of_not_lt inside),
      getLsbD_extract_of_le _ (Nat.le_of_not_lt inside)]

/-- An operand that strays tells words apart by their highest bit. -/
theorem getLsbD_eq_of_extract_eq_of_strays (strays : operand.Strays)
    (same : operand.extract first = operand.extract second) :
    first.getLsbD 31 = second.getLsbD 31 := by
  obtain ⟨before, slot, behind, split, outside, nonempty, kept⟩ := strays
  have place : min slot.offset.toNat 31 + 0 = 31 := by omega
  rw [← place, ← getLsbD_extract_of_append split first nonempty kept, same,
    getLsbD_extract_of_append split second nonempty kept]

/-- The value of an operand is made of what is read from it. -/
theorem decode_eq_of_extract_eq (same : operand.extract first = operand.extract second) :
    operand.decode first = operand.decode second := by
  rw [decode, decode, same]

/-- What is read from an operand, and so its value, depends on the bits of its mask only, if it does not
    stray or its mask has the highest bit of the word; these are all the operands of which this can be said
    of what is read. In particular it holds if every slot is empty or begins inside the word. -/
theorem extract_confined_to_mask_iff (operand : Operand) :
    ((∀ first second, first &&& operand.mask = second &&& operand.mask →
        operand.extract first = operand.extract second) ↔
      (operand.Strays → operand.mask.getLsbD 31)) ∧
    ((operand.Strays → operand.mask.getLsbD 31) →
      ∀ first second, first &&& operand.mask = second &&& operand.mask →
        operand.decode first = operand.decode second) ∧
    ((∀ slot ∈ operand.slots, slot.offset.toNat < 32 ∨ slot.width = 0) → ¬ operand.Strays) := by
  have confined (claimed : operand.Strays → operand.mask.getLsbD 31) (first second : Word)
      (agree : first &&& operand.mask = second &&& operand.mask) :
      operand.extract first = operand.extract second :=
    extract_eq_of_agree agree fun strays => Word.and_eq_and_iff.mp agree 31 (claimed strays)
  refine ⟨⟨fun reads strays => ?_, confined⟩, fun claimed first second agree => ?_, fun inside => ?_⟩
  · by_contra unclaimed
    -- The word with nothing but its highest bit has no bit in the mask.
    have agree : 0#32 &&& operand.mask = BitVec.twoPow 32 31 &&& operand.mask := by
      rw [Word.and_eq_and_iff]
      intro bit masked
      have other : 31 ≠ bit := by
        rintro rfl
        exact unclaimed masked
      simp [other]
    have highest := getLsbD_eq_of_extract_eq_of_strays strays (reads _ _ agree)
    simp at highest
  · exact decode_eq_of_extract_eq (confined claimed first second agree)
  · rintro ⟨before, slot, behind, split, outside, nonempty, -⟩
    rcases inside slot (by simp [split]) with begins | empty
    · omega
    · simp [empty] at nonempty

/-- A field that runs past the end of the word, and one that begins behind it. -/
def overlong : Operand :=
  ⟨.signedImmediate, [⟨27, 9⟩, ⟨40, 3⟩], .identity⟩

theorem extract_confined_to_mask_overlong :
    (overlong.Strays ∧ overlong.mask.getLsbD 31) ∧
      ∀ first second, first &&& overlong.mask = second &&& overlong.mask →
        overlong.extract first = overlong.extract second ∧
        overlong.decode first = overlong.decode second := by
  have strays : overlong.Strays := ⟨[⟨27, 9⟩], ⟨40, 3⟩, [], rfl, by decide, by decide, by decide⟩
  have claimed : overlong.mask.getLsbD 31 := by decide
  obtain ⟨exactly, decodes, -⟩ := extract_confined_to_mask_iff overlong
  refine ⟨⟨strays, claimed⟩, fun first second agree => ⟨?_, ?_⟩⟩
  · exact exactly.mpr (fun _ => claimed) first second agree
  · exact decodes (fun _ => claimed) first second agree

/-- One bit just behind the end of the word. -/
def behindWord : Operand :=
  ⟨.unsignedImmediate, [⟨32, 1⟩], .identity⟩

/-- It claims no bit, and no write to it has any effect, but it is read from the highest bit of the word. -/
theorem extract_behindWord_not_confined :
    behindWord.mask = 0 ∧ (∀ word value, behindWord.insert word value = word) ∧
    ¬ ∀ first second : Word, first &&& behindWord.mask = second &&& behindWord.mask →
      behindWord.extract first = behindWord.extract second ∧
      behindWord.decode first = behindWord.decode second := by
  have unclaimed : behindWord.mask = 0 := by decide
  refine ⟨unclaimed, fun word value => ?_, fun confined => ?_⟩
  · apply BitVec.eq_of_getLsbD_eq
    intro bit inWord
    apply getLsbD_insert_of_not_covers
    rintro ⟨slot, member, begins, -⟩
    rw [List.mem_singleton.mp member] at begins
    exact absurd inWord (Nat.not_lt_of_le begins)
  · exact absurd (confined 0 0x80000000 (by decide)).1 (by decide)

end Reading

end Operand

end InsnEncoding
