import InsnEncoding.Format.WellFormed

/-!
# What validation accepts

The validators look at one slot or operand after the other and carry the bits of those before in a
mask. They succeed exactly on what is well formed, which is said without masks and without an order of
looking: `Operand.validate_eq_ok_iff`, `Format.validate_eq_ok_iff`, `Description.validate_eq_ok_iff`.
`Description.validate_exact` spells it out clause by clause.

The invariant of both loops is `Slot.Avoids`: every slot still to come has none of its bits in the mask.
-/

namespace InsnEncoding

/-- Two words have no bit in common. -/
theorem Word.and_eq_zero_iff {first second : Word} :
    first &&& second = 0 ↔ ∀ bit, first.getLsbD bit → second.getLsbD bit = false := by
  constructor
  · intro apart bit inFirst
    have both := congrArg (fun word : Word => word.getLsbD bit) apart
    simpa [inFirst] using both
  · intro apart
    apply BitVec.eq_of_getLsbD_eq
    intro bit _
    cases inFirst : first.getLsbD bit with
    | false => simp [inFirst]
    | true => simp [apart bit inFirst]

/-- Two words have the same bits in a mask exactly if they agree in each bit of it. -/
theorem Word.and_eq_and_iff {first second mask : Word} :
    first &&& mask = second &&& mask ↔
      ∀ bit, mask.getLsbD bit → first.getLsbD bit = second.getLsbD bit := by
  constructor
  · intro same bit masked
    have both := congrArg (fun word : Word => word.getLsbD bit) same
    simpa [masked] using both
  · intro agree
    apply BitVec.eq_of_getLsbD_eq
    intro bit _
    rw [BitVec.getLsbD_and, BitVec.getLsbD_and]
    cases masked : mask.getLsbD bit with
    | false => rw [Bool.and_false, Bool.and_false]
    | true => rw [agree bit masked]

theorem LetterTable.letter?_eq_none_iff {table : LetterTable} (distinct : table.Distinct)
    {offset : UInt32} : table.letter? offset = none ↔ ¬ ∃ letter, (offset, letter) ∈ table := by
  rw [Option.eq_none_iff_forall_ne_some, not_exists]
  exact forall_congr' fun letter => not_congr (letter?_eq_some_iff distinct)

namespace Slot

/-- None of the slot's bits is set in the word. -/
def Avoids (slot : Slot) (word : Word) : Prop :=
  ∀ bit, slot.Covers bit → word.getLsbD bit = false

theorem Fits.lt_of_covers {slot : Slot} (fits : slot.Fits) {bit : Nat} (covers : slot.Covers bit) :
    bit < 32 :=
  Nat.lt_of_lt_of_le covers.2 fits.2.2

theorem Fits.getLsbD_mask {slot : Slot} (fits : slot.Fits) {bit : Nat} :
    slot.mask.getLsbD bit ↔ slot.Covers bit := by
  rw [Slot.getLsbD_mask, Bool.and_eq_true, decide_eq_true_eq, decide_eq_true_eq]
  exact ⟨And.right, fun covers => ⟨fits.lt_of_covers covers, covers⟩⟩

theorem Fits.mask_and_eq_zero_iff {slot : Slot} (fits : slot.Fits) {seen : Word} :
    slot.mask &&& seen = 0 ↔ slot.Avoids seen := by
  rw [Word.and_eq_zero_iff]
  exact forall_congr' fun bit => imp_congr_left fits.getLsbD_mask

/-- A slot has none of the bits of two words exactly if it has none of either. -/
theorem avoids_or_iff {slot : Slot} {first second : Word} :
    slot.Avoids (first ||| second) ↔ slot.Avoids first ∧ slot.Avoids second := by
  simp only [Avoids, BitVec.getLsbD_or, Bool.or_eq_false_iff, imp_and, forall_and]

theorem Fits.avoids_mask_iff {slot other : Slot} (fits : slot.Fits) :
    other.Avoids slot.mask ↔ slot.Disjoint other := by
  refine forall_congr' fun bit => ?_
  rw [← Bool.not_eq_true, fits.getLsbD_mask]
  exact not_and'.symm

/-- A slot avoids the mask of the slots before it exactly if it is disjoint from each of them. -/
theorem Fits.avoids_or_mask_iff {slot other : Slot} (fits : slot.Fits) {seen : Word} :
    other.Avoids (seen ||| slot.mask) ↔ other.Avoids seen ∧ slot.Disjoint other := by
  rw [avoids_or_iff, fits.avoids_mask_iff]

theorem avoids_zero (slot : Slot) : slot.Avoids 0 := by
  intro bit _
  exact BitVec.getLsbD_zero

theorem validate_eq_ok_iff {slot : Slot} : slot.validate = .ok () ↔ slot.Fits := by
  rw [← fault?_eq_none_iff, validate]
  cases slot.fault? with
  | none => simp
  | some fault => simp

end Slot

namespace Operand

theorem shapeFault?_eq_none_iff {operand : Operand} :
    operand.shapeFault? = none ↔ operand.WellShaped := by
  obtain ⟨kind, slots, transform⟩ := operand
  unfold shapeFault? WellShaped
  cases slots with
  | nil => cases kind.registerWidth? <;> simp
  | cons slot rest =>
    cases expected : kind.registerWidth? with
    | none => simp
    | some width =>
      cases rest with
      | cons second others => simp
      | nil =>
        by_cases wide : slot.width = width
        · subst wide
          have single : ∃ offset, slot = ⟨offset, slot.width⟩ := ⟨slot.offset, rfl⟩
          simp [Transform.isIdentity_iff, single]
        · have other : ¬ ∃ offset, slot = ⟨offset, width⟩ := by
            rintro ⟨offset, rfl⟩
            exact wide rfl
          simp [wide, other]

/-- The shape of an operand, asked of every kind in the same words. -/
theorem wellShaped_iff {operand : Operand} :
    operand.WellShaped ↔
      operand.slots ≠ [] ∧
        (operand.kind.isRegister → ∃ slot, operand.slots = [slot] ∧
          operand.kind.registerWidth? = some slot.width ∧ operand.transform = .identity) := by
  unfold WellShaped
  cases width : operand.kind.registerWidth? with
  | none =>
    have immediate := Kind.isImmediate_iff_registerWidth?.mpr width
    have notRegister : ¬ operand.kind.isRegister :=
      fun register => Kind.isRegister_iff.mp register immediate
    exact (and_iff_left fun register => absurd register notRegister).symm
  | some expected =>
    have register : operand.kind.isRegister := by
      rw [Kind.isRegister_iff, Kind.isImmediate_iff_registerWidth?, width]
      exact Option.some_ne_none expected
    constructor
    · rintro ⟨⟨offset, single⟩, identity⟩
      refine ⟨?_, fun _ => ⟨⟨offset, expected⟩, single, rfl, identity⟩⟩
      rw [single]
      exact List.cons_ne_nil _ _
    · rintro ⟨-, shape⟩
      obtain ⟨⟨offset, found⟩, single, same, identity⟩ := shape register
      cases same
      exact ⟨⟨offset, single⟩, identity⟩

/-- One step of the loop over the slots. -/
theorem validateSlots_cons_eq_ok_iff {kind : Kind} {seen : Word} {slot : Slot} {rest : List Slot} :
    validateSlots kind seen (slot :: rest) = .ok () ↔
      slot.Fits ∧ (∃ letter, (slot.offset, letter) ∈ kind.letters) ∧ slot.Avoids seen ∧
        validateSlots kind (seen ||| slot.mask) rest = .ok () := by
  rw [validateSlots, ← Slot.validate_eq_ok_iff]
  cases checked : slot.validate with
  | error fault => simp
  | ok checkedUnit =>
    have fits := Slot.validate_eq_ok_iff.mp checked
    rw [← fits.mask_and_eq_zero_iff]
    by_cases named : ∃ letter, (slot.offset, letter) ∈ kind.letters
    · have letter : ¬ kind.letters.letter? slot.offset = none := fun missing =>
        (LetterTable.letter?_eq_none_iff kind.letters_distinct).mp missing named
      by_cases clear : slot.mask &&& seen = 0
      · simp only [if_neg letter, clear, named, ne_eq, not_true_eq_false, if_false, true_and]
      · simp only [if_neg letter, clear, ne_eq, not_false_eq_true, if_true, reduceCtorEq, false_and,
          and_false]
    · have missing := (LetterTable.letter?_eq_none_iff kind.letters_distinct).mpr named
      simp [missing, named]

theorem validateSlots_eq_ok_iff {kind : Kind} {seen : Word} {slots : List Slot} :
    validateSlots kind seen slots = .ok () ↔
      (∀ slot ∈ slots, slot.Fits ∧ ∃ letter, (slot.offset, letter) ∈ kind.letters) ∧
        slots.Pairwise Slot.Disjoint ∧ ∀ slot ∈ slots, slot.Avoids seen := by
  induction slots generalizing seen with
  | nil => simp [validateSlots]
  | cons slot rest ih =>
    rw [validateSlots_cons_eq_ok_iff, ih, List.forall_mem_cons, List.forall_mem_cons,
      List.pairwise_cons]
    constructor
    · rintro ⟨fits, named, avoids, others, disjoint, avoidAll⟩
      refine ⟨⟨⟨fits, named⟩, others⟩, ⟨fun other member => ?_, disjoint⟩, avoids,
        fun other member => ?_⟩
      · exact (fits.avoids_or_mask_iff.mp (avoidAll other member)).2
      · exact (fits.avoids_or_mask_iff.mp (avoidAll other member)).1
    · rintro ⟨⟨⟨fits, named⟩, others⟩, ⟨apart, disjoint⟩, avoids, avoidSeen⟩
      refine ⟨fits, named, avoids, others, disjoint, fun other member => ?_⟩
      exact fits.avoids_or_mask_iff.mpr ⟨avoidSeen other member, apart other member⟩

/-- An operand is accepted if it is well formed and none of its slots share a bit. -/
theorem validate_eq_ok_iff {operand : Operand} :
    operand.validate = .ok () ↔ operand.WellFormed ∧ operand.slots.Pairwise Slot.Disjoint := by
  rw [validate, WellFormed, ← shapeFault?_eq_none_iff]
  cases shape : operand.shapeFault? with
  | some fault => simp
  | none =>
    simp only [validateSlots_eq_ok_iff, true_and]
    exact and_congr_right fun _ => and_iff_left fun slot _ => slot.avoids_zero

theorem WellFormed.fits {operand : Operand} (wellFormed : operand.WellFormed) :
    ∀ slot ∈ operand.slots, slot.Fits :=
  fun slot member => (wellFormed.2 slot member).1

/-- The mask has the bits of the word that the operand covers. -/
theorem getLsbD_mask_iff_covers {operand : Operand} {bit : Nat} :
    operand.mask.getLsbD bit ↔ bit < 32 ∧ operand.Covers bit := by
  rw [getLsbD_mask, Bool.and_eq_true, decide_eq_true_eq, decide_eq_true_eq, Covers]

/-- If the slots lie inside the word, the mask has exactly their bits. -/
theorem getLsbD_mask_iff {operand : Operand} (fits : ∀ slot ∈ operand.slots, slot.Fits) {bit : Nat} :
    operand.mask.getLsbD bit ↔ operand.Covers bit := by
  refine getLsbD_mask_iff_covers.trans (and_iff_right_of_imp ?_)
  rintro ⟨slot, member, covers⟩
  exact (fits slot member).lt_of_covers covers

theorem mask_and_eq_zero_iff {operand : Operand} (fits : ∀ slot ∈ operand.slots, slot.Fits)
    {seen : Word} : operand.mask &&& seen = 0 ↔ ∀ slot ∈ operand.slots, slot.Avoids seen := by
  rw [Word.and_eq_zero_iff]
  constructor
  · intro clear slot member bit covers
    exact clear bit ((getLsbD_mask_iff fits).mpr ⟨slot, member, covers⟩)
  · intro avoids bit masked
    obtain ⟨slot, member, covers⟩ := (getLsbD_mask_iff fits).mp masked
    exact avoids slot member bit covers

theorem avoids_mask_iff {operand : Operand} (fits : ∀ slot ∈ operand.slots, slot.Fits)
    {other : Slot} :
    other.Avoids operand.mask ↔ ∀ slot ∈ operand.slots, slot.Disjoint other := by
  constructor
  · intro avoids slot member bit both
    have clear := avoids bit both.2
    rw [(getLsbD_mask_iff fits).mpr ⟨slot, member, both.1⟩] at clear
    contradiction
  · intro disjoint bit covers
    rw [Bool.eq_false_iff]
    intro masked
    obtain ⟨slot, member, earlier⟩ := (getLsbD_mask_iff fits).mp masked
    exact disjoint slot member bit ⟨earlier, covers⟩

/-- A slot avoids the mask of the operands before it exactly if it is disjoint from their slots. -/
theorem avoids_or_mask_iff {operand : Operand} (fits : ∀ slot ∈ operand.slots, slot.Fits)
    {other : Slot} {seen : Word} :
    other.Avoids (seen ||| operand.mask) ↔
      other.Avoids seen ∧ ∀ slot ∈ operand.slots, slot.Disjoint other := by
  rw [Slot.avoids_or_iff, avoids_mask_iff fits]

end Operand

namespace Format

/-- One step of the loop over the operands. -/
theorem validateOperands_cons_eq_ok_iff {order : OperandOrder} {seen : Word} {afterImmediate : Bool}
    {operand : Operand} {rest : List Operand} :
    validateOperands order seen afterImmediate (operand :: rest) = .ok () ↔
      operand.validate = .ok () ∧ (∀ slot ∈ operand.slots, slot.Avoids seen) ∧
        (order = .canonical → afterImmediate → operand.kind.isImmediate) ∧
        validateOperands order (seen ||| operand.mask)
          (afterImmediate || operand.kind.isImmediate) rest = .ok () := by
  rw [validateOperands]
  cases checked : operand.validate with
  | error fault => simp
  | ok checkedUnit =>
    have fits := (Operand.validate_eq_ok_iff.mp checked).1.fits
    rw [← Operand.mask_and_eq_zero_iff fits]
    by_cases clear : operand.mask &&& seen = 0
    · by_cases late : order = .canonical ∧ operand.kind.isRegister ∧ afterImmediate
      · have misplaced : ¬ (order = .canonical → afterImmediate → operand.kind.isImmediate) :=
          fun inOrder => Kind.isRegister_iff.mp late.2.1 (inOrder late.1 late.2.2)
        simp only [if_pos late, clear, misplaced, ne_eq, not_true_eq_false, if_false, reduceCtorEq,
          false_and, and_false]
      · have inOrder : order = .canonical → afterImmediate → operand.kind.isImmediate := by
          intro canonical after
          refine Decidable.of_not_not fun other => ?_
          exact late ⟨canonical, Kind.isRegister_iff.mpr other, after⟩
        simp only [if_neg late, clear, ne_eq, not_true_eq_false, if_false, true_and]
        exact (and_iff_right inOrder).symm
    · simp only [clear, ne_eq, not_false_eq_true, if_true, reduceCtorEq, false_and, and_false]

theorem validateOperands_eq_ok_iff {order : OperandOrder} {seen : Word} {afterImmediate : Bool}
    {operands : List Operand} :
    validateOperands order seen afterImmediate operands = .ok () ↔
      (∀ operand ∈ operands, operand.WellFormed) ∧
        (operands.flatMap Operand.slots).Pairwise Slot.Disjoint ∧
        (∀ slot ∈ operands.flatMap Operand.slots, slot.Avoids seen) ∧
        (order = .canonical →
          (afterImmediate → ∀ operand ∈ operands, operand.kind.isImmediate) ∧
            Format.RegistersFirst ⟨operands⟩) := by
  induction operands generalizing seen afterImmediate with
  | nil => simp [validateOperands, RegistersFirst]
  | cons operand rest ih =>
    rw [validateOperands_cons_eq_ok_iff, ih, Operand.validate_eq_ok_iff, List.flatMap_cons,
      List.pairwise_append, List.forall_mem_append, List.forall_mem_cons]
    -- The loop goes on with the bits of the operand among those seen, so that what is still to come
    -- avoids them exactly if it is disjoint from the slots of the operand.
    constructor
    · rintro ⟨⟨wellFormed, within⟩, avoids, inOrder, others, disjoint, avoidAll, ordered⟩
      have split := fun other member =>
        (Operand.avoids_or_mask_iff wellFormed.fits).mp (avoidAll other member)
      refine ⟨⟨wellFormed, others⟩, ⟨within, disjoint, fun slot inside other member => ?_⟩,
        ⟨avoids, fun other member => (split other member).1⟩, fun canonical => ⟨?_, ?_⟩⟩
      · exact (split other member).2 slot inside
      · intro after
        rw [List.forall_mem_cons]
        exact ⟨inOrder canonical after, (ordered canonical).1 (by simp [after])⟩
      · refine List.pairwise_cons.mpr ⟨fun other member immediate => ?_, (ordered canonical).2⟩
        exact (ordered canonical).1 (by simp [immediate]) other member
    · rintro ⟨⟨wellFormed, others⟩, ⟨within, disjoint, apart⟩, ⟨avoids, avoidRest⟩, ordered⟩
      refine ⟨⟨wellFormed, within⟩, avoids, fun canonical after => ?_, others, disjoint,
        fun other member => ?_, fun canonical => ⟨fun after => ?_, ?_⟩⟩
      · exact (ordered canonical).1 after operand List.mem_cons_self
      · exact (Operand.avoids_or_mask_iff wellFormed.fits).mpr
          ⟨avoidRest other member, fun slot inside => apart slot inside other member⟩
      · intro other member
        rcases Bool.or_eq_true_iff.mp after with before | immediate
        · exact (ordered canonical).1 before other (List.mem_cons_of_mem _ member)
        · exact (List.pairwise_cons.mp (ordered canonical).2).1 other member immediate
      · exact (List.pairwise_cons.mp (ordered canonical).2).2

/-- A format is accepted in an order if it is well formed in that order. -/
theorem validate_eq_ok_iff {order : OperandOrder} {format : Format} :
    format.validate order = .ok () ↔ format.WellFormedIn order := by
  rw [validate, validateOperands_eq_ok_iff, WellFormedIn, WellFormed, slots, and_assoc]
  refine and_congr_right fun _ => and_congr_right fun _ => ?_
  constructor
  · rintro ⟨-, ordered⟩ canonical
    exact (ordered canonical).2
  · intro ordered
    exact ⟨fun slot _ => slot.avoids_zero, fun canonical => ⟨nofun, ordered canonical⟩⟩

theorem validate_manual_iff {format : Format} :
    format.validate .manual = .ok () ↔ format.WellFormed :=
  validate_eq_ok_iff.trans (and_iff_left nofun)

theorem validate_canonical_iff {format : Format} :
    format.validate .canonical = .ok () ↔ format.WellFormed ∧ format.RegistersFirst :=
  validate_eq_ok_iff.trans (and_congr_right fun _ => forall_prop_of_true rfl)

/-- The canonical order asks for more than a manual's. -/
theorem validate_manual_of_canonical {format : Format} (passed : format.validate .canonical = .ok ()) :
    format.validate .manual = .ok () :=
  validate_manual_iff.mpr (validate_canonical_iff.mp passed).1

/-- Registers stand first if none of them has an immediate somewhere before it. -/
theorem registersFirst_iff {format : Format} :
    format.RegistersFirst ↔
      ¬ ∃ (early late : Nat) (immediate register : Operand), early < late ∧
        format.operands[early]? = some immediate ∧ format.operands[late]? = some register ∧
        immediate.kind.isImmediate ∧ register.kind.isRegister := by
  rw [RegistersFirst, List.pairwise_iff_getElem]
  constructor
  · rintro ordered ⟨early, late, immediate, register, before, first, second, isImmediate, isRegister⟩
    obtain ⟨inFormat, rfl⟩ := List.getElem?_eq_some_iff.mp first
    obtain ⟨alsoInFormat, rfl⟩ := List.getElem?_eq_some_iff.mp second
    exact Kind.isRegister_iff.mp isRegister (ordered early late inFormat alsoInFormat before isImmediate)
  · intro none early late inFormat alsoInFormat before isImmediate
    refine Decidable.of_not_not fun other => none ?_
    exact ⟨early, late, _, _, before, List.getElem?_eq_getElem inFormat,
      List.getElem?_eq_getElem alsoInFormat, isImmediate, Kind.isRegister_iff.mpr other⟩

/-- What is asked of a format in any order, each thing of all operands. -/
theorem wellFormed_iff {format : Format} :
    format.WellFormed ↔
      (∀ operand ∈ format.operands, operand.slots ≠ []) ∧
      (∀ operand ∈ format.operands, operand.kind.isRegister → ∃ slot, operand.slots = [slot] ∧
        operand.kind.registerWidth? = some slot.width ∧ operand.transform = .identity) ∧
      (∀ operand ∈ format.operands, ∀ slot ∈ operand.slots, slot.Fits ∧
        ∃ letter, operand.kind.letters.letter? slot.offset = some letter) ∧
      format.slots.Pairwise Slot.Disjoint := by
  simp only [WellFormed, Operand.WellFormed, Operand.wellShaped_iff,
    LetterTable.letter?_eq_some_iff (Kind.letters_distinct _), imp_and, forall_and, and_assoc]

theorem WellFormed.fits {format : Format} (wellFormed : format.WellFormed) :
    ∀ slot ∈ format.slots, slot.Fits := by
  intro slot member
  obtain ⟨operand, inFormat, inOperand⟩ := List.mem_flatMap.mp member
  exact (wellFormed.1 operand inFormat).fits slot inOperand

/-- The operands of a well-formed format are valid. -/
theorem WellFormed.validate_operand {format : Format} (wellFormed : format.WellFormed)
    {operand : Operand} (member : operand ∈ format.operands) : operand.validate = .ok () :=
  Operand.validate_eq_ok_iff.mpr
    ⟨wellFormed.1 operand member, (List.pairwise_flatMap.mp wellFormed.2).1 operand member⟩

theorem covers_iff {format : Format} {bit : Nat} :
    format.Covers bit ↔ ∃ operand ∈ format.operands, operand.Covers bit := by
  constructor
  · rintro ⟨slot, member, covers⟩
    obtain ⟨operand, inFormat, inOperand⟩ := List.mem_flatMap.mp member
    exact ⟨operand, inFormat, slot, inOperand, covers⟩
  · rintro ⟨operand, inFormat, slot, inOperand, covers⟩
    exact ⟨slot, List.mem_flatMap.mpr ⟨operand, inFormat, inOperand⟩, covers⟩

/-- The mask has the bits of the word that the format covers. -/
theorem getLsbD_mask_iff_covers {format : Format} {bit : Nat} :
    format.mask.getLsbD bit ↔ bit < 32 ∧ format.Covers bit := by
  rw [getLsbD_mask, Bool.and_eq_true, decide_eq_true_eq, decide_eq_true_eq, covers_iff]
  rfl

/-- If the slots lie inside the word, the mask has exactly their bits. -/
theorem getLsbD_mask_iff {format : Format} (fits : ∀ slot ∈ format.slots, slot.Fits) {bit : Nat} :
    format.mask.getLsbD bit ↔ format.Covers bit := by
  refine getLsbD_mask_iff_covers.trans (and_iff_right_of_imp ?_)
  rintro ⟨slot, member, covers⟩
  exact (fits slot member).lt_of_covers covers

theorem WellFormed.and_mask_eq_zero_iff {format : Format} (wellFormed : format.WellFormed)
    {word : Word} :
    word &&& format.mask = 0 ↔ ∀ bit, format.Covers bit → word.getLsbD bit = false := by
  rw [BitVec.and_comm, Word.and_eq_zero_iff]
  exact forall_congr' fun bit => imp_congr_left (getLsbD_mask_iff wellFormed.fits)

end Format

namespace Description

/-- A description is accepted if it is well formed. -/
theorem validate_eq_ok_iff {description : Description} :
    description.validate = .ok () ↔ description.WellFormed := by
  rw [validate, WellFormed, ← Format.validate_eq_ok_iff]
  by_cases unnamed : description.mnemonic = ""
  · simp [unnamed]
  · have named : ¬ description.mnemonic.isEmpty := by simpa using unnamed
    rw [if_neg named]
    cases checked : description.format.validate .canonical with
    | error fault => simp
    | ok checkedUnit =>
      have wellFormed := (Format.validate_eq_ok_iff.mp checked).1
      rw [← wellFormed.and_mask_eq_zero_iff]
      by_cases clear : description.word &&& description.format.mask = 0
      · simp only [clear, unnamed, ne_eq, not_true_eq_false, if_false, not_false_eq_true, true_and]
      · simp only [clear, ne_eq, not_false_eq_true, if_true, reduceCtorEq, and_false]

/-- The manual format is accepted if it is valid in any order and has the bits of the format. -/
theorem validateManualFormat_eq_ok_iff {description : Description} {manual : Format}
    (given : description.manualFormat = some manual) :
    description.validateManualFormat = .ok () ↔
      manual.validate .manual = .ok () ∧ description.format.mask = manual.mask := by
  simp only [validateManualFormat, given]
  cases manual.validate .manual with
  | error fault => simp
  | ok => by_cases same : description.format.mask = manual.mask <;> simp [same]

/-- A description is refused for its name, for its format or for bits of its word. -/
theorem cases_of_validate {description : Description} {fault : ValidationError}
    (failed : description.validate = .error fault) :
    description.mnemonic = "" ∧ fault = .emptyMnemonic ∨
      description.format.validate .canonical = .error fault ∨
      fault = .wordOverlapsOperands description.word description.format.mask := by
  rw [validate] at failed
  split at failed
  · next unnamed =>
    cases failed
    exact Or.inl ⟨String.isEmpty_iff.mp unnamed, rfl⟩
  · cases checked : description.format.validate .canonical with
    | error wrong =>
      simp only [checked] at failed
      exact Or.inr (Or.inl failed)
    | ok =>
      simp only [checked] at failed
      split at failed
      · cases failed
        exact Or.inr (Or.inr rfl)
      · cases failed

/-- A manual format is refused for itself or for covering other bits. -/
theorem cases_of_validateManualFormat {description : Description} {manual : Format}
    {fault : ValidationError} (given : description.manualFormat = some manual)
    (failed : description.validateManualFormat = .error fault) :
    manual.validate .manual = .error fault ∨
      fault = .manualBitsDiffer description.format.mask manual.mask := by
  simp only [validateManualFormat, given] at failed
  cases checked : manual.validate .manual with
  | error wrong =>
    simp only [checked] at failed
    exact Or.inl failed
  | ok =>
    simp only [checked] at failed
    split at failed
    · cases failed
      exact Or.inr rfl
    · cases failed

/-- A format is accepted in any order if every operand has slots, a register one of its width and no
    transform, if every slot lies inside the word at a position with a letter, and if no two slots, be they
    of one operand or of two, cover a bit in common. It is accepted in the canonical order if besides no
    register stands after an immediate. A description is accepted if it has a name, its format is accepted
    in the canonical order, and its word has no bit where a slot is. -/
theorem validate_exact :
    (∀ format : Format, format.validate .manual = .ok () ↔
      (∀ operand ∈ format.operands, operand.slots ≠ []) ∧
      (∀ operand ∈ format.operands, operand.kind.isRegister → ∃ slot, operand.slots = [slot] ∧
        operand.kind.registerWidth? = some slot.width ∧ operand.transform = .identity) ∧
      (∀ operand ∈ format.operands, ∀ slot ∈ operand.slots, slot.Fits ∧
        ∃ letter, operand.kind.letters.letter? slot.offset = some letter) ∧
      format.slots.Pairwise Slot.Disjoint) ∧
    (∀ format : Format, format.validate .canonical = .ok () ↔
      format.validate .manual = .ok () ∧
        ¬ ∃ (early late : Nat) (immediate register : Operand), early < late ∧
          format.operands[early]? = some immediate ∧ format.operands[late]? = some register ∧
          immediate.kind.isImmediate ∧ register.kind.isRegister) ∧
    ∀ description : Description, description.validate = .ok () ↔
      description.mnemonic ≠ "" ∧ description.format.validate .canonical = .ok () ∧
        ∀ slot ∈ description.format.slots, ∀ bit, slot.Covers bit →
          description.word.getLsbD bit = false := by
  refine ⟨fun format => Format.validate_manual_iff.trans Format.wellFormed_iff, fun format => ?_,
    fun description => ?_⟩
  · rw [Format.validate_canonical_iff, Format.validate_manual_iff, Format.registersFirst_iff]
  · have bitwise : (∀ bit, description.format.Covers bit → description.word.getLsbD bit = false) ↔
        ∀ slot ∈ description.format.slots, slot.Avoids description.word :=
      ⟨fun clear slot member bit covers => clear bit ⟨slot, member, covers⟩,
        fun clear bit ⟨slot, member, covers⟩ => clear slot member bit covers⟩
    rw [validate_eq_ok_iff, WellFormed, ← Format.validate_eq_ok_iff, bitwise]
    rfl

end Description

end InsnEncoding
