import InsnEncoding.Proofs.ManualFormat
import Mathlib.Algebra.GroupWithZero.Nat
import Mathlib.Data.Nat.Count

/-!
# The bits of a format

The operands of a valid format lie inside the word and share no bit. So the format covers as many bits as its
operands are wide together, and these are the set bits of its mask (`Format.Placed.totalWidth_eq`,
`Format.Placed.toNat_cpop_mask`). All other laws of counting follow: no operand is wider than the word, there
are no more operands than bits, and formats that cover the same bits are equally wide.
-/

namespace InsnEncoding

/-- The set bits of a word are the bits of the word that are set. -/
theorem Word.toNat_cpop (word : Word) :
    word.cpop.toNat = ((Finset.range 32).filter fun bit => word.getLsbD bit).card := by
  have counted (count : Nat) :
      word.cpopNatRec count 0 = Nat.count (fun bit => word.getLsbD bit) count := by
    induction count with
    | zero => rfl
    | succ count ih =>
      rw [BitVec.cpopNatRec_succ, BitVec.cpopNatRec_add, ih, Nat.count_succ]
      cases word.getLsbD count <;> rfl
  rw [BitVec.toNat_cpop, counted, Nat.count_eq_card_filter_range]

theorem Slot.widthSum_flatMap (operands : List Operand) :
    Slot.widthSum (operands.flatMap Operand.slots) =
      (operands.map fun operand => Slot.widthSum operand.slots).sum := by
  induction operands with
  | nil => rfl
  | cons operand rest ih => simp [ih]

namespace Format

/-- The number of bits of all operands together. -/
def totalWidth (format : Format) : Nat :=
  (format.operands.map Operand.totalWidth).sum

variable {format : Format}

/-- Where no slot is counted short, the widths of the operands are those of their slots. -/
theorem Placed.totalWidth_eq (placed : format.Placed) :
    format.totalWidth = Slot.widthSum format.slots := by
  rw [slots, Slot.widthSum_flatMap, totalWidth]
  congr 1
  exact List.map_congr_left fun operand member => (placed.operand member).totalWidth_eq

/-- The mask has as many bits as the slots are wide. -/
theorem Placed.toNat_cpop_mask (placed : format.Placed) :
    format.mask.cpop.toNat = Slot.widthSum format.slots := by
  rw [Word.toNat_cpop, ← placed.card_coveredBits, Slot.coveredBits]
  congr 1
  refine Finset.filter_congr fun bit inWord => ?_
  exact getLsbD_mask_iff_covers.trans (and_iff_right (Finset.mem_range.mp inWord))

/-- Every bit of the word belongs to an operand or is fixed. -/
theorem toNat_cpop_mask_add_fixedMask (format : Format) :
    format.mask.cpop.toNat + format.fixedMask.cpop.toNat = 32 := by
  have bound := BitVec.toNat_cpop_le format.mask
  rw [fixedMask, BitVec.toNat_cpop_not]
  omega

/-- Every operand takes a bit, so there are no more operands than bits. -/
theorem size_le_totalWidth (valid : ∀ operand ∈ format.operands, operand.validate = .ok ()) :
    format.size ≤ format.totalWidth := by
  have wide : ∀ width ∈ format.operands.map Operand.totalWidth, 1 ≤ width := by
    simpa using fun operand member => Operand.one_le_totalWidth (valid operand member)
  simpa [size, totalWidth] using List.length_le_sum_of_one_le _ wide

/-- The operands of a valid format are together as wide as its mask has bits. -/
theorem totalWidth_eq_cpop_mask (valid : format.validate .manual = .ok ()) :
    format.totalWidth = format.mask.cpop.toNat := by
  have placed := (validate_manual_iff.mp valid).placed
  rw [placed.totalWidth_eq, placed.toNat_cpop_mask]

end Format

namespace Description

/-- The widths of the operands of a valid format add up to the number of bits of its mask, and what they leave
    of the word is fixed. Each operand has from one bit to 32, and its width is that of all its slots, so there
    are at most 32 operands. A valid manual format is as wide as the format. -/
theorem width_budget :
    (∀ format : Format, format.validate .manual = .ok () →
      format.totalWidth = format.mask.cpop.toNat ∧
      format.totalWidth + format.fixedMask.cpop.toNat = 32 ∧
      (∀ operand ∈ format.operands, 1 ≤ operand.totalWidth ∧ operand.totalWidth ≤ 32 ∧
        operand.totalWidth = Slot.widthSum operand.slots) ∧
      format.size ≤ 32) ∧
    ∀ (description : Description) (manual : Format),
      description.format.validate .manual = .ok () → description.manualFormat = some manual →
      description.validateManualFormat = .ok () →
        manual.totalWidth = description.format.totalWidth := by
  refine ⟨fun format valid => ?_, fun description manual valid given validManual => ?_⟩
  · have wellFormed := Format.validate_manual_iff.mp valid
    have counted := Format.totalWidth_eq_cpop_mask valid
    have budget := format.toNat_cpop_mask_add_fixedMask
    rw [← counted] at budget
    refine ⟨counted, budget, fun operand member => ?_, ?_⟩
    · have placed := wellFormed.placed.operand member
      exact ⟨Operand.one_le_totalWidth (wellFormed.validate_operand member), placed.totalWidth_le,
        placed.totalWidth_eq⟩
    · have few := Format.size_le_totalWidth fun _ => wellFormed.validate_operand
      omega
  · obtain ⟨accepted, sameMask⟩ := (validateManualFormat_eq_ok_iff given).mp validManual
    rw [Format.totalWidth_eq_cpop_mask accepted, Format.totalWidth_eq_cpop_mask valid, sameMask]

theorem width_budget_scaledStore : scaledStore.format.validate .manual = .ok () ∧
    scaledStore.format.totalWidth + scaledStore.format.fixedMask.cpop.toNat = 32 ∧
    ∃ manual, scaledStore.manualFormat = some manual ∧ scaledStore.validateManualFormat = .ok () ∧
      manual.totalWidth = scaledStore.format.totalWidth := by
  have valid : scaledStore.format.validate .manual = .ok () := by decide
  have validManual : scaledStore.validateManualFormat = .ok () := by decide
  obtain ⟨budget, manualBudget⟩ := width_budget
  obtain ⟨-, filled, -⟩ := budget _ valid
  exact ⟨valid, filled, _, rfl, validManual, manualBudget _ _ valid rfl validManual⟩

end Description

end InsnEncoding
