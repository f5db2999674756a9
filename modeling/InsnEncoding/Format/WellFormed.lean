import InsnEncoding.Description.Basic

/-!
# Well-formed formats

What `validate` looks for, said in one piece: about each operand, each slot and each pair of slots,
with no order of looking and no masks. A slot covers bits counted without upper limit here, and two
slots are disjoint if they cover no bit in common.
-/

namespace InsnEncoding

/-- No bit is covered by both slots. -/
def Slot.Disjoint (first second : Slot) : Prop :=
  ∀ bit, ¬ (first.Covers bit ∧ second.Covers bit)

namespace Operand

/-- Some slot of the operand covers the bit. -/
def Covers (operand : Operand) (bit : Nat) : Prop :=
  ∃ slot ∈ operand.slots, slot.Covers bit

/-- The operand has as many slots as its kind asks, a register also the width of its kind and no
    transform. -/
def WellShaped (operand : Operand) : Prop :=
  match operand.kind.registerWidth? with
  | none => operand.slots ≠ []
  | some width => (∃ offset, operand.slots = [⟨offset, width⟩]) ∧ operand.transform = .identity

/-- The operand has the right shape, and its slots lie inside the word at positions with a letter. -/
def WellFormed (operand : Operand) : Prop :=
  operand.WellShaped ∧
    ∀ slot ∈ operand.slots, slot.Fits ∧ ∃ letter, (slot.offset, letter) ∈ operand.kind.letters

/-- The operand has a text from which it can be read back: it has the right shape and its slots are
    at positions with a letter, wherever they end. -/
def Representable (operand : Operand) : Prop :=
  operand.WellShaped ∧ ∀ slot ∈ operand.slots, ∃ letter, (slot.offset, letter) ∈ operand.kind.letters

end Operand

namespace Format

/-- The slots of all operands. -/
def slots (format : Format) : List Slot :=
  format.operands.flatMap Operand.slots

/-- Some slot of the format covers the bit. -/
def Covers (format : Format) (bit : Nat) : Prop :=
  ∃ slot ∈ format.slots, slot.Covers bit

/-- Every operand is well formed and no two slots share a bit. -/
def WellFormed (format : Format) : Prop :=
  (∀ operand ∈ format.operands, operand.WellFormed) ∧ format.slots.Pairwise Slot.Disjoint

/-- No register stands after an immediate. -/
def RegistersFirst (format : Format) : Prop :=
  format.operands.Pairwise fun first second => first.kind.isImmediate → second.kind.isImmediate

/-- The format is well formed, in the order asked. -/
def WellFormedIn (order : OperandOrder) (format : Format) : Prop :=
  format.WellFormed ∧ (order = .canonical → format.RegistersFirst)

end Format

namespace Description

/-- The description has a name, a well-formed format in the canonical order, and no bit of its word
    where an operand is. -/
def WellFormed (description : Description) : Prop :=
  description.mnemonic ≠ "" ∧ description.format.WellFormedIn .canonical ∧
    ∀ bit, description.format.Covers bit → description.word.getLsbD bit = false

end Description

end InsnEncoding
