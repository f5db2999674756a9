import InsnEncoding.Operand.Kind
import InsnEncoding.Operand.Transform
import InsnEncoding.Slot

/-!
# Operands

An operand has a kind, the slots that hold its bits, and a transform. The slots are in order of
significance: the first one holds the highest bits. `Operand.extract` gathers them into one number,
`Operand.insert` scatters a number over them, and `Operand.decode` gives the value that the
programmer sees.

Nothing is asked of the slots here: they may overlap, be empty or leave the word.
-/

namespace InsnEncoding

/-- An operand of an instruction: what it is and where its bits are. -/
structure Operand where
  kind : Kind
  slots : List Slot
  transform : Transform := .identity
  deriving DecidableEq

namespace Operand

/-- A register operand at a position, as wide as its kind asks, and five bits for an immediate. -/
def register (kind : Kind) (offset : UInt32) : Operand :=
  { kind, slots := [⟨offset, kind.registerWidth?.getD 5⟩] }

/-- The bits of the word that some slot covers. -/
def mask (operand : Operand) : Word :=
  operand.slots.foldr (fun slot covered => slot.mask ||| covered) 0

/-- The number of bits of the operand, at most the largest 32-bit number. -/
def totalWidth (operand : Operand) : Nat :=
  min (Slot.widthSum operand.slots) (UInt32.size - 1)

/-- Gather the operand's bits, the first slot on top. Only the lowest 32 bits are kept. -/
def extract (operand : Operand) (word : Word) : Word :=
  operand.slots.foldl
    (fun value slot => Word.shl value slot.width.toNat ||| slot.get word) 0

/-- Write a number over slots from the first to the last, `remaining` of its bits being left before
    the first of them. -/
def scatter (value : Word) : Nat → List Slot → Word → Word
  | _, [], word => word
  | remaining, slot :: rest, word =>
    let below := remaining - slot.width.toNat
    scatter value below rest (slot.put word (value >>> below))

/-- Replace the operand's bits of a word by those of a number, which is cut to the operand's
    width. -/
def insert (operand : Operand) (word value : Word) : Word :=
  scatter value operand.totalWidth operand.slots word

/-- The value of the operand in a word: a signed immediate is extended from its highest bit, then
    the transform is applied. -/
def decode (operand : Operand) (word : Word) : Value :=
  let raw := (operand.extract word).setWidth 64
  let width := operand.totalWidth
  operand.transform.apply <|
    if operand.kind = .signedImmediate ∧ 0 < width ∧ raw.getLsbD (width - 1) then
      raw - 1#64 <<< width
    else raw

/-- The operand's mask holds the bits of the word that some slot covers. -/
@[simp] theorem getLsbD_mask (operand : Operand) (bit : Nat) :
    operand.mask.getLsbD bit =
      (decide (bit < 32) && decide (∃ slot ∈ operand.slots, slot.Covers bit)) := by
  rw [mask]
  induction operand.slots with
  | nil => simp
  | cons slot rest ih =>
    rw [List.foldr_cons, BitVec.getLsbD_or, Slot.getLsbD_mask, ih, ← Bool.and_or_distrib_left,
      ← Bool.decide_or]
    simp

end Operand

end InsnEncoding
