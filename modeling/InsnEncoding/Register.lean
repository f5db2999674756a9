import InsnEncoding.Format.Basic
import Mathlib.Algebra.Order.Ring.Int

/-!
# Operands in registers

Masks and operands are computed in registers of 64 bits, whose operations have limits: an amount of a shift
must be smaller than the register, and a sum or a difference must be a number of its type. Bits that are
shifted out are dropped. Here an operation past its limit is a fault and ends the computation, and slots,
transforms and operands may be of any size, as everywhere.

The functions of this module are those of `Slot`, `Transform`, `Operand` and `Format` written in such
operations.
-/

namespace InsnEncoding

/-- Why an operation on registers has no result. -/
inductive ArithmeticFault where
  /-- A shift by as many bits as the register has, or by more. -/
  | oversizedShift
  /-- A sum or a difference that is no number of its type. -/
  | overflow
  deriving DecidableEq

namespace Register

section Operations

variable {size : Nat}

/-- Shift to the left. -/
def shiftLeft (register : BitVec size) (amount : Nat) : Except ArithmeticFault (BitVec size) :=
  if amount < size then .ok (register <<< amount) else .error .oversizedShift

/-- Shift to the right. -/
def shiftRight (register : BitVec size) (amount : Nat) : Except ArithmeticFault (BitVec size) :=
  if amount < size then .ok (register >>> amount) else .error .oversizedShift

/-- The sum of numbers without sign. -/
def add (first second : BitVec size) : Except ArithmeticFault (BitVec size) :=
  if first.uaddOverflow second then .error .overflow else .ok (first + second)

/-- The difference of numbers without sign. -/
def sub (first second : BitVec size) : Except ArithmeticFault (BitVec size) :=
  if first.usubOverflow second then .error .overflow else .ok (first - second)

/-- The difference of numbers in two's complement. -/
def subSigned (first second : BitVec size) : Except ArithmeticFault (BitVec size) :=
  if first.ssubOverflow second then .error .overflow else .ok (first - second)

variable {first second register : BitVec size} {amount : Nat}

theorem shiftLeft_of_lt (small : amount < size) : shiftLeft register amount = .ok (register <<< amount) :=
  if_pos small

theorem shiftRight_of_lt (small : amount < size) : shiftRight register amount = .ok (register >>> amount) :=
  if_pos small

theorem add_of_lt (small : first.toNat + second.toNat < 2 ^ size) : add first second = .ok (first + second) :=
  if_neg (by simpa [BitVec.uaddOverflow] using small)

theorem sub_of_le (le : second.toNat ≤ first.toNat) : sub first second = .ok (first - second) :=
  if_neg (by simpa [BitVec.usubOverflow] using le)

theorem subSigned_of_bounds (lower : -2 ^ (size - 1) ≤ first.toInt - second.toInt)
    (upper : first.toInt - second.toInt < 2 ^ (size - 1)) :
    subSigned first second = .ok (first - second) := by
  have within : first.ssubOverflow second = false := by
    simp only [BitVec.ssubOverflow, Bool.or_eq_false_iff, decide_eq_false_iff_not]
    exact ⟨Int.not_le.mpr upper, Int.not_lt.mpr lower⟩
  rw [subSigned, within]
  rfl

end Operations

/-- The register whose lowest `count` bits are set, one less than a power of two. -/
def ones (count : Nat) : Except ArithmeticFault (BitVec 64) := do
  sub (← shiftLeft 1#64 count) 1#64

/-- The lowest `count` bits of a register; all of them from 64 on. -/
def lowMask (count : UInt32) : Except ArithmeticFault (BitVec 64) :=
  if 64 ≤ count.toNat then .ok (BitVec.allOnes 64) else ones count.toNat

/-- The bits of the word that a slot covers: those up to its highest bit but for those below its lowest. -/
def slotMask (slot : Slot) : Except ArithmeticFault Word :=
  if slot.width = 0 ∨ 32 ≤ slot.offset.toNat then .ok 0
  else do
    let below ← ones slot.offset.toNat
    let bits ← add (BitVec.ofNat 64 (min slot.msb 31)) 1#64
    let through ← ones bits.toNat
    return (← sub through below).setWidth 32

/-- The bits of the word that some slot of an operand covers. -/
def operandMask (operand : Operand) : Except ArithmeticFault Word :=
  operand.slots.foldlM (fun covered slot => do return covered ||| (← slotMask slot)) 0

/-- The bits of the word that some operand of a format covers. -/
def formatMask (format : Format) : Except ArithmeticFault Word :=
  format.operands.foldlM (fun covered operand => do return covered ||| (← operandMask operand)) 0

/-- Apply a transform. -/
def apply : Transform → Value → Except ArithmeticFault Value
  | .identity, value => .ok value
  | .add amount, value => .ok (value + BitVec.ofNat 64 amount.toNat)
  | .shiftLeft amount, value =>
    if 64 ≤ amount.toNat then .ok 0 else shiftLeft value amount.toNat

/-- Go on gathering with the bits of one more slot. -/
def gatherSlot (word : Word) (value : BitVec 64) (slot : Slot) : Except ArithmeticFault (BitVec 64) := do
  let moved ← shiftRight (word.setWidth 64) (min slot.offset.toNat 31)
  let field := moved &&& (← lowMask slot.width)
  return (← shiftLeft value (min slot.width.toNat 32)) ||| field

/-- Gather the bits of an operand. -/
def extract (operand : Operand) (word : Word) : Except ArithmeticFault Word := do
  let value ← operand.slots.foldlM (gatherSlot word) 0#64
  return value.setWidth 32

/-- The bits of a value that go into a slot when `below` of them are left for the slots behind it. -/
def fieldOf (value : Word) (below : Nat) (slot : Slot) : Except ArithmeticFault (BitVec 64) :=
  if 32 ≤ below then .ok 0
  else do return (← shiftRight (value.setWidth 64) below) &&& (← lowMask slot.width)

/-- Go on scattering into one more slot, the second part of the state being the number of the bits of the
    value that are left. -/
def scatterSlot (value : Word) (state : BitVec 64 × Nat) (slot : Slot) :
    Except ArithmeticFault (BitVec 64 × Nat) := do
  let (register, remaining) := state
  let below := remaining - slot.width.toNat
  if 32 ≤ slot.offset.toNat then return (register, below)
  let field ← fieldOf value below slot
  let cleared := register &&& ~~~ (← slotMask slot).setWidth 64
  let placed := (← shiftLeft field slot.offset.toNat) &&& 0xffffffff#64
  return (cleared ||| placed, below)

/-- Replace the bits of an operand. -/
def insert (operand : Operand) (word value : Word) : Except ArithmeticFault Word := do
  let (register, _) ← operand.slots.foldlM (scatterSlot value) (word.setWidth 64, operand.totalWidth)
  return register.setWidth 32

/-- Extend the sign of a value that has so many bits. -/
def extend (raw : Value) (width : Nat) : Except ArithmeticFault Value := do
  let top ← sub (BitVec.ofNat 32 width) 1#32
  let sign ← shiftLeft 1#64 top.toNat
  if raw &&& sign = 0 then return raw
  subSigned raw (← shiftLeft sign 1)

/-- The value of an operand. -/
def decode (operand : Operand) (word : Word) : Except ArithmeticFault Value := do
  let raw := (← extract operand word).setWidth 64
  let width := operand.totalWidth
  let value ←
    if operand.kind = .signedImmediate ∧ 1 ≤ width ∧ width < 64 then extend raw width else pure raw
  apply operand.transform value

/-- Put one raw value per operand into a word. -/
def encode (format : Format) (base : Word) (values : List Word) :
    Except ArithmeticFault (Except ValidationError Word) :=
  if values.length = format.size then do
    return .ok (← (format.operands.zip values).foldlM (fun word entry => insert entry.1 word entry.2) base)
  else return .error (.operandCountMismatch format.size values.length)

end Register

end InsnEncoding
