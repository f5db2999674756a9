import InsnEncoding.ValidationError.Basic
import InsnEncoding.Operand.Spelling

/-!
# Valid operands

`Operand.validate` finds the first thing wrong with an operand. A register has exactly one slot, as
wide as its kind asks, and no transform; an immediate has at least one slot; every slot lies inside
the word at a position with a letter; no two slots share a bit.

An operand in a message is shown by its text if it is valid, and otherwise by its parts
(`Operand.display`).
-/

namespace InsnEncoding

/-- What is wrong with a slot taken by itself, if there is anything. -/
def Slot.validate (slot : Slot) : Except ValidationError Unit :=
  match slot.fault? with
  | none => .ok ()
  | some fault => .error (.malformedSlot slot fault)

namespace Operand

/-- What is wrong with an operand before its slots are looked at one by one. -/
def shapeFault? (operand : Operand) : Option OperandFault :=
  match operand.slots, operand.kind.registerWidth? with
  | [], _ => some .noSlots
  | _, none => none
  | [slot], some expected =>
    if slot.width ≠ expected then some (.registerWidth slot.width expected)
    else if operand.transform.isIdentity then none
    else some .registerTransform
  | slots, some _ => some (.registerSlotCount slots.length)

/-- Look at the slots from the first to the last, `seen` being the bits of those before. -/
def validateSlots (kind : Kind) : Word → List Slot → Except ValidationError Unit
  | _, [] => .ok ()
  | seen, slot :: rest =>
    match slot.validate with
    | .error fault => .error fault
    | .ok () =>
      if kind.letters.letter? slot.offset = none then
        .error (.malformedOperand kind (.unnamedPosition slot.offset))
      else if slot.mask &&& seen ≠ 0 then .error (.overlappingSlot slot)
      else validateSlots kind (seen ||| slot.mask) rest

/-- The first thing wrong with an operand, if there is any. -/
def validate (operand : Operand) : Except ValidationError Unit :=
  match operand.shapeFault? with
  | some fault => .error (.malformedOperand operand.kind fault)
  | none => validateSlots operand.kind 0 operand.slots

/-- The operand has nothing wrong with it. -/
def isValid (operand : Operand) : Bool :=
  operand.validate.toBool

/-- The slots of an operand, each by its two numbers. -/
def slotFields (operand : Operand) : String :=
  "[" ++ ", ".intercalate (operand.slots.map Slot.fields) ++ "]"

/-- The parts of an operand, as the display of a faulty format lists them. -/
def fields (operand : Operand) : String :=
  s!"Arg \x7b kind: {operand.kind.tag}, slots: {operand.slotFields}, " ++
    s!"post: {operand.transform.fields} \x7d"

/-- An operand in a message. -/
def display (operand : Operand) : String :=
  if operand.isValid then s!"<Arg {operand.repr}>"
  else s!"<invalid Arg {operand.kind.tag} {operand.slotFields}>"

end Operand

end InsnEncoding
