import InsnEncoding.Proofs.FormatGrammar
import InsnEncoding.Proofs.Validity
import Mathlib.Data.Set.Function

/-!
# Reading back what was written

Every format has a text, but the text of an ill-shaped operand leaves something out. It is read back
exactly if each operand is `Operand.Representable`. Both directions go through the grammar: a
representable operand is spelled by its own text (`OperandSpelled.spell`), and whatever a text spells is
representable (`OperandSpelled.representable`), so a text with something left out is at best read as
another format.
-/

namespace InsnEncoding

theorem Slot.mark_eq {slot : Slot} {letter : Char} (member : (slot.offset, letter) ∈ fieldLetters) :
    slot.mark = letter := by
  unfold mark
  rw [(LetterTable.letter?_eq_some_iff fieldLetters_distinct).mpr member]
  rfl

namespace SlotsSpelled

/-- Slots at positions with a letter are spelled by their own text. -/
theorem spell {slots : List Slot}
    (letters : ∀ slot ∈ slots, ∃ letter, (slot.offset, letter) ∈ fieldLetters) :
    SlotsSpelled (slots.flatMap Slot.spell) slots := by
  induction slots with
  | nil => exact .nil
  | cons slot rest ih =>
    obtain ⟨⟨letter, member⟩, later⟩ := List.forall_mem_cons.mp letters
    rw [List.flatMap_cons]
    show SlotsSpelled (slot.mark :: Numeral.write slot.width ++ _) _
    rw [Slot.mark_eq member]
    exact .cons member (Numeral.spells_write slot.width) (ih later)

theorem letters {body : List Char} {slots : List Slot} (spelled : SlotsSpelled body slots) :
    ∀ slot ∈ slots, ∃ letter, (slot.offset, letter) ∈ fieldLetters := by
  induction spelled with
  | nil =>
    intro slot inSlots
    contradiction
  | cons member _ _ ih => exact List.forall_mem_cons.mpr ⟨⟨_, member⟩, ih⟩

end SlotsSpelled

theorem TransformSpelled.spell (transform : Transform) :
    TransformSpelled transform.suffix transform := by
  cases transform with
  | identity => exact .identity
  | add amount => exact .add (Numeral.spells_write amount)
  | shiftLeft amount => exact .shiftLeft (Numeral.spells_write amount)

namespace Kind

theorem letters_eq_of_lead {kind : Kind} {lead : Char} (opens : kind.lead? = some lead) :
    kind.letters = fieldLetters := by
  cases kind with
  | intRegister => cases opens
  | _ => rfl

/-- The only kind without a letter is that of integer registers. -/
theorem eq_intRegister_or_exists_lead (kind : Kind) :
    kind = .intRegister ∨ ∃ lead, kind.lead? = some lead := by
  cases kind with
  | intRegister => exact Or.inl rfl
  | _ => exact Or.inr ⟨_, rfl⟩

theorem exists_lead_of_isImmediate {kind : Kind} (immediate : kind.isImmediate) :
    ∃ lead, kind.lead? = some lead := by
  rcases kind.eq_intRegister_or_exists_lead with rfl | opens
  · contradiction
  · exact opens

end Kind

namespace Operand

theorem wellShaped_of_isImmediate {operand : Operand} (immediate : operand.kind.isImmediate) :
    operand.WellShaped ↔ operand.slots ≠ [] := by
  unfold WellShaped
  rw [Kind.isImmediate_iff_registerWidth?.mp immediate]

/-- A register has its shape exactly if it is the register of its kind at some position. -/
theorem wellShaped_of_isRegister {operand : Operand} (register : operand.kind.isRegister) :
    operand.WellShaped ↔ ∃ offset, operand = .register operand.kind offset := by
  obtain ⟨kind, slots, transform⟩ := operand
  have ofFile := Kind.isRegister_iff.mp register
  unfold WellShaped Operand.register
  cases width : kind.registerWidth? with
  | none => exact absurd (Kind.isImmediate_iff_registerWidth?.mpr width) ofFile
  | some width => simp

theorem spellSlots_register {kind : Kind} (register : kind.isRegister) {offset : UInt32}
    {letter : Char} (member : (offset, letter) ∈ kind.letters) :
    (Operand.register kind offset).spellSlots = [letter] := by
  have named := (LetterTable.letter?_eq_some_iff kind.letters_distinct).mpr member
  have ofFile := Kind.isRegister_iff.mp register
  simp [spellSlots, firstMark, Operand.register, ofFile, named]

end Operand

namespace OperandSpelled

theorem spell_register {kind : Kind} (register : kind.isRegister) {offset : UInt32} {letter : Char}
    (member : (offset, letter) ∈ kind.letters) :
    OperandSpelled (Operand.register kind offset).spell (.register kind offset) := by
  unfold Operand.spell
  rw [Operand.spellSlots_register register member]
  rcases kind.eq_intRegister_or_exists_lead with rfl | ⟨lead, opens⟩
  · exact .intRegister member
  · rw [Kind.letters_eq_of_lead opens] at member
    show OperandSpelled (kind.lead?.toList ++ [letter] ++ []) _
    rw [opens]
    exact .register register opens member

/-- A representable operand is spelled by its own text. -/
theorem spell {operand : Operand} (representable : operand.Representable) :
    OperandSpelled operand.spell operand := by
  obtain ⟨shaped, letters⟩ := representable
  by_cases immediate : operand.kind.isImmediate
  · -- An immediate opens with a letter, so its positions are those of the small letters.
    obtain ⟨lead, opens⟩ := Kind.exists_lead_of_isImmediate immediate
    rw [Kind.letters_eq_of_lead opens] at letters
    unfold Operand.spell Operand.spellSlots
    rw [opens, if_pos immediate]
    exact .immediate immediate opens ((Operand.wellShaped_of_isImmediate immediate).mp shaped)
      (.spell letters) (.spell operand.transform)
  · have register := Kind.isRegister_iff.mpr immediate
    obtain ⟨offset, same⟩ := (Operand.wellShaped_of_isRegister register).mp shaped
    rw [same] at letters ⊢
    obtain ⟨letter, member⟩ := letters _ (List.mem_singleton.mpr rfl)
    exact spell_register register member

theorem representable_register {kind : Kind} (register : kind.isRegister) {offset : UInt32}
    {letter : Char} (member : (offset, letter) ∈ kind.letters) :
    (Operand.register kind offset).Representable := by
  refine ⟨(Operand.wellShaped_of_isRegister register).mpr ⟨offset, rfl⟩, ?_⟩
  intro slot inSlots
  cases List.mem_singleton.mp inSlots
  exact ⟨letter, member⟩

/-- Whatever a text spells is representable. -/
theorem representable {text : List Char} {operand : Operand} (spelled : OperandSpelled text operand) :
    operand.Representable := by
  cases spelled with
  | intRegister member => exact representable_register rfl member
  | register register opens member =>
    rw [← Kind.letters_eq_of_lead opens] at member
    exact representable_register register member
  | @immediate kind _ _ _ slots _ immediate opens nonempty spelledSlots _ =>
    refine ⟨(Operand.wellShaped_of_isImmediate immediate).mpr nonempty, ?_⟩
    show ∀ slot ∈ slots, ∃ letter, (slot.offset, letter) ∈ kind.letters
    rw [Kind.letters_eq_of_lead opens]
    exact spelledSlots.letters

end OperandSpelled

namespace OperandsSpelled

theorem spell {operands : List Operand}
    (representable : ∀ operand ∈ operands, operand.Representable) :
    OperandsSpelled (operands.flatMap Operand.spell) operands := by
  induction operands with
  | nil => exact .nil
  | cons operand rest ih =>
    obtain ⟨first, later⟩ := List.forall_mem_cons.mp representable
    rw [List.flatMap_cons]
    exact .cons (.spell first) (ih later)

theorem representable {text : List Char} {operands : List Operand}
    (spelled : OperandsSpelled text operands) : ∀ operand ∈ operands, operand.Representable := by
  induction spelled with
  | nil =>
    intro operand inOperands
    contradiction
  | cons first _ ih => exact List.forall_mem_cons.mpr ⟨first.representable, ih⟩

end OperandsSpelled

namespace Format

/-- The text of a format spells it exactly if each of its operands is representable. -/
theorem spelledBy_spell_iff {format : Format} :
    format.SpelledBy format.spell ↔ ∀ operand ∈ format.operands, operand.Representable := by
  unfold SpelledBy spell isEmpty
  constructor
  · intro spelled
    rcases spelled with ⟨_, none⟩ | spelled
    · simp [none]
    · exact spelled.representable
  · intro representable
    cases operands : format.operands with
    | nil => exact Or.inl ⟨rfl, rfl⟩
    | cons operand rest =>
      rw [operands] at representable
      exact Or.inr (.spell representable)

theorem WellFormed.representable {format : Format} (wellFormed : format.WellFormed) :
    ∀ operand ∈ format.operands, operand.Representable := by
  intro operand inFormat
  obtain ⟨shaped, slots⟩ := wellFormed.1 operand inFormat
  exact ⟨shaped, fun slot inSlots => (slots slot inSlots).2⟩

theorem ofText_repr_iff {format : Format} :
    ofText format.repr = .ok format ↔ ∀ operand ∈ format.operands, operand.Representable := by
  rw [← spelledBy_spell_iff, ← read_eq_ok_iff, ofText, repr, String.toList_ofList]

theorem ofText_repr_of_validate {order : OperandOrder} {format : Format}
    (valid : format.validate order = .ok ()) : ofText format.repr = .ok format :=
  ofText_repr_iff.mpr (validate_eq_ok_iff.mp valid).1.representable

/-- A format is read back from its text exactly if each of its operands is representable, which a valid
    one's are whatever the order asked. So no two valid formats have the same text. -/
theorem ofText_repr_round_trip :
    (∀ format : Format,
      ofText format.repr = .ok format ↔ ∀ operand ∈ format.operands, operand.Representable) ∧
    (∀ (order : OperandOrder) (format : Format), format.validate order = .ok () →
      ofText format.repr = .ok format) ∧
    Set.InjOn repr {format | ∃ order, format.validate order = .ok ()} := by
  refine ⟨fun _ => ofText_repr_iff, fun _ _ => ofText_repr_of_validate, ?_⟩
  rintro first ⟨_, firstValid⟩ second ⟨_, secondValid⟩ sameText
  have readFirst := ofText_repr_of_validate firstValid
  rw [sameText, ofText_repr_of_validate secondValid] at readFirst
  exact (Except.ok.inj readFirst).symm

/-- The format of a jump as a manual may write it: a condition, an offset whose high bits stand below its low
    ones, a hint in two fields, and a register. -/
def jump : Format :=
  ⟨[.register .conditionRegister 5, ⟨.signedImmediate, [⟨0, 5⟩, ⟨10, 5⟩], .shiftLeft 2⟩,
    ⟨.unsignedImmediate, [⟨15, 1⟩, ⟨16, 2⟩], .identity⟩, .register .floatRegister 18]⟩

theorem ofText_repr_jump : jump.validate .manual = .ok () ∧ jump.repr = "CjSd5k5ps2Ua1m2Fn" ∧
    ofText jump.repr = .ok jump ∧ ∀ operand ∈ jump.operands, operand.Representable := by
  have valid : jump.validate .manual = .ok () := by decide
  obtain ⟨representable, accepted, -⟩ := ofText_repr_round_trip
  have again := accepted .manual jump valid
  exact ⟨valid, by decide +kernel, again, (representable jump).mp again⟩

end Format

end InsnEncoding
