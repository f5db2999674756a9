import InsnEncoding.Proofs.Encoding
import InsnEncoding.Proofs.FirstAndLast
import InsnEncoding.Proofs.FormatText
import InsnEncoding.Proofs.OperandOrder
import InsnEncoding.ValidationError.Message

/-!
# What an error names

An operand or a slot that does not go with those before it is named in the message of the error. It has passed
all checks of its own when it is compared with the others, so it has a text, and the message shows that text.
A slot is refused only at the end of slots that pass (`Operand.exists_split_of_overlappingSlot`), an operand
only behind operands that pass (`Format.RefusedAt.refusesFor`), so what is named is the first of its kind.

The main statement is `ValidationError.names_first_offender`.
-/

namespace InsnEncoding

namespace Slot

/-- A slot inside the word at a position with a letter is shown by its text. -/
theorem Fits.display {slot : Slot} (fits : slot.Fits)
    (letter : ∃ letter, (slot.offset, letter) ∈ fieldLetters) :
    slot.display = s!"<Slot {slot.repr}>" := by
  obtain ⟨letter, member⟩ := letter
  have named := (LetterTable.letter?_eq_some_iff fieldLetters_distinct).mpr member
  rw [Slot.display, if_pos ⟨fault?_eq_none_iff.mpr fits, by rw [named]; rfl⟩]

theorem validate_ne_overlappingSlot {slot other : Slot} :
    slot.validate ≠ .error (.overlappingSlot other) := by
  rw [Slot.validate]
  cases slot.fault? with
  | none => simp
  | some fault => simp

end Slot

/-- The positions of integer registers are among those of fields. -/
theorem Kind.exists_fieldLetter (kind : Kind) :
    ∀ entry ∈ kind.letters, ∃ letter, (entry.1, letter) ∈ fieldLetters := by
  cases kind with
  | intRegister => simp [letters, intRegisterLetters, fieldLetters]
  | _ => exact fun entry member => ⟨entry.2, member⟩

namespace Operand

/-- The operand is valid, a message shows it by its text, and as a format the text is read as the operand
    alone. -/
structure ShownByText (operand : Operand) : Prop where
  valid : operand.validate = .ok ()
  display : operand.display = s!"<Arg {operand.repr}>"
  read : Format.ofText operand.repr = .ok ⟨[operand]⟩

theorem representable_of_validate {operand : Operand} (valid : operand.validate = .ok ()) :
    operand.Representable := by
  obtain ⟨shaped, slots⟩ := (validate_eq_ok_iff.mp valid).1
  exact ⟨shaped, fun slot member => (slots slot member).2⟩

theorem shownByText {operand : Operand} (valid : operand.validate = .ok ()) :
    operand.ShownByText := by
  have isValid : operand.isValid := by
    rw [Operand.isValid, valid]
    rfl
  have single : Format.repr ⟨[operand]⟩ = operand.repr :=
    congrArg String.ofList (List.append_nil operand.spell)
  refine ⟨valid, if_pos isValid, ?_⟩
  rw [← single, Format.ofText_repr_iff]
  exact List.forall_mem_singleton.mpr (representable_of_validate valid)

/-- One step of the loop over the slots, if it ends at a slot that shares bits. -/
theorem validateSlots_cons_eq_overlappingSlot_iff {kind : Kind} {seen : Word} {first slot : Slot}
    {rest : List Slot} :
    validateSlots kind seen (first :: rest) = .error (.overlappingSlot slot) ↔
      first.Fits ∧ (∃ letter, (first.offset, letter) ∈ kind.letters) ∧
        (first = slot ∧ ¬ first.Avoids seen ∨
          first.Avoids seen ∧
            validateSlots kind (seen ||| first.mask) rest = .error (.overlappingSlot slot)) := by
  rw [validateSlots, ← Slot.validate_eq_ok_iff]
  cases checked : first.validate with
  | error fault =>
    simp only [reduceCtorEq, false_and, iff_false]
    rintro ⟨⟩
    exact Slot.validate_ne_overlappingSlot checked
  | ok =>
    have fits := Slot.validate_eq_ok_iff.mp checked
    rw [← fits.mask_and_eq_zero_iff]
    by_cases named : ∃ letter, (first.offset, letter) ∈ kind.letters
    · have letter : ¬ kind.letters.letter? first.offset = none := fun missing =>
        (LetterTable.letter?_eq_none_iff kind.letters_distinct).mp missing named
      by_cases clear : first.mask &&& seen = 0
      · simp only [if_neg letter, clear, named, ne_eq, not_true_eq_false, if_false, and_false, false_or,
          true_and]
      · simp only [if_neg letter, clear, named, ne_eq, not_false_eq_true, if_true, and_true, false_and,
          or_false, true_and, Except.error.injEq, ValidationError.overlappingSlot.injEq]
    · have missing := (LetterTable.letter?_eq_none_iff kind.letters_distinct).mpr named
      simp [missing, named]

/-- A slot that is refused because it shares bits stands behind slots that pass, and all its bits are inside
    the word. If it shares none of those seen before, one of those slots has a bit of it. -/
theorem exists_split_of_overlappingSlot {kind : Kind} {seen : Word} {slots : List Slot} {slot : Slot}
    (refused : validateSlots kind seen slots = .error (.overlappingSlot slot)) :
    slot.Fits ∧ (∃ letter, (slot.offset, letter) ∈ kind.letters) ∧
      ∃ before behind, slots = before ++ slot :: behind ∧ validateSlots kind seen before = .ok () ∧
        (slot.Avoids seen → ∃ earlier ∈ before, ¬ earlier.Disjoint slot) := by
  induction slots generalizing seen with
  | nil => cases refused
  | cons first rest ih =>
    obtain ⟨fits, letter, ⟨rfl, meets⟩ | ⟨avoids, later⟩⟩ :=
      validateSlots_cons_eq_overlappingSlot_iff.mp refused
    · exact ⟨fits, letter, [], rest, rfl, rfl, fun avoids => absurd avoids meets⟩
    · obtain ⟨slotFits, slotLetter, before, behind, rfl, passed, found⟩ := ih later
      refine ⟨slotFits, slotLetter, first :: before, behind, rfl,
        validateSlots_cons_eq_ok_iff.mpr ⟨fits, letter, avoids, passed⟩, fun avoidsSeen => ?_⟩
      by_cases disjoint : first.Disjoint slot
      · obtain ⟨earlier, member, meets⟩ := found (fits.avoids_or_mask_iff.mpr ⟨avoidsSeen, disjoint⟩)
        exact ⟨earlier, List.mem_cons_of_mem _ member, meets⟩
      · exact ⟨first, List.mem_cons_self, disjoint⟩

/-- In an operand that is refused because a slot shares bits, that slot is the first to do so. -/
theorem firstToMeet_of_overlappingSlot {operand : Operand} {slot : Slot}
    (refused : operand.validate = .error (.overlappingSlot slot)) :
    slot.Fits ∧ (∃ letter, (slot.offset, letter) ∈ fieldLetters) ∧
      ∃ place, operand.slots[place]? = some slot ∧ FirstToMeet Slot.Disjoint operand.slots place := by
  rw [validate] at refused
  cases shape : operand.shapeFault? with
  | some wrong => simp [shape] at refused
  | none =>
    simp only [shape] at refused
    obtain ⟨fits, ⟨letter, member⟩, before, behind, split, passed, meets⟩ :=
      exists_split_of_overlappingSlot refused
    have here : operand.slots[before.length]? = some slot := by simp [split]
    have ahead : operand.slots.take before.length = before := by simp [split]
    refine ⟨fits, operand.kind.exists_fieldLetter _ member, before.length, here, ?_⟩
    rw [firstToMeet_iff here, ahead]
    exact ⟨(validateSlots_eq_ok_iff.mp passed).2.1, meets slot.avoids_zero⟩

end Operand

namespace Format

/-- An operand is refused for itself, or it is valid and shares bits with those seen, or it is a register
    behind an immediate in the canonical order. -/
theorem cases_of_validateOperands_singleton {order : OperandOrder} {seen : Word} {afterImmediate : Bool}
    {operand : Operand} {fault : ValidationError}
    (refused : validateOperands order seen afterImmediate [operand] = .error fault) :
    operand.validate = .error fault ∨
    operand.validate = .ok () ∧
      (operand.mask &&& seen ≠ 0 ∧ fault = .overlappingOperand operand ∨
        order = .canonical ∧ operand.kind.isRegister ∧ afterImmediate ∧
          fault = .registerAfterImmediate operand) := by
  rw [validateOperands] at refused
  cases checked : operand.validate with
  | error other =>
    simp only [checked] at refused
    exact Or.inl refused
  | ok =>
    simp only [checked] at refused
    refine Or.inr ⟨rfl, ?_⟩
    split at refused
    · next shared =>
      cases refused
      exact Or.inl ⟨shared, rfl⟩
    · split at refused
      · next late =>
        cases refused
        exact Or.inr ⟨late.1, late.2.1, late.2.2, rfl⟩
      · cases refused

/-- An operand that shares bits with the mask of others meets one of them. -/
theorem exists_not_disjoint {operands : List Operand} {operand : Operand}
    (shared : operand.mask &&& mask ⟨operands⟩ ≠ 0) : ∃ other ∈ operands, ¬ other.Disjoint operand := by
  by_contra none
  push Not at none
  refine shared (Word.and_eq_zero_iff.mpr fun bit inOperand => ?_)
  rw [Bool.eq_false_iff]
  intro inOthers
  obtain ⟨-, coversOperand⟩ := Operand.getLsbD_mask_iff_covers.mp inOperand
  obtain ⟨other, member, covers⟩ := covers_iff.mp (getLsbD_mask_iff_covers.mp inOthers).2
  exact none other member bit ⟨covers, coversOperand⟩

/-- Why validation stops at an operand of a format. -/
inductive RefusesFor (format : Format) (index : Nat) (operand : Operand) : ValidationError → Prop where
  | invalid {fault : ValidationError} :
      operand.validate = .error fault → RefusesFor format index operand fault
  | overlapping : operand.validate = .ok () → FirstToMeet Operand.Disjoint format.operands index →
      RefusesFor format index operand (.overlappingOperand operand)
  | misplaced : operand.validate = .ok () → format.Misplaced index →
      (∀ earlier < index, ¬ format.Misplaced earlier) →
      RefusesFor format index operand (.registerAfterImmediate operand)

/-- The operand at which validation stops stands behind valid ones, and it is the first of those that are
    refused for the same reason. -/
theorem RefusedAt.refusesFor {order : OperandOrder} {format : Format} {index : Nat}
    {fault : ValidationError} (stopped : format.RefusedAt order index fault) :
    ∃ operand, format.operands[index]? = some operand ∧
      (∀ other ∈ format.operands.take index, other.validate = .ok ()) ∧
      format.RefusesFor index operand fault := by
  obtain ⟨inside, passed, refused⟩ := stopped
  obtain ⟨operand, here⟩ : ∃ operand, format.operands[index]? = some operand :=
    ⟨_, List.getElem?_eq_getElem inside⟩
  have wellFormed := (validate_eq_ok_iff.mp passed).1
  refine ⟨operand, here, fun other => wellFormed.validate_operand, ?_⟩
  have step := validate_append_singleton order (format.operands.take index) operand
  rw [← take_succ here, refused, ← take, passed] at step
  rcases cases_of_validateOperands_singleton step.symm with
    failed | ⟨valid, ⟨shared, rfl⟩ | ⟨rfl, register, after, rfl⟩⟩
  · exact .invalid failed
  · refine .overlapping valid ((firstToMeet_iff here).mpr ⟨?_, exists_not_disjoint shared⟩)
    exact wellFormed.placed.operands_disjoint
  · exact .misplaced valid (misplaced_of_hasImmediate here register after)
      fun earlier before => not_misplaced_of_validate_take passed before

/-- A format is refused for the operand where validation stops. -/
theorem exists_refusesFor {order : OperandOrder} {format : Format} {fault : ValidationError}
    (refused : format.validate order = .error fault) :
    ∃ index operand, format.operands[index]? = some operand ∧
      (∀ other ∈ format.operands.take index, other.validate = .ok ()) ∧
      format.RefusesFor index operand fault := by
  obtain ⟨index, stopped⟩ := validate_eq_error_iff.mp refused
  exact ⟨index, stopped.refusesFor⟩

section Refused

variable {order : OperandOrder} {format : Format} {operand : Operand} {slot : Slot}

theorem firstToMeet_of_overlappingOperand
    (refused : format.validate order = .error (.overlappingOperand operand)) :
    operand.ShownByText ∧ ∃ index, format.operands[index]? = some operand ∧
      (∀ other ∈ format.operands.take index, other.validate = .ok ()) ∧
      FirstToMeet Operand.Disjoint format.operands index := by
  obtain ⟨index, found, here, before, refuses⟩ := exists_refusesFor refused
  cases refuses with
  | invalid failed => cases Operand.ownFault_of_validate failed
  | overlapping valid first => exact ⟨Operand.shownByText valid, index, here, before, first⟩

theorem firstMisplaced_of_registerAfterImmediate
    (refused : format.validate order = .error (.registerAfterImmediate operand)) :
    operand.ShownByText ∧ ∃ index, format.operands[index]? = some operand ∧
      format.Misplaced index ∧ ∀ earlier < index, ¬ format.Misplaced earlier := by
  obtain ⟨index, found, here, -, refuses⟩ := exists_refusesFor refused
  cases refuses with
  | invalid failed => cases Operand.ownFault_of_validate failed
  | misplaced valid misplaced first => exact ⟨Operand.shownByText valid, index, here, misplaced, first⟩

theorem firstInvalid_of_overlappingSlot
    (refused : format.validate order = .error (.overlappingSlot slot)) :
    ∃ index operand, format.operands[index]? = some operand ∧
      (∀ other ∈ format.operands.take index, other.validate = .ok ()) ∧
      operand.validate = .error (.overlappingSlot slot) := by
  obtain ⟨index, operand, here, before, refuses⟩ := exists_refusesFor refused
  cases refuses with
  | invalid failed => exact ⟨index, operand, here, before, failed⟩

end Refused

end Format

/-- Some validation of the operands is refused with the fault: that of an operand, of a format in either
    order, of a description for its format, or of its manual format. -/
inductive ValidationError.Refuses : List Operand → ValidationError → Prop where
  | operand {operand : Operand} {fault : ValidationError} :
      operand.validate = .error fault → Refuses [operand] fault
  | format {order : OperandOrder} {format : Format} {fault : ValidationError} :
      format.validate order = .error fault → Refuses format.operands fault
  | description {description : Description} {fault : ValidationError} :
      description.validate = .error fault → Refuses description.format.operands fault
  | manualFormat {description : Description} {manual : Format} {fault : ValidationError} :
      description.manualFormat = some manual → description.validateManualFormat = .error fault →
      Refuses manual.operands fault

namespace ValidationError

/-- The message of the error shows an operand or a slot that does not go with those before it. -/
inductive NamesOffender : ValidationError → Prop where
  | overlappingSlot (slot : Slot) : NamesOffender (.overlappingSlot slot)
  | overlappingOperand (operand : Operand) : NamesOffender (.overlappingOperand operand)
  | registerAfterImmediate (operand : Operand) : NamesOffender (.registerAfterImmediate operand)

/-- An offender is found in the operands as those of a format. -/
theorem Refuses.exists_order {operands : List Operand} {fault : ValidationError}
    (refuses : Refuses operands fault) (names : NamesOffender fault) :
    ∃ order, Format.validate order ⟨operands⟩ = .error fault := by
  cases refuses with
  | operand failed =>
    refine ⟨.manual, ?_⟩
    rw [Format.validate, Format.validateOperands, failed]
  | format failed => exact ⟨_, failed⟩
  | description failed =>
    rcases Description.cases_of_validate failed with ⟨-, rfl⟩ | refused | rfl
    · cases names
    · exact ⟨.canonical, refused⟩
    · cases names
  | manualFormat given failed =>
    rcases Description.cases_of_validateManualFormat given failed with refused | rfl
    · exact ⟨.manual, refused⟩
    · cases names

/-- In a text with one bracket, nothing that begins with a bracket stands but what begins with that one. -/
theorem not_isInfix_of_notMem {mark : Char} {before behind sought : List Char} (noneBefore : mark ∉ before)
    (noneBehind : mark ∉ behind) (other : ¬ sought <+: behind) :
    ¬ mark :: sought <:+: before ++ mark :: behind := by
  rintro ⟨front, back, split⟩
  rw [List.append_assoc, List.cons_append] at split
  obtain ⟨-, -, rest⟩ := (List.append_cons_inj_of_notMem noneBefore noneBehind).mp split.symm
  exact other ⟨back, rest.symm⟩

/-- What is shown by its name and its text is not shown as invalid. -/
theorem not_isInfix_shown {before display opening text behind : String} {first : Char} {name : List Char}
    (shown : display = opening ++ text ++ ">") (plain : '<' ∉ text.toList)
    (opens : opening.toList = '<' :: first :: name) (other : first ≠ 'i')
    (bare : '<' ∉ before.toList ++ first :: name ++ behind.toList) :
    ¬ "<invalid".toList <:+: (before ++ display ++ behind).toList := by
  have parts : (before ++ display ++ behind).toList =
      before.toList ++ '<' :: (first :: name ++ (text.toList ++ '>' :: behind.toList)) := by
    simp [shown, opens]
  have marker : "<invalid".toList = '<' :: "invalid".toList := by decide
  rw [parts, marker]
  rw [List.mem_append, List.mem_append, not_or, not_or] at bare
  refine not_isInfix_of_notMem bare.1.1 ?_ ?_
  · simp only [List.mem_append, List.mem_cons, not_or] at bare ⊢
    exact ⟨bare.1.2, plain, by decide, bare.2⟩
  · intro begins
    exact other (List.cons_prefix_cons.mp begins).1.symm

end ValidationError

theorem Slot.notMem_repr {slot : Slot} (letter : ∃ letter, (slot.offset, letter) ∈ fieldLetters) :
    '<' ∉ slot.repr.toList := by
  have chars := (SlotsSpelled.spell (List.forall_mem_singleton.mpr letter)).isFormatChar
  rw [List.flatMap_singleton] at chars
  rw [Slot.repr, String.toList_ofList]
  exact fun member => absurd (chars '<' member) (by decide)

theorem Operand.ShownByText.notMem_repr {operand : Operand} (shown : operand.ShownByText) :
    '<' ∉ operand.repr.toList := by
  have chars := (OperandSpelled.spell (representable_of_validate shown.valid)).attributeText
  rw [Operand.repr, String.toList_ofList]
  exact fun member => absurd (chars '<' member) (by decide)

namespace ValidationError

/-- Whatever an error of a validation names is not shown as invalid. -/
theorem Refuses.not_isInfix_message {operands : List Operand} {fault : ValidationError}
    (refuses : Refuses operands fault) (names : NamesOffender fault) :
    ¬ "<invalid".toList <:+: fault.message.toList := by
  have openingOperand : "<Arg ".toList = '<' :: 'A' :: "rg ".toList := by decide
  have openingSlot : "<Slot ".toList = '<' :: 'S' :: "lot ".toList := by decide
  obtain ⟨order, refused⟩ := refuses.exists_order names
  cases names with
  | overlappingSlot slot =>
    obtain ⟨_, _, _, _, failed⟩ := Format.firstInvalid_of_overlappingSlot refused
    obtain ⟨fits, letter, _⟩ := Operand.firstToMeet_of_overlappingSlot failed
    show ¬ _ <:+: ("slot " ++ slot.display ++ " overlapped with other slots").toList
    exact not_isInfix_shown (fits.display letter) (Slot.notMem_repr letter) openingSlot (by decide)
      (by decide)
  | overlappingOperand operand =>
    obtain ⟨shown, _⟩ := Format.firstToMeet_of_overlappingOperand refused
    show ¬ _ <:+: ("arg " ++ operand.display ++ " overlapped with other args").toList
    exact not_isInfix_shown shown.display shown.notMem_repr openingOperand (by decide) (by decide)
  | registerAfterImmediate operand =>
    obtain ⟨shown, _⟩ := Format.firstMisplaced_of_registerAfterImmediate refused
    show ¬ _ <:+: ("register arg " ++ operand.display ++ " comes after immediate arg").toList
    exact not_isInfix_shown shown.display shown.notMem_repr openingOperand (by decide) (by decide)

/-- What does not go with what stands before it is shown by its text, and it is the first of its kind. An
    operand that shares bits or is a register behind an immediate is valid by itself, and from its text it is
    read as a format with that one operand. All operands before the first that shares bits are valid, as are
    those before the first with a slot that shares bits. So no message of such an error shows something as
    invalid. -/
theorem names_first_offender :
    (∀ order (format : Format) operand, format.validate order = .error (.overlappingOperand operand) →
      operand.ShownByText ∧ ∃ index, format.operands[index]? = some operand ∧
        (∀ other ∈ format.operands.take index, other.validate = .ok ()) ∧
        (format.operands.take index).Pairwise Operand.Disjoint ∧
        FirstToMeet Operand.Disjoint format.operands index) ∧
    (∀ order (format : Format) operand, format.validate order = .error (.registerAfterImmediate operand) →
      operand.ShownByText ∧ ∃ index, format.operands[index]? = some operand ∧
        format.Misplaced index ∧ ∀ earlier < index, ¬ format.Misplaced earlier) ∧
    (∀ operands slot, Refuses operands (.overlappingSlot slot) →
      slot.display = s!"<Slot {slot.repr}>" ∧ ∃ index operand place, operands[index]? = some operand ∧
        (∀ other ∈ operands.take index, other.validate = .ok ()) ∧
        operand.validate = .error (.overlappingSlot slot) ∧
        operand.slots[place]? = some slot ∧ FirstToMeet Slot.Disjoint operand.slots place) ∧
    ∀ operands fault, Refuses operands fault → NamesOffender fault →
      ¬ "<invalid".toList <:+: fault.message.toList := by
  refine ⟨fun order format operand refused => ?_,
    fun order format operand => Format.firstMisplaced_of_registerAfterImmediate,
    fun operands slot refuses => ?_, fun _ _ => Refuses.not_isInfix_message⟩
  · obtain ⟨shown, index, here, before, first⟩ := Format.firstToMeet_of_overlappingOperand refused
    exact ⟨shown, index, here, before, ((firstToMeet_iff here).mp first).1, first⟩
  · obtain ⟨order, refused⟩ := refuses.exists_order (.overlappingSlot slot)
    obtain ⟨index, operand, here, before, failed⟩ := Format.firstInvalid_of_overlappingSlot refused
    obtain ⟨fits, letter, place, there, first⟩ := Operand.firstToMeet_of_overlappingSlot failed
    exact ⟨fits.display letter, index, operand, place, here, before, failed, there, first⟩

/-- An instruction whose second operand has bit 15 in both of its slots. -/
def crossed : Description :=
  { word := 0x30000000, mnemonic := "cross",
    format := ⟨[.register .intRegister 0, ⟨.unsignedImmediate, [⟨10, 6⟩, ⟨15, 1⟩], .identity⟩]⟩ }

theorem names_first_offender_interleaved :
    Format.interleaved.validate .manual = .error (.overlappingOperand (.register .intRegister 5)) ∧
    Format.interleaved.validate .canonical =
      .error (.registerAfterImmediate (.register .intRegister 5)) ∧
    Refuses crossed.format.operands (.overlappingSlot ⟨15, 1⟩) ∧
    (∃ index, Format.interleaved.operands[index]? = some (.register .intRegister 5) ∧
      FirstToMeet Operand.Disjoint Format.interleaved.operands index) ∧
    (∃ index, Format.interleaved.operands[index]? = some (.register .intRegister 5) ∧
      Format.interleaved.Misplaced index) ∧
    (Operand.register .intRegister 5).display = "<Arg J>" ∧
    Slot.display ⟨15, 1⟩ = "<Slot a1>" ∧
    ¬ "<invalid".toList <:+: (overlappingSlot ⟨15, 1⟩).message.toList := by
  have manual : Format.interleaved.validate .manual =
      .error (.overlappingOperand (.register .intRegister 5)) := rfl
  have canonical : Format.interleaved.validate .canonical =
      .error (.registerAfterImmediate (.register .intRegister 5)) := rfl
  have refused : Refuses crossed.format.operands (.overlappingSlot ⟨15, 1⟩) := .description (by decide)
  obtain ⟨overlapping, late, slots, messages⟩ := names_first_offender
  obtain ⟨shown, shared, inManual, -, -, first⟩ := overlapping _ _ _ manual
  obtain ⟨-, behind, inCanonical, misplaced, -⟩ := late _ _ _ canonical
  exact ⟨manual, canonical, refused, ⟨shared, inManual, first⟩, ⟨behind, inCanonical, misplaced⟩,
    shown.display, (slots _ _ refused).1, messages _ _ refused (.overlappingSlot _)⟩

end ValidationError

end InsnEncoding
