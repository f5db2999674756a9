import InsnEncoding.Description.Grammar
import InsnEncoding.Proofs.FormatRoundTrip

/-!
# The text of a format in a line

A line has two places for the text of a format, each with characters of its own. In the value of an
attribute every format can stand (`Format.attributeText_spell`). The format of the line itself has no letter
for transforms: the text of an operand with a transform runs up to the `p` that announces it
(`OperandSpelled.exists_transform`), so exactly the formats without transforms can stand there
(`Format.formatText_spell`, `Format.exists_mark_of_transform`), and no other is read there
(`Format.identity_of_formatText`).
-/

namespace InsnEncoding

namespace Line

theorem isFormatChar_of_isDigit (char : Char) (digit : char.isDigit) : isFormatChar char := by
  simp [isFormatChar, digit]

theorem isAlphanum_eq (char : Char) :
    char.isAlphanum = (char.isUpper || char.isLower || char.isDigit) := rfl

theorem isAttributeChar_of_isFormatChar {char : Char} (inFormat : isFormatChar char) :
    isAttributeChar char := by
  rcases Bool.or_eq_true_iff.mp inFormat with digit | letter
  · simp [isAttributeChar, isAlphanum_eq, digit]
  · exact List.all_eq_true.mp (by decide) char (List.contains_iff_mem.mp letter)

theorem isAttributeChar_of_isMnemonicChar {char : Char} (inMnemonic : isMnemonicChar char) :
    isAttributeChar char := by
  simp only [isMnemonicChar, isAttributeChar, isAlphanum_eq, Bool.or_eq_true] at inMnemonic ⊢
  tauto

theorem isAttributeChar_of_isWordDigit {char : Char} (inWord : isWordDigit char) : isAttributeChar char := by
  rcases Bool.or_eq_true_iff.mp inWord with digit | letter
  · simp [isAttributeChar, isAlphanum_eq, digit]
  · obtain ⟨low, high⟩ := Bool.and_eq_true_iff.mp letter
    have lower : char.isLower := by
      simp only [decide_eq_true_eq, Char.le_def] at low high
      exact Bool.and_eq_true_iff.mpr ⟨decide_eq_true low, decide_eq_true (UInt32.le_trans high (by decide))⟩
    simp [isAttributeChar, isAlphanum_eq, lower]

end Line

namespace FormatText

variable {text : List Char}

theorem not_mem {char : Char} (form : FormatText text) (noWord : char ∉ Format.emptyText)
    (outside : ¬ Line.isFormatChar char) : char ∉ text := by
  rcases form with rfl | ⟨_, chars⟩
  · exact noWord
  · exact fun member => outside (chars char member)

/-- The letter that announces a transform stands in no format of a line. -/
theorem not_mem_mark (form : FormatText text) : 'p' ∉ text :=
  form.not_mem (by decide) (by decide)

end FormatText

theorem Kind.isFormatChar_of_lead {kind : Kind} {lead : Char} (opens : kind.lead? = some lead) :
    Line.isFormatChar lead := by
  cases kind <;> cases opens <;> decide

theorem fieldLetters_isFormatChar : ∀ entry ∈ fieldLetters, Line.isFormatChar entry.2 := by decide

theorem intRegisterLetters_isFormatChar : ∀ entry ∈ intRegisterLetters, Line.isFormatChar entry.2 := by
  decide

theorem SlotsSpelled.isFormatChar {body : List Char} {slots : List Slot}
    (spelled : SlotsSpelled body slots) : ∀ char ∈ body, Line.isFormatChar char := by
  induction spelled with
  | nil =>
    intro char member
    contradiction
  | cons letter digits _ ih =>
    rw [List.forall_mem_append, List.forall_mem_cons]
    exact ⟨⟨fieldLetters_isFormatChar _ letter,
      fun char member => Line.isFormatChar_of_isDigit char (digits.2.1 char member)⟩, ih⟩

namespace TransformSpelled

theorem eq_nil {suffix : List Char} (spelled : TransformSpelled suffix .identity) : suffix = [] := by
  cases spelled
  rfl

/-- A transform is announced by a `p`. -/
theorem exists_mark {suffix : List Char} {transform : Transform}
    (spelled : TransformSpelled suffix transform) (other : transform ≠ .identity) :
    ∃ rest, suffix = 'p' :: rest := by
  cases spelled with
  | identity => contradiction
  | add _ => exact ⟨_, rfl⟩
  | shiftLeft _ => exact ⟨_, rfl⟩

theorem attributeText {suffix : List Char} {transform : Transform}
    (spelled : TransformSpelled suffix transform) : AttributeText suffix := by
  have digits {amount : UInt32} {text : List Char} (numeral : Numeral.Spells text amount) :
      AttributeText text := fun char member => Line.isAttributeChar_of_isFormatChar
    (Line.isFormatChar_of_isDigit char (numeral.2.1 char member))
  cases spelled with
  | identity =>
    intro char member
    contradiction
  | add numeral | shiftLeft numeral =>
    exact List.forall_mem_cons.mpr
      ⟨by decide, List.forall_mem_cons.mpr ⟨by decide, digits numeral⟩⟩

end TransformSpelled

namespace OperandSpelled

/-- The text of an operand is a run of characters of formats and then its transform. -/
theorem exists_transform {text : List Char} {operand : Operand}
    (spelled : OperandSpelled text operand) :
    ∃ run suffix, text = run ++ suffix ∧ run ≠ [] ∧ (∀ char ∈ run, Line.isFormatChar char) ∧
      TransformSpelled suffix operand.transform := by
  cases spelled with
  | @intRegister letter offset member =>
    refine ⟨[letter], [], rfl, List.cons_ne_nil _ _, ?_, .identity⟩
    exact List.forall_mem_singleton.mpr (intRegisterLetters_isFormatChar _ member)
  | @register kind lead letter offset register opens member =>
    refine ⟨[lead, letter], [], rfl, List.cons_ne_nil _ _, ?_, .identity⟩
    exact List.forall_mem_cons.mpr ⟨Kind.isFormatChar_of_lead opens,
      List.forall_mem_singleton.mpr (fieldLetters_isFormatChar _ member)⟩
  | @immediate kind lead body suffix slots transform immediate opens nonempty slotsSpelled suffixSpelled =>
    refine ⟨lead :: body, suffix, rfl, List.cons_ne_nil _ _, ?_, suffixSpelled⟩
    exact List.forall_mem_cons.mpr ⟨Kind.isFormatChar_of_lead opens, slotsSpelled.isFormatChar⟩

theorem ne_nil {text : List Char} {operand : Operand} (spelled : OperandSpelled text operand) :
    text ≠ [] := by
  obtain ⟨run, suffix, rfl, nonempty, _⟩ := spelled.exists_transform
  exact List.append_ne_nil_of_left_ne_nil nonempty suffix

theorem isFormatChar {text : List Char} {operand : Operand} (spelled : OperandSpelled text operand)
    (identity : operand.transform = .identity) : ∀ char ∈ text, Line.isFormatChar char := by
  obtain ⟨run, suffix, rfl, _, chars, transform⟩ := spelled.exists_transform
  rw [identity] at transform
  rw [transform.eq_nil, List.append_nil]
  exact chars

theorem attributeText {text : List Char} {operand : Operand} (spelled : OperandSpelled text operand) :
    AttributeText text := by
  obtain ⟨run, suffix, rfl, _, chars, transform⟩ := spelled.exists_transform
  exact List.forall_mem_append.mpr
    ⟨fun char member => Line.isAttributeChar_of_isFormatChar (chars char member),
      transform.attributeText⟩

end OperandSpelled

namespace OperandsSpelled

theorem isFormatChar {text : List Char} {operands : List Operand}
    (spelled : OperandsSpelled text operands)
    (identity : ∀ operand ∈ operands, operand.transform = .identity) :
    ∀ char ∈ text, Line.isFormatChar char := by
  induction spelled with
  | nil =>
    intro char member
    contradiction
  | cons first _ ih =>
    obtain ⟨here, later⟩ := List.forall_mem_cons.mp identity
    exact List.forall_mem_append.mpr ⟨first.isFormatChar here, ih later⟩

/-- The first transform ends the run of characters of formats, and something stands before it. -/
theorem exists_mark {text : List Char} {operands : List Operand}
    (spelled : OperandsSpelled text operands)
    (other : ∃ operand ∈ operands, operand.transform ≠ .identity) :
    ∃ run rest, text = run ++ 'p' :: rest ∧ run ≠ [] ∧ ∀ char ∈ run, Line.isFormatChar char := by
  induction spelled with
  | nil =>
    obtain ⟨operand, member, _⟩ := other
    contradiction
  | @cons text behind operand operands first _ ih =>
    by_cases identity : operand.transform = .identity
    · have later : ∃ operand ∈ operands, operand.transform ≠ .identity := by
        obtain ⟨found, member, transform⟩ := other
        refine ⟨found, (List.mem_cons.mp member).resolve_left ?_, transform⟩
        rintro rfl
        exact transform identity
      obtain ⟨run, rest, rfl, _, chars⟩ := ih later
      refine ⟨text ++ run, rest, (List.append_assoc _ _ _).symm, ?_, ?_⟩
      · exact List.append_ne_nil_of_left_ne_nil first.ne_nil run
      · exact List.forall_mem_append.mpr ⟨first.isFormatChar identity, chars⟩
    · obtain ⟨run, suffix, rfl, nonempty, chars, transform⟩ := first.exists_transform
      obtain ⟨rest, rfl⟩ := transform.exists_mark identity
      exact ⟨run, rest ++ behind, by simp, nonempty, chars⟩

theorem attributeText {text : List Char} {operands : List Operand}
    (spelled : OperandsSpelled text operands) : AttributeText text := by
  induction spelled with
  | nil =>
    intro char member
    contradiction
  | cons first _ ih => exact List.forall_mem_append.mpr ⟨first.attributeText, ih⟩

end OperandsSpelled

namespace Format

/-- The text of a format is the word for no operands, or it is made of operands of which there is one. -/
theorem spell_cases {format : Format}
    (representable : ∀ operand ∈ format.operands, operand.Representable) :
    format.operands = [] ∧ format.spell = emptyText ∨
      format.spell ≠ [] ∧ OperandsSpelled format.spell format.operands := by
  unfold spell isEmpty
  cases operands : format.operands with
  | nil => exact Or.inl ⟨rfl, rfl⟩
  | cons operand rest =>
    rw [operands] at representable
    refine Or.inr ⟨?_, .spell representable⟩
    have first := OperandSpelled.spell (representable operand List.mem_cons_self)
    exact List.append_ne_nil_of_left_ne_nil first.ne_nil _

/-- Without transforms the text of a format can be the format of a line. -/
theorem formatText_spell {format : Format}
    (representable : ∀ operand ∈ format.operands, operand.Representable)
    (identity : ∀ operand ∈ format.operands, operand.transform = .identity) :
    FormatText format.spell := by
  rcases spell_cases representable with ⟨_, word⟩ | ⟨nonempty, spelled⟩
  · exact Or.inl word
  · exact Or.inr ⟨nonempty, spelled.isFormatChar identity⟩

/-- With a transform the text of a format goes on behind what can be the format of a line. -/
theorem exists_mark_of_transform {format : Format}
    (representable : ∀ operand ∈ format.operands, operand.Representable)
    (other : ∃ operand ∈ format.operands, operand.transform ≠ .identity) :
    ∃ run rest, format.spell = run ++ 'p' :: rest ∧ run ≠ [] ∧ ∀ char ∈ run, Line.isFormatChar char := by
  rcases spell_cases representable with ⟨none, _⟩ | ⟨_, spelled⟩
  · obtain ⟨operand, member, _⟩ := other
    rw [none] at member
    contradiction
  · exact spelled.exists_mark other

/-- What can be the format of a line stands for a format without transforms only. -/
theorem identity_of_formatText {text : List Char} {format : Format} (form : FormatText text)
    (spelled : format.SpelledBy text) : ∀ operand ∈ format.operands, operand.transform = .identity := by
  rcases spelled with ⟨_, none⟩ | spelled
  · intro operand member
    rw [none] at member
    contradiction
  · by_contra other
    push Not at other
    obtain ⟨run, rest, rfl, -⟩ := spelled.exists_mark other
    exact form.not_mem_mark (List.mem_append_right run List.mem_cons_self)

/-- The text of a format can be the value of an attribute. -/
theorem attributeText_spell {format : Format}
    (representable : ∀ operand ∈ format.operands, operand.Representable) :
    AttributeText format.spell := by
  rcases spell_cases representable with ⟨_, word⟩ | ⟨_, spelled⟩
  · rw [word]
    decide
  · exact spelled.attributeText

end Format

end InsnEncoding
