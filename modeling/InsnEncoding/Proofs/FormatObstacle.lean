import InsnEncoding.Proofs.FormatGrammar

/-!
# Where the reader of formats stops

At every place of a text the reader awaits something: the next operand, the letter of a position, a slot, a
number or the letter of a transform (`Awaited`). What it has read up to there is the beginning of a text of
the grammar (`Reached`), and it stops where what stands ahead is not what it awaits (`Obstructed`). This is
all there is to its errors: `Format.read_eq_error_iff`.
-/

namespace InsnEncoding

/-- What the reader awaits at a place of a text. -/
inductive Awaited where
  | operand
  /-- The letter of the position of a register. -/
  | position
  /-- The first slot of an immediate. -/
  | slot
  /-- The width of a slot or the amount of a transform. -/
  | number
  /-- The letter of a transform. -/
  | transform

/-- What stands ahead at the index is not what is awaited there. -/
inductive Obstructed (index : Nat) : Awaited → List Char → LexicalError → Prop where
  | lead {char : Char} {rest : List Char} :
      intRegisterLetters.offset? char = none → Kind.ofLead? char = none →
      Obstructed index .operand (char :: rest) (.invalidLead char index)
  | position {char : Char} {rest : List Char} :
      fieldLetters.offset? char = none →
      Obstructed index .position (char :: rest) (.invalidPosition char index)
  | positionEnd : Obstructed index .position [] (.unexpectedEnd .positionLetter)
  | slot {ahead : List Char} :
      Text.Stops Slot.isLetter ahead → Obstructed index .slot ahead (.noSlot index)
  | noDigit {ahead : List Char} :
      Text.Stops Char.isDigit ahead → Obstructed index .number ahead (.missingNumber index)
  | largeNumber {ahead : List Char} :
      UInt32.size ≤ Nat.ofDigitChars 10 (ahead.takeWhile Char.isDigit) 0 →
      Obstructed index .number ahead (.numberOverflow index)
  | transform {char : Char} {rest : List Char} :
      char ≠ 'p' → char ≠ 's' →
      Obstructed index .transform (char :: rest) (.invalidTransform char index)
  | transformEnd : Obstructed index .transform [] (.unexpectedEnd .transformLetter)

/-- The index of an obstacle may be written as another sum. -/
theorem Obstructed.cast {index place : Nat} {awaited : Awaited} {ahead : List Char}
    {fault : LexicalError} (obstructed : Obstructed index awaited ahead fault) (same : index = place) :
    Obstructed place awaited ahead fault :=
  same ▸ obstructed

/-- The text is the beginning of an operand, and behind it something is awaited to go on with. -/
inductive OperandBegun : List Char → Awaited → Prop where
  | register {kind : Kind} {lead : Char} :
      kind.isRegister → kind.lead? = some lead → OperandBegun [lead] .position
  | immediate {kind : Kind} {lead : Char} :
      kind.isImmediate → kind.lead? = some lead → OperandBegun [lead] .slot
  | width {kind : Kind} {lead letter : Char} {body : List Char} {slots : List Slot} {offset : UInt32} :
      kind.isImmediate → kind.lead? = some lead → SlotsSpelled body slots →
      (offset, letter) ∈ fieldLetters → OperandBegun (lead :: (body ++ [letter])) .number
  | transform {kind : Kind} {lead : Char} {body : List Char} {slots : List Slot} :
      kind.isImmediate → kind.lead? = some lead → slots ≠ [] → SlotsSpelled body slots →
      OperandBegun (lead :: (body ++ ['p'])) .transform
  | amount {kind : Kind} {lead mark : Char} {body : List Char} {slots : List Slot} :
      kind.isImmediate → kind.lead? = some lead → slots ≠ [] → SlotsSpelled body slots →
      mark = 'p' ∨ mark = 's' → OperandBegun (lead :: (body ++ ['p', mark])) .number

/-- Of a text made of two parts the reader has taken the first when it awaits something. The second part
    matters only where it might go on with an operand of the first. -/
inductive Reached : Awaited → List Char → List Char → Prop where
  | start {ahead : List Char} : Reached .operand [] ahead
  | inside {awaited : Awaited} {before ahead : List Char} :
      OperandBegun before awaited → Reached awaited before ahead
  | behind {awaited : Awaited} {text before ahead : List Char} {operand : Operand} :
      OperandSpelled text operand → Text.Stops operand.goesOn (before ++ ahead) →
      Reached awaited before ahead → Reached awaited (text ++ before) ahead

/-- A number cannot be read exactly if what stands ahead is no number. -/
theorem Numeral.read_eq_error_iff {index : Nat} {text : List Char} {fault : LexicalError} :
    Numeral.read index text = .error fault ↔ Obstructed index .number text fault := by
  constructor
  · intro failed
    rw [read_eq] at failed
    split at failed
    next empty =>
      cases failed
      exact .noDigit (Text.takeWhile_eq_nil_iff.mp empty)
    next nonempty =>
      split at failed
      next large =>
        cases failed
        exact .largeNumber (value?_eq_none_iff.mp large)
      · cases failed
  · intro obstructed
    cases obstructed with
    | noDigit stops => exact read_eq_missingNumber_iff.mpr (Text.takeWhile_eq_nil_iff.mpr stops)
    | largeNumber large => exact read_eq_numberOverflow_iff.mpr large

namespace Slot

/-- Slots cannot be read exactly if the width of one of them is no number. -/
theorem readAll_of_obstructed {body ahead : List Char} {slots : List Slot} {letter : Char}
    {offset : UInt32} (spelled : SlotsSpelled body slots) (member : (offset, letter) ∈ fieldLetters)
    {index : Nat} {fault : LexicalError}
    (obstructed : Obstructed (index + body.length + 1) .number ahead fault) :
    readAll index (body ++ letter :: ahead) = .error fault := by
  induction spelled generalizing index with
  | nil =>
    have failed : Numeral.read (index + 1) ahead = .error fault :=
      Numeral.read_eq_error_iff.mpr obstructed
    rw [List.nil_append, readAll_cons_of_isLetter member, failed]
  | @cons first width behind slot slots firstMember numeral later ih =>
    have stops : Text.Stops Char.isDigit (letter :: ahead) :=
      Text.stops_cons.mpr (fieldLetters_small _ member).1
    have read : Numeral.read (index + 1) (width ++ (behind ++ letter :: ahead)) =
        .ok (slot.width, width.length) := Numeral.read_of_spells numeral (later.stops_digit stops)
    have rest : Obstructed (index + 1 + width.length + behind.length + 1) .number ahead fault :=
      obstructed.cast (by grind)
    rw [List.cons_append, List.cons_append, List.append_assoc, readAll_cons_of_isLetter firstMember,
      read]
    simp only [List.drop_left, ih rest]

theorem obstructed_of_readAll {index : Nat} {text : List Char} {fault : LexicalError}
    (failed : readAll index text = .error fault) :
    ∃ body letter ahead slots offset, text = body ++ letter :: ahead ∧ SlotsSpelled body slots ∧
      (offset, letter) ∈ fieldLetters ∧ Obstructed (index + body.length + 1) .number ahead fault := by
  fun_induction readAll index text generalizing fault with
  | case1 => cases failed
  | case2 => cases failed
  | case3 index letter rest offset position other number =>
    cases failed
    have member := (LetterTable.offset?_eq_some_iff_mem fieldLetters_distinct).mp position
    exact ⟨[], letter, rest, [], offset, rfl, .nil, member, Numeral.read_eq_error_iff.mp number⟩
  | case4 index letter tail offset position width count number other later ih =>
    cases failed
    obtain ⟨digits, behind, rfl, rfl, numeral, _⟩ := Numeral.spells_of_read number
    rw [List.drop_left] at ih later
    obtain ⟨body, next, ahead, slots, place, rfl, spelled, member, obstructed⟩ := ih later
    have first := (LetterTable.offset?_eq_some_iff_mem fieldLetters_distinct).mp position
    refine ⟨letter :: digits ++ body, next, ahead, ⟨offset, width⟩ :: slots, place, by simp,
      .cons first numeral spelled, member, obstructed.cast ?_⟩
    grind
  | case5 => cases failed

end Slot

namespace Transform

theorem read_of_obstructed {index : Nat} {ahead : List Char} {fault : LexicalError}
    (obstructed : Obstructed (index + 1) .transform ahead fault) :
    read index ('p' :: ahead) = .error fault := by
  cases obstructed with
  | transform notAdd notShift => simp [read]
  | transformEnd => rfl

theorem read_of_obstructed_number {index : Nat} {mark : Char} (known : mark = 'p' ∨ mark = 's')
    {ahead : List Char} {fault : LexicalError}
    (obstructed : Obstructed (index + 2) .number ahead fault) :
    read index ('p' :: mark :: ahead) = .error fault := by
  have failed := Numeral.read_eq_error_iff.mpr obstructed
  rcases known with rfl | rfl
  · simp [read, failed, Except.map]
  · simp [read, failed, Except.map]

/-- A transform cannot be read if it has no letter or no amount. -/
theorem obstructed_of_read {index : Nat} {text : List Char} {fault : LexicalError}
    (failed : read index text = .error fault) :
    (∃ ahead, text = 'p' :: ahead ∧ Obstructed (index + 1) .transform ahead fault) ∨
      ∃ mark ahead, (mark = 'p' ∨ mark = 's') ∧ text = 'p' :: mark :: ahead ∧
        Obstructed (index + 2) .number ahead fault := by
  unfold read at failed
  split at failed
  · cases failed
    exact Or.inl ⟨[], rfl, .transformEnd⟩
  · have number := eq_error_of_map_eq_error failed
    exact Or.inr ⟨'p', _, Or.inl rfl, rfl, Numeral.read_eq_error_iff.mp number⟩
  · have number := eq_error_of_map_eq_error failed
    exact Or.inr ⟨'s', _, Or.inr rfl, rfl, Numeral.read_eq_error_iff.mp number⟩
  · rename_i letter rest notAdd notShift
    cases failed
    exact Or.inl ⟨letter :: rest, rfl, .transform notAdd notShift⟩
  · cases failed

end Transform

namespace Operand

theorem readImmediate_of_slots_error {kind : Kind} {index : Nat} {text : List Char}
    {fault : LexicalError} (failed : Slot.readAll index text = .error fault) :
    readImmediate kind index text = .error fault := by
  unfold readImmediate
  rw [failed]

/-- Behind its slots an immediate fails as its transform does. -/
theorem readImmediate_of_transform_error {kind : Kind} {body ahead : List Char} {slots : List Slot}
    (nonempty : slots ≠ []) (spelled : SlotsSpelled body slots) {index : Nat} {fault : LexicalError}
    (failed : Transform.read (index + body.length) ('p' :: ahead) = .error fault) :
    readImmediate kind index (body ++ 'p' :: ahead) = .error fault := by
  have readSlots : Slot.readAll index (body ++ 'p' :: ahead) = .ok (slots, body.length) :=
    Slot.readAll_of_spelled spelled (Text.stops_cons.mpr (by decide))
      (Text.stops_cons.mpr (by decide)) index
  unfold readImmediate
  rw [readSlots]
  cases slots with
  | nil => contradiction
  | cons slot others =>
    show ((Transform.read (index + body.length) _).map _) = _
    rw [List.drop_left, failed]
    rfl

/-- An operand that has begun cannot be read if what it awaits does not stand ahead. -/
theorem read_of_begun {before : List Char} {awaited : Awaited} (begun : OperandBegun before awaited) :
    ∃ lead more, before = lead :: more ∧ ∀ index ahead fault,
      Obstructed (index + before.length) awaited ahead fault →
      read index lead (more ++ ahead) = .error fault := by
  cases begun with
  | @register kind lead register opens =>
    refine ⟨lead, [], rfl, ?_⟩
    intro index ahead fault obstructed
    rw [read_of_lead opens, if_neg (Kind.isRegister_iff.mp register)]
    cases obstructed with
    | position unknown => simp [readRegister, Slot.readPosition, unknown, Except.map]
    | positionEnd => rfl
  | @immediate kind lead immediate opens =>
    refine ⟨lead, [], rfl, ?_⟩
    intro index ahead fault obstructed
    rw [read_of_lead opens, if_pos immediate]
    cases obstructed with
    | slot stops =>
      unfold readImmediate
      rw [List.nil_append, Slot.readAll_of_stops stops]
      rfl
  | @width kind lead letter body slots offset immediate opens spelled member =>
    refine ⟨lead, body ++ [letter], rfl, ?_⟩
    intro index ahead fault obstructed
    have width : Obstructed (index + 1 + body.length + 1) .number ahead fault :=
      obstructed.cast (by grind)
    rw [read_of_lead opens, if_pos immediate, List.append_assoc]
    exact readImmediate_of_slots_error (Slot.readAll_of_obstructed spelled member width)
  | @transform kind lead body slots immediate opens nonempty spelled =>
    refine ⟨lead, body ++ ['p'], rfl, ?_⟩
    intro index ahead fault obstructed
    have mark : Obstructed (index + 1 + body.length + 1) .transform ahead fault :=
      obstructed.cast (by grind)
    rw [read_of_lead opens, if_pos immediate, List.append_assoc]
    exact readImmediate_of_transform_error nonempty spelled (Transform.read_of_obstructed mark)
  | @amount kind lead mark body slots immediate opens nonempty spelled known =>
    refine ⟨lead, body ++ ['p', mark], rfl, ?_⟩
    intro index ahead fault obstructed
    have amount : Obstructed (index + 1 + body.length + 2) .number ahead fault :=
      obstructed.cast (by grind)
    rw [read_of_lead opens, if_pos immediate, List.append_assoc]
    exact readImmediate_of_transform_error nonempty spelled
      (Transform.read_of_obstructed_number known amount)

theorem obstructed_of_readRegister {kind : Kind} {lead : Char} (opens : kind.lead? = some lead)
    (register : kind.isRegister) {index : Nat} {text : List Char} {fault : LexicalError}
    (failed : readRegister kind (index + 1) text = .error fault) :
    OperandBegun [lead] .position ∧ Obstructed (index + 1) .position text fault := by
  refine ⟨.register register opens, ?_⟩
  have position := eq_error_of_map_eq_error failed
  cases text with
  | nil =>
    cases position
    exact .positionEnd
  | cons letter rest =>
    cases known : fieldLetters.offset? letter with
    | some offset => simp [Slot.readPosition, known] at position
    | none =>
      simp only [Slot.readPosition, known, Except.error.injEq] at position
      rw [← position]
      exact .position known

theorem obstructed_of_readImmediate {kind : Kind} {lead : Char} (opens : kind.lead? = some lead)
    (immediate : kind.isImmediate) {index : Nat} {text : List Char} {fault : LexicalError}
    (failed : readImmediate kind (index + 1) text = .error fault) :
    ∃ awaited before ahead, lead :: text = before ++ ahead ∧ OperandBegun before awaited ∧
      Obstructed (index + before.length) awaited ahead fault := by
  unfold readImmediate at failed
  split at failed
  · rename_i other readSlots
    cases failed
    obtain ⟨body, letter, ahead, slots, offset, rfl, spelled, member, obstructed⟩ :=
      Slot.obstructed_of_readAll readSlots
    refine ⟨_, _, ahead, ?_, .width immediate opens spelled member, obstructed.cast ?_⟩
    · simp
    · grind
  · rename_i count readSlots
    cases failed
    obtain ⟨body, rest, rfl, _, spelled, letters, _⟩ := Slot.spelled_of_readAll readSlots
    cases spelled
    exact ⟨_, [lead], rest, rfl, .immediate immediate opens, .slot letters⟩
  · rename_i slots count nonempty readSlots
    obtain ⟨body, rest, rfl, rfl, spelled, _, _⟩ := Slot.spelled_of_readAll readSlots
    have some : slots ≠ [] := by
      intro empty
      subst empty
      exact nonempty rfl
    have transform := eq_error_of_map_eq_error failed
    rw [List.drop_left] at transform
    rcases Transform.obstructed_of_read transform with
      ⟨ahead, rfl, obstructed⟩ | ⟨mark, ahead, known, rfl, obstructed⟩
    · refine ⟨_, _, ahead, ?_, .transform immediate opens some spelled, obstructed.cast ?_⟩
      · simp
      · grind
    · refine ⟨_, _, ahead, ?_, .amount immediate opens some spelled known, obstructed.cast ?_⟩
      · simp
      · grind

/-- If an operand cannot be read, something else stands where it should begin or go on. -/
theorem obstructed_of_read {index : Nat} {lead : Char} {text : List Char} {fault : LexicalError}
    (failed : read index lead text = .error fault) :
    ∃ awaited before ahead, lead :: text = before ++ ahead ∧ Reached awaited before ahead ∧
      Obstructed (index + before.length) awaited ahead fault := by
  unfold read at failed
  split at failed
  · cases failed
  · rename_i noRegister
    split at failed
    · rename_i noLead
      cases failed
      exact ⟨_, [], _, rfl, .start, .lead noRegister noLead⟩
    · rename_i kind known
      have opens := Kind.ofLead?_eq_some_iff.mp known
      split at failed
      · rename_i immediate
        obtain ⟨awaited, before, ahead, split, begun, obstructed⟩ :=
          obstructed_of_readImmediate opens immediate failed
        exact ⟨awaited, before, ahead, split, .inside begun, obstructed⟩
      · rename_i other
        obtain ⟨begun, obstructed⟩ :=
          obstructed_of_readRegister opens (Kind.isRegister_iff.mpr other) failed
        exact ⟨_, [lead], text, rfl, .inside begun, obstructed⟩

end Operand

namespace Format

theorem readOperands_of_obstructed {awaited : Awaited} {before ahead : List Char}
    (reached : Reached awaited before ahead) {index : Nat} {fault : LexicalError}
    (obstructed : Obstructed (index + before.length) awaited ahead fault) :
    readOperands index (before ++ ahead) = .error fault := by
  induction reached generalizing index with
  | start =>
    cases obstructed with
    | lead noRegister noLead =>
      rw [List.nil_append, readOperands_cons, Operand.read, noRegister, noLead]
      rfl
  | inside begun =>
    obtain ⟨lead, more, rfl, fails⟩ := Operand.read_of_begun begun
    rw [List.cons_append, readOperands_cons, fails index _ fault obstructed]
  | @behind awaited text before ahead operand spelled stops _ ih =>
    obtain ⟨lead, more, rfl, _, reads⟩ := Operand.read_of_spelled spelled
    have rest : Obstructed (index + 1 + more.length + before.length) awaited ahead fault :=
      obstructed.cast (by grind)
    rw [List.append_assoc, List.cons_append, readOperands_cons, reads index _ stops]
    simp only [List.drop_left, ih rest]

theorem obstructed_of_readOperands {index : Nat} {text : List Char} {fault : LexicalError}
    (failed : readOperands index text = .error fault) :
    ∃ awaited before ahead, text = before ++ ahead ∧ Reached awaited before ahead ∧
      Obstructed (index + before.length) awaited ahead fault := by
  fun_induction readOperands index text generalizing fault with
  | case1 => cases failed
  | case2 index lead rest other first =>
    cases failed
    exact Operand.obstructed_of_read first
  | case3 index lead tail operand taken first other later ih =>
    cases failed
    obtain ⟨more, rest, rfl, rfl, spelled, stops⟩ := Operand.spelled_of_read first
    rw [List.drop_left] at ih later
    obtain ⟨awaited, before, ahead, rfl, reached, obstructed⟩ := ih later
    refine ⟨awaited, lead :: more ++ before, ahead, by simp, .behind spelled stops reached,
      obstructed.cast ?_⟩
    grind
  | case4 => cases failed

/-- A text is refused exactly if it is not the word for no operands and the reader reaches a place of it
    where something else stands than it awaits. -/
theorem read_eq_error_iff {text : List Char} {fault : LexicalError} :
    read text = .error fault ↔
      text ≠ emptyText ∧ ∃ awaited before ahead, text = before ++ ahead ∧
        Reached awaited before ahead ∧ Obstructed before.length awaited ahead fault := by
  unfold read
  by_cases empty : text = emptyText
  · simp [empty]
  · rw [if_neg empty]
    constructor
    · intro failed
      obtain ⟨awaited, before, ahead, split, reached, obstructed⟩ :=
        obstructed_of_readOperands (eq_error_of_map_eq_error failed)
      rw [Nat.zero_add] at obstructed
      exact ⟨empty, awaited, before, ahead, split, reached, obstructed⟩
    · rintro ⟨_, awaited, before, ahead, rfl, reached, obstructed⟩
      rw [readOperands_of_obstructed reached (by rwa [Nat.zero_add])]
      rfl

end Format

end InsnEncoding
