import InsnEncoding.Proofs.FormatObstacle

/-!
# What an error tells about other texts

What the reader has taken when it stops can always be completed (`Reached.exists_completion`), and it stops
because of one character ahead or because of the digits of a number (`Reached.congr`, `Obstructed.congr`).
So an error points at the first place where the text stops being the beginning of a text of the grammar: it
is the same for every text that agrees up to that place, and a text can be completed exactly if the reader
met its end. The only exception is the word for no operands with its beginnings, of which the reader of
operands knows nothing. Main statement: `Format.ofText_error_viable`.
-/

namespace InsnEncoding

theorem SlotsSpelled.append {first second : List Char} {slots others : List Slot}
    (spelled : SlotsSpelled first slots) (later : SlotsSpelled second others) :
    SlotsSpelled (first ++ second) (slots ++ others) := by
  induction spelled with
  | nil => exact later
  | @cons letter digits rest slot slots member numeral _ ih =>
    rw [List.append_assoc]
    exact .cons member numeral ih

theorem Numeral.spells_one : Numeral.Spells ['1'] 1 :=
  ⟨List.cons_ne_nil _ _, List.all_eq_true.mp (by decide), by decide⟩

/-- A slot of one bit. -/
theorem SlotsSpelled.oneBit {letter : Char} {offset : UInt32} (member : (offset, letter) ∈ fieldLetters) :
    SlotsSpelled [letter, '1'] [⟨offset, 1⟩] :=
  @SlotsSpelled.cons letter ['1'] [] ⟨offset, 1⟩ [] member Numeral.spells_one .nil

/-- An operand that has begun can be completed by what it awaits. -/
theorem OperandBegun.exists_completion {before : List Char} {awaited : Awaited}
    (begun : OperandBegun before awaited) :
    ∃ more operand, OperandSpelled (before ++ more) operand := by
  have letter : ((0, 'd') : UInt32 × Char) ∈ fieldLetters := by decide
  cases begun with
  | register register opens => exact ⟨['d'], _, .register register opens letter⟩
  | @immediate kind lead immediate opens =>
    refine ⟨['d', '1'], ⟨kind, [⟨0, 1⟩], .identity⟩, ?_⟩
    simpa using OperandSpelled.immediate immediate opens (by simp) (.oneBit letter) .identity
  | @width kind lead letter body slots offset immediate opens spelled member =>
    have width := spelled.append (.oneBit member)
    refine ⟨['1'], ⟨kind, slots ++ [⟨offset, 1⟩], .identity⟩, ?_⟩
    simpa using OperandSpelled.immediate immediate opens (by simp) width .identity
  | @transform kind lead body slots immediate opens nonempty spelled =>
    refine ⟨['p', '1'], ⟨kind, slots, .add 1⟩, ?_⟩
    simpa using OperandSpelled.immediate immediate opens nonempty spelled (.add Numeral.spells_one)
  | @amount kind lead mark body slots immediate opens nonempty spelled known =>
    rcases known with rfl | rfl
    · refine ⟨['1'], ⟨kind, slots, .add 1⟩, ?_⟩
      simpa using OperandSpelled.immediate immediate opens nonempty spelled (.add Numeral.spells_one)
    · refine ⟨['1'], ⟨kind, slots, .shiftLeft 1⟩, ?_⟩
      simpa using OperandSpelled.immediate immediate opens nonempty spelled
        (.shiftLeft Numeral.spells_one)

namespace Reached

/-- What the reader has taken can be completed to a text of the grammar. -/
theorem exists_completion {awaited : Awaited} {before ahead : List Char}
    (reached : Reached awaited before ahead) :
    ∃ more operands, OperandsSpelled (before ++ more) operands := by
  induction reached with
  | start => exact ⟨[], [], .nil⟩
  | inside begun =>
    obtain ⟨more, operand, spelled⟩ := begun.exists_completion
    refine ⟨more, [operand], ?_⟩
    simpa using OperandsSpelled.cons spelled .nil
  | @behind _ text before _ operand spelled _ _ ih =>
    obtain ⟨more, operands, later⟩ := ih
    refine ⟨more, operand :: operands, ?_⟩
    rw [List.append_assoc]
    exact .cons spelled later

/-- The reader looks at one character ahead. -/
theorem congr {awaited : Awaited} {before ahead other : List Char}
    (reached : Reached awaited before ahead) (same : ahead.head? = other.head?) :
    Reached awaited before other := by
  induction reached with
  | start => exact .start
  | inside begun => exact .inside begun
  | behind spelled stops _ ih =>
    refine .behind spelled (stops.congr ?_) (ih same)
    rw [List.head?_append, List.head?_append, same]

end Reached

namespace Obstructed

variable {index : Nat} {awaited : Awaited} {ahead : List Char} {fault : LexicalError}

/-- Only a number that is too large needs more than one character to be seen. -/
theorem congr (obstructed : Obstructed index awaited ahead fault) {other : List Char}
    (same : ahead.head? = other.head?) (small : fault ≠ .numberOverflow index) :
    Obstructed index awaited other fault := by
  cases obstructed with
  | lead noRegister noLead =>
    obtain ⟨rest, rfl⟩ := List.head?_eq_some_iff.mp same.symm
    exact .lead noRegister noLead
  | position unknown =>
    obtain ⟨rest, rfl⟩ := List.head?_eq_some_iff.mp same.symm
    exact .position unknown
  | positionEnd =>
    rw [List.head?_eq_none_iff.mp same.symm]
    exact .positionEnd
  | slot stops => exact .slot (stops.congr same)
  | noDigit stops => exact .noDigit (stops.congr same)
  | largeNumber _ => contradiction
  | transform notAdd notShift =>
    obtain ⟨rest, rfl⟩ := List.head?_eq_some_iff.mp same.symm
    exact .transform notAdd notShift
  | transformEnd =>
    rw [List.head?_eq_none_iff.mp same.symm]
    exact .transformEnd

/-- A number that is too large stays so with more text behind it. -/
theorem append_of_overflow (obstructed : Obstructed index awaited ahead (.numberOverflow index))
    (more : List Char) : Obstructed index awaited (ahead ++ more) (.numberOverflow index) := by
  cases obstructed with
  | largeNumber large =>
    obtain ⟨digits, longer⟩ := @Text.takeWhile_prefix_append Char.isDigit ahead more
    refine .largeNumber (Nat.le_trans large ?_)
    rw [← longer, Nat.ofDigitChars_append]
    exact Numeral.le_ofDigitChars digits _

theorem exists_digit_of_overflow (obstructed : Obstructed index awaited ahead (.numberOverflow index)) :
    ∃ digit rest, ahead = digit :: rest ∧ digit.isDigit := by
  cases obstructed with
  | largeNumber large =>
    cases ahead with
    | nil => exact absurd large (by decide)
    | cons digit rest =>
      refine ⟨digit, rest, rfl, ?_⟩
      by_contra other
      rw [List.takeWhile_cons_of_neg other] at large
      exact absurd large (by decide)

/-- An error that tells no index arises at the end of the text. -/
theorem index?_eq_or (obstructed : Obstructed index awaited ahead fault) :
    fault.index? = some index ∨ ahead = [] ∧ ∃ expected, fault = .unexpectedEnd expected := by
  cases obstructed with
  | positionEnd => exact Or.inr ⟨rfl, _, rfl⟩
  | transformEnd => exact Or.inr ⟨rfl, _, rfl⟩
  | _ => exact Or.inl rfl

/-- At the end of the text the error is one of three. -/
theorem fault_of_nil (obstructed : Obstructed index awaited [] fault) :
    (∃ expected, fault = .unexpectedEnd expected) ∨ fault = .noSlot index ∨
      fault = .missingNumber index := by
  cases obstructed with
  | positionEnd => exact Or.inl ⟨_, rfl⟩
  | transformEnd => exact Or.inl ⟨_, rfl⟩
  | slot _ => exact Or.inr (Or.inl rfl)
  | noDigit _ => exact Or.inr (Or.inr rfl)
  | largeNumber large => exact absurd large (by decide)

end Obstructed

namespace Format

variable {text other : List Char} {fault : LexicalError} {index : Nat}

theorem exists_accepted_of_reached {awaited : Awaited} {before ahead : List Char}
    (reached : Reached awaited before ahead) :
    ∃ accepted format, before <+: accepted ∧ read accepted = .ok format := by
  obtain ⟨more, operands, spelled⟩ := reached.exists_completion
  exact ⟨before ++ more, ⟨operands⟩, List.prefix_append _ _, read_eq_ok_iff.mpr (Or.inr spelled)⟩

/-- The index of an error splits the text where the reader stopped. -/
theorem exists_split_of_index (refused : read text = .error fault) (here : fault.index? = some index) :
    ∃ awaited before ahead, text = before ++ ahead ∧ index = before.length ∧
      Reached awaited before ahead ∧ Obstructed index awaited ahead fault := by
  obtain ⟨_, awaited, before, ahead, rfl, reached, obstructed⟩ := read_eq_error_iff.mp refused
  have place : index = before.length := by
    rcases obstructed.index?_eq_or with same | ⟨_, expected, rfl⟩
    · exact Option.some.inj (here.symm.trans same)
    · cases here
  exact ⟨awaited, before, ahead, rfl, place, reached, place ▸ obstructed⟩

/-- A text that agrees up to the character that an error points at has the same error, unless it is the
    word for no operands. -/
theorem read_error_of_agrees (refused : read text = .error fault)
    (here : fault.index? = some index) (inside : index < text.length)
    (small : fault ≠ .numberOverflow index) (begins : text.take (index + 1) <+: other)
    (noWord : other ≠ emptyText) : read other = .error fault := by
  obtain ⟨awaited, before, ahead, rfl, rfl, reached, obstructed⟩ := exists_split_of_index refused here
  cases ahead with
  | nil => simp at inside
  | cons char rest =>
    obtain ⟨more, rfl⟩ := begins
    have first : (before ++ char :: rest).take (before.length + 1) = before ++ [char] := by
      rw [List.take_append, List.take_of_length_le (Nat.le_succ _), Nat.add_sub_cancel_left,
        List.take_one]
      rfl
    rw [first] at noWord ⊢
    refine read_eq_error_iff.mpr ⟨noWord, awaited, before, char :: more, by simp, ?_, ?_⟩
    · exact reached.congr rfl
    · exact obstructed.congr rfl small

/-- A number that is too large is too large in every longer text. -/
theorem read_error_of_overflow (refused : read text = .error (.numberOverflow index))
    (begins : text <+: other) : read other = .error (.numberOverflow index) := by
  obtain ⟨awaited, before, ahead, rfl, rfl, reached, obstructed⟩ := exists_split_of_index refused rfl
  obtain ⟨digit, rest, rfl, isDigit⟩ := obstructed.exists_digit_of_overflow
  obtain ⟨more, rfl⟩ := begins
  have noWord : before ++ digit :: rest ++ more ≠ emptyText := by
    intro same
    have noDigit : emptyText.any Char.isDigit = false := by decide
    exact List.any_eq_false.mp noDigit digit (by simp [← same]) isDigit
  refine read_eq_error_iff.mpr
    ⟨noWord, awaited, before, digit :: rest ++ more, List.append_assoc _ _ _, reached.congr rfl, ?_⟩
  exact obstructed.append_of_overflow more

/-- An obstacle that is not the end of the text stands in every longer text as well, so none of them but the
    word for no operands is accepted. -/
theorem ahead_eq_nil_of_accepted {awaited : Awaited} {before ahead : List Char} {format : Format}
    (refused : read (before ++ ahead) = .error fault)
    (obstructed : Obstructed before.length awaited ahead fault) (begins : before ++ ahead <+: other)
    (accepts : read other = .ok format) (noWord : other ≠ emptyText) : ahead = [] := by
  by_contra more
  have here := obstructed.index?_eq_or.resolve_right fun ended => more ended.1
  have inside : before.length < (before ++ ahead).length := by
    simpa using List.length_pos_iff.mpr more
  by_cases large : fault = .numberOverflow before.length
  · rw [large] at refused
    rw [read_error_of_overflow refused begins] at accepts
    cases accepts
  · have agrees := (List.take_prefix (before.length + 1) _).trans begins
    rw [read_error_of_agrees refused here inside large agrees noWord] at accepts
    cases accepts

/-- A refused text is the beginning of an accepted one exactly if the reader met its end, or if it is the
    beginning of the word for no operands. -/
theorem exists_accepted_iff (refused : read text = .error fault) :
    (∃ accepted format, text <+: accepted ∧ read accepted = .ok format) ↔
      (∃ expected, fault = .unexpectedEnd expected) ∨ fault = .noSlot text.length ∨
        fault = .missingNumber text.length ∨
        text ≠ [] ∧ text <+: emptyText ∧ text ≠ emptyText := by
  obtain ⟨noWord, awaited, before, ahead, rfl, reached, obstructed⟩ := read_eq_error_iff.mp refused
  constructor
  · rintro ⟨accepted, format, begins, accepts⟩
    by_cases word : accepted = emptyText
    · refine Or.inr (Or.inr (Or.inr ⟨?_, word ▸ begins, noWord⟩))
      intro empty
      rw [empty, read_eq_ok_iff.mpr (Or.inr .nil)] at refused
      cases refused
    · have ended := ahead_eq_nil_of_accepted refused obstructed begins accepts word
      subst ended
      rw [List.append_nil]
      rcases obstructed.fault_of_nil with ended | slot | number
      · exact Or.inl ended
      · exact Or.inr (Or.inl slot)
      · exact Or.inr (Or.inr (Or.inl number))
  · intro ends
    -- In each case but the last the reader has taken the whole text.
    have whole (ended : ahead = []) :
        ∃ accepted format, before ++ ahead <+: accepted ∧ read accepted = .ok format := by
      rw [ended, List.append_nil]
      exact exists_accepted_of_reached reached
    have atEnd (same : fault.index? = some (before ++ ahead).length) : ahead = [] := by
      rcases obstructed.index?_eq_or with here | ⟨ended, _⟩
      · have lengths := Option.some.inj (here.symm.trans same)
        rw [List.length_append] at lengths
        exact List.eq_nil_of_length_eq_zero (by omega)
      · exact ended
    rcases ends with ⟨expected, rfl⟩ | rfl | rfl | ⟨_, begins, _⟩
    · exact whole (obstructed.index?_eq_or.resolve_left nofun).1
    · exact whole (atEnd rfl)
    · exact whole (atEnd rfl)
    · exact ⟨emptyText, {}, begins, read_eq_ok_iff.mpr (Or.inl ⟨rfl, rfl⟩)⟩

/-- A character that an error shows stands where the error points. -/
theorem getElem?_of_invalid {char : Char} (refused : read text = .error fault)
    (shows : fault = .invalidLead char index ∨ fault = .invalidPosition char index ∨
      fault = .invalidTransform char index) : text[index]? = some char := by
  rcases shows with rfl | rfl | rfl
  all_goals
    obtain ⟨awaited, before, ahead, rfl, rfl, _, obstructed⟩ := exists_split_of_index refused rfl
    cases obstructed
    simp

/-- The digits at the index of an overflow make a number that is too large. -/
theorem overflow_le_ofDigitChars (refused : read text = .error (.numberOverflow index)) :
    UInt32.size ≤ Nat.ofDigitChars 10 ((text.drop index).takeWhile Char.isDigit) 0 := by
  obtain ⟨awaited, before, ahead, rfl, rfl, _, obstructed⟩ := exists_split_of_index refused rfl
  rw [List.drop_left]
  cases obstructed with
  | largeNumber large => exact large

/-- An error points at the first place where a text stops being the beginning of an accepted one. The text
    before its index is still such a beginning. The character that it shows stands at its index. Unless a
    number is too large, every text that agrees up to and with the character at the index has the same
    error, the word for no operands aside. A number that is too large is a run of digits at the index, and
    every longer text has the same error. And the refused text itself is such a beginning exactly if the
    reader met its end, or if it begins the word for no operands. -/
theorem ofText_error_viable {text : String} {fault : LexicalError}
    (refused : ofText text = .error fault) :
    (∀ index, fault.index? = some index →
      index ≤ text.length ∧ ∃ (accepted : String) (format : Format),
        text.toList.take index <+: accepted.toList ∧ ofText accepted = .ok format) ∧
    (∀ char index, fault = .invalidLead char index ∨ fault = .invalidPosition char index ∨
      fault = .invalidTransform char index → text.toList[index]? = some char) ∧
    (∀ index, fault.index? = some index → index < text.length → fault ≠ .numberOverflow index →
      ∀ other : String, text.toList.take (index + 1) <+: other.toList → other.toList ≠ emptyText →
        ofText other = .error fault) ∧
    (∀ index, fault = .numberOverflow index →
      UInt32.size ≤ Nat.ofDigitChars 10 ((text.toList.drop index).takeWhile Char.isDigit) 0 ∧
      ∀ other : String, text.toList <+: other.toList → ofText other = .error fault) ∧
    ((∃ (accepted : String) (format : Format),
        text.toList <+: accepted.toList ∧ ofText accepted = .ok format) ↔
      (∃ expected, fault = .unexpectedEnd expected) ∨ fault = .noSlot text.length ∨
        fault = .missingNumber text.length ∨
        text ≠ "" ∧ text.toList <+: emptyText ∧ text.toList ≠ emptyText) := by
  -- A text may be given by its characters.
  have asText {begin : List Char} :
      (∃ accepted format, begin <+: accepted ∧ read accepted = .ok format) ↔
        ∃ (accepted : String) (format : Format),
          begin <+: accepted.toList ∧ ofText accepted = .ok format := by
    constructor
    · rintro ⟨accepted, format, begins, accepts⟩
      refine ⟨String.ofList accepted, format, ?_, ?_⟩
      · rwa [String.toList_ofList]
      · rwa [ofText, String.toList_ofList]
    · rintro ⟨accepted, format, begins, accepts⟩
      exact ⟨accepted.toList, format, begins, accepts⟩
  refine ⟨fun index here => ?_, fun char index => getElem?_of_invalid refused,
    fun index here inside small other => ?_, fun index overflow => ?_, ?_⟩
  · obtain ⟨awaited, before, ahead, split, place, reached, _⟩ := exists_split_of_index refused here
    rw [← String.length_toList, ← asText, split, place, List.take_left, List.length_append]
    exact ⟨Nat.le_add_right _ _, exists_accepted_of_reached reached⟩
  · rw [← String.length_toList] at inside
    exact read_error_of_agrees refused here inside small
  · subst overflow
    exact ⟨overflow_le_ofDigitChars refused, fun other => read_error_of_overflow refused⟩
  · have nonempty : text ≠ "" ↔ text.toList ≠ [] := by simp
    rw [← asText, ← String.length_toList, nonempty]
    exact exists_accepted_iff refused

theorem ofText_error_viable_unknownTransform :
    ofText "Sd5px1" = .error (.invalidTransform 'x' 4) ∧
    (∀ other : String, ['S', 'd', '5', 'p', 'x'] <+: other.toList → other.toList ≠ emptyText →
      ofText other = .error (.invalidTransform 'x' 4)) ∧
    ofText "Sd5k" = .error (.missingNumber 4) ∧
    ∃ (accepted : String) (format : Format),
      "Sd5k".toList <+: accepted.toList ∧ ofText accepted = .ok format := by
  have refused : ofText "Sd5px1" = .error (.invalidTransform 'x' 4) := by decide +kernel
  have ended : ofText "Sd5k" = .error (.missingNumber 4) := by decide +kernel
  obtain ⟨-, -, same, -, -⟩ := ofText_error_viable refused
  obtain ⟨-, -, -, -, completes⟩ := ofText_error_viable ended
  exact ⟨refused, same 4 rfl (by decide) nofun, ended, completes.mpr (Or.inr (Or.inr (Or.inl rfl)))⟩

end Format

end InsnEncoding
