import InsnEncoding.Format.Grammar
import InsnEncoding.Proofs.Numeral
import InsnEncoding.Proofs.Result

/-!
# The reader of formats and its grammar

The reader never goes back, so it is right because every part of a format can be told by the character
that follows it: a slot begins with a small letter, an operand with a capital letter (`AtOperand`), and
neither is a digit. An operand ends where a character follows that is not of its class
(`Operand.goesOn`). Each reader has two lemmas. `…_of_spelled` says that it reads a spelling followed by
such a character and stops there, and `spelled_of_…` says that whatever it has read is a spelling with such
a character behind it.

Together they give `Format.read_eq_ok_iff`: the reader accepts exactly the texts of the grammar and
returns the format that they spell.
-/

namespace InsnEncoding

/-- The text is at its end or goes on with a capital letter, as every operand begins with. -/
def AtOperand (text : List Char) : Prop :=
  Text.Stops (fun char => !char.isUpper) text

theorem AtOperand.stops {text : List Char} (atOperand : AtOperand text) {inClass : Char → Bool}
    (small : ∀ char, inClass char → char.isUpper = false) : Text.Stops inClass text := by
  apply Text.Stops.mono atOperand
  intro char member
  rw [small char member]
  rfl

theorem not_isUpper_of_isDigit (char : Char) (digit : char.isDigit) : char.isUpper = false := by
  obtain ⟨_, below⟩ := Char.isDigit_iff_toNat.mp digit
  have nine : '9'.toNat < 'A'.toNat := by decide
  rw [Bool.eq_false_iff]
  intro upper
  obtain ⟨above, _⟩ := of_decide_eq_true upper
  have letter : 'A'.toNat ≤ char.toNat := above
  omega

namespace Slot

/-- The letter of a position, with which a slot begins. -/
def isLetter (char : Char) : Bool :=
  (fieldLetters.offset? char).isSome

theorem isLetter_iff {char : Char} : isLetter char ↔ ∃ offset, (offset, char) ∈ fieldLetters := by
  rw [isLetter, Option.isSome_iff_exists]
  exact exists_congr fun offset => LetterTable.offset?_eq_some_iff_mem fieldLetters_distinct

theorem fieldLetters_small : ∀ entry ∈ fieldLetters,
    entry.2.isDigit = false ∧ entry.2.isUpper = false ∧ entry.2 ≠ 'p' := by decide

theorem not_isUpper_of_isLetter (char : Char) (letter : isLetter char) : char.isUpper = false := by
  obtain ⟨offset, member⟩ := isLetter_iff.mp letter
  exact (fieldLetters_small _ member).2.1

end Slot

namespace SlotsSpelled

/-- Slots do not begin with a digit. -/
theorem stops_digit {body rest : List Char} {slots : List Slot} (spelled : SlotsSpelled body slots)
    (stops : Text.Stops Char.isDigit rest) : Text.Stops Char.isDigit (body ++ rest) := by
  cases spelled with
  | nil => exact stops
  | cons letter _ _ => exact Text.stops_cons.mpr (Slot.fieldLetters_small _ letter).1

end SlotsSpelled

namespace Slot

theorem readAll_cons_of_isLetter {index : Nat} {letter : Char} {offset : UInt32} {rest : List Char}
    (member : (offset, letter) ∈ fieldLetters) :
    readAll index (letter :: rest) =
      match Numeral.read (index + 1) rest with
      | .error fault => .error fault
      | .ok (width, taken) =>
        match readAll (index + 1 + taken) (rest.drop taken) with
        | .error fault => .error fault
        | .ok (slots, more) => .ok (⟨offset, width⟩ :: slots, 1 + taken + more) := by
  have unfolded := readAll.eq_2 index letter rest
  rw [(LetterTable.offset?_eq_some_iff_mem fieldLetters_distinct).mpr member] at unfolded
  exact unfolded

theorem readAll_of_stops {index : Nat} {text : List Char} (stops : Text.Stops isLetter text) :
    readAll index text = .ok ([], 0) := by
  cases text with
  | nil => rw [readAll]
  | cons char rest =>
    have missing : fieldLetters.offset? char = none := by
      simpa [isLetter] using Text.stops_cons.mp stops
    rw [readAll, missing]

/-- Slots are read up to a character that goes on neither with the last width nor with a slot. -/
theorem readAll_of_spelled {body rest : List Char} {slots : List Slot}
    (spelled : SlotsSpelled body slots) (digits : Text.Stops Char.isDigit rest)
    (letters : Text.Stops isLetter rest) (index : Nat) :
    readAll index (body ++ rest) = .ok (slots, body.length) := by
  induction spelled generalizing index with
  | nil => exact readAll_of_stops letters
  | @cons letter width behind slot slots member numeral later ih =>
    have first : Numeral.read (index + 1) (width ++ (behind ++ rest)) = .ok (slot.width, width.length) :=
      Numeral.read_of_spells numeral (later.stops_digit digits)
    rw [List.cons_append, List.cons_append, List.append_assoc, readAll_cons_of_isLetter member, first]
    simp only [List.drop_left, ih, List.length_cons, List.length_append]
    congr 2
    omega

/-- What is read as slots spells them, and neither the last width nor a further slot goes on behind. -/
theorem spelled_of_readAll {index : Nat} {text : List Char} {slots : List Slot} {taken : Nat}
    (found : readAll index text = .ok (slots, taken)) :
    ∃ body rest, text = body ++ rest ∧ taken = body.length ∧ SlotsSpelled body slots ∧
      Text.Stops isLetter rest ∧ (slots ≠ [] → Text.Stops Char.isDigit rest) := by
  fun_induction readAll index text generalizing slots taken with
  | case1 index =>
    cases found
    exact ⟨[], [], rfl, rfl, .nil, Text.stops_nil, fun _ => Text.stops_nil⟩
  | case2 index letter tail missing =>
    cases found
    refine ⟨[], letter :: tail, rfl, rfl, .nil, Text.stops_cons.mpr ?_, fun some => absurd rfl some⟩
    rw [isLetter, missing]
    rfl
  | case3 => cases found
  | case4 => cases found
  | case5 index letter tail offset position width count number slots more later ih =>
    cases found
    obtain ⟨digits, behind, split, length, numeral, digitsStop⟩ := Numeral.spells_of_read number
    obtain ⟨body, rest, splitBehind, lengthBehind, spelled, letters, restStop⟩ := ih later
    rw [split, length, List.drop_left] at splitBehind
    have member := (LetterTable.offset?_eq_some_iff_mem fieldLetters_distinct).mp position
    refine ⟨letter :: digits ++ body, rest, ?_, ?_, .cons member numeral spelled, letters, fun _ => ?_⟩
    · simp [split, splitBehind]
    · simp [length, lengthBehind]
      omega
    · cases spelled with
      | nil =>
        rw [List.nil_append] at splitBehind
        exact splitBehind ▸ digitsStop
      | cons => exact restStop (List.cons_ne_nil _ _)

end Slot

namespace Transform

/-- The characters that would go on with a transform or, if there is none, with the slots before it. -/
def goesOn (transform : Transform) (char : Char) : Bool :=
  char.isDigit || transform.isIdentity && (Slot.isLetter char || char == 'p')

theorem goesOn_of_isDigit (transform : Transform) (char : Char) (digit : char.isDigit) :
    transform.goesOn char := by
  simp [goesOn, digit]

theorem identity_goesOn_of_isLetter (char : Char) (letter : Slot.isLetter char) :
    identity.goesOn char := by
  simp [goesOn, isIdentity, letter]

theorem identity_goesOn_of_mark (char : Char) (mark : char == 'p') : identity.goesOn char := by
  simp [goesOn, isIdentity, mark]

theorem not_isUpper_of_goesOn {transform : Transform} (char : Char) (member : transform.goesOn char) :
    char.isUpper = false := by
  rcases Bool.or_eq_true_iff.mp member with digit | other
  · exact not_isUpper_of_isDigit char digit
  · rcases Bool.or_eq_true_iff.mp (Bool.and_eq_true_iff.mp other).2 with letter | mark
    · exact Slot.not_isUpper_of_isLetter char letter
    · rw [eq_of_beq mark]
      decide

end Transform

/-- A class that the slots may go on with is stopped by a transform, and by whatever stops the slots. -/
theorem TransformSpelled.stops {suffix rest : List Char} {transform : Transform}
    (spelled : TransformSpelled suffix transform) (stops : Text.Stops transform.goesOn rest)
    {inClass : Char → Bool} (member : ∀ char, inClass char → Transform.identity.goesOn char)
    (mark : inClass 'p' = false) : Text.Stops inClass (suffix ++ rest) := by
  cases spelled with
  | identity => exact stops.mono member
  | add _ => exact Text.stops_cons.mpr mark
  | shiftLeft _ => exact Text.stops_cons.mpr mark

namespace Transform

theorem read_of_stops {text : List Char} (stops : Text.Stops (· == 'p') text) (index : Nat) :
    read index text = .ok (.identity, 0) := by
  cases text with
  | nil => rfl
  | cons char rest =>
    have other : char ≠ 'p' := by simpa using Text.stops_cons.mp stops
    simp [read, other]

/-- A transform is read up to a character that does not go on with it. -/
theorem read_of_spelled {suffix rest : List Char} {transform : Transform}
    (spelled : TransformSpelled suffix transform) (stops : Text.Stops transform.goesOn rest)
    (index : Nat) : read index (suffix ++ rest) = .ok (transform, suffix.length) := by
  have digits : Text.Stops Char.isDigit rest := stops.mono (goesOn_of_isDigit transform)
  cases spelled with
  | identity => exact read_of_stops (stops.mono identity_goesOn_of_mark) index
  | @add text amount numeral =>
    have number : Numeral.read (index + 2) (text ++ rest) = .ok (amount, text.length) :=
      Numeral.read_of_spells numeral digits
    simp [read, number, Except.map]
    omega
  | @shiftLeft text amount numeral =>
    have number : Numeral.read (index + 2) (text ++ rest) = .ok (amount, text.length) :=
      Numeral.read_of_spells numeral digits
    simp [read, number, Except.map]
    omega

theorem stops_goesOn_of_digits {transform : Transform} (other : transform.isIdentity = false)
    {rest : List Char} (digits : Text.Stops Char.isDigit rest) :
    Text.Stops transform.goesOn rest := by
  apply digits.mono
  intro char member
  simpa [goesOn, other] using member

/-- What is read as a transform behind slots spells it, and nothing goes on with it. -/
theorem spelled_of_read {index : Nat} {text : List Char} {transform : Transform} {taken : Nat}
    (found : read index text = .ok (transform, taken)) (letters : Text.Stops Slot.isLetter text)
    (digits : Text.Stops Char.isDigit text) :
    ∃ suffix rest, text = suffix ++ rest ∧ taken = suffix.length ∧
      TransformSpelled suffix transform ∧ Text.Stops transform.goesOn rest := by
  unfold read at found
  split at found
  · cases found
  · obtain ⟨⟨amount, count⟩, number, same⟩ := exists_of_map_eq_ok found
    obtain ⟨digits, rest, split, length, numeral, stops⟩ := Numeral.spells_of_read number
    cases same
    refine ⟨'p' :: 'p' :: digits, rest, ?_, ?_, .add numeral, stops_goesOn_of_digits rfl stops⟩
    · simp [split]
    · simp [length]
      omega
  · obtain ⟨⟨amount, count⟩, number, same⟩ := exists_of_map_eq_ok found
    obtain ⟨digits, rest, split, length, numeral, stops⟩ := Numeral.spells_of_read number
    cases same
    refine ⟨'p' :: 's' :: digits, rest, ?_, ?_, .shiftLeft numeral, stops_goesOn_of_digits rfl stops⟩
    · simp [split]
    · simp [length]
      omega
  · cases found
  · rename_i notAlone _ _ notFollowed
    cases found
    refine ⟨[], text, rfl, rfl, .identity, ?_⟩
    intro char first
    have mark : char ≠ 'p' := by
      intro same
      subst same
      obtain ⟨rest, split⟩ := List.head?_eq_some_iff.mp first
      cases rest with
      | nil => exact notAlone split
      | cons letter rest => exact notFollowed letter rest split
    simp [goesOn, digits char first, letters char first, mark]

end Transform

namespace Operand

theorem offset?_eq_none_of_lead {kind : Kind} {lead : Char} (opens : kind.lead? = some lead) :
    intRegisterLetters.offset? lead = none := by
  cases kind <;> cases opens <;> decide

theorem read_of_lead {index : Nat} {kind : Kind} {lead : Char} (opens : kind.lead? = some lead)
    (text : List Char) :
    read index lead text =
      if kind.isImmediate then readImmediate kind (index + 1) text
      else readRegister kind (index + 1) text := by
  unfold read
  rw [offset?_eq_none_of_lead opens, Kind.ofLead?_eq_some_iff.mpr opens]

/-- The characters that would go on with an operand if one of them stood behind it. -/
def goesOn (operand : Operand) (char : Char) : Bool :=
  operand.kind.isImmediate && operand.transform.goesOn char

/-- Nothing goes on with a register. -/
theorem stops_goesOn_of_isRegister {operand : Operand} (register : operand.kind.isRegister)
    (rest : List Char) : Text.Stops operand.goesOn rest := by
  have ofFile := Kind.isRegister_iff.mp register
  intro char _
  simp [goesOn, ofFile]

theorem stops_goesOn_iff_of_isImmediate {operand : Operand} (immediate : operand.kind.isImmediate)
    {rest : List Char} :
    Text.Stops operand.goesOn rest ↔ Text.Stops operand.transform.goesOn rest := by
  have same : operand.goesOn = operand.transform.goesOn := by
    funext char
    simp [goesOn, immediate]
  rw [same]

theorem stops_goesOn_of_atOperand (operand : Operand) {rest : List Char} (atOperand : AtOperand rest) :
    Text.Stops operand.goesOn rest := by
  apply atOperand.stops
  intro char member
  exact Transform.not_isUpper_of_goesOn char (Bool.and_eq_true_iff.mp member).2

/-- The slots and the transform of an immediate are read up to a character that does not go on with
    them. -/
theorem readImmediate_of_spelled {kind : Kind} {body suffix rest : List Char} {slots : List Slot}
    {transform : Transform} (nonempty : slots ≠ []) (spelledSlots : SlotsSpelled body slots)
    (spelledTransform : TransformSpelled suffix transform) (stops : Text.Stops transform.goesOn rest)
    (index : Nat) :
    readImmediate kind index (body ++ (suffix ++ rest)) =
      .ok (⟨kind, slots, transform⟩, body.length + suffix.length) := by
  have digits : Text.Stops Char.isDigit (suffix ++ rest) :=
    spelledTransform.stops stops (Transform.goesOn_of_isDigit _) (by decide)
  have letters : Text.Stops Slot.isLetter (suffix ++ rest) :=
    spelledTransform.stops stops Transform.identity_goesOn_of_isLetter (by decide)
  have readSlots := Slot.readAll_of_spelled spelledSlots digits letters index
  have readTransform := Transform.read_of_spelled spelledTransform stops (index + body.length)
  unfold readImmediate
  rw [readSlots]
  cases slots with
  | nil => contradiction
  | cons slot others =>
    show ((Transform.read (index + body.length) _).map _) = _
    rw [List.drop_left, readTransform]
    rfl

/-- An operand is read up to a character that does not go on with it. -/
theorem read_of_spelled {text : List Char} {operand : Operand} (spelled : OperandSpelled text operand) :
    ∃ lead more, text = lead :: more ∧ lead.isUpper ∧ ∀ index rest, Text.Stops operand.goesOn rest →
      read index lead (more ++ rest) = .ok (operand, more.length) := by
  cases spelled with
  | @intRegister letter offset member =>
    have upper : ∀ entry ∈ intRegisterLetters, entry.2.isUpper := by decide
    have position := (LetterTable.offset?_eq_some_iff_mem intRegisterLetters_distinct).mpr member
    refine ⟨letter, [], rfl, upper _ member, ?_⟩
    intro index rest _
    unfold read
    rw [position]
    rfl
  | @register kind lead letter offset register opens member =>
    have position := (LetterTable.offset?_eq_some_iff_mem fieldLetters_distinct).mpr member
    refine ⟨lead, [letter], rfl, Kind.isUpper_of_lead opens, ?_⟩
    intro index rest _
    rw [read_of_lead opens, if_neg (Kind.isRegister_iff.mp register)]
    simp [readRegister, Slot.readPosition, position, Except.map]
  | @immediate kind lead body suffix slots transform immediate opens nonempty bodySpelled suffixSpelled =>
    refine ⟨lead, body ++ suffix, rfl, Kind.isUpper_of_lead opens, ?_⟩
    intro index rest stops
    rw [stops_goesOn_iff_of_isImmediate immediate] at stops
    rw [read_of_lead opens, if_pos immediate, List.append_assoc, List.length_append]
    exact readImmediate_of_spelled nonempty bodySpelled suffixSpelled stops (index + 1)

theorem spelled_of_readRegister {kind : Kind} {lead : Char} (opens : kind.lead? = some lead)
    (register : kind.isRegister) {index : Nat} {text : List Char} {operand : Operand} {taken : Nat}
    (found : readRegister kind index text = .ok (operand, taken)) :
    ∃ more rest, text = more ++ rest ∧ taken = more.length ∧ OperandSpelled (lead :: more) operand ∧
      Text.Stops operand.goesOn rest := by
  obtain ⟨offset, position, same⟩ := exists_of_map_eq_ok found
  cases same
  cases text with
  | nil => cases position
  | cons letter rest =>
    cases known : fieldLetters.offset? letter with
    | none => simp [Slot.readPosition, known] at position
    | some place =>
      simp only [Slot.readPosition, known, Except.ok.injEq] at position
      have member := (LetterTable.offset?_eq_some_iff_mem fieldLetters_distinct).mp known
      rw [position] at member
      exact ⟨[letter], rest, rfl, rfl, .register register opens member,
        stops_goesOn_of_isRegister register rest⟩

theorem spelled_of_readImmediate {kind : Kind} {lead : Char} (opens : kind.lead? = some lead)
    (immediate : kind.isImmediate) {index : Nat} {text : List Char} {operand : Operand} {taken : Nat}
    (found : readImmediate kind index text = .ok (operand, taken)) :
    ∃ more rest, text = more ++ rest ∧ taken = more.length ∧ OperandSpelled (lead :: more) operand ∧
      Text.Stops operand.goesOn rest := by
  unfold readImmediate at found
  split at found
  · cases found
  · cases found
  · rename_i slots count nonempty readSlots
    obtain ⟨⟨transform, more⟩, readTransform, same⟩ := exists_of_map_eq_ok found
    obtain ⟨body, behind, split, length, spelledSlots, letters, digits⟩ :=
      Slot.spelled_of_readAll readSlots
    have some : slots ≠ [] := by
      intro empty
      subst empty
      exact nonempty rfl
    rw [split, length, List.drop_left] at readTransform
    obtain ⟨suffix, rest, splitBehind, lengthSuffix, spelledTransform, stops⟩ :=
      Transform.spelled_of_read readTransform letters (digits some)
    cases same
    refine ⟨body ++ suffix, rest, ?_, ?_, ?_, (stops_goesOn_iff_of_isImmediate immediate).mpr stops⟩
    · rw [split, splitBehind, List.append_assoc]
    · rw [length, lengthSuffix, List.length_append]
    · exact .immediate immediate opens some spelledSlots spelledTransform

/-- What is read as an operand spells it, and nothing behind it goes on with it. -/
theorem spelled_of_read {index : Nat} {lead : Char} {text : List Char} {operand : Operand}
    {taken : Nat} (found : read index lead text = .ok (operand, taken)) :
    ∃ more rest, text = more ++ rest ∧ taken = more.length ∧ OperandSpelled (lead :: more) operand ∧
      Text.Stops operand.goesOn rest := by
  unfold read at found
  split at found
  · rename_i offset position
    cases found
    have member := (LetterTable.offset?_eq_some_iff_mem intRegisterLetters_distinct).mp position
    exact ⟨[], text, rfl, rfl, .intRegister member, stops_goesOn_of_isRegister rfl text⟩
  · split at found
    · cases found
    · rename_i kind known
      have opens := Kind.ofLead?_eq_some_iff.mp known
      split at found
      · exact spelled_of_readImmediate opens ‹_› found
      · exact spelled_of_readRegister opens (Kind.isRegister_iff.mpr ‹_›) found

end Operand

namespace OperandsSpelled

theorem atOperand {text : List Char} {operands : List Operand}
    (spelled : OperandsSpelled text operands) : AtOperand text := by
  cases spelled with
  | nil => exact Text.stops_nil
  | cons first _ =>
    obtain ⟨lead, more, split, upper, _⟩ := Operand.read_of_spelled first
    subst split
    exact Text.stops_cons.mpr (by rw [upper]; rfl)

theorem ne_emptyText {text : List Char} {operands : List Operand}
    (spelled : OperandsSpelled text operands) : text ≠ Format.emptyText := by
  intro same
  cases spelled with
  | nil => cases same
  | cons first _ =>
    -- No operand begins with `E`.
    cases first with
    | intRegister member =>
      have letters : ∀ entry ∈ intRegisterLetters, entry.2 ≠ 'E' := by decide
      exact letters _ member (List.cons.inj same).1
    | @register kind _ _ _ _ opens _ =>
      have lead := (List.cons.inj same).1
      subst lead
      cases kind <;> cases opens
    | @immediate kind _ _ _ _ _ _ opens _ _ _ =>
      have lead := (List.cons.inj same).1
      subst lead
      cases kind <;> cases opens

end OperandsSpelled

namespace Format

theorem readOperands_cons {index : Nat} {lead : Char} {rest : List Char} :
    readOperands index (lead :: rest) =
      match Operand.read index lead rest with
      | .error fault => .error fault
      | .ok (operand, taken) =>
        match readOperands (index + 1 + taken) (rest.drop taken) with
        | .error fault => .error fault
        | .ok operands => .ok (operand :: operands) :=
  readOperands.eq_2 index lead rest

theorem readOperands_of_spelled {text : List Char} {operands : List Operand}
    (spelled : OperandsSpelled text operands) (index : Nat) :
    readOperands index text = .ok operands := by
  induction spelled generalizing index with
  | nil => rw [readOperands]
  | @cons text rest operand operands first later ih =>
    obtain ⟨lead, more, split, _, reads⟩ := Operand.read_of_spelled first
    subst split
    have stops := operand.stops_goesOn_of_atOperand later.atOperand
    rw [List.cons_append, readOperands_cons, reads index rest stops]
    simp only [List.drop_left, ih]

theorem spelled_of_readOperands {index : Nat} {text : List Char} {operands : List Operand}
    (found : readOperands index text = .ok operands) : OperandsSpelled text operands := by
  fun_induction readOperands index text generalizing operands with
  | case1 =>
    cases found
    exact .nil
  | case2 => cases found
  | case3 => cases found
  | case4 index lead tail operand taken first operands later ih =>
    cases found
    obtain ⟨more, rest, split, length, spelled, _⟩ := Operand.spelled_of_read first
    subst split length
    have laterSpelled := ih later
    rw [List.drop_left] at laterSpelled
    exact .cons spelled laterSpelled

/-- The reader accepts the texts of the grammar and returns what they spell. -/
theorem read_eq_ok_iff {text : List Char} {format : Format} :
    read text = .ok format ↔ format.SpelledBy text := by
  obtain ⟨operands⟩ := format
  unfold read SpelledBy
  by_cases empty : text = emptyText
  · have none : ¬ OperandsSpelled text operands := fun spelled => spelled.ne_emptyText empty
    simp [empty ▸ none, empty, eq_comm]
  · rw [if_neg empty]
    constructor
    · intro found
      obtain ⟨read, found, same⟩ := exists_of_map_eq_ok found
      cases same
      exact Or.inr (spelled_of_readOperands found)
    · intro spelled
      rw [readOperands_of_spelled (spelled.resolve_left fun word => empty word.1) 0]
      rfl

/-- A text is read as a format exactly if it is the word for no operands or is made of spellings of the
    operands, one behind the other. -/
theorem ofText_eq_ok_iff_spelledBy {text : String} {format : Format} :
    ofText text = .ok format ↔ format.SpelledBy text.toList :=
  read_eq_ok_iff

end Format

end InsnEncoding
