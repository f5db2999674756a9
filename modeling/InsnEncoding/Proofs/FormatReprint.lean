import InsnEncoding.Proofs.FormatText

/-!
# Writing again what was read

A format has many texts, but they differ in the zeros before its numbers only. `Text.dropLeadingZeros`
takes these away from every longest run of digits. What is written of a number is its numeral without
leading zeros (`Numeral.write_eq_dropZeros`), and nothing that stands between two numbers in a format is a
digit, so what is written of a format that was read is the text it was read from without leading zeros:
`Format.repr_of_ofText`.
-/

namespace InsnEncoding

namespace Text

/-- A run of digits without the zeros that it begins with. Of a run of zeros one is left. -/
def dropZeros (run : List Char) : List Char :=
  match run.dropWhile (· == '0') with
  | [] => ['0']
  | digits => digits

/-- The text with leading zeros taken away from every longest run of digits. -/
def dropLeadingZeros : List Char → List Char
  | [] => []
  | char :: rest =>
    if char.isDigit then
      dropZeros (char :: rest.takeWhile Char.isDigit) ++
        dropLeadingZeros (rest.dropWhile Char.isDigit)
    else char :: dropLeadingZeros rest
termination_by text => text.length
decreasing_by
  · exact Nat.lt_succ_of_le (List.dropWhile_sublist _).length_le
  · exact Nat.lt_succ_self _

theorem dropLeadingZeros_nil : dropLeadingZeros [] = [] := by
  rw [dropLeadingZeros]

theorem dropLeadingZeros_cons_of_not_isDigit {char : Char} (other : char.isDigit = false)
    (rest : List Char) : dropLeadingZeros (char :: rest) = char :: dropLeadingZeros rest := by
  rw [dropLeadingZeros, other]
  rfl

theorem dropLeadingZeros_eq_self {text : List Char} (letters : ∀ char ∈ text, char.isDigit = false) :
    dropLeadingZeros text = text := by
  induction text with
  | nil => exact dropLeadingZeros_nil
  | cons char rest ih =>
    obtain ⟨here, later⟩ := List.forall_mem_cons.mp letters
    rw [dropLeadingZeros_cons_of_not_isDigit here, ih later]

/-- A run of digits is treated by itself if no digit stands behind it. -/
theorem dropLeadingZeros_run {run rest : List Char} (nonempty : run ≠ [])
    (digits : ∀ char ∈ run, char.isDigit) (stops : Stops Char.isDigit rest) :
    dropLeadingZeros (run ++ rest) = dropZeros run ++ dropLeadingZeros rest := by
  obtain ⟨char, more, rfl⟩ := List.exists_cons_of_ne_nil nonempty
  obtain ⟨first, later⟩ := List.forall_mem_cons.mp digits
  rw [List.cons_append, dropLeadingZeros, if_pos first, takeWhile_run later stops,
    dropWhile_run later stops]

/-- A text is treated by itself if no digit stands behind it. -/
theorem dropLeadingZeros_append {rest : List Char} (stops : Stops Char.isDigit rest)
    (text : List Char) :
    dropLeadingZeros (text ++ rest) = dropLeadingZeros text ++ dropLeadingZeros rest := by
  fun_induction dropLeadingZeros text with
  | case1 => rfl
  | case2 char more digit ih =>
    obtain ⟨run, behind, split, digits, behindStops⟩ := exists_run Char.isDigit more
    subst split
    rw [dropWhile_run digits behindStops] at ih ⊢
    rw [takeWhile_run digits behindStops, List.append_assoc, ← ih, ← List.cons_append,
      List.append_assoc]
    exact dropLeadingZeros_run (List.cons_ne_nil _ _) (List.forall_mem_cons.mpr ⟨digit, digits⟩)
      (behindStops.append stops)
  | case3 char more other ih =>
    rw [List.cons_append, dropLeadingZeros_cons_of_not_isDigit (by simpa using other), ih,
      List.cons_append]

end Text

theorem not_isDigit_of_isUpper {char : Char} (upper : char.isUpper) : char.isDigit = false := by
  rw [Bool.eq_false_iff]
  intro digit
  rw [not_isUpper_of_isDigit char digit] at upper
  contradiction

theorem intRegisterLetters_isUpper : ∀ entry ∈ intRegisterLetters, entry.2.isUpper := by decide

namespace Numeral

theorem digit_lt_ten {digit : Char} (inClass : digit.isDigit) : digit.toNat - '0'.toNat < 10 := by
  obtain ⟨_, below⟩ := Char.isDigit_iff_toNat.mp inClass
  have nine : '9'.toNat = '0'.toNat + 9 := rfl
  omega

theorem digit_pos {digit : Char} (inClass : digit.isDigit) (other : digit ≠ '0') :
    0 < digit.toNat - '0'.toNat := by
  obtain ⟨above, _⟩ := Char.isDigit_iff_toNat.mp inClass
  have different : digit.toNat ≠ '0'.toNat := mt Char.toNat_inj.mp other
  omega

theorem digitChar_of_isDigit {digit : Char} (inClass : digit.isDigit) :
    Nat.digitChar (digit.toNat - '0'.toNat) = digit := by
  obtain ⟨above, _⟩ := Char.isDigit_iff_toNat.mp inClass
  apply Char.toNat_inj.mp
  rw [Nat.toNat_digitChar_of_lt_ten (digit_lt_ten inClass)]
  exact Nat.add_sub_cancel' above

/-- Digits behind a number other than zero are the last digits of what they lead to. -/
theorem toDigits_ofDigitChars {digits : List Char} (all : ∀ digit ∈ digits, digit.isDigit)
    {number : Nat} (positive : 0 < number) :
    Nat.toDigits 10 (Nat.ofDigitChars 10 digits number) = Nat.toDigits 10 number ++ digits := by
  induction digits generalizing number with
  | nil => simp
  | cons digit rest ih =>
    obtain ⟨here, later⟩ := List.forall_mem_cons.mp all
    have small := digit_lt_ten here
    rw [Nat.ofDigitChars_cons, ih later (Nat.add_pos_left (Nat.mul_pos (by decide) positive) _),
      ← Nat.toDigits_append_toDigits (by decide) positive small, Nat.toDigits_of_lt_base small,
      digitChar_of_isDigit here, List.append_assoc, List.singleton_append]

/-- A number is written as any of its numerals without the leading zeros. -/
theorem write_eq_dropZeros {digits : List Char} {value : UInt32} (spells : Spells digits value) :
    write value = Text.dropZeros digits := by
  obtain ⟨_, all, number⟩ := spells
  obtain ⟨zeros, rest, split, allZero, stops⟩ := Text.exists_run (· == '0') digits
  have onlyZeros : zeros = List.replicate zeros.length '0' :=
    List.eq_replicate_iff.mpr ⟨rfl, fun char inZeros => eq_of_beq (allZero char inZeros)⟩
  rw [split, Nat.ofDigitChars_append, onlyZeros, Nat.ofDigitChars_replicate_zero,
    Nat.mul_zero] at number
  rw [write, ← number, Text.dropZeros, split, Text.dropWhile_run allZero stops]
  cases rest with
  | nil => rfl
  | cons digit more =>
    rw [split] at all
    obtain ⟨here, later⟩ := List.forall_mem_cons.mp (List.forall_mem_append.mp all).2
    have other : digit ≠ '0' := by simpa using Text.stops_cons.mp stops
    have small := digit_lt_ten here
    rw [Nat.ofDigitChars_cons, Nat.mul_zero, Nat.zero_add,
      toDigits_ofDigitChars later (digit_pos here other), Nat.toDigits_of_lt_base small,
      digitChar_of_isDigit here]
    rfl

/-- Wherever a numeral stands in a text, its number is written in its place. -/
theorem dropLeadingZeros_of_spells {digits rest : List Char} {value : UInt32}
    (spells : Spells digits value) (stops : Text.Stops Char.isDigit rest) :
    Text.dropLeadingZeros (digits ++ rest) = write value ++ Text.dropLeadingZeros rest := by
  rw [write_eq_dropZeros spells, Text.dropLeadingZeros_run spells.1 spells.2.1 stops]

end Numeral

theorem SlotsSpelled.dropLeadingZeros_eq {body : List Char} {slots : List Slot}
    (spelled : SlotsSpelled body slots) :
    Text.dropLeadingZeros body = slots.flatMap Slot.spell := by
  induction spelled with
  | nil => exact Text.dropLeadingZeros_nil
  | @cons letter digits rest slot slots member numeral later ih =>
    have stops : Text.Stops Char.isDigit rest := by
      simpa using later.stops_digit Text.stops_nil
    rw [List.cons_append,
      Text.dropLeadingZeros_cons_of_not_isDigit (Slot.fieldLetters_small _ member).1,
      Numeral.dropLeadingZeros_of_spells numeral stops, ih, List.flatMap_cons, Slot.spell,
      Slot.mark_eq member, List.cons_append]

theorem TransformSpelled.dropLeadingZeros_eq {suffix : List Char} {transform : Transform}
    (spelled : TransformSpelled suffix transform) :
    Text.dropLeadingZeros suffix = transform.suffix := by
  have amountWritten {letter : Char} {digits : List Char} {amount : UInt32}
      (other : letter.isDigit = false) (numeral : Numeral.Spells digits amount) :
      Text.dropLeadingZeros ('p' :: letter :: digits) = 'p' :: letter :: Numeral.write amount := by
    have written := Numeral.dropLeadingZeros_of_spells numeral Text.stops_nil
    rw [List.append_nil, Text.dropLeadingZeros_nil, List.append_nil] at written
    rw [Text.dropLeadingZeros_cons_of_not_isDigit (by decide),
      Text.dropLeadingZeros_cons_of_not_isDigit other, written]
  cases spelled with
  | identity => exact Text.dropLeadingZeros_nil
  | add numeral => exact amountWritten (by decide) numeral
  | shiftLeft numeral => exact amountWritten (by decide) numeral

theorem Operand.spell_register {kind : Kind} (register : kind.isRegister) {offset : UInt32}
    {letter : Char} (member : (offset, letter) ∈ kind.letters) :
    (Operand.register kind offset).spell = kind.lead?.toList ++ [letter] := by
  rw [spell, spellSlots_register register member]
  exact List.append_nil _

namespace OperandSpelled

/-- An operand that was read is written as its text without leading zeros. -/
theorem dropLeadingZeros_eq {text : List Char} {operand : Operand}
    (spelled : OperandSpelled text operand) : Text.dropLeadingZeros text = operand.spell := by
  cases spelled with
  | @intRegister letter offset member =>
    have letterOther : letter.isDigit = false :=
      not_isDigit_of_isUpper (intRegisterLetters_isUpper _ member)
    rw [Operand.spell_register rfl member,
      Text.dropLeadingZeros_eq_self (List.forall_mem_singleton.mpr letterOther)]
    rfl
  | @register kind lead letter offset register opens member =>
    have leadOther := not_isDigit_of_isUpper (Kind.isUpper_of_lead opens)
    have letterOther : letter.isDigit = false := (Slot.fieldLetters_small _ member).1
    rw [← Kind.letters_eq_of_lead opens] at member
    rw [Operand.spell_register register member, opens, Text.dropLeadingZeros_eq_self
      (List.forall_mem_cons.mpr ⟨leadOther, List.forall_mem_singleton.mpr letterOther⟩)]
    rfl
  | @immediate kind lead body suffix slots transform immediate opens nonempty slotsSpelled suffixSpelled =>
    have stops : Text.Stops Char.isDigit suffix := by
      simpa using suffixSpelled.stops Text.stops_nil (Transform.goesOn_of_isDigit _) (by decide)
    have leadOther := not_isDigit_of_isUpper (Kind.isUpper_of_lead opens)
    rw [List.cons_append, Text.dropLeadingZeros_cons_of_not_isDigit leadOther,
      Text.dropLeadingZeros_append stops, slotsSpelled.dropLeadingZeros_eq,
      suffixSpelled.dropLeadingZeros_eq, Operand.spell, Operand.spellSlots, if_pos immediate, opens]
    rfl

end OperandSpelled

namespace OperandsSpelled

theorem eq_nil_iff {text : List Char} {operands : List Operand}
    (spelled : OperandsSpelled text operands) : text = [] ↔ operands = [] := by
  cases spelled with
  | nil => exact iff_of_true rfl rfl
  | cons first _ =>
    exact iff_of_false (List.append_ne_nil_of_left_ne_nil first.ne_nil _) (List.cons_ne_nil _ _)

theorem dropLeadingZeros_eq {text : List Char} {operands : List Operand}
    (spelled : OperandsSpelled text operands) :
    Text.dropLeadingZeros text = operands.flatMap Operand.spell := by
  induction spelled with
  | nil => exact Text.dropLeadingZeros_nil
  | cons first later ih =>
    have stops := later.atOperand.stops not_isUpper_of_isDigit
    rw [Text.dropLeadingZeros_append stops, first.dropLeadingZeros_eq, ih, List.flatMap_cons]

end OperandsSpelled

namespace Format

/-- A format that was read is written as the text without leading zeros, and no text at all is written as
    the word for no operands. -/
theorem spell_of_spelledBy {format : Format} {text : List Char} (spelled : format.SpelledBy text) :
    format.spell = if text = [] then emptyText else Text.dropLeadingZeros text := by
  unfold spell
  rcases spelled with ⟨rfl, none⟩ | spelled
  · have letters : ∀ char ∈ emptyText, char.isDigit = false := fun char member =>
      not_isDigit_of_isUpper (List.all_eq_true.mp (by decide) char member)
    rw [isEmpty, none, Text.dropLeadingZeros_eq_self letters]
    rfl
  · unfold isEmpty
    simp only [spelled.dropLeadingZeros_eq, spelled.eq_nil_iff, List.isEmpty_iff]

theorem repr_eq_of_ofText {text : String} {format : Format} (read : ofText text = .ok format) :
    format.repr =
      if text = "" then "EMPTY" else String.ofList (Text.dropLeadingZeros text.toList) := by
  rw [repr, spell_of_spelledBy (read_eq_ok_iff.mp read)]
  by_cases empty : text = ""
  · rw [if_pos empty, if_pos (String.toList_eq_nil_iff.mpr empty)]
    rfl
  · rw [if_neg empty, if_neg (mt String.toList_eq_nil_iff.mp empty)]

/-- What was read is written as a text that is read as the same again. -/
theorem ofText_repr_of_ofText {text : String} {format : Format} (read : ofText text = .ok format) :
    ofText format.repr = .ok format := by
  apply ofText_repr_iff.mpr
  rcases read_eq_ok_iff.mp read with ⟨_, none⟩ | spelled
  · simp [none]
  · exact spelled.representable

/-- Reading a format and writing it again takes away leading zeros and nothing else, but the text without
    any character becomes the word for no operands. What is written is read as the same format. So two
    texts that are not empty stand for the same format exactly if they differ in leading zeros only, and to
    read and write once more changes nothing. -/
theorem repr_of_ofText :
    (∀ text format, ofText text = .ok format → format.repr =
      if text = "" then "EMPTY" else String.ofList (Text.dropLeadingZeros text.toList)) ∧
    (∀ text format, ofText text = .ok format → ofText format.repr = .ok format) ∧
    (∀ first second format other, first ≠ "" → second ≠ "" →
      ofText first = .ok format → ofText second = .ok other →
      (format = other ↔
        Text.dropLeadingZeros first.toList = Text.dropLeadingZeros second.toList)) ∧
    ∀ text written, (ofText text).map repr = .ok written →
      (ofText written).map repr = .ok written := by
  refine ⟨fun _ _ => repr_eq_of_ofText, fun _ _ => ofText_repr_of_ofText, ?_, ?_⟩
  · intro first second format other nonempty alsoNonempty read alsoRead
    have firstWritten := repr_eq_of_ofText read
    have secondWritten := repr_eq_of_ofText alsoRead
    rw [if_neg nonempty] at firstWritten
    rw [if_neg alsoNonempty] at secondWritten
    constructor
    · rintro rfl
      exact String.ofList_injective (firstWritten.symm.trans secondWritten)
    · intro same
      have sameText : format.repr = other.repr := by rw [firstWritten, secondWritten, same]
      have again := ofText_repr_of_ofText read
      rw [sameText, ofText_repr_of_ofText alsoRead] at again
      exact (Except.ok.inj again).symm
  · intro text written printed
    obtain ⟨format, read, rfl⟩ := exists_of_map_eq_ok printed
    rw [ofText_repr_of_ofText read]
    rfl

/-- A branch if a register is zero, the offset being in units of four bytes. -/
def branchIfZero : Format :=
  ⟨[.register .intRegister 5, ⟨.signedImmediate, [⟨0, 5⟩, ⟨10, 16⟩], .shiftLeft 2⟩]⟩

theorem repr_of_ofText_branchIfZero :
    ofText "JSd005k16ps02" = .ok branchIfZero ∧ branchIfZero.repr = "JSd5k16ps2" ∧
    ofText "JSd5k16ps2" = .ok branchIfZero ∧ ofText "" = .ok ⟨[]⟩ ∧ repr ⟨[]⟩ = "EMPTY" ∧
    Text.dropLeadingZeros "JSd005k16ps02".toList = Text.dropLeadingZeros "JSd5k0016ps2".toList := by
  have padded : ofText "JSd005k16ps02" = .ok branchIfZero := by decide +kernel
  have otherwisePadded : ofText "JSd5k0016ps2" = .ok branchIfZero := by decide +kernel
  have empty : ofText "" = .ok ⟨[]⟩ := by decide +kernel
  obtain ⟨written, again, sameFormat, -⟩ := repr_of_ofText
  have text : branchIfZero.repr = "JSd5k16ps2" := (written _ _ padded).trans (by decide +kernel)
  have back := again _ _ padded
  rw [text] at back
  exact ⟨padded, text, back, empty, written _ _ empty,
    (sameFormat _ _ _ _ (by decide) (by decide) padded otherwisePadded).mp rfl⟩

end Format

end InsnEncoding
