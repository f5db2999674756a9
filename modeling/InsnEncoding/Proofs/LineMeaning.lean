import InsnEncoding.Description.Meaning
import InsnEncoding.Proofs.LineLayout
import Mathlib.Data.Nat.Digits.Lemmas

/-!
# What a line is read as

The reader computes the word in 32 bits and puts the attributes into a map one after the other. Eight
digits fit into the word (`Word.toNat_ofHexDigits`), and the map holds the last value of each key
(`Line.getElem?_attributeMap`), so what it builds is what the line says (`Line.describes_iff`), and
the reader is exact on the whole: `Description.ofLine_exact`.
-/

namespace InsnEncoding

namespace Word

theorem hexDigitValue_lt {digit : Char} (inWord : Line.isWordDigit digit) :
    hexDigitValue digit < 16 := by
  have nine : '9'.toNat = '0'.toNat + 9 := rfl
  have last : 'f'.toNat = 'a'.toNat + 5 := rfl
  simp only [Line.isWordDigit, Bool.or_eq_true, Bool.and_eq_true, decide_eq_true_eq, Char.le_def,
    UInt32.le_iff_toNat_le, Char.toNat_val] at inWord
  unfold hexDigitValue
  by_cases decimal : digit.isDigit
  · rw [if_pos decimal]
    simp only [Char.isDigit, Bool.and_eq_true, decide_eq_true_eq, ge_iff_le,
      UInt32.le_iff_toNat_le, Char.toNat_val] at decimal
    omega
  · have letter := inWord.resolve_left decimal
    rw [if_neg decimal]
    omega

/-- The number that digits stand for, added up from the first one on. -/
theorem foldl_hexDigitValue (digits : List Char) :
    digits.foldl (fun number digit => 16 * number + hexDigitValue digit) 0 =
      Nat.ofDigits 16 (digits.reverse.map hexDigitValue) := by
  rw [Nat.ofDigits_eq_foldr, List.foldr_map, List.foldr_reverse]
  simp only [Nat.cast_id, Nat.add_comm]

theorem ofDigits_hexDigitValue_lt {digits : List Char} (length : digits.length = 8)
    (inWord : ∀ digit ∈ digits, Line.isWordDigit digit) :
    Nat.ofDigits 16 (digits.reverse.map hexDigitValue) < UInt32.size := by
  have small : ∀ value ∈ digits.reverse.map hexDigitValue, value < 16 := by
    intro value inValues
    obtain ⟨digit, inDigits, same⟩ := List.mem_map.mp inValues
    rw [← same]
    exact hexDigitValue_lt (inWord digit (List.mem_reverse.mp inDigits))
  have bound := Nat.ofDigits_lt_base_pow_length (by decide) small
  rw [List.length_map, List.length_reverse, length] at bound
  exact bound

/-- The word of eight digits is the number that they stand for. -/
theorem toNat_ofHexDigits {digits : List Char} (length : digits.length = 8)
    (inWord : ∀ digit ∈ digits, Line.isWordDigit digit) :
    (ofHexDigits digits).toNat = Nat.ofDigits 16 (digits.reverse.map hexDigitValue) := by
  rw [ofHexDigits, foldl_hexDigitValue, BitVec.toNat_ofNat,
    Nat.mod_eq_of_lt (ofDigits_hexDigitValue_lt length inWord)]

theorem hexDigit?_of_isWordDigit {digit : Char} (inWord : Line.isWordDigit digit) :
    hexDigit? digit = some (hexDigitValue digit) := by
  unfold hexDigit? hexDigitValue
  by_cases decimal : digit.isDigit
  · rw [if_pos decimal, if_pos decimal]
  · have letter : 'a' ≤ digit ∧ digit ≤ 'f' := by simpa [Line.isWordDigit, decimal] using inWord
    rw [if_neg decimal, if_pos letter, if_neg decimal]

theorem mapM_hexDigit? {digits : List Char} (inWord : ∀ digit ∈ digits, Line.isWordDigit digit) :
    digits.mapM hexDigit? = some (digits.map hexDigitValue) := by
  induction digits with
  | nil => rfl
  | cons digit rest ih =>
    obtain ⟨first, others⟩ := List.forall_mem_cons.mp inWord
    rw [List.mapM_cons, hexDigit?_of_isWordDigit first, ih others]
    rfl

/-- Eight digits as they stand in a line stand for a word. -/
theorem ofHex?_of_isWordDigit {digits : List Char} (length : digits.length = 8)
    (inWord : ∀ digit ∈ digits, Line.isWordDigit digit) :
    ofHex? digits = some (ofHexDigits digits) := by
  have noSign : withoutSign digits = digits := by
    unfold withoutSign
    split
    · exact absurd (inWord '+' List.mem_cons_self) (by decide)
    · rfl
  have nonempty : ¬ digits.isEmpty := by
    intro empty
    rw [List.isEmpty_iff.mp empty] at length
    contradiction
  have values := mapM_hexDigit? inWord
  have number : (digits.map hexDigitValue).foldl (fun number value => 16 * number + value) 0 =
      digits.foldl (fun number digit => 16 * number + hexDigitValue digit) 0 := List.foldl_map
  have fits := ofDigits_hexDigitValue_lt length inWord
  rw [← foldl_hexDigitValue] at fits
  unfold ofHex?
  simp only [noSign, if_neg nonempty, values, number, if_pos fits]
  rfl

end Word

namespace Line

/-- A map that entries have been put into holds the last value of a key, or what it held before. -/
theorem getElem?_foldl_insert (entries : List LineAttribute) (start : Attributes) (key : String) :
    (entries.foldl (fun attributes entry =>
      attributes.insert (String.ofList entry.key) entry.value) start)[key]? =
      ((entries.filter fun entry => String.ofList entry.key == key).getLast?.map
        LineAttribute.value).or start[key]? := by
  induction entries generalizing start with
  | nil => simp
  | cons entry rest ih =>
    rw [List.foldl_cons, ih, Std.ExtTreeMap.getElem?_insert]
    by_cases same : String.ofList entry.key = key
    · rw [if_pos (Std.compare_eq_iff_eq.mpr same), List.filter_cons_of_pos (by simpa using same),
        List.getLast?_cons]
      cases (rest.filter fun entry => String.ofList entry.key == key).getLast? <;> rfl
    · have other : compare (String.ofList entry.key) key ≠ .eq := mt Std.LawfulEqCmp.eq_of_compare same
      rw [if_neg other, List.filter_cons_of_neg (by simpa using same)]

theorem getElem?_attributeMap (line : Line) (key : String) :
    line.attributeMap[key]? = line.lastValue? key := by
  unfold attributeMap lastValue?
  rw [getElem?_foldl_insert]
  simp

/-- The description that a line makes with the two formats that were read from it. -/
def described (line : Line) (format : Format) (manualFormat : Option Format) : Description where
  word := Word.ofHexDigits line.word
  mnemonic := String.ofList line.mnemonic
  format
  manualFormat
  attributes := line.attributeMap.erase Description.manualFormatKey

end Line

namespace Description

/-- The digits that a line has for its word are never refused. -/
theorem readWord_of_wellFormed {line : Line} (wellFormed : line.WellFormed) :
    readWord line.word = .ok (Word.ofHexDigits line.word) := by
  rw [readWord, Word.ofHex?_of_isWordDigit wellFormed.word_length wellFormed.word_digits]

theorem readManualFormat_eq_ok_iff {attributes : Attributes} {manualFormat : Option Format} :
    readManualFormat attributes = .ok manualFormat ↔
      attributes[manualFormatKey]?.map Format.ofText = manualFormat.map Except.ok := by
  unfold readManualFormat
  cases attributes[manualFormatKey]? with
  | none => cases manualFormat <;> simp
  | some value => cases read : Format.ofText value <;> cases manualFormat <;> simp [read]

theorem readManualFormat_eq_error_iff {attributes : Attributes} {error : LineError} :
    readManualFormat attributes = .error error ↔
      ∃ value fault, attributes[manualFormatKey]? = some value ∧ Format.ofText value = .error fault ∧
        error = .malformedAttribute manualFormatKey fault := by
  unfold readManualFormat
  cases attributes[manualFormatKey]? with
  | none => simp
  | some value => cases read : Format.ofText value <;> simp [read, eq_comm]

end Description

namespace Line

theorem getElem?_erase_attributeMap (line : Line) (erased key : String) :
    (line.attributeMap.erase erased)[key]? =
      if key = erased then none else line.lastValue? key := by
  rw [Std.ExtTreeMap.getElem?_erase, getElem?_attributeMap]
  simp only [Std.compare_eq_iff_eq, @eq_comm String key]

/-- What a line says is read from it: both its formats, and everything else as it stands. -/
theorem describes_iff {line : Line} (wellFormed : line.WellFormed) {description : Description} :
    line.Describes description ↔
      ∃ format manualFormat, Format.ofText (String.ofList line.format) = .ok format ∧
        Description.readManualFormat line.attributeMap = .ok manualFormat ∧
        description = line.described format manualFormat := by
  have word := Word.toNat_ofHexDigits wellFormed.word_length wellFormed.word_digits
  constructor
  · intro describes
    refine ⟨description.format, description.manualFormat, describes.format, ?_, ?_⟩
    · rw [Description.readManualFormat_eq_ok_iff, getElem?_attributeMap, describes.manualFormat]
    · obtain ⟨wordSame, mnemonicSame, _, _, attributesSame⟩ := describes
      obtain ⟨bits, mnemonic, format, manualFormat, attributes⟩ := description
      have sameWord : bits = Word.ofHexDigits line.word :=
        BitVec.eq_of_toNat_eq (wordSame.trans word.symm)
      -- Maps are the same if they give every key the same value.
      have sameAttributes : attributes = line.attributeMap.erase Description.manualFormatKey := by
        apply Std.ExtTreeMap.ext_getElem?
        intro key
        rw [getElem?_erase_attributeMap]
        exact attributesSame key
      unfold described
      rw [sameWord, sameAttributes]
      exact congrArg (Description.mk _ · _ _ _) mnemonicSame
  · rintro ⟨format, manualFormat, formatRead, manualRead, rfl⟩
    rw [Description.readManualFormat_eq_ok_iff, getElem?_attributeMap] at manualRead
    exact ⟨word, rfl, formatRead, manualRead, fun key => getElem?_erase_attributeMap line _ key⟩

end Line

namespace Description

theorem ofParts_of_format_fault {line : Line} (wellFormed : line.WellFormed) {fault : LexicalError}
    (formatRead : Format.ofText (String.ofList line.format) = .error fault) :
    ofParts line = .error (.malformedFormat fault) := by
  rw [Format.ofText, String.toList_ofList] at formatRead
  unfold ofParts
  rw [readWord_of_wellFormed wellFormed, formatRead]
  rfl

theorem ofParts_of_manual_error {line : Line} (wellFormed : line.WellFormed) {format : Format}
    {error : LineError} (formatRead : Format.ofText (String.ofList line.format) = .ok format)
    (manualRead : readManualFormat line.attributeMap = .error error) :
    ofParts line = .error error := by
  rw [Format.ofText, String.toList_ofList] at formatRead
  unfold ofParts
  rw [readWord_of_wellFormed wellFormed, formatRead, manualRead]
  rfl

/-- If both formats can be read, only the validity of the description is left to ask. -/
theorem ofParts_of_read {line : Line} (wellFormed : line.WellFormed) {format : Format}
    {manualFormat : Option Format} (formatRead : Format.ofText (String.ofList line.format) = .ok format)
    (manualRead : readManualFormat line.attributeMap = .ok manualFormat) :
    ofParts line =
      match (line.described format manualFormat).validate with
      | .error fault => .error (.invalid fault)
      | .ok () => .ok (line.described format manualFormat) := by
  rw [Format.ofText, String.toList_ofList] at formatRead
  unfold ofParts
  simp only [readWord_of_wellFormed wellFormed, formatRead, manualRead]
  show (do
    Except.mapError LineError.invalid (line.described format manualFormat).validate
    return line.described format manualFormat) = _
  cases (line.described format manualFormat).validate with
  | error fault => rfl
  | ok => rfl

/-- The reader returns something that the line yields. -/
theorem yields_ofParts {line : Line} (wellFormed : line.WellFormed) : line.Yields (ofParts line) := by
  cases formatRead : Format.ofText (String.ofList line.format) with
  | error fault =>
    rw [ofParts_of_format_fault wellFormed formatRead]
    exact .malformedFormat formatRead
  | ok format =>
    cases manualRead : readManualFormat line.attributeMap with
    | error error =>
      rw [ofParts_of_manual_error wellFormed formatRead manualRead]
      obtain ⟨value, fault, last, valueRead, same⟩ := readManualFormat_eq_error_iff.mp manualRead
      rw [line.getElem?_attributeMap] at last
      rw [same]
      exact .malformedManualFormat formatRead last valueRead
    | ok manualFormat =>
      have describes := (Line.describes_iff wellFormed).mpr
        ⟨format, manualFormat, formatRead, manualRead, rfl⟩
      rw [ofParts_of_read wellFormed formatRead manualRead]
      cases valid : (line.described format manualFormat).validate with
      | error fault => exact .invalid describes valid
      | ok => exact .valid describes valid

/-- Nothing else than what the reader returns is yielded by the line. -/
theorem ofParts_of_yields {line : Line} (wellFormed : line.WellFormed)
    {result : Except LineError Description} (yields : line.Yields result) :
    ofParts line = result := by
  cases yields with
  | malformedFormat formatRead => exact ofParts_of_format_fault wellFormed formatRead
  | malformedManualFormat formatRead last valueRead =>
    rw [← line.getElem?_attributeMap] at last
    exact ofParts_of_manual_error wellFormed formatRead
      (readManualFormat_eq_error_iff.mpr ⟨_, _, last, valueRead, rfl⟩)
  | invalid describes invalid =>
    obtain ⟨format, manualFormat, formatRead, manualRead, rfl⟩ :=
      (Line.describes_iff wellFormed).mp describes
    rw [ofParts_of_read wellFormed formatRead manualRead, invalid]
  | valid describes valid =>
    obtain ⟨format, manualFormat, formatRead, manualRead, rfl⟩ :=
      (Line.describes_iff wellFormed).mp describes
    rw [ofParts_of_read wellFormed formatRead manualRead, valid]

theorem ofParts_eq_iff {line : Line} (wellFormed : line.WellFormed)
    {result : Except LineError Description} : ofParts line = result ↔ line.Yields result := by
  constructor
  · intro read
    subst read
    exact yields_ofParts wellFormed
  · exact ofParts_of_yields wellFormed

theorem ofLine_of_laidOut {text : String} {line : Line} (laidOut : line.LaidOutAs text.toList) :
    ofLine text = ofParts line := by
  unfold ofLine
  rw [Line.scan_eq_ok_iff.mpr laidOut]

/-- From a line that is laid out the reader returns what the line yields. -/
theorem ofLine_eq_iff {text : String} {line : Line} (laidOut : line.LaidOutAs text.toList)
    {result : Except LineError Description} : ofLine text = result ↔ line.Yields result := by
  have ⟨_, wellFormed, _⟩ := laidOut
  rw [ofLine_of_laidOut laidOut]
  exact ofParts_eq_iff wellFormed

/-- A description that is read from a line is described by it and valid. -/
theorem describes_of_ofLine {text : String} {line : Line} {description : Description}
    (laidOut : line.LaidOutAs text.toList) (read : ofLine text = .ok description) :
    line.Describes description ∧ description.validate = .ok () := by
  cases (ofLine_eq_iff laidOut).mp read with
  | valid describes valid => exact ⟨describes, valid⟩

/-- The layout of the line is the only thing that is ever called malformed about it. -/
theorem ofLine_malformed_iff {text : String} :
    (∃ fault, ofLine text = .error (.malformedLine fault)) ↔
      ¬ ∃ line : Line, line.LaidOutAs text.toList := by
  constructor
  · rintro ⟨fault, malformed⟩ ⟨line, laidOut⟩
    cases (ofLine_eq_iff laidOut).mp malformed
  · intro none
    cases scanned : Line.scan text.toList with
    | error fault =>
      unfold ofLine
      rw [scanned]
      exact ⟨fault, rfl⟩
    | ok line => exact absurd ⟨line, Line.scan_eq_ok_iff.mp scanned⟩ none

/-- A line is malformed exactly if it has no layout. Otherwise it has one layout only, and the result is
    the one that the parts of the line yield. -/
theorem ofLine_exact (text : String) :
    ((∃ fault, ofLine text = .error (.malformedLine fault)) ↔
      ¬ ∃ line : Line, line.LaidOutAs text.toList) ∧
    (∀ (line other : Line) (spacing another : Line.Spacing),
      line.LaidOutWith spacing text.toList → other.LaidOutWith another text.toList →
        line = other ∧ spacing = another) ∧
    ∀ line : Line, line.LaidOutAs text.toList →
      ∀ result, ofLine text = result ↔ line.Yields result := by
  refine ⟨ofLine_malformed_iff, fun _ _ _ _ => Line.LaidOutWith.unique, ?_⟩
  intro line laidOut result
  exact ofLine_eq_iff laidOut

/-- The parts of a line, of which one attribute is a manual format and the other a flag. -/
def loadLinked : Line where
  word := ['2', '0', '0', '0', '0', '0', '0', '0']
  mnemonic := ['l', 'l', '.', 'w']
  format := ['D', 'J', 'S', 'k', '1', '4']
  attributes := [
    ⟨['o', 'r', 'i', 'g', '_', 'f', 'm', 't'], some ['D', 'J', 'S', 'k', '1', '4', 'p', 's', '2']⟩,
    ⟨['a', 't', 'o', 'm', 'i', 'c', 's'], none⟩]

theorem ofLine_loadLinked :
    loadLinked.LaidOutWith ⟨1, [0, 2]⟩ "20000000 ll.w  DJSk14@orig_fmt=DJSk14ps2  @atomics".toList ∧
    ∀ result, ofLine "20000000 ll.w  DJSk14@orig_fmt=DJSk14ps2  @atomics" = result ↔
      loadLinked.Yields result := by
  have wellFormed : loadLinked.WellFormed :=
    ⟨by decide, List.all_eq_true.mp (by decide), ⟨'l', by decide⟩,
      List.all_eq_true.mp (by decide), Or.inr ⟨by decide, List.all_eq_true.mp (by decide)⟩⟩
  have laidOut : loadLinked.LaidOutWith ⟨1, [0, 2]⟩
      "20000000 ll.w  DJSk14@orig_fmt=DJSk14ps2  @atomics".toList :=
    ⟨wellFormed, _, .cons 0 (by decide) (.cons 2 (by decide) .nil), by decide⟩
  exact ⟨laidOut, (ofLine_exact _).2.2 loadLinked ⟨_, laidOut⟩⟩

end Description

end InsnEncoding
