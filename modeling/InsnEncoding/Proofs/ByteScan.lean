import InsnEncoding.Description.ByteScan
import InsnEncoding.Proofs.Cursor
import InsnEncoding.Proofs.FormatText
import InsnEncoding.Proofs.LineLayout

/-!
# Scanning bytes is scanning characters

A byte is in one of the classes of a line if the character it begins is (`ByteClass.contains_leadByte`), and
then the character is ASCII. So the scanner over bytes goes from boundary to boundary (`Cursor.Reached`), and
step by step it does what the scanner over characters does (`Line.scanBytes_eq`): a character of several
bytes stops it where it stops the other, in front of the character.
-/

namespace InsnEncoding

theorem Line.ascii_of_isAttributeChar {char : Char} (inClass : isAttributeChar char) : char.toNat < 128 := by
  have ascii : ∀ last : Char, last.toNat < 128 → char.val ≤ last.val → char.toNat < 128 :=
    fun last small below => Nat.lt_of_le_of_lt (UInt32.le_iff_toNat_le.mp below) small
  simp only [isAttributeChar, isAlphanum_eq, Bool.or_eq_true, beq_iff_eq] at inClass
  rcases inClass with (((upper | lower) | digit) | rfl) | rfl
  · exact ascii 'Z' (by decide) (of_decide_eq_true upper).2
  · exact ascii 'z' (by decide) (of_decide_eq_true (Bool.and_eq_true_iff.mp lower).2)
  · exact ascii '9' (by decide) (of_decide_eq_true (Bool.and_eq_true_iff.mp digit).2)
  · decide
  · decide

namespace ByteClass

/-- The characters whose first byte is in the class. -/
def chars : ByteClass → Char → Bool
  | .wordDigit => Line.isWordDigit
  | .mnemonicChar => Line.isMnemonicChar
  | .space => (· == ' ')
  | .formatChar => Line.isFormatChar
  | .attributeChar => Line.isAttributeChar

section LeadByte

variable {first last sign : Char} (char : Char)

theorem between_leadByte (lower : first.toNat < 128) (upper : last.toNat < 128) :
    between first last (leadByte char) = (decide (first ≤ char) && decide (char ≤ last)) := by
  have code : first.toUInt8 ≤ leadByte char ∧ leadByte char ≤ last.toUInt8 ↔ first ≤ char ∧ char ≤ last := by
    rw [UInt8.le_iff_toNat_le, UInt8.le_iff_toNat_le, toNat_toUInt8 lower, toNat_toUInt8 upper,
      Char.le_def, Char.le_def, UInt32.le_iff_toNat_le, UInt32.le_iff_toNat_le]
    change first.toNat ≤ _ ∧ _ ≤ last.toNat ↔ first.toNat ≤ char.toNat ∧ char.toNat ≤ last.toNat
    by_cases ascii : char.toNat < 128
    · rw [toNat_leadByte ascii]
    · have large := le_toNat_leadByte ascii
      omega
  rw [between, ← Bool.decide_and, ← Bool.decide_and]
  exact decide_eq_decide.mpr code

theorem beq_leadByte (ascii : sign.toNat < 128) : (leadByte char == sign.toUInt8) = (char == sign) := by
  rw [Bool.eq_iff_iff, beq_iff_eq, beq_iff_eq, leadByte_eq_iff ascii]

theorem contains_map_toUInt8 {signs : List Char} (ascii : signs.all fun sign => sign.toNat < 128) :
    (signs.map Char.toUInt8).contains (leadByte char) = signs.contains char := by
  induction signs with
  | nil => rfl
  | cons sign rest ih =>
    obtain ⟨here, later⟩ := Bool.and_eq_true_iff.mp ascii
    rw [List.map_cons, List.contains_cons, List.contains_cons, beq_leadByte char (of_decide_eq_true here),
      ih later]

/-- A character is in a class if its first byte is. -/
theorem contains_leadByte (byteClass : ByteClass) :
    byteClass.contains (leadByte char) = byteClass.chars char := by
  cases byteClass with
  | wordDigit =>
    simp (disch := decide) only [contains, between_leadByte]
    rfl
  | mnemonicChar =>
    simp (disch := decide) only [contains, between_leadByte, beq_leadByte]
    rfl
  | space => exact beq_leadByte char (by decide)
  | formatChar =>
    simp (disch := decide) only [contains, between_leadByte]
    rw [contains_map_toUInt8 char (by decide)]
    rfl
  | attributeChar =>
    have upper : char.isUpper = (decide ('A' ≤ char) && decide (char ≤ 'Z')) := Bool.decide_and _ _
    simp (disch := decide) only [contains, between_leadByte, beq_leadByte]
    simp only [chars, Line.isAttributeChar, Line.isAlphanum_eq, upper]
    rfl

end LeadByte

/-- Every character of a class is ASCII. -/
theorem ascii_of_chars {byteClass : ByteClass} {char : Char} (inClass : byteClass.chars char) :
    char.toNat < 128 := by
  cases byteClass with
  | wordDigit => exact Line.ascii_of_isAttributeChar (Line.isAttributeChar_of_isWordDigit inClass)
  | mnemonicChar => exact Line.ascii_of_isAttributeChar (Line.isAttributeChar_of_isMnemonicChar inClass)
  | space =>
    rw [eq_of_beq inClass]
    decide
  | formatChar => exact Line.ascii_of_isAttributeChar (Line.isAttributeChar_of_isFormatChar inClass)
  | attributeChar => exact Line.ascii_of_isAttributeChar inClass

end ByteClass

namespace Cursor

section Between

variable (front : String) (behind : List Char)

theorem exists_takeClass (byteClass : ByteClass) :
    ∃ front', (between front behind).takeClass byteClass =
      .ok (String.ofList (behind.takeWhile byteClass.chars),
        between front' (behind.dropWhile byteClass.chars)) :=
  ⟨_, takeWhile_between front behind (fun char => byteClass.contains_leadByte char)
    fun _ => ByteClass.ascii_of_chars⟩

theorem exists_scanFormat :
    ∃ front', (between front behind).scanFormat =
      .ok (String.ofList (Line.scanFormat behind).1, between front' (Line.scanFormat behind).2) := by
  unfold Line.scanFormat
  split
  next word =>
    obtain ⟨rest, rfl⟩ := List.isPrefixOf_iff_prefix.mp word
    refine ⟨front ++ String.ofList Format.emptyText, ?_⟩
    rw [scanFormat, eatText_between_append, ok_bind, List.drop_left]
    rfl
  next other =>
    obtain ⟨front', taken⟩ := exists_takeClass front behind .formatChar
    refine ⟨front', ?_⟩
    rw [scanFormat, eatText_between_of_not front behind other, ok_bind]
    simp only [taken, List.span_eq_takeWhile_dropWhile]
    rfl

theorem exists_scanValue :
    ∃ front', (between front behind).scanValue =
      .ok ((Line.scanValue behind).1.map String.ofList, between front' (Line.scanValue behind).2) := by
  unfold Line.scanValue
  split
  next rest =>
    obtain ⟨front', taken⟩ := exists_takeClass (front.push '=') rest .attributeChar
    refine ⟨front', ?_⟩
    rw [scanValue, eat_between_cons_self front rest (by decide)]
    simp only [taken]
    rfl
  next other =>
    refine ⟨front, ?_⟩
    have noSign : (between front behind).eat '='.toUInt8 = (false, between front behind) := by
      cases behind with
      | nil => exact eat_between_nil front _
      | cons char rest =>
        exact eat_between_cons_of_ne front rest (by decide) fun same => other rest (same ▸ rfl)
    rw [scanValue, noSign]
    rfl

end Between

/-- The cursors that the steps of the scanner can bring from the start of a line: past an ASCII byte, past a
    word, or past a class. -/
inductive Reached (line : String) : Cursor → Prop where
  | start : Reached line ⟨line, 0⟩
  | eat {cursor next : Cursor} {byte : UInt8} {eaten : Bool} (reached : Reached line cursor)
      (ascii : byte < 128) (stepped : cursor.eat byte = (eaten, next)) : Reached line next
  | eatText {cursor next : Cursor} {word : String} {eaten : Bool} (reached : Reached line cursor)
      (stepped : cursor.eatText word = .ok (eaten, next)) : Reached line next
  | takeClass {cursor next : Cursor} {byteClass : ByteClass} {run : String}
      (reached : Reached line cursor) (stepped : cursor.takeClass byteClass = .ok (run, next)) :
      Reached line next

namespace Reached

variable {line : String} {cursor next : Cursor}

/-- The steps keep to the line and to the boundaries of its characters. -/
theorem onBoundary (reached : Reached line cursor) : cursor.OnBoundary ∧ cursor.text = line := by
  induction reached with
  | start =>
    rw [start_eq_between]
    exact ⟨onBoundary_between _ _, by simp [between]⟩
  | eat _ ascii stepped ih =>
    obtain ⟨kept, same⟩ := ih.1.eat ascii stepped
    exact ⟨kept, same.trans ih.2⟩
  | eatText _ stepped ih =>
    obtain ⟨kept, same⟩ := ih.1.eatText stepped
    exact ⟨kept, same.trans ih.2⟩
  | takeClass _ stepped ih =>
    obtain ⟨_, kept, same⟩ := onBoundary_of_takeWhile stepped
    exact ⟨kept, same.trans ih.2⟩

theorem scanValue (reached : Reached line cursor) {value : Option String}
    (scanned : cursor.scanValue = .ok (value, next)) : Reached line next := by
  obtain ⟨start, run, eaten, taken⟩ | eaten := steps_of_scanValue scanned
  · exact (reached.eat (by decide) eaten).takeClass taken
  · exact reached.eat (by decide) eaten

theorem pass (reached : Reached line cursor) {entry : LineAttribute}
    (passed : cursor.pass = .ok (.found entry next)) : Reached line next := by
  obtain ⟨spaces, start, blank, scanned⟩ := steps_of_pass passed
  obtain ⟨marked, key, behind, value, eaten, taken, _, valueRead⟩ := steps_of_scanEntry scanned
  exact (((reached.takeClass blank).eat (by decide) eaten).takeClass taken).scanValue valueRead

end Reached

theorem exists_takeClass_iff {cursor : Cursor} {byteClass : ByteClass} :
    (∃ result, cursor.takeClass byteClass = .ok result) ↔ cursor.OnBoundary := by
  constructor
  · rintro ⟨⟨run, next⟩, taken⟩
    exact (onBoundary_of_takeWhile taken).1
  · intro onBoundary
    obtain ⟨front, behind, rfl⟩ := onBoundary_iff_exists.mp onBoundary
    obtain ⟨front', taken⟩ := exists_takeClass front behind byteClass
    exact ⟨_, taken⟩

theorem ascii_of_takeClass {cursor next : Cursor} {byteClass : ByteClass} {run : String}
    (taken : cursor.takeClass byteClass = .ok (run, next)) : ∀ char ∈ run.toList, char.toNat < 128 := by
  obtain ⟨front, behind, rfl⟩ := onBoundary_iff_exists.mp (onBoundary_of_takeWhile taken).1
  obtain ⟨front', same⟩ := exists_takeClass front behind byteClass
  rw [taken] at same
  cases same
  rw [String.toList_ofList]
  exact fun char member => ByteClass.ascii_of_chars (List.mem_takeWhile_imp member)

/-- What a pass over a text says about the attributes in it. -/
def Pass.Reads (text : List Char) : Pass → Prop
  | .ended => Line.scanTail text = .ok []
  | .failed fault => Line.scanTail text = .error fault
  | .found entry next =>
    ∃ front rest, next = between front rest ∧ Line.scanTail text = (Line.scanTail rest).map (entry :: ·)

/-- What stands behind the spaces before it is read as an attribute. -/
theorem exists_scanEntry (front : String) {char : Char} (notSpace : char ≠ ' ') (rest : List Char)
    (count : Nat) :
    ∃ outcome, (between front (char :: rest)).scanEntry = .ok outcome ∧
      outcome.Reads (List.replicate count ' ' ++ char :: rest) := by
  have notTrailing := @Line.isTrailing_append_of_ne (List.replicate count ' ') rest char notSpace
  have tail : Line.scanTail (List.replicate count ' ' ++ char :: rest) = Line.scanAttributes (char :: rest) := by
    rw [Line.scanTail, notTrailing, Text.dropWhile_spaces (Text.stops_cons.mpr (by simpa using notSpace))]
    rfl
  by_cases sign : char = '@'
  · subst sign
    obtain ⟨behind, keyTaken⟩ := exists_takeClass (front.push '@') rest .attributeChar
    obtain ⟨stop, valueRead⟩ := exists_scanValue behind (rest.dropWhile Line.isAttributeChar)
    rw [Line.scanAttributes_at] at tail
    rw [scanEntry, eat_between_cons_self front rest (by decide)]
    simp only [keyTaken, ok_bind, ByteClass.chars, isEmpty_ofList]
    by_cases empty : rest.takeWhile Line.isAttributeChar = []
    · refine ⟨.failed .emptyKey, ?_, ?_⟩
      · rw [empty]
        rfl
      · rw [Pass.Reads, tail, if_pos empty]
    · have nonempty : ¬ (rest.takeWhile Line.isAttributeChar).isEmpty := mt List.isEmpty_iff.mp empty
      rw [if_neg nonempty, valueRead, ok_bind]
      refine ⟨_, rfl, stop, (Line.scanValue (rest.dropWhile Line.isAttributeChar)).2, rfl, ?_⟩
      rw [tail, if_neg empty]
      simp
  · refine ⟨.failed .attributeStart, ?_, ?_⟩
    · rw [scanEntry, eat_between_cons_of_ne front rest (by decide) sign]
      rfl
    · rw [Pass.Reads, tail, Line.scanAttributes_of_ne sign]

theorem exists_pass (front : String) (behind : List Char) :
    ∃ outcome, (between front behind).pass = .ok outcome ∧ outcome.Reads behind := by
  obtain ⟨start, taken⟩ := exists_takeClass front behind .space
  obtain ⟨count, rest, rfl, stops⟩ := Text.exists_spaces behind
  simp only [ByteClass.chars, Text.dropWhile_spaces stops,
    Text.takeWhile_run (Text.all_replicate_space count) stops] at taken
  unfold pass
  rw [taken, ok_bind]
  simp only [atEnd_between]
  cases rest with
  | nil =>
    rw [List.append_nil, List.isEmpty_nil, if_pos rfl, isEmpty_ofList]
    have trailing := Line.isTrailing_spaces count
    cases count with
    | zero => exact ⟨.ended, rfl, Line.scanTail_of_laidOut .nil⟩
    | succ count => exact ⟨.failed .trailingSpaces, rfl, by rw [Pass.Reads, Line.scanTail, trailing]; rfl⟩
  | cons char rest =>
    exact exists_scanEntry start (by simpa using Text.stops_cons.mp stops) rest count

theorem reads_of_pass {front : String} {behind : List Char} {outcome : Pass}
    (passed : (between front behind).pass = .ok outcome) : outcome.Reads behind := by
  obtain ⟨other, same, reads⟩ := exists_pass front behind
  rw [passed] at same
  cases same
  exact reads

theorem scanEntries_between (front : String) (behind : List Char) :
    (between front behind).scanEntries = .ok (Line.scanTail behind) := by
  -- The induction is on the passes; the text behind the cursor is what the next pass is over.
  generalize whole : between front behind = cursor
  fun_induction scanEntries cursor generalizing front behind with
  | case1 cursor fault passed =>
    obtain ⟨outcome, same, _⟩ := exists_pass front behind
    rw [whole, passed] at same
    contradiction
  | case2 cursor passed =>
    subst whole
    have tail : Line.scanTail behind = .ok [] := reads_of_pass passed
    rw [tail]
  | case3 cursor fault passed =>
    subst whole
    have tail : Line.scanTail behind = .error fault := reads_of_pass passed
    rw [tail]
  | case4 cursor entry next passed ih =>
    subst whole
    obtain ⟨front', rest, rfl, tail⟩ := reads_of_pass passed
    rw [ih front' rest rfl, ok_bind, tail]
    rfl

end Cursor

namespace Line

/-- The mnemonic begins with a lowercase letter if the byte at the cursor is one. -/
theorem any_peek_between (front : String) (text : List Char) :
    (Cursor.between front text).peek.any (ByteClass.between 'a' 'z') =
      (text.takeWhile isMnemonicChar).head?.any Char.isLower := by
  cases text with
  | nil =>
    rw [Cursor.peek_between_nil]
    rfl
  | cons char rest =>
    rw [Cursor.peek_between_cons, Option.any_some, ByteClass.between_leadByte char (by decide) (by decide)]
    change char.isLower = _
    cases lower : char.isLower with
    | true => simp [isMnemonicChar, lower]
    | false =>
      by_cases inClass : isMnemonicChar char
      · simp [inClass, lower]
      · simp [inClass]

/-- Every line is scanned byte by byte to what its characters are scanned to. -/
theorem scanBytes_eq (line : String) : scanBytes line = .ok (scan line.toList) := by
  obtain ⟨front, wordTaken⟩ := Cursor.exists_takeClass "" line.toList .wordDigit
  have digits : ∀ char ∈ line.toList.takeWhile isWordDigit, char.toNat < 128 :=
    fun char member => @ByteClass.ascii_of_chars .wordDigit char (List.mem_takeWhile_imp member)
  rw [scanBytes, Cursor.start_eq_between, wordTaken, ok_bind]
  simp only [scan, List.span_eq_takeWhile_dropWhile, ByteClass.chars, utf8ByteSize_of_ascii digits]
  generalize line.toList.takeWhile isWordDigit = word
  generalize line.toList.dropWhile isWordDigit = behind
  by_cases eight : word.length ≠ 8
  · rw [if_pos eight, if_pos eight]
    rfl
  rw [if_neg eight, if_neg eight]
  match behind with
  | [] =>
    rw [Cursor.eat_between_nil]
    rfl
  | char :: text =>
    by_cases space : char = ' '
    · subst space
      obtain ⟨mnemonicFront, mnemonicTaken⟩ := Cursor.exists_takeClass (front.push ' ') text .mnemonicChar
      obtain ⟨spacesFront, spacesTaken⟩ :=
        Cursor.exists_takeClass mnemonicFront (text.dropWhile isMnemonicChar) .space
      obtain ⟨formatFront, formatRead⟩ := Cursor.exists_scanFormat spacesFront
        ((text.dropWhile isMnemonicChar).dropWhile (· == ' '))
      rw [Cursor.eat_between_cons_self front text (by decide)]
      simp only [any_peek_between, mnemonicTaken, spacesTaken, formatRead, Cursor.scanEntries_between,
        ByteClass.chars, isEmpty_ofList, String.toList_ofList, ok_bind]
      split_ifs <;> rfl
    · rw [Cursor.eat_between_cons_of_ne front text (by decide) space]
      simp only
      split
      next rest same => exact absurd (List.cons.inj same).1 space
      · rfl

/-- A mnemonic ends in front of a character of two bytes, which is no space. -/
example : scanBytes "12345678 fé EMPTY" = .ok (.error .mnemonicSpaces) := by
  decide +kernel

/-- The scanner never cuts a character in two. Wherever its steps bring it, it is inside the line and between
    two characters, where alone a part can be cut out; what it cuts out is ASCII, and an attribute brings it at
    least two bytes further. So every line is scanned, and to what its characters are scanned to. -/
theorem scanBytes_never_cuts_a_character (line : String) :
    (∀ cursor : Cursor, cursor.Reached line →
      cursor.text = line ∧ cursor.position ≤ line.utf8ByteSize ∧ cursor.OnBoundary) ∧
    (∀ (cursor : Cursor) (byteClass : ByteClass),
      (∃ result, cursor.takeClass byteClass = .ok result) ↔ cursor.OnBoundary) ∧
    (∀ (cursor : Cursor) (word : String),
      (∃ result, cursor.eatText word = .ok result) ↔ cursor.OnBoundary) ∧
    (∀ (cursor next : Cursor) (byteClass : ByteClass) (run : String),
      cursor.takeClass byteClass = .ok (run, next) →
        (∀ char ∈ run.toList, char.toNat < 128) ∧ next.OnBoundary) ∧
    (∀ (cursor next : Cursor) (entry : LineAttribute), cursor.Reached line →
      cursor.pass = .ok (.found entry next) →
        next.Reached line ∧ cursor.position + 2 ≤ next.position) ∧
    scanBytes line = .ok (scan line.toList) := by
  refine ⟨?inside, fun _ _ => Cursor.exists_takeClass_iff, fun _ _ => Cursor.exists_eatText_iff, ?ascii,
    ?forward, scanBytes_eq line⟩
  case inside =>
    intro cursor reached
    obtain ⟨onBoundary, same⟩ := reached.onBoundary
    exact ⟨same, same ▸ onBoundary.le_size, onBoundary⟩
  case ascii =>
    intro cursor next byteClass run taken
    exact ⟨Cursor.ascii_of_takeClass taken, (Cursor.onBoundary_of_takeWhile taken).2.1⟩
  case forward =>
    intro cursor next entry reached passed
    exact ⟨reached.pass passed, (Cursor.pass_advances passed).position⟩

/-- A line with a character of two bytes behind the key of its attribute. -/
def accented : String :=
  "12345678 foo EMPTY @ké"

/-- The cursor stands before that character and not inside it. -/
theorem scanBytes_never_cuts_a_character_accented :
    Cursor.Reached accented ⟨accented, 18⟩ ∧
    Cursor.pass ⟨accented, 18⟩ = .ok (.found ⟨['k'], none⟩ ⟨accented, 21⟩) ∧
    Cursor.takeClass ⟨accented, 20⟩ .attributeChar = .ok ("k", ⟨accented, 21⟩) ∧
    Cursor.Reached accented ⟨accented, 21⟩ ∧ 18 + 2 ≤ 21 ∧ 21 ≤ accented.utf8ByteSize ∧
    (Cursor.mk accented 21).OnBoundary ∧ (∀ char ∈ "k".toList, char.toNat < 128) ∧
    ¬ (∃ result, Cursor.takeClass ⟨accented, 22⟩ .attributeChar = .ok result) ∧
    scanBytes accented = .ok (.error .attributeStart) := by
  have word : Cursor.takeClass ⟨accented, 0⟩ .wordDigit = .ok ("12345678", ⟨accented, 8⟩) := by
    decide +kernel
  have wordEnd : Cursor.eat ⟨accented, 8⟩ ' '.toUInt8 = (true, ⟨accented, 9⟩) := by decide +kernel
  have mnemonic : Cursor.takeClass ⟨accented, 9⟩ .mnemonicChar = .ok ("foo", ⟨accented, 12⟩) := by
    decide +kernel
  have spaces : Cursor.takeClass ⟨accented, 12⟩ .space = .ok (" ", ⟨accented, 13⟩) := by decide +kernel
  have format : Cursor.eatText ⟨accented, 13⟩ "EMPTY" = .ok (true, ⟨accented, 18⟩) := by decide +kernel
  have attributes : Cursor.Reached accented ⟨accented, 18⟩ :=
    ((((Cursor.Reached.start.takeClass word).eat (by decide) wordEnd).takeClass mnemonic).takeClass
      spaces).eatText format
  have passed : Cursor.pass ⟨accented, 18⟩ = .ok (.found ⟨['k'], none⟩ ⟨accented, 21⟩) := by
    decide +kernel
  have key : Cursor.takeClass ⟨accented, 20⟩ .attributeChar = .ok ("k", ⟨accented, 21⟩) := by
    decide +kernel
  have cut : ¬ (Cursor.mk accented 22).OnBoundary := by decide
  obtain ⟨inside, takes, -, ascii, forward, scanned⟩ := scanBytes_never_cuts_a_character accented
  obtain ⟨reached, further⟩ := forward _ _ _ attributes passed
  obtain ⟨-, within, onBoundary⟩ := inside _ reached
  exact ⟨attributes, passed, key, reached, further, within, onBoundary, (ascii _ _ _ _ key).1,
    mt (takes _ _).mp cut, scanned.trans (by decide +kernel)⟩

end Line

end InsnEncoding
