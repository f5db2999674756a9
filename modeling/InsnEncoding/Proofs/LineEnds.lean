import InsnEncoding.Proofs.FormatText
import InsnEncoding.Proofs.LineMeaning
import InsnEncoding.Proofs.Listing

/-!
# Line ends and empty lines

A line ends with a line feed or with a carriage return and a line feed, and which of the two it is makes no
difference (`Text.lines_withReturns`); nor does it whether the last line has an end
(`Text.lines_append_emptyLines`). Empty lines are not read, and so they change nothing but the numbers of the
lines behind them: `Listing.readLines_insert_empty`.

A carriage return elsewhere belongs to its line (`Text.lines_append_return`), and a line with one cannot be
read (`Description.malformed_of_return`).
-/

namespace InsnEncoding

namespace Text

/-- What a line ends with. -/
inductive LineEnd where
  | feed
  | returnFeed

/-- The characters of a line end. -/
def LineEnd.spell : LineEnd → List Char
  | .feed => ['\n']
  | .returnFeed => ['\r', '\n']

/-- Empty lines with such ends. -/
def emptyLines (ends : List LineEnd) : List Char :=
  ends.flatMap LineEnd.spell

/-- The text with a carriage return before every line feed. -/
def withReturns (text : List Char) : List Char :=
  text.flatMap fun char => if char = '\n' then ['\r', '\n'] else [char]

/-- Every text has some complete lines and then a line without end, which may be empty. -/
theorem exists_complete (text : List Char) :
    ∃ front rest, text = front ++ rest ∧ Complete front ∧ '\n' ∉ rest := by
  obtain ⟨line, behind, split, inner, stops⟩ := exists_run (· != '\n') text
  have noFeed : '\n' ∉ line := fun member => absurd (inner '\n' member) (by decide)
  cases behind with
  | nil => exact ⟨[], line, by simpa using split, .nil, noFeed⟩
  | cons char more =>
    have feed : char = '\n' := by simpa using stops_cons.mp stops
    subst feed
    have shorter : more.length < text.length := by
      rw [split, List.length_append, List.length_cons]
      omega
    obtain ⟨front, rest, rfl, complete, last⟩ := exists_complete more
    exact ⟨line ++ '\n' :: front, rest, by simp [split], .line noFeed complete, last⟩
termination_by text.length

section Returns

theorem withReturns_append (front behind : List Char) :
    withReturns (front ++ behind) = withReturns front ++ withReturns behind :=
  List.flatMap_append

theorem withReturns_of_not_mem {line : List Char} (noFeed : '\n' ∉ line) : withReturns line = line := by
  induction line with
  | nil => rfl
  | cons char rest ih =>
    obtain ⟨first, later⟩ := not_or.mp (mt List.mem_cons.mpr noFeed)
    rw [withReturns, List.flatMap_cons, if_neg (Ne.symm first), ← withReturns, ih later]
    rfl

/-- The line ends may have carriage returns or not. -/
theorem lines_withReturns {text : List Char} (noReturn : '\r' ∉ text) :
    lines (withReturns text) = lines text := by
  obtain ⟨front, last, rfl, complete, noFeed⟩ := exists_complete text
  rw [withReturns_append, withReturns_of_not_mem noFeed]
  induction complete with
  | nil => rfl
  | @line line rest inner _ ih =>
    obtain ⟨noReturnLine, noReturnRest⟩ : '\r' ∉ line ∧ '\r' ∉ rest ++ last := by simpa using noReturn
    have before : withReturns (line ++ '\n' :: rest) ++ last =
        (line ++ ['\r']) ++ '\n' :: (withReturns rest ++ last) := by
      rw [withReturns_append, withReturns_of_not_mem inner]
      simp [withReturns]
    have innerToo : '\n' ∉ line ++ ['\r'] := by simpa using inner
    rw [before, lines_append_newline innerToo, stripReturn_append_return, ih noReturnRest,
      List.append_assoc, List.cons_append, lines_append_newline inner,
      stripReturn_of_not_mem noReturnLine]

end Returns

section EmptyLines

theorem LineEnd.complete_spell_append (lineEnd : LineEnd) {rest : List Char} (complete : Complete rest) :
    Complete (lineEnd.spell ++ rest) := by
  cases lineEnd with
  | feed => exact .line List.not_mem_nil complete
  | returnFeed => exact @Complete.line ['\r'] rest (by decide) complete

theorem complete_emptyLines (ends : List LineEnd) : Complete (emptyLines ends) := by
  induction ends with
  | nil => exact .nil
  | cons lineEnd rest ih => exact lineEnd.complete_spell_append ih

theorem lines_emptyLines (ends : List LineEnd) :
    lines (emptyLines ends) = List.replicate ends.length [] := by
  induction ends with
  | nil => exact lines_nil
  | cons lineEnd rest ih =>
    rw [List.length_cons, List.replicate_succ, ← ih]
    cases lineEnd with
    | feed => exact @lines_append_newline [] (emptyLines rest) List.not_mem_nil
    | returnFeed => exact @lines_append_newline ['\r'] (emptyLines rest) (by decide)

/-- A line without end may be given one. -/
theorem lines_append_lineEnd {line : List Char} (noFeed : '\n' ∉ line)
    (noReturn : line.getLast? ≠ some '\r') (lineEnd : LineEnd) (rest : List Char) :
    lines (line ++ (lineEnd.spell ++ rest)) = line :: lines rest := by
  cases lineEnd with
  | feed =>
    rw [LineEnd.spell, List.singleton_append, lines_append_newline noFeed, stripReturn, if_neg noReturn]
  | returnFeed =>
    have inner : '\n' ∉ line ++ ['\r'] := by simpa using noFeed
    have regroup : line ++ (LineEnd.returnFeed.spell ++ rest) = (line ++ ['\r']) ++ '\n' :: rest := by
      simp [LineEnd.spell]
    rw [regroup, lines_append_newline inner, stripReturn_append_return]

/-- Line ends at the end of a text close its last line or make empty lines. -/
theorem lines_append_emptyLines {text : List Char} (noReturn : text.getLast? ≠ some '\r')
    (ends : List LineEnd) :
    ∃ count, lines (text ++ emptyLines ends) = lines text ++ List.replicate count [] := by
  obtain ⟨front, last, rfl, complete, noFeed⟩ := exists_complete text
  rw [List.append_assoc, complete.lines_append, complete.lines_append]
  by_cases nonempty : last = []
  · subst nonempty
    rw [List.nil_append, lines_emptyLines, lines_nil, List.append_nil]
    exact ⟨ends.length, rfl⟩
  · have noReturnLast : last.getLast? ≠ some '\r' := by
      rwa [List.getLast?_append_of_ne_nil _ nonempty] at noReturn
    cases ends with
    | nil => exact ⟨0, by simp [emptyLines]⟩
    | cons lineEnd rest =>
      rw [emptyLines, List.flatMap_cons, ← emptyLines,
        lines_append_lineEnd noFeed noReturnLast, lines_emptyLines,
        lines_of_not_mem noFeed nonempty]
      exact ⟨rest.length, by simp⟩

end EmptyLines

/-- A carriage return that no line feed follows stays in its line. -/
theorem lines_append_return {before start rest : List Char} (complete : Complete before)
    (noFeed : '\n' ∉ start) (bare : rest.head? ≠ some '\n') :
    ∃ behind others, lines (before ++ (start ++ '\r' :: rest)) =
      lines before ++ (start ++ '\r' :: behind) :: others := by
  obtain ⟨run, tail, rfl, inner, stops⟩ := exists_run (· != '\n') rest
  have noFeedRun : '\n' ∉ start ++ '\r' :: run := by
    have inRun : '\n' ∉ run := fun member => absurd (inner '\n' member) (by decide)
    simpa using ⟨noFeed, inRun⟩
  rw [complete.lines_append]
  cases tail with
  | nil =>
    rw [List.append_nil, lines_of_not_mem noFeedRun (by simp)]
    exact ⟨run, [], rfl⟩
  | cons char more =>
    have feed : char = '\n' := by simpa using stops_cons.mp stops
    subst feed
    have nonempty : run ≠ [] := by
      rintro rfl
      exact bare rfl
    have regroup : start ++ '\r' :: (run ++ '\n' :: more) = (start ++ '\r' :: run) ++ '\n' :: more := by
      simp
    have kept : stripReturn (start ++ '\r' :: run) = start ++ '\r' :: stripReturn run := by
      rw [List.append_cons start, stripReturn_append_of_ne_nil _ nonempty, ← List.append_cons]
    rw [regroup, lines_append_newline noFeedRun, kept]
    exact ⟨stripReturn run, lines more, rfl⟩

end Text

namespace AttributesLaidOut

theorem not_mem {text : List Char} {gaps : List Nat} {entries : List LineAttribute}
    (laidOut : AttributesLaidOut text gaps entries) {char : Char} (noAttribute : ¬ Line.isAttributeChar char)
    (noSign : char ∉ [' ', '@', '=']) : char ∉ text := by
  obtain ⟨noSpace, noAt, noEquals⟩ : char ≠ ' ' ∧ char ≠ '@' ∧ char ≠ '=' := by simpa using noSign
  have outside {part : List Char} (chars : AttributeText part) : char ∉ part :=
    fun member => noAttribute (chars char member)
  induction laidOut with
  | nil => exact List.not_mem_nil
  | @cons rest gaps entry entries gap wellFormed _ ih =>
    obtain ⟨-, keyChars, valueChars⟩ := wellFormed
    have inValue : char ∉ entry.valueText := by
      unfold LineAttribute.valueText
      cases given : entry.value? with
      | none => exact List.not_mem_nil
      | some value => exact List.not_mem_cons_of_ne_of_not_mem noEquals (outside (valueChars value given))
    simp [LineAttribute.spell_append, noSpace, noAt, outside keyChars, inValue, ih]

end AttributesLaidOut

namespace Line

/-- A character that is in no class of characters and is no sign stands in no line. -/
theorem LaidOutAs.not_mem {line : Line} {text : List Char} (laidOut : line.LaidOutAs text) {char : Char}
    (noAttribute : ¬ isAttributeChar char) (noSign : char ∉ [' ', '@', '=']) : char ∉ text := by
  obtain ⟨spacing, wellFormed, tail, attributes, rfl⟩ := laidOut
  have inWord : char ∉ line.word := fun member =>
    noAttribute (isAttributeChar_of_isWordDigit (wellFormed.word_digits char member))
  have inMnemonic : char ∉ line.mnemonic := fun member =>
    noAttribute (isAttributeChar_of_isMnemonicChar (wellFormed.mnemonic_chars char member))
  have inFormat : char ∉ line.format := by
    rcases wellFormed.format_text with word | ⟨-, chars⟩
    · rw [word]
      exact fun member => noAttribute (List.all_eq_true.mp (by decide) char member)
    · exact fun member => noAttribute (isAttributeChar_of_isFormatChar (chars char member))
  have inTail := attributes.not_mem noAttribute noSign
  have noSpace : char ≠ ' ' := fun same => noSign (same ▸ List.mem_cons_self)
  simp [inWord, inMnemonic, inFormat, inTail, noSpace]

end Line

namespace Description

/-- A line with a carriage return in it has no layout. -/
theorem malformed_of_return {line : String} (member : '\r' ∈ line.toList) :
    ∃ fault, ofLine line = .error (.malformedLine fault) := by
  refine ofLine_malformed_iff.mpr ?_
  rintro ⟨parts, laidOut⟩
  exact laidOut.not_mem (by decide) (by decide) member

end Description

/-- The same error if lines are counted in another way. -/
def LoadError.renumber (count : Nat → Nat) : LoadError → LoadError
  | .badLine path number text fault => .badLine path (count number) text fault
  | .unreadable path fault => .unreadable path fault

namespace Listing

variable {strict : Bool} {path : Option String}

/-- Read the lines of a listing. -/
def readLines (strict : Bool) (path : Option String) (lines : List String) :
    Except LoadError (List Description) :=
  (numberFrom 1 lines).mapM (readEntry strict path)

theorem read_eq_readLines (text : String) : read strict path text = readLines strict path (linesOf text) :=
  rfl

theorem numberFrom_replicate_empty (start count : Nat) :
    numberFrom start (List.replicate count "") = [] := by
  rw [← List.map_eq_nil_iff, map_fst_numberFrom]
  simp

theorem bounds_of_mem_numberFrom {start : Nat} {lines : List String} {entry : String × Nat}
    (member : entry ∈ numberFrom start lines) : start ≤ entry.2 ∧ entry.2 < start + lines.length := by
  obtain ⟨low, high, -⟩ := List.mem_zipIdx (List.mem_of_mem_filter member)
  exact ⟨low, high⟩

theorem readEntry_renumber (count : Nat → Nat) (entry : String × Nat) :
    (readEntry strict path ∘ Prod.map id count) entry =
      (readEntry strict path entry).mapError (.renumber count) := by
  unfold readEntry
  rw [Function.comp_apply, Prod.map_fst, id_eq]
  cases Description.ofLineWith strict entry.1 <;> rfl

/-- The numbers of the lines when some empty ones are put behind the first `kept`. -/
def countInserted (kept inserted number : Nat) : Nat :=
  if number ≤ kept then number else number + inserted

theorem numberFrom_insert_empty (before after : List String) (inserted : Nat) :
    numberFrom 1 (before ++ (List.replicate inserted "" ++ after)) =
      (numberFrom 1 (before ++ after)).map (Prod.map id (countInserted before.length inserted)) := by
  have unmoved : (numberFrom 1 before).map (Prod.map id (countInserted before.length inserted)) =
      numberFrom 1 before := by
    refine (List.map_congr_left fun entry member => ?_).trans (List.map_id _)
    have bounds := bounds_of_mem_numberFrom member
    exact Prod.ext rfl (if_pos (by omega))
  have moved : (numberFrom (1 + before.length) after).map
      (Prod.map id (countInserted before.length inserted)) =
        (numberFrom (1 + before.length) after).map (Prod.map id (· + inserted)) := by
    refine List.map_congr_left fun entry member => ?_
    have bounds := bounds_of_mem_numberFrom member
    exact Prod.ext rfl (if_neg (by omega))
  rw [numberFrom_append, numberFrom_append, numberFrom_append, numberFrom_replicate_empty,
    List.nil_append, List.length_replicate, List.map_append, unmoved, moved, ← numberFrom_add,
    Nat.add_comm inserted]

/-- Empty lines change nothing but the numbers of the lines behind them. -/
theorem readLines_insert_empty (before after : List String) (inserted : Nat) :
    readLines strict path (before ++ (List.replicate inserted "" ++ after)) =
      (readLines strict path (before ++ after)).mapError
        (.renumber (countInserted before.length inserted)) := by
  rw [readLines, numberFrom_insert_empty, List.mapM_map]
  exact mapM_mapError (readEntry_renumber _) _

/-- Empty lines at the end change nothing. -/
theorem readLines_append_empty (lines : List String) (count : Nat) :
    readLines strict path (lines ++ List.replicate count "") = readLines strict path lines := by
  rw [readLines, numberFrom_append, numberFrom_replicate_empty, List.append_nil, readLines]

/-- A text with other line ends is read in the same way. -/
theorem read_withReturns {text : String} (noReturn : '\r' ∉ text.toList) :
    read strict path (String.ofList (Text.withReturns text.toList)) = read strict path text := by
  rw [read_eq_readLines, read_eq_readLines, linesOf, String.toList_ofList, Text.lines_withReturns noReturn,
    linesOf]

/-- Line ends at the end of a text change nothing. -/
theorem read_append_emptyLines {text : String} (noReturn : text.toList.getLast? ≠ some '\r')
    (ends : List Text.LineEnd) :
    read strict path (text ++ String.ofList (Text.emptyLines ends)) = read strict path text := by
  obtain ⟨count, lines⟩ := Text.lines_append_emptyLines noReturn ends
  have same : linesOf (text ++ String.ofList (Text.emptyLines ends)) =
      linesOf text ++ List.replicate count "" := by
    rw [linesOf, String.toList_append, String.toList_ofList, lines, List.map_append, List.map_replicate,
      linesOf]
  rw [read_eq_readLines, same, readLines_append_empty, read_eq_readLines]

/-- No error tells of a line behind the last one. -/
theorem read_mapError_countInserted (text : String) (inserted : Nat) :
    (read strict path text).mapError (.renumber (countInserted (linesOf text).length inserted)) =
      read strict path text := by
  have appended := @readLines_insert_empty strict path (linesOf text) [] inserted
  rw [List.append_nil, List.append_nil, readLines_append_empty] at appended
  exact appended.symm

/-- Empty lines may be inserted behind complete lines. -/
theorem read_insert_emptyLines {before : String} (complete : Text.Complete before.toList)
    (after : String) (ends : List Text.LineEnd) :
    read strict path (before ++ String.ofList (Text.emptyLines ends) ++ after) =
      (read strict path (before ++ after)).mapError
        (.renumber (countInserted (linesOf before).length ends.length)) := by
  have joined : linesOf (before ++ after) = linesOf before ++ linesOf after := by
    rw [linesOf, String.toList_append, complete.lines_append, List.map_append, linesOf, linesOf]
  have inserted : linesOf (before ++ String.ofList (Text.emptyLines ends) ++ after) =
      linesOf before ++ (List.replicate ends.length "" ++ linesOf after) := by
    rw [linesOf, String.toList_append, String.toList_append, String.toList_ofList, List.append_assoc,
      complete.lines_append, (Text.complete_emptyLines ends).lines_append, Text.lines_emptyLines,
      List.map_append, List.map_append, List.map_replicate, linesOf, linesOf]
  rw [read_eq_readLines, inserted, readLines_insert_empty, read_eq_readLines, joined]

/-- The line of a carriage return that no line feed follows. -/
theorem linesOf_append_return {before start rest : String} (complete : Text.Complete before.toList)
    (noFeed : '\n' ∉ start.toList) (bare : rest.toList.head? ≠ some '\n') :
    ∃ behind others, linesOf (before ++ (start ++ "\r" ++ rest)) =
      linesOf before ++ (start ++ "\r" ++ behind) :: others := by
  obtain ⟨behind, others, lines⟩ := Text.lines_append_return complete noFeed bare
  refine ⟨String.ofList behind, others.map String.ofList, ?_⟩
  have chars : (before ++ (start ++ "\r" ++ rest)).toList =
      before.toList ++ (start.toList ++ '\r' :: rest.toList) := by
    simp
  rw [linesOf, chars, lines, List.map_append, List.map_cons, linesOf]
  congr 2
  rw [← String.toList_inj]
  simp

/-- Every line of a listing that was read can be read by itself. -/
theorem exists_accepted_of_mem_linesOf {text : String} {descriptions : List Description}
    (passed : read strict path text = .ok descriptions) {line : String} (member : line ∈ linesOf text)
    (nonempty : line ≠ "") : ∃ description, Description.Accepted strict line description := by
  have inListing : line ∈ (linesOf text).filter fun line => !line.isEmpty := by
    simpa [nonempty] using member
  obtain ⟨description, -, accepted⟩ := exists_left_of_mem (read_eq_ok_iff.mp passed).flip inListing
  exact ⟨description, accepted⟩

/-- The line ends of a text do not matter, nor does the last one; an empty line moves the lines behind it down
    by one and changes nothing else, wherever it stands between complete lines or at the end of the text. A
    carriage return is part of a line end only before a line feed. Everywhere else it stays in its line, and no
    line that has one is read. -/
theorem read_lineEnds (strict : Bool) (path : Option String) :
    (∀ text : String, '\r' ∉ text.toList →
      read strict path (String.ofList (Text.withReturns text.toList)) = read strict path text ∧
      read strict path (text ++ "\n") = read strict path text) ∧
    (∀ (before after : String) (ends : List Text.LineEnd),
      (before = "" ∨ before.toList.getLast? = some '\n') ∨
        after = "" ∧ before.toList.getLast? ≠ some '\r' →
      read strict path (before ++ String.ofList (Text.emptyLines ends) ++ after) =
        (read strict path (before ++ after)).mapError
          (.renumber (countInserted (linesOf before).length ends.length))) ∧
    (∀ before start rest : String, before = "" ∨ before.toList.getLast? = some '\n' →
      '\n' ∉ start.toList → rest.toList.head? ≠ some '\n' →
      ∃ behind others fault,
        linesOf (before ++ (start ++ "\r" ++ rest)) =
          linesOf before ++ (start ++ "\r" ++ behind) :: others ∧
        Description.ofLine (start ++ "\r" ++ behind) = .error (.malformedLine fault) ∧
        (∃ error, read strict path (before ++ (start ++ "\r" ++ rest)) = .error error) ∧
        ∀ descriptions, read strict path before = .ok descriptions →
          read strict path (before ++ (start ++ "\r" ++ rest)) =
            .error (.badLine path ((linesOf before).length + 1) (start ++ "\r" ++ behind)
              (.malformedLine fault))) ∧
    ∀ line : String, '\r' ∈ line.toList →
      ∃ fault, Description.Refused strict line (.malformedLine fault) := by
  have complete_of {before : String} (ends : before = "" ∨ before.toList.getLast? = some '\n') :
      Text.Complete before.toList :=
    Text.complete_iff.mpr (ends.imp_left String.toList_eq_nil_iff.mpr)
  refine ⟨fun text noReturn => ?_, fun before after ends boundary => ?_,
    fun before start rest ends noFeed bare => ?_, fun line member => ?_⟩
  · have noReturnLast : text.toList.getLast? ≠ some '\r' := fun last => noReturn (List.mem_of_getLast? last)
    exact ⟨read_withReturns noReturn, read_append_emptyLines noReturnLast [.feed]⟩
  · rcases boundary with complete | ⟨rfl, noReturn⟩
    · exact read_insert_emptyLines (complete_of complete) after ends
    · rw [String.append_empty, String.append_empty, read_append_emptyLines noReturn,
        read_mapError_countInserted]
  · obtain ⟨behind, others, lines⟩ := linesOf_append_return (complete_of ends) noFeed bare
    obtain ⟨fault, malformed⟩ :=
      @Description.malformed_of_return (start ++ "\r" ++ behind) (by simp)
    have nonempty : start ++ "\r" ++ behind ≠ "" := by
      intro empty
      have := congrArg String.toList empty
      simp at this
    have refused : Description.Refused strict (start ++ "\r" ++ behind) (.malformedLine fault) :=
      .unreadable malformed
    refine ⟨behind, others, fault, lines, malformed, ?_, fun descriptions passed => ?_⟩
    · exact exists_read_eq_error_iff.mpr ⟨_, by simp [lines], nonempty, _, refused⟩
    · exact read_eq_error_iff.mpr ⟨_, _, _, _, lines,
        fun _ => exists_accepted_of_mem_linesOf passed, nonempty, refused, rfl⟩
  · obtain ⟨fault, malformed⟩ := Description.malformed_of_return member
    exact ⟨fault, .unreadable malformed⟩

theorem read_lineEnds_mixed :
    '\r' ∉ "12345678 foo EMPTY\n\n12345678 Bar EMPTY".toList ∧
    read true none "12345678 foo EMPTY\r\n\r\n12345678 Bar EMPTY" =
      read true none "12345678 foo EMPTY\n\n12345678 Bar EMPTY" ∧
    read true none ("12345678 foo EMPTY\n" ++ "\r\n\n" ++ "12345678 Bar EMPTY") =
      .error (.badLine none 4 "12345678 Bar EMPTY" (.malformedLine .mnemonicStart)) ∧
    ∃ behind fault, read true none ("12345678 foo EMPTY\n" ++ ("12345678 foo EMPTY" ++ "\r" ++ "\r\n")) =
      .error (.badLine none 2 ("12345678 foo EMPTY" ++ "\r" ++ behind) (.malformedLine fault)) := by
  have plain : '\r' ∉ "12345678 foo EMPTY\n\n12345678 Bar EMPTY".toList := by decide
  have passed : read true none "12345678 foo EMPTY\n" = .ok [⟨0x12345678, "foo", ⟨[]⟩, none, ∅⟩] := by
    decide +kernel
  have failed : read true none ("12345678 foo EMPTY\n" ++ "12345678 Bar EMPTY") =
      .error (.badLine none 2 "12345678 Bar EMPTY" (.malformedLine .mnemonicStart)) := by decide +kernel
  obtain ⟨lineEnds, inserted, returns, -⟩ := read_lineEnds true none
  have atLineEnd : "12345678 foo EMPTY\n".toList.getLast? = some '\n' := by decide
  have moved := inserted "12345678 foo EMPTY\n" "12345678 Bar EMPTY" [.returnFeed, .feed]
    (Or.inl (Or.inr atLineEnd))
  have oneLine : (linesOf "12345678 foo EMPTY\n").length = 1 := by decide +kernel
  rw [failed, oneLine] at moved
  obtain ⟨behind, -, fault, -, -, -, bare⟩ := returns "12345678 foo EMPTY\n" "12345678 foo EMPTY" "\r\n"
    (Or.inr atLineEnd) (by decide) (by decide)
  rw [oneLine] at bare
  exact ⟨plain, (lineEnds _ plain).1, moved, behind, fault, bare _ passed⟩

end Listing

end InsnEncoding
