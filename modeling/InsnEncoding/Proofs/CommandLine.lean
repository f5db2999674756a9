import InsnEncoding.CommandLine
import InsnEncoding.Proofs.Catalog
import InsnEncoding.Proofs.Files
import InsnEncoding.Proofs.Readable
import Mathlib.Data.List.Sort

/-!
# What the commands report

Both commands read all files before they write anything, so they fail for the same files and then write
nothing. What `formats` writes is a table of the formats and of how many descriptions have them
(`CommandLine.Tabulates`), and it can be read back: the text of a format is a word without blanks and line
ends, so the padding of a row neither joins nor splits its two words, however long they are
(`CommandLine.wordsOf_row`, `CommandLine.linesOf_table`).
-/

namespace InsnEncoding

namespace Text

/-- What stands between the blanks of a text. -/
def words (text : List Char) : List (List Char) :=
  (text.splitOnP (· == ' ')).filter (!·.isEmpty)

theorem words_nil : words [] = [] := by
  rw [words, List.splitOnP_nil]
  rfl

/-- A blank stands in no word. -/
theorem words_append_blank (front behind : List Char) :
    words (front ++ ' ' :: behind) = words front ++ words behind := by
  rw [words, List.splitOnP_append_cons front behind (by decide), List.filter_append]
  rfl

theorem words_blanks_append (count : Nat) (text : List Char) :
    words (List.replicate count ' ' ++ text) = words text := by
  induction count with
  | zero => rfl
  | succ count ih =>
    rw [List.replicate_succ, List.cons_append, ← List.nil_append (' ' :: _), words_append_blank, words_nil,
      List.nil_append, ih]

theorem words_append_blanks (text : List Char) (count : Nat) :
    words (text ++ List.replicate count ' ') = words text := by
  cases count with
  | zero => rw [List.replicate_zero, List.append_nil]
  | succ count =>
    have blanks := words_blanks_append count []
    rw [List.append_nil, words_nil] at blanks
    rw [List.replicate_succ, words_append_blank, blanks, List.append_nil]

theorem words_of_not_mem {word : List Char} (nonempty : word ≠ []) (noBlank : ' ' ∉ word) :
    words word = [word] := by
  have inner : ∀ char ∈ word, (char == ' ') = false := fun char member =>
    beq_eq_false_iff_ne.mpr fun blank => noBlank (blank ▸ member)
  rw [words, List.splitOnP_eq_singleton inner]
  simp [nonempty]

/-- Lines without line feeds and carriage returns are read back from the text that they make. -/
theorem lines_flatMap_newline {table : List (List Char)}
    (inner : ∀ line ∈ table, '\n' ∉ line ∧ '\r' ∉ line) :
    lines (table.flatMap fun line => line ++ ['\n']) = table := by
  induction table with
  | nil => exact lines_nil
  | cons line rest ih =>
    obtain ⟨⟨noFeed, noReturn⟩, later⟩ := List.forall_mem_cons.mp inner
    rw [List.flatMap_cons, List.append_assoc, List.singleton_append, lines_append_newline noFeed,
      stripReturn_of_not_mem noReturn, ih later]

end Text

namespace CommandLine

open Listing (linesOf)

/-- The words of a line. -/
def wordsOf (line : String) : List String :=
  (Text.words line.toList).map String.ofList

section Rows

variable {text : String} {uses : Nat}

/-- What stands in a line of the output of `formats`. -/
def row (text : String) (uses : Nat) : String :=
  String.ofList (text.toList.rightpad 16 ' ' ++ ' ' :: (Nat.toDigits 10 uses).leftpad 4 ' ')

theorem toList_formatRow : (formatRow text uses).toList = (row text uses).toList ++ ['\n'] := by
  simp [formatRow, row]

theorem not_mem_toDigits {char : Char} (noDigit : ¬ char.isDigit) : char ∉ Nat.toDigits 10 uses :=
  mt (Nat.isDigit_of_mem_toDigits (by decide) (by decide)) noDigit

/-- Beside blanks a row has only characters that can be in the format of a line. -/
theorem not_mem_row {char : Char} (form : FormatText text.toList) (noWord : char ∉ Format.emptyText)
    (outside : ¬ Line.isFormatChar char) (noBlank : char ≠ ' ') : char ∉ (row text uses).toList := by
  have noText := form.not_mem noWord outside
  have noCount : char ∉ Nat.toDigits 10 uses :=
    not_mem_toDigits fun digit => outside (Line.isFormatChar_of_isDigit char digit)
  simp [row, List.rightpad, List.leftpad, noText, noCount, noBlank]

/-- The words of a row are what was put there, whatever its width. -/
theorem wordsOf_row (form : FormatText text.toList) :
    wordsOf (row text uses) = [text, toString uses] := by
  have format : Text.words text.toList = [text.toList] :=
    Text.words_of_not_mem form.ne_nil (form.not_mem (by decide) (by decide))
  have count : Text.words (Nat.toDigits 10 uses) = [Nat.toDigits 10 uses] :=
    Text.words_of_not_mem Nat.toDigits_ne_nil (not_mem_toDigits (by decide))
  rw [wordsOf, row, String.toList_ofList, List.rightpad, List.leftpad, Text.words_append_blank,
    Text.words_append_blanks, Text.words_blanks_append, format, count, List.singleton_append, List.map_cons,
    List.map_singleton, String.ofList_toList]
  rfl

/-- A table of rows has these rows as its lines. -/
theorem linesOf_table {rows : List (String × Nat)} (forms : ∀ entry ∈ rows, FormatText entry.1.toList) :
    linesOf (String.join (rows.map fun entry => formatRow entry.1 entry.2)) =
      rows.map fun entry => row entry.1 entry.2 := by
  have inner : ∀ line ∈ rows.map fun entry => (row entry.1 entry.2).toList, '\n' ∉ line ∧ '\r' ∉ line := by
    refine List.forall_mem_map.mpr fun entry member => ?_
    have form := forms entry member
    exact ⟨not_mem_row form (by decide) (by decide) (by decide),
      not_mem_row form (by decide) (by decide) (by decide)⟩
  have table := Text.lines_flatMap_newline inner
  rw [List.flatMap_map] at table
  rw [linesOf, String.toList_join, List.flatMap_map]
  simp only [toList_formatRow]
  rw [table, List.map_map]
  exact List.map_congr_left fun _ _ => String.ofList_toList

end Rows

/-- The rows are the texts of the formats of some descriptions in ascending order, each once, with the number
    of the descriptions that have it. -/
structure Tabulates (rows : List (String × Nat)) (descriptions : List Description) : Prop where
  ascending : (rows.map Prod.fst).Pairwise (· < ·)
  mem_texts_iff : ∀ text, text ∈ rows.map Prod.fst ↔
    ∃ description ∈ descriptions, description.format.repr = text
  uses : ∀ entry ∈ rows, entry.2 = descriptions.countP (Description.hasFormatText entry.1)

/-- Descriptions have one table only. -/
theorem Tabulates.unique {rows others : List (String × Nat)} {descriptions : List Description}
    (first : Tabulates rows descriptions) (second : Tabulates others descriptions) : rows = others := by
  have byTexts {table : List (String × Nat)} (tabulates : Tabulates table descriptions) :
      (table.map Prod.fst).map (fun text => (text, descriptions.countP (Description.hasFormatText text))) =
        table := by
    rw [List.map_map]
    refine (List.map_congr_left fun entry member => ?_).trans (List.map_id table)
    rw [Function.comp_apply, ← tabulates.uses entry member]
    rfl
  have texts : rows.map Prod.fst = others.map Prod.fst :=
    first.ascending.eq_of_mem_iff second.ascending fun text =>
      (first.mem_texts_iff text).trans (second.mem_texts_iff text).symm
  rw [← byTexts first, ← byTexts second, texts]

/-- What a catalog lists. -/
def listed (catalog : Catalog) : List (String × Nat) :=
  catalog.toList.map fun entry => (entry.1, entry.2.uses)

theorem tabulates_listed (descriptions : List Description) :
    Tabulates (listed (Catalog.gather descriptions)) descriptions := by
  have texts : (listed (Catalog.gather descriptions)).map Prod.fst = (Catalog.gather descriptions).keys := by
    rw [listed, List.map_map]
    exact Std.ExtTreeMap.map_fst_toList_eq_keys
  refine ⟨?_, fun text => ?_, ?_⟩
  · rw [texts]
    exact Catalog.ascending_keys _
  · rw [texts]
    exact Catalog.mem_keys_gather_iff
  · refine List.forall_mem_map.mpr fun entry member => ?_
    exact Catalog.uses_of_getElem?_gather (Std.ExtTreeMap.mem_toList_iff_getElem?_eq_some.mp member)

section Reports

variable {files : Listing.Files} {flags : Flags} {paths : List String} {descriptions : List Description}

theorem perform_of_error {error : LoadError} (command : Command)
    (failed : Listing.readFiles flags.strict files paths = .error error) :
    (perform files ⟨command, flags, paths⟩).exitCode = 1 ∧
      (perform files ⟨command, flags, paths⟩).output = "" := by
  simp [perform, failed]

theorem exitCode_of_ok (command : Command)
    (passed : Listing.readFiles flags.strict files paths = .ok descriptions) :
    (perform files ⟨command, flags, paths⟩).exitCode = 0 := by
  cases command <;> simp [perform, passed]

theorem output_formats
    (passed : Listing.readFiles flags.strict files paths = .ok descriptions) :
    (perform files ⟨.formats, flags, paths⟩).output =
      String.join ((listed (Catalog.gather descriptions)).map fun entry => formatRow entry.1 entry.2) := by
  simp [perform, passed, listed, Function.comp_def]

theorem last_log_check
    (passed : Listing.readFiles flags.strict files paths = .ok descriptions) :
    (perform files ⟨.check, flags, paths⟩).log.getLast? =
      some (s!"INFO insnfmt: all descriptions valid files={paths.length} " ++
        s!"insns={descriptions.length}") := by
  simp [perform, passed]

/-- A command succeeds exactly if the files can be read, and otherwise it fails. -/
theorem exitCode_iff (files : Listing.Files) (flags : Flags) (paths : List String) (command : Command) :
    ((perform files ⟨command, flags, paths⟩).exitCode = 0 ↔
      ∃ descriptions, Listing.readFiles flags.strict files paths = .ok descriptions) ∧
    ((perform files ⟨command, flags, paths⟩).exitCode = 1 ↔
      ∃ error, Listing.readFiles flags.strict files paths = .error error) := by
  cases loaded : Listing.readFiles flags.strict files paths with
  | error error => simp [(perform_of_error command loaded).1]
  | ok descriptions => simp [exitCode_of_ok command loaded]

theorem formatText_of_tabulates {rows : List (String × Nat)} (tabulates : Tabulates rows descriptions)
    (passed : Listing.readFiles flags.strict files paths = .ok descriptions) :
    ∀ entry ∈ rows, FormatText entry.1.toList := by
  intro entry member
  obtain ⟨description, inDescriptions, same⟩ :=
    (tabulates.mem_texts_iff entry.1).mp (List.mem_map_of_mem member)
  obtain ⟨line, read, -⟩ := Listing.exists_accepted_of_readFiles passed inDescriptions
  rw [← same]
  exact (Description.readable_of_ofLine read).formatText_repr

end Reports

/-- Whatever the files, the flags and the paths, `check` and `formats` exit with the same code: 0 if all files
    are read, and otherwise 1, and then nothing is written. If they are read, `formats` writes a table of the
    formats of the descriptions. The words of its lines are the texts of the formats, in strictly ascending order,
    and the number of descriptions with each. All these numbers together are what `check` tells, next to the
    number of paths. -/
theorem perform_reports (files : Listing.Files) (flags : Flags) (paths : List String) :
    (perform files ⟨.check, flags, paths⟩).exitCode = (perform files ⟨.formats, flags, paths⟩).exitCode ∧
    (∀ command,
      ((perform files ⟨command, flags, paths⟩).exitCode = 0 ↔
        ∃ descriptions, Listing.readFiles flags.strict files paths = .ok descriptions) ∧
      ((perform files ⟨command, flags, paths⟩).exitCode = 1 ↔
        ∃ error, Listing.readFiles flags.strict files paths = .error error) ∧
      ((perform files ⟨command, flags, paths⟩).exitCode = 1 →
        (perform files ⟨command, flags, paths⟩).output = "")) ∧
    ∀ descriptions, Listing.readFiles flags.strict files paths = .ok descriptions →
      ∃ rows, Tabulates rows descriptions ∧
        (linesOf (perform files ⟨.formats, flags, paths⟩).output).map wordsOf =
          rows.map (fun entry => [entry.1, toString entry.2]) ∧
        (perform files ⟨.check, flags, paths⟩).log.getLast? =
          some (s!"INFO insnfmt: all descriptions valid files={paths.length} " ++
            s!"insns={(rows.map Prod.snd).sum}") := by
  refine ⟨?_, fun command => ?_, fun descriptions passed => ?_⟩
  · cases loaded : Listing.readFiles flags.strict files paths with
    | error error => rw [(perform_of_error _ loaded).1, (perform_of_error _ loaded).1]
    | ok descriptions => rw [exitCode_of_ok _ loaded, exitCode_of_ok _ loaded]
  · obtain ⟨succeeds, fails⟩ := exitCode_iff files flags paths command
    refine ⟨succeeds, fails, fun failed => ?_⟩
    obtain ⟨error, failed⟩ := fails.mp failed
    exact (perform_of_error command failed).2
  · have tabulates := tabulates_listed descriptions
    have forms := formatText_of_tabulates tabulates passed
    refine ⟨_, tabulates, ?_, ?_⟩
    · rw [output_formats passed, linesOf_table forms, List.map_map]
      refine List.map_congr_left fun entry member => ?_
      rw [Function.comp_apply, wordsOf_row (forms entry member)]
    · have sum : ((listed (Catalog.gather descriptions)).map Prod.snd).sum = descriptions.length := by
        rw [listed, List.map_map]
        exact Catalog.sum_uses_gather
      rw [sum, last_log_check passed]

/-- A file with a format whose text is wider than its column, and one with an instruction without operands. -/
def wideShelf : Listing.Files := fun path =>
  if path = "wide" then .ok "80000000 wide Ud1Uj1Uk1Ua1Um1Un1\n"
  else if path = "nops" then .ok "12345678 nop EMPTY"
  else .error .notFound

/-- What is read from the wide file, the other one and the wide file again. -/
def wideDescriptions : List Description :=
  let bit (offset : UInt32) : Operand := ⟨.unsignedImmediate, [⟨offset, 1⟩], .identity⟩
  let wide : Description := ⟨0x80000000, "wide", ⟨[bit 0, bit 5, bit 10, bit 15, bit 16, bit 18]⟩, none, ∅⟩
  [wide, ⟨0x12345678, "nop", ⟨[]⟩, none, ∅⟩, wide]

theorem perform_reports_wide :
    (linesOf (perform wideShelf ⟨.formats, {}, ["wide", "nops", "wide"]⟩).output).map wordsOf =
      [["EMPTY", "1"], ["Ud1Uj1Uk1Ua1Um1Un1", "2"]] ∧
    (perform wideShelf ⟨.check, {}, ["wide", "nops", "wide"]⟩).log.getLast? =
      some "INFO insnfmt: all descriptions valid files=3 insns=3" ∧
    (perform wideShelf ⟨.formats, {}, ["wide", "absent"]⟩).output = "" := by
  have passed : Listing.readFiles false wideShelf ["wide", "nops", "wide"] = .ok wideDescriptions := by
    decide +kernel
  have failed : Listing.readFiles false wideShelf ["wide", "absent"] =
      .error (.unreadable "absent" .notFound) := by
    decide +kernel
  have texts : wideDescriptions.map (fun description => description.format.repr) =
      ["Ud1Uj1Uk1Ua1Um1Un1", "EMPTY", "Ud1Uj1Uk1Ua1Um1Un1"] := by
    decide +kernel
  have table : Tabulates [("EMPTY", 1), ("Ud1Uj1Uk1Ua1Um1Un1", 2)] wideDescriptions := by
    refine ⟨by decide, fun text => ?_, by decide +kernel⟩
    rw [← List.mem_map, texts]
    simp only [List.map_cons, List.map_nil, List.mem_cons, List.not_mem_nil]
    tauto
  obtain ⟨-, -, reports⟩ := perform_reports wideShelf {} ["wide", "nops", "wide"]
  obtain ⟨rows, tabulates, words, log⟩ := reports wideDescriptions passed
  obtain rfl := tabulates.unique table
  obtain ⟨-, exits, -⟩ := perform_reports wideShelf {} ["wide", "absent"]
  obtain ⟨-, fails, silent⟩ := exits .formats
  exact ⟨words.trans (by decide), log.trans (by decide +kernel), silent (fails.mpr ⟨_, failed⟩)⟩

end CommandLine

end InsnEncoding
