import InsnEncoding.Description.Grammar
import InsnEncoding.Proofs.FormatGrammar

/-!
# The scanner of lines and its grammar

Every part of a line is a run of a class of characters, and what follows the part never goes on with
its class: behind the word and the mnemonic stands a space, behind the format and each attribute a
space, an `@` or nothing (`AtAttribute`). So a text is laid out as one line only, and the scanner finds
it: `Line.scan_eq_ok_iff`, `Line.LaidOutWith.unique`.
-/

namespace InsnEncoding

/-- The text is at its end or goes on with a space or an `@`, as every attribute begins with. -/
def AtAttribute (text : List Char) : Prop :=
  ∀ char ∈ text.head?, char = ' ' ∨ char = '@'

theorem AtAttribute.stops {text : List Char} (atAttribute : AtAttribute text)
    {inClass : Char → Bool} (space : inClass ' ' = false) (sign : inClass '@' = false) :
    Text.Stops inClass text := by
  intro char first
  rcases atAttribute char first with rfl | rfl
  · exact space
  · exact sign

namespace Text

theorem all_replicate_space (count : Nat) : ∀ char ∈ List.replicate count ' ', (char == ' ') := by
  intro char inSpaces
  rw [List.eq_of_mem_replicate inSpaces]
  rfl

/-- Spaces are taken away up to the first other character. -/
theorem dropWhile_spaces {rest : List Char} (stops : Stops (· == ' ') rest) (count : Nat) :
    (List.replicate count ' ' ++ rest).dropWhile (· == ' ') = rest :=
  dropWhile_run (all_replicate_space count) stops

/-- Every text is some spaces and then something that does not begin with a space. -/
theorem exists_spaces (text : List Char) :
    ∃ count rest, text = List.replicate count ' ' ++ rest ∧ Stops (· == ' ') rest := by
  obtain ⟨run, rest, split, all, stops⟩ := exists_run (· == ' ') text
  have spaces : run = List.replicate run.length ' ' :=
    List.eq_replicate_iff.mpr ⟨rfl, fun char inRun => eq_of_beq (all char inRun)⟩
  refine ⟨run.length, rest, ?_, stops⟩
  rw [← spaces]
  exact split

/-- The number of spaces before another character is determined. -/
theorem spaces_inj {first second : Nat} {rest other : List Char} (restStops : Stops (· == ' ') rest)
    (otherStops : Stops (· == ' ') other)
    (same : List.replicate first ' ' ++ rest = List.replicate second ' ' ++ other) :
    first = second ∧ rest = other := by
  have behind := dropWhile_spaces restStops first
  rw [same, dropWhile_spaces otherStops second] at behind
  subst behind
  refine ⟨?_, rfl⟩
  simpa using congrArg List.length (List.append_cancel_right same)

end Text

namespace LineAttribute

theorem spell_append (entry : LineAttribute) (rest : List Char) :
    entry.spell ++ rest = '@' :: (entry.key ++ (entry.valueText ++ rest)) := by
  simp [spell]

theorem stops_space_spell (entry : LineAttribute) (rest : List Char) :
    Text.Stops (· == ' ') (entry.spell ++ rest) := by
  rw [spell_append]
  exact Text.stops_cons.mpr (by decide)

end LineAttribute

namespace FormatText

theorem ne_nil {text : List Char} (form : FormatText text) : text ≠ [] := by
  rcases form with rfl | ⟨nonempty, _⟩
  · exact List.cons_ne_nil _ _
  · exact nonempty

theorem stops_space {text : List Char} (form : FormatText text) (rest : List Char) :
    Text.Stops (· == ' ') (text ++ rest) := by
  rcases form with rfl | ⟨nonempty, chars⟩
  · exact Text.stops_cons.mpr (by decide)
  · obtain ⟨char, more, split⟩ := List.exists_cons_of_ne_nil nonempty
    have inFormat := chars char (split ▸ List.mem_cons_self)
    rw [split, List.cons_append, Text.stops_cons, beq_eq_false_iff_ne]
    intro space
    subst space
    exact absurd inFormat (by decide)

end FormatText

namespace AttributesLaidOut

theorem atAttribute {text : List Char} {gaps : List Nat} {entries : List LineAttribute}
    (laidOut : AttributesLaidOut text gaps entries) : AtAttribute text := by
  intro char first
  cases laidOut with
  | nil => cases first
  | @cons rest gaps entry entries gap _ _ =>
    cases gap with
    | zero =>
      cases first
      exact Or.inr rfl
    | succ gap =>
      cases first
      exact Or.inl rfl

theorem wellFormed {text : List Char} {gaps : List Nat} {entries : List LineAttribute}
    (laidOut : AttributesLaidOut text gaps entries) : ∀ entry ∈ entries, entry.WellFormed := by
  induction laidOut with
  | nil => nofun
  | cons gap wellFormed _ ih => exact List.forall_mem_cons.mpr ⟨wellFormed, ih⟩

theorem length_gaps {text : List Char} {gaps : List Nat} {entries : List LineAttribute}
    (laidOut : AttributesLaidOut text gaps entries) : gaps.length = entries.length := by
  induction laidOut with
  | nil => rfl
  | cons _ _ _ ih => rw [List.length_cons, List.length_cons, ih]

theorem exists_of_cons {text : List Char} {gaps : List Nat} {entry : LineAttribute}
    {entries : List LineAttribute} (laidOut : AttributesLaidOut text gaps (entry :: entries)) :
    ∃ gap others rest, gaps = gap :: others ∧
      text = List.replicate gap ' ' ++ (entry.spell ++ rest) ∧
      AttributesLaidOut rest others entries := by
  cases laidOut with
  | cons gap _ later => exact ⟨gap, _, _, rfl, rfl, later⟩

/-- The number of spaces before each attribute is determined. -/
theorem gaps_unique {text : List Char} {gaps others : List Nat} {entries : List LineAttribute}
    (first : AttributesLaidOut text gaps entries) (second : AttributesLaidOut text others entries) :
    gaps = others := by
  induction first generalizing others with
  | nil => exact (List.eq_nil_of_length_eq_zero second.length_gaps).symm
  | @cons rest gaps entry entries gap _ _ ih =>
    obtain ⟨count, behind, tail, split, same, later⟩ := second.exists_of_cons
    subst split
    obtain ⟨sameCount, sameText⟩ :=
      Text.spaces_inj (entry.stops_space_spell rest) (entry.stops_space_spell tail) same
    have sameRest := List.append_cancel_left sameText
    subst sameCount sameRest
    rw [ih later]

end AttributesLaidOut

namespace Line

theorem isTrailing_append_of_ne {spaces rest : List Char} {char : Char} (other : char ≠ ' ') :
    isTrailing (spaces ++ char :: rest) = false := by
  simp [isTrailing, other]

theorem isTrailing_spaces (count : Nat) :
    isTrailing (List.replicate count ' ') = decide (count ≠ 0) := by
  cases count <;> simp [isTrailing, List.replicate_succ]

/-- The value of an attribute is read up to the next attribute. -/
theorem scanValue_of_atAttribute {entry : LineAttribute} (wellFormed : entry.WellFormed)
    {rest : List Char} (atAttribute : AtAttribute rest) :
    scanValue (entry.valueText ++ rest) = (entry.value?, rest) := by
  have stops : Text.Stops isAttributeChar rest := atAttribute.stops (by decide) (by decide)
  obtain ⟨_, _, valueChars⟩ := wellFormed
  cases given : entry.value? with
  | none =>
    have other : Text.Stops (· == '=') rest := atAttribute.stops (by decide) (by decide)
    have nothing : entry.valueText = [] := by simp [LineAttribute.valueText, given]
    rw [nothing, List.nil_append]
    cases rest with
    | nil => rfl
    | cons char more =>
      have different : char ≠ '=' := by simpa using Text.stops_cons.mp other
      simp [scanValue, different]
  | some value =>
    have announced : entry.valueText = '=' :: value := by simp [LineAttribute.valueText, given]
    have chars : ∀ char ∈ value, isAttributeChar char := valueChars value given
    rw [announced]
    simp only [List.cons_append, scanValue, Text.takeWhile_run chars stops,
      Text.dropWhile_run chars stops]

/-- What is read as a value stands in the text. -/
theorem valueText_of_scanValue {text : List Char} {value? : Option (List Char)} {rest : List Char}
    (found : scanValue text = (value?, rest)) (key : List Char) :
    text = (LineAttribute.mk key value?).valueText ++ rest ∧
      ∀ value ∈ value?, AttributeText value := by
  unfold scanValue at found
  split at found
  · rename_i more
    cases found
    refine ⟨?_, ?_⟩
    · simp [LineAttribute.valueText]
    · intro value same
      cases same
      exact fun char => List.mem_takeWhile_imp
  · cases found
    refine ⟨rfl, ?_⟩
    intro value none
    contradiction

theorem scanAttributes_at (rest : List Char) :
    scanAttributes ('@' :: rest) =
      if rest.takeWhile isAttributeChar = [] then .error .emptyKey
      else
        (scanTail (scanValue (rest.dropWhile isAttributeChar)).2).map
          (⟨rest.takeWhile isAttributeChar, (scanValue (rest.dropWhile isAttributeChar)).1⟩ :: ·) := by
  rw [scanAttributes, scanTail]
  simp only [List.isEmpty_iff]
  by_cases empty : rest.takeWhile isAttributeChar = []
  · rw [if_pos empty, if_pos empty]
  · rw [if_neg empty, if_neg empty]
    cases isTrailing (scanValue (rest.dropWhile isAttributeChar)).2 with
    | true => rfl
    | false =>
      simp only [Bool.false_eq_true, if_false]
      cases scanAttributes ((scanValue (rest.dropWhile isAttributeChar)).2.dropWhile (· == ' ')) <;> rfl

/-- One step of the loop over the attributes: an attribute is taken whole and nothing behind it. -/
theorem scanAttributes_spell {entry : LineAttribute} (wellFormed : entry.WellFormed)
    {rest : List Char} (atAttribute : AtAttribute rest) :
    scanAttributes (entry.spell ++ rest) = (scanTail rest).map (entry :: ·) := by
  have ⟨nonempty, chars, _⟩ := wellFormed
  have stops : Text.Stops isAttributeChar (entry.valueText ++ rest) := by
    unfold LineAttribute.valueText
    cases entry.value? with
    | none => exact atAttribute.stops (by decide) (by decide)
    | some value => exact Text.stops_cons.mpr (by decide)
  rw [entry.spell_append, scanAttributes_at, Text.takeWhile_run chars stops,
    Text.dropWhile_run chars stops, scanValue_of_atAttribute wellFormed atAttribute,
    if_neg nonempty]

/-- Attributes are found where they are laid out. -/
theorem scanTail_of_laidOut {text : List Char} {gaps : List Nat} {entries : List LineAttribute}
    (laidOut : AttributesLaidOut text gaps entries) : scanTail text = .ok entries := by
  induction laidOut with
  | nil =>
    unfold scanTail
    rw [List.dropWhile_nil, scanAttributes]
    rfl
  | @cons rest gaps entry entries gap wellFormed later ih =>
    have sign : isTrailing (List.replicate gap ' ' ++ (entry.spell ++ rest)) = false := by
      rw [entry.spell_append]
      exact isTrailing_append_of_ne (by decide)
    unfold scanTail
    rw [sign, Text.dropWhile_spaces (entry.stops_space_spell rest) gap,
      scanAttributes_spell wellFormed later.atAttribute, ih]
    rfl

theorem scanAttributes_of_ne {char : Char} (other : char ≠ '@') (rest : List Char) :
    scanAttributes (char :: rest) = .error .attributeStart := by
  rw [scanAttributes]
  · exact List.cons_ne_nil char rest
  · intro more same
    exact other (List.cons.inj same).1

/-- Nothing but a space or an attribute may stand behind the format. -/
theorem scanTail_of_ne {char : Char} (notSpace : char ≠ ' ') (notSign : char ≠ '@')
    (rest : List Char) : scanTail (char :: rest) = .error .attributeStart := by
  have blank : (char == ' ') = false := by simpa using notSpace
  have notTrailing : isTrailing (char :: rest) = false :=
    @isTrailing_append_of_ne [] rest char notSpace
  unfold scanTail
  rw [notTrailing, List.dropWhile_cons_of_neg (by simp [blank]), scanAttributes_of_ne notSign]
  rfl

/-- What is taken as one attribute is one. -/
theorem spell_of_scanAttributes {rest : List Char} {entries : List LineAttribute}
    (found : scanAttributes ('@' :: rest) = .ok entries) :
    ∃ entry tail others, '@' :: rest = entry.spell ++ tail ∧ entry.WellFormed ∧
      scanTail tail = .ok others ∧ entries = entry :: others := by
  obtain ⟨key, behind, split, chars, stops⟩ := Text.exists_run isAttributeChar rest
  subst split
  rw [scanAttributes_at, Text.takeWhile_run chars stops, Text.dropWhile_run chars stops] at found
  by_cases empty : key = []
  · rw [if_pos empty] at found
    cases found
  · rw [if_neg empty] at found
    obtain ⟨others, later, same⟩ := exists_of_map_eq_ok found
    obtain ⟨valueSplit, valueChars⟩ := valueText_of_scanValue (Prod.eta (scanValue behind)).symm key
    refine ⟨⟨key, (scanValue behind).1⟩, (scanValue behind).2, others, ?_, ?_, later, same.symm⟩
    · rw [LineAttribute.spell_append, ← valueSplit]
    · exact ⟨empty, chars, valueChars⟩

/-- What is found as attributes is laid out so. -/
theorem laidOut_of_scanTail {text : List Char} {entries : List LineAttribute}
    (found : scanTail text = .ok entries) : ∃ gaps, AttributesLaidOut text gaps entries := by
  obtain ⟨count, rest, split, stops⟩ := Text.exists_spaces text
  unfold scanTail at found
  split at found
  · cases found
  · rename_i notTrailing
    rw [split, Text.dropWhile_spaces stops] at found
    rw [split] at notTrailing ⊢
    cases rest with
    | nil =>
      rw [scanAttributes] at found
      cases found
      have none : count = 0 := by simpa [isTrailing_spaces] using notTrailing
      subst none
      exact ⟨[], .nil⟩
    | cons char rest =>
      by_cases sign : char = '@'
      · subst sign
        obtain ⟨entry, tail, others, same, wellFormed, later, cons⟩ := spell_of_scanAttributes found
        -- An attribute takes at least its `@`, so what is left is shorter.
        have shorter : tail.length < text.length := by
          have lengths := congrArg List.length same
          simp [split, LineAttribute.spell] at lengths ⊢
          omega
        obtain ⟨gaps, laidOut⟩ := laidOut_of_scanTail later
        rw [same, cons]
        exact ⟨count :: gaps, .cons count wellFormed laidOut⟩
      · rw [scanAttributes_of_ne sign] at found
        cases found
termination_by text.length

/-- The format is read up to a character that is in no format. -/
theorem scanFormat_of_stops {format tail : List Char} (form : FormatText format)
    (stops : Text.Stops isFormatChar tail) : scanFormat (format ++ tail) = (format, tail) := by
  unfold scanFormat
  rcases form with rfl | ⟨nonempty, chars⟩
  · simp
  · -- The word for no operands begins with a letter that is in no other format.
    have other : ¬ Format.emptyText.isPrefixOf (format ++ tail) := by
      intro word
      obtain ⟨char, rest, split⟩ := List.exists_cons_of_ne_nil nonempty
      have inFormat := chars char (split ▸ List.mem_cons_self)
      rw [split, List.isPrefixOf_iff_prefix, List.cons_append] at word
      rw [← (List.cons_prefix_cons.mp word).1] at inFormat
      exact absurd inFormat (by decide)
    rw [if_neg other, Text.span_run chars stops]

/-- What is read as a format stands in the text. -/
theorem formatText_of_scanFormat {text format tail : List Char}
    (found : scanFormat text = (format, tail)) (nonempty : format ≠ []) :
    text = format ++ tail ∧ FormatText format := by
  unfold scanFormat at found
  split at found
  · rename_i word
    cases found
    obtain ⟨behind, split⟩ := List.isPrefixOf_iff_prefix.mp word
    refine ⟨?_, Or.inl rfl⟩
    rw [← split, List.drop_left]
  · obtain ⟨run, rest, split, chars, stops⟩ := Text.exists_run isFormatChar text
    rw [split, Text.span_run chars stops] at found
    cases found
    exact ⟨split, Or.inr ⟨nonempty, chars⟩⟩

/-- What the scanner does with the runs that a text begins with. -/
theorem scan_runs {word mnemonic spaces behind : List Char}
    (digits : ∀ char ∈ word, isWordDigit char)
    (chars : ∀ char ∈ mnemonic, isMnemonicChar char)
    (charsStop : Text.Stops isMnemonicChar (spaces ++ behind))
    (blank : ∀ char ∈ spaces, char == ' ') (blankStop : Text.Stops (· == ' ') behind) :
    scan (word ++ ' ' :: (mnemonic ++ (spaces ++ behind))) =
      if word.length ≠ 8 then .error .wordDigits
      else if !mnemonic.head?.any Char.isLower then .error .mnemonicStart
      else if spaces = [] then .error .mnemonicSpaces
      else if (scanFormat behind).1 = [] then .error .missingFormat
      else
        (scanTail (scanFormat behind).2).map fun attributes =>
          ⟨word, mnemonic, (scanFormat behind).1, attributes⟩ := by
  have wordStop : Text.Stops isWordDigit (' ' :: (mnemonic ++ (spaces ++ behind))) :=
    Text.stops_cons.mpr (by decide)
  unfold scan
  simp only [Text.span_run digits wordStop, Text.span_run chars charsStop,
    Text.span_run blank blankStop, List.isEmpty_iff]

/-- A line is found where it is laid out. -/
theorem scan_of_laidOut {line : Line} {text : List Char} (laidOut : line.LaidOutAs text) :
    scan text = .ok line := by
  obtain ⟨spacing, wellFormed, tail, attributes, same⟩ := laidOut
  obtain ⟨first, start, lower⟩ := wellFormed.mnemonic_start
  have charsStop : Text.Stops isMnemonicChar
      (List.replicate (spacing.format + 1) ' ' ++ (line.format ++ tail)) := by
    rw [List.replicate_succ]
    exact Text.stops_cons.mpr (by decide)
  rw [same, scan_runs wellFormed.word_digits wellFormed.mnemonic_chars charsStop
    (Text.all_replicate_space _) (wellFormed.format_text.stops_space tail),
    scanFormat_of_stops wellFormed.format_text
      (attributes.atAttribute.stops (by decide) (by decide)),
    scanTail_of_laidOut attributes]
  simp [wellFormed.word_length, start, lower, wellFormed.format_text.ne_nil, Except.map]

/-- What is found as a line is laid out so. -/
theorem laidOut_of_scan {text : List Char} {line : Line} (found : scan text = .ok line) :
    line.LaidOutAs text := by
  obtain ⟨word, behindWord, split, digits, wordStop⟩ := Text.exists_run isWordDigit text
  have spaced : ∃ rest, behindWord = ' ' :: rest := by
    unfold scan at found
    simp only [split, Text.span_run digits wordStop] at found
    split at found
    · cases found
    · split at found
      · exact ⟨_, rfl⟩
      · cases found
  obtain ⟨rest, rfl⟩ := spaced
  obtain ⟨mnemonic, behindMnemonic, splitRest, chars, charsStop⟩ := Text.exists_run isMnemonicChar rest
  obtain ⟨count, behind, splitSpaces, blankStop⟩ := Text.exists_spaces behindMnemonic
  subst splitSpaces splitRest split
  rw [scan_runs digits chars charsStop (Text.all_replicate_space count) blankStop] at found
  -- A line was found, so none of the tests failed; each of them is one field of `WellFormed`.
  split at found
  · cases found
  · rename_i eight
    split at found
    · cases found
    · rename_i start
      split at found
      · cases found
      · rename_i blank
        split at found
        · cases found
        · rename_i nonempty
          obtain ⟨attributes, tailFound, same⟩ := exists_of_map_eq_ok found
          obtain ⟨splitFormat, form⟩ :=
            formatText_of_scanFormat (Prod.eta (scanFormat behind)).symm nonempty
          obtain ⟨gaps, laidOut⟩ := laidOut_of_scanTail tailFound
          have positive : count ≠ 0 := by simpa using blank
          have lower : ∃ first, mnemonic.head? = some first ∧ first.isLower := by
            simpa [Option.any_eq_true] using start
          subst same
          refine ⟨⟨count - 1, gaps⟩, ⟨Decidable.of_not_not eight, digits, lower, chars, form⟩,
            (scanFormat behind).2, laidOut, ?_⟩
          show _ = word ++ ' ' :: (mnemonic ++ (List.replicate (count - 1 + 1) ' ' ++ _))
          rw [Nat.sub_add_cancel (Nat.pos_of_ne_zero positive), ← splitFormat]

/-- The scanner accepts the texts that are laid out as a line and returns that line. -/
theorem scan_eq_ok_iff {text : List Char} {line : Line} :
    scan text = .ok line ↔ line.LaidOutAs text :=
  ⟨laidOut_of_scan, scan_of_laidOut⟩

/-- A text is laid out as one line only, and only with one number of spaces in each place. -/
theorem LaidOutWith.unique {text : List Char} {line other : Line} {spacing another : Spacing}
    (first : line.LaidOutWith spacing text) (second : other.LaidOutWith another text) :
    line = other ∧ spacing = another := by
  -- The scanner returns one line only, whatever the spaces.
  have same : line = other := by
    have found := scan_eq_ok_iff.mpr ⟨spacing, first⟩
    rw [scan_eq_ok_iff.mpr ⟨another, second⟩] at found
    exact (Except.ok.inj found).symm
  subst same
  obtain ⟨wellFormed, tail, attributes, split⟩ := first
  obtain ⟨_, otherTail, otherAttributes, otherSplit⟩ := second
  rw [split] at otherSplit
  have behindWord := (List.cons.inj (List.append_cancel_left otherSplit)).2
  have behindMnemonic := List.append_cancel_left behindWord
  obtain ⟨spaces, behindSpaces⟩ := Text.spaces_inj (wellFormed.format_text.stops_space tail)
    (wellFormed.format_text.stops_space otherTail) behindMnemonic
  have sameTail := List.append_cancel_left behindSpaces
  subst sameTail
  refine ⟨rfl, ?_⟩
  obtain ⟨format, gaps⟩ := spacing
  obtain ⟨otherFormat, otherGaps⟩ := another
  cases Nat.succ.inj spaces
  cases attributes.gaps_unique otherAttributes
  rfl

end Line

end InsnEncoding
