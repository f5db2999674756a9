import InsnEncoding.Proofs.FirstAndLast
import InsnEncoding.Proofs.LineMeaning

/-!
# What counts of the attributes of a line

A line may have a key more than once, and its attributes may stand in any order. Of those with the same key the
last one counts (`Line.LastWith`), and what it gives is all that the reader sees of the attributes
(`Description.ofParts_congr`). So lines that agree in their other parts and in the last value of every key are
read alike, and if one of them is refused, so is the other, for the same fault. An earlier manual format is not
even read, and the spaces of a line are no part of what it says.
-/

namespace InsnEncoding

namespace LineAttribute

/-- The value of a flag is that of an attribute without one, and it can be given as well. -/
theorem value_eq_flagValue_iff {entry : LineAttribute} :
    entry.value = Description.flagValue ↔
      entry.value? = none ∨ entry.value? = some Description.flagValue.toList := by
  rw [value]
  cases entry.value? with
  | none => simp
  | some text => simp [← String.toList_inj]

end LineAttribute

namespace Line

/-- The attribute has the key, and no attribute behind it has. -/
def LastWith (line : Line) (key : String) (entry : LineAttribute) : Prop :=
  String.ofList entry.key = key ∧ ∃ before behind, line.attributes = before ++ entry :: behind ∧
    ∀ later ∈ behind, String.ofList later.key ≠ key

variable {line other : Line} {key value : String}

theorem lastValue?_eq_some_iff :
    line.lastValue? key = some value ↔ ∃ entry, line.LastWith key entry ∧ entry.value = value := by
  simp only [lastValue?, Option.map_eq_some_iff, getLast?_filter_eq_some_iff, beq_iff_eq, LastWith, ne_eq]

theorem lastValue?_eq_none_iff :
    line.lastValue? key = none ↔ ∀ entry ∈ line.attributes, String.ofList entry.key ≠ key := by
  simp [lastValue?]

/-- The map of the attributes holds the last value of each key and nothing else. -/
theorem attributeMap_congr (same : ∀ key, other.lastValue? key = line.lastValue? key) :
    other.attributeMap = line.attributeMap := by
  refine Std.ExtTreeMap.ext_getElem? fun key => ?_
  rw [getElem?_attributeMap, getElem?_attributeMap, same]

end Line

namespace Description

/-- The reader sees the last value of each key, and of the other parts all. -/
theorem ofParts_congr {line other : Line} (word : other.word = line.word)
    (mnemonic : other.mnemonic = line.mnemonic) (format : other.format = line.format)
    (same : ∀ key, other.lastValue? key = line.lastValue? key) : ofParts other = ofParts line := by
  simp only [ofParts, word, mnemonic, format, Line.attributeMap_congr same]

section Described

variable {line : Line} {description : Description} (describes : line.Describes description)
include describes

/-- An attribute of the description is the last one of the line with its key. -/
theorem attribute?_eq_some_iff_lastWith {key value : String} (other : key ≠ manualFormatKey) :
    description.attribute? key = some value ↔
      ∃ entry, line.LastWith key entry ∧ entry.value = value := by
  rw [describes.attributes, if_neg other, Line.lastValue?_eq_some_iff]

theorem attribute?_eq_none_iff_forall_ne {key : String} (other : key ≠ manualFormatKey) :
    description.attribute? key = none ↔
      ∀ entry ∈ line.attributes, String.ofList entry.key ≠ key := by
  rw [describes.attributes, if_neg other, Line.lastValue?_eq_none_iff]

theorem hasFlag_iff_lastWith {key : String} (other : key ≠ manualFormatKey) :
    description.hasFlag key ↔ ∃ entry, line.LastWith key entry ∧
      (entry.value? = none ∨ entry.value? = some flagValue.toList) := by
  rw [hasFlag, beq_iff_eq, attribute?_eq_some_iff_lastWith describes other]
  simp only [LineAttribute.value_eq_flagValue_iff]

/-- The manual format is read from the last of its attributes. -/
theorem manualFormat_eq_some_iff_lastWith {manual : Format} :
    description.manualFormat = some manual ↔
      ∃ entry, line.LastWith manualFormatKey entry ∧ Format.ofText entry.value = .ok manual := by
  have read := describes.manualFormat
  constructor
  · intro given
    rw [given, Option.map_some, Option.map_eq_some_iff] at read
    obtain ⟨value, last, read⟩ := read
    obtain ⟨entry, lastWith, rfl⟩ := Line.lastValue?_eq_some_iff.mp last
    exact ⟨entry, lastWith, read⟩
  · rintro ⟨entry, lastWith, valueRead⟩
    rw [Line.lastValue?_eq_some_iff.mpr ⟨entry, lastWith, rfl⟩, Option.map_some, valueRead] at read
    obtain ⟨found, given, same⟩ := Option.map_eq_some_iff.mp read.symm
    rw [given, Except.ok.inj same]

theorem manualFormat_eq_none_iff_forall_ne :
    description.manualFormat = none ↔
      ∀ entry ∈ line.attributes, String.ofList entry.key ≠ manualFormatKey := by
  have read := describes.manualFormat
  rw [← Line.lastValue?_eq_none_iff, ← Option.map_eq_none_iff (f := Except.ok (ε := LexicalError)),
    ← read, Option.map_eq_none_iff]

end Described

/-- Of the attributes of a line with the same key the last one counts: a description that is read has its
    value, a flag is one that is given by its key alone or with the value of a flag, and the manual format is
    what the last of its attributes says. Lines with the same word, mnemonic and format give the same result
    if they have the same last value for each key, whatever their other attributes, their order and the
    spaces. -/
theorem ofLine_last_attributes :
    (∀ (text : String) (line : Line) (description : Description),
      line.LaidOutAs text.toList → ofLine text = .ok description →
      (∀ key, key ≠ manualFormatKey →
        (∀ value, description.attribute? key = some value ↔
          ∃ entry, line.LastWith key entry ∧ entry.value = value) ∧
        (description.attribute? key = none ↔
          ∀ entry ∈ line.attributes, String.ofList entry.key ≠ key) ∧
        (description.hasFlag key ↔ ∃ entry, line.LastWith key entry ∧
          (entry.value? = none ∨ entry.value? = some flagValue.toList))) ∧
      (∀ manual, description.manualFormat = some manual ↔
        ∃ entry, line.LastWith manualFormatKey entry ∧ Format.ofText entry.value = .ok manual) ∧
      (description.manualFormat = none ↔
        ∀ entry ∈ line.attributes, String.ofList entry.key ≠ manualFormatKey)) ∧
    ∀ (text variant : String) (line other : Line),
      line.LaidOutAs text.toList → other.LaidOutAs variant.toList →
      other.word = line.word → other.mnemonic = line.mnemonic → other.format = line.format →
      (∀ key, other.lastValue? key = line.lastValue? key) → ofLine variant = ofLine text := by
  refine ⟨fun text line description laidOut read => ?_,
    fun text variant line other laidOut laidOutToo word mnemonic format same => ?_⟩
  · obtain ⟨describes, -⟩ := describes_of_ofLine laidOut read
    exact ⟨fun key other => ⟨fun _ => attribute?_eq_some_iff_lastWith describes other,
      attribute?_eq_none_iff_forall_ne describes other, hasFlag_iff_lastWith describes other⟩,
      fun _ => manualFormat_eq_some_iff_lastWith describes,
      manualFormat_eq_none_iff_forall_ne describes⟩
  · rw [ofLine_of_laidOut laidOut, ofLine_of_laidOut laidOutToo]
    exact ofParts_congr word mnemonic format same

/-- The parts of the same line with both attributes given twice, the manual format at first by a text that is
    none. -/
def loadLinkedTwice : Line :=
  { loadLinked with
    attributes :=
      [⟨"atomics".toList, some "no".toList⟩, ⟨"orig_fmt".toList, some "DJSk14px2".toList⟩,
        ⟨"atomics".toList, none⟩, ⟨"orig_fmt".toList, some "DJSk14ps2".toList⟩] }

theorem ofLine_last_attributes_loadLinkedTwice :
    loadLinked.LaidOutAs "20000000 ll.w DJSk14@orig_fmt=DJSk14ps2  @atomics".toList ∧
    loadLinkedTwice.LaidOutAs
      "20000000 ll.w   DJSk14 @atomics=no@orig_fmt=DJSk14px2 @atomics @orig_fmt=DJSk14ps2".toList ∧
    ∃ description,
      ofLine "20000000 ll.w DJSk14@orig_fmt=DJSk14ps2  @atomics" = .ok description ∧
      ofLine "20000000 ll.w   DJSk14 @atomics=no@orig_fmt=DJSk14px2 @atomics @orig_fmt=DJSk14ps2" =
        .ok description ∧
      description.hasFlag "atomics" := by
  have wellFormed : loadLinked.WellFormed :=
    ⟨by decide, List.all_eq_true.mp (by decide), ⟨'l', by decide⟩,
      List.all_eq_true.mp (by decide), Or.inr ⟨by decide, List.all_eq_true.mp (by decide)⟩⟩
  have laidOut : loadLinked.LaidOutAs "20000000 ll.w DJSk14@orig_fmt=DJSk14ps2  @atomics".toList :=
    ⟨⟨0, [0, 2]⟩, wellFormed, _, .cons 0 (by decide) (.cons 2 (by decide) .nil), by decide⟩
  have laidOutTwice : loadLinkedTwice.LaidOutAs
      "20000000 ll.w   DJSk14 @atomics=no@orig_fmt=DJSk14px2 @atomics @orig_fmt=DJSk14ps2".toList :=
    ⟨⟨2, [1, 0, 1, 1]⟩, ⟨wellFormed.1, wellFormed.2, wellFormed.3, wellFormed.4, wellFormed.5⟩, _,
      .cons 1 (by decide) (.cons 0 (by decide) (.cons 1 (by decide) (.cons 1 (by decide) .nil))),
      by decide⟩
  have same (key : String) : loadLinkedTwice.lastValue? key = loadLinked.lastValue? key := by
    by_cases flag : key = "atomics"
    · subst flag
      decide
    · by_cases manual : key = "orig_fmt"
      · subst manual
        decide
      · have neither (entry : LineAttribute) (known : String.ofList entry.key = "atomics" ∨
            String.ofList entry.key = "orig_fmt") : String.ofList entry.key ≠ key := by
          rintro rfl
          exact known.elim flag manual
        rw [Line.lastValue?_eq_none_iff.mpr, Line.lastValue?_eq_none_iff.mpr]
        · exact fun entry member => neither entry (by revert entry; decide)
        · exact fun entry member => neither entry (by revert entry; decide)
  obtain ⟨reads, alike⟩ := ofLine_last_attributes
  have read : ∃ description,
      ofLine "20000000 ll.w DJSk14@orig_fmt=DJSk14ps2  @atomics" = .ok description := by
    have passes : (ofLine "20000000 ll.w DJSk14@orig_fmt=DJSk14ps2  @atomics").toBool := by
      decide +kernel
    cases result : ofLine "20000000 ll.w DJSk14@orig_fmt=DJSk14ps2  @atomics" with
    | ok description => exact ⟨description, rfl⟩
    | error fault =>
      rw [result] at passes
      contradiction
  obtain ⟨description, read⟩ := read
  refine ⟨laidOut, laidOutTwice, description, read, ?_, ?_⟩
  · rw [alike _ _ _ _ laidOut laidOutTwice rfl rfl rfl same, read]
  · obtain ⟨attributes, -⟩ := reads _ _ _ laidOut read
    exact (attributes "atomics" (by decide)).2.2.mpr
      ⟨⟨"atomics".toList, none⟩, ⟨rfl, [_], [], rfl, nofun⟩, Or.inl rfl⟩

end Description

end InsnEncoding
