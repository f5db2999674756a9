import InsnEncoding.Description.Printer
import InsnEncoding.Proofs.FormatText
import InsnEncoding.Proofs.LineMeaning

/-!
# Reading back the line of a description

A line that is written for a description is laid out as its parts (`Description.laidOutWith_write`), and
what the parts say is the description (`Description.describes_toLine`): keys are distinct, so the order of
the attributes does not matter. But a line has no letter for the transforms of its own format, so a
description with one cannot be written: `Description.ofLine_write` tells the two cases apart.
-/

namespace InsnEncoding

theorem Word.isWordDigit_hexDigits (word : Word) : ∀ digit ∈ hexDigits word, Line.isWordDigit digit := by
  have digits : ∀ number : Fin 16, Line.isWordDigit (Nat.digitChar number) := by decide
  intro digit member
  obtain ⟨place, _, rfl⟩ := List.mem_map.mp member
  exact digits ⟨word.toNat >>> place % 16, Nat.mod_lt _ (by decide)⟩

/-- An attribute with its value. -/
def LineAttribute.ofEntry (entry : String × String) : LineAttribute :=
  ⟨entry.1.toList, some entry.2.toList⟩

namespace Description

/-- The parts of a line of the description with some attributes. -/
def toLine (description : Description) (entries : List (String × String)) : Line where
  word := Word.hexDigits description.word
  mnemonic := description.mnemonic.toList
  format := description.format.spell
  attributes := entries.map LineAttribute.ofEntry

theorem mem_entries_iff {description : Description} {key value : String} :
    (key, value) ∈ description.entries ↔
      description.attribute? key = some value ∨
        ∃ manual, description.manualFormat = some manual ∧ key = manualFormatKey ∧
          value = manual.repr := by
  unfold entries attribute?
  rw [List.mem_append, Std.ExtTreeMap.mem_toList_iff_getElem?_eq_some]
  cases description.manualFormat <;> simp

namespace Writable

variable {description : Description}

theorem attribute?_manualFormatKey (writable : description.Writable) :
    description.attribute? manualFormatKey = none := by
  rw [Option.eq_none_iff_forall_ne_some]
  intro value given
  exact (writable.attributes _ _ given).2.1 rfl

theorem representable (writable : description.Writable) {manual : Format}
    (given : description.manualFormat = some manual) :
    ∀ operand ∈ manual.operands, operand.Representable :=
  Format.ofText_repr_iff.mp (writable.manualFormat manual given)

/-- No two attributes of a line of the description have the same key. -/
theorem nodup_keys_entries (writable : description.Writable) :
    (description.entries.map Prod.fst).Nodup := by
  unfold entries
  rw [List.map_append, List.nodup_append']
  refine ⟨?_, ?_, ?_⟩
  · apply List.pairwise_map.mpr
    apply Std.ExtTreeMap.distinct_keys_toList.imp
    intro first second different same
    exact different (Std.compare_eq_iff_eq.mpr same)
  · cases description.manualFormat <;> simp
  · intro key inAttributes inManual
    obtain ⟨⟨_, value⟩, member, rfl⟩ := List.mem_map.mp inAttributes
    have given := Std.ExtTreeMap.mem_toList_iff_getElem?_eq_some.mp member
    have other := (writable.attributes _ _ given).2.1
    cases manual : description.manualFormat <;> simp [manual] at inManual
    exact other inManual

/-- The manual format is an attribute with the form of the others. -/
theorem entry_chars (writable : description.Writable) {key value : String}
    (member : (key, value) ∈ description.entries) :
    key ≠ "" ∧ AttributeText key.toList ∧ AttributeText value.toList := by
  rcases mem_entries_iff.mp member with given | ⟨manual, given, rfl, rfl⟩
  · obtain ⟨nonempty, _, keyChars, valueChars⟩ := writable.attributes key value given
    exact ⟨nonempty, keyChars, valueChars⟩
  · refine ⟨by decide, by decide, ?_⟩
    rw [Format.repr, String.toList_ofList]
    exact Format.attributeText_spell (writable.representable given)

theorem wellFormed_ofEntry (writable : description.Writable) {entry : String × String}
    (member : entry ∈ description.entries) : (LineAttribute.ofEntry entry).WellFormed := by
  obtain ⟨nonempty, keyChars, valueChars⟩ := writable.entry_chars member
  refine ⟨by simpa [LineAttribute.ofEntry] using nonempty, keyChars, ?_⟩
  intro value same
  cases same
  exact valueChars

end Writable

/-- Attributes with distinct keys are found by their keys wherever they stand. -/
theorem lastValue?_toLine_eq_some_iff_mem {description : Description} {entries : List (String × String)}
    (distinct : (entries.map Prod.fst).Nodup) {key value : String} :
    (description.toLine entries).lastValue? key = some value ↔ (key, value) ∈ entries := by
  have only : (description.toLine entries).lastValue? key =
      (entries.filter fun entry => entry.1 == key).getLast?.map Prod.snd := by
    unfold Line.lastValue? toLine
    rw [List.filter_map, List.getLast?_map, Option.map_map]
    simp [Function.comp_def, LineAttribute.ofEntry, LineAttribute.value]
  rw [only, Option.map_eq_some_iff]
  constructor
  · rintro ⟨⟨found, _⟩, last, rfl⟩
    obtain ⟨member, same⟩ := List.mem_filter.mp (List.mem_of_getLast? last)
    rw [← eq_of_beq same]
    exact member
  · intro member
    have kept : (key, value) ∈ entries.filter fun entry => entry.1 == key :=
      List.mem_filter.mpr ⟨member, beq_self_eq_true key⟩
    have last := List.getLast?_eq_some_getLast (List.ne_nil_of_mem kept)
    obtain ⟨inEntries, same⟩ := List.mem_filter.mp (List.mem_of_getLast? last)
    have unique := List.inj_on_of_nodup_map distinct inEntries member (eq_of_beq same)
    exact ⟨_, last, congrArg Prod.snd unique⟩

theorem write_eq (description : Description) (spaces : Nat) (entries : List (String × String)) :
    description.write spaces entries =
      Word.hexDigits description.word ++ ' ' :: (description.mnemonic.toList ++
        (List.replicate (spaces + 1) ' ' ++ (description.format.spell ++
          entries.flatMap writeEntry))) := by
  simp [write]

theorem attributesLaidOut_writeEntry {entries : List (String × String)}
    (wellFormed : ∀ entry ∈ entries, (LineAttribute.ofEntry entry).WellFormed) :
    AttributesLaidOut (entries.flatMap writeEntry) (entries.map fun _ => 1)
      (entries.map LineAttribute.ofEntry) := by
  induction entries with
  | nil => exact .nil
  | cons entry rest ih =>
    obtain ⟨here, later⟩ := List.forall_mem_cons.mp wellFormed
    have split : (entry :: rest).flatMap writeEntry =
        List.replicate 1 ' ' ++ ((LineAttribute.ofEntry entry).spell ++ rest.flatMap writeEntry) := by
      simp [writeEntry, LineAttribute.spell, LineAttribute.valueText, LineAttribute.ofEntry]
    rw [split]
    exact .cons 1 here (ih later)

variable {description : Description}

theorem representable_of_validate (valid : description.validate = .ok ()) :
    ∀ operand ∈ description.format.operands, operand.Representable :=
  (validate_eq_ok_iff.mp valid).2.1.1.representable

/-- Without transforms the line is laid out as the parts it was written from. -/
theorem laidOutWith_write (valid : description.validate = .ok ()) (writable : description.Writable)
    (identity : ∀ operand ∈ description.format.operands, operand.transform = .identity)
    (spaces : Nat) {entries : List (String × String)} (order : entries.Perm description.entries) :
    (description.toLine entries).LaidOutWith ⟨spaces, entries.map fun _ => 1⟩
      (description.write spaces entries) := by
  have representable := representable_of_validate valid
  refine ⟨⟨Word.length_hexDigits _, Word.isWordDigit_hexDigits _, writable.mnemonic_start,
    writable.mnemonic_chars, Format.formatText_spell representable identity⟩, _, ?_,
    description.write_eq spaces entries⟩
  exact attributesLaidOut_writeEntry fun entry member =>
    writable.wellFormed_ofEntry (order.mem_iff.mp member)

/-- The line has as an attribute what the description has, and the manual format. -/
theorem lastValue?_toLine_eq_some_iff (writable : description.Writable)
    {entries : List (String × String)} (order : entries.Perm description.entries) {key value : String} :
    (description.toLine entries).lastValue? key = some value ↔
      description.attribute? key = some value ∨
        ∃ manual, description.manualFormat = some manual ∧ key = manualFormatKey ∧
          value = manual.repr := by
  have distinct := (order.map Prod.fst).nodup_iff.mpr writable.nodup_keys_entries
  rw [lastValue?_toLine_eq_some_iff_mem distinct, order.mem_iff, mem_entries_iff]

theorem lastValue?_toLine_manualFormatKey (writable : description.Writable)
    {entries : List (String × String)} (order : entries.Perm description.entries) :
    (description.toLine entries).lastValue? manualFormatKey =
      description.manualFormat.map Format.repr := by
  apply Option.ext
  intro value
  rw [lastValue?_toLine_eq_some_iff writable order, writable.attribute?_manualFormatKey]
  simp [eq_comm]

theorem lastValue?_toLine_of_ne (writable : description.Writable)
    {entries : List (String × String)} (order : entries.Perm description.entries) {key : String}
    (other : key ≠ manualFormatKey) :
    (description.toLine entries).lastValue? key = description.attribute? key := by
  apply Option.ext
  intro value
  rw [lastValue?_toLine_eq_some_iff writable order]
  simp [other]

/-- What the parts of the line say is the description. -/
theorem describes_toLine (valid : description.validate = .ok ()) (writable : description.Writable)
    {entries : List (String × String)} (order : entries.Perm description.entries) :
    (description.toLine entries).Describes description := by
  refine ⟨?_, String.ofList_toList.symm, ?_, ?_, ?_⟩
  · have digits := Word.toNat_ofHexDigits (Word.length_hexDigits description.word)
      (Word.isWordDigit_hexDigits _)
    rwa [Word.ofHexDigits_hexDigits] at digits
  · exact Format.ofText_repr_iff.mpr (representable_of_validate valid)
  · rw [lastValue?_toLine_manualFormatKey writable order, Option.map_map]
    exact Option.map_congr writable.manualFormat
  · intro key
    by_cases reserved : key = manualFormatKey
    · rw [if_pos reserved, reserved, writable.attribute?_manualFormatKey]
    · rw [if_neg reserved, lastValue?_toLine_of_ne writable order reserved]

/-- With a transform in its format the line breaks off where the first transform is announced. -/
theorem scan_write_of_transform (valid : description.validate = .ok ())
    (writable : description.Writable)
    (other : ∃ operand ∈ description.format.operands, operand.transform ≠ .identity) (spaces : Nat)
    (entries : List (String × String)) :
    Line.scan (description.write spaces entries) = .error .attributeStart := by
  have representable := representable_of_validate valid
  obtain ⟨run, rest, split, nonempty, chars⟩ := Format.exists_mark_of_transform representable other
  obtain ⟨first, start, lower⟩ := writable.mnemonic_start
  have form : FormatText run := Or.inr ⟨nonempty, chars⟩
  have mark : Text.Stops Line.isFormatChar ('p' :: (rest ++ entries.flatMap writeEntry)) :=
    Text.stops_cons.mpr (by decide)
  have charsStop : Text.Stops Line.isMnemonicChar (List.replicate (spaces + 1) ' ' ++
      (run ++ 'p' :: (rest ++ entries.flatMap writeEntry))) := by
    rw [List.replicate_succ]
    exact Text.stops_cons.mpr (by decide)
  rw [write_eq, split, List.append_assoc, List.cons_append,
    Line.scan_runs (Word.isWordDigit_hexDigits _) writable.mnemonic_chars charsStop
      (Text.all_replicate_space _) (form.stops_space _),
    Line.scanFormat_of_stops form mark, Line.scanTail_of_ne (by decide) (by decide)]
  simp [Word.length_hexDigits, start, lower, nonempty, Except.map]

/-- The line of a valid description is read as the description if no operand of its format has a
    transform, whatever the number of spaces and the order of the attributes. If an operand has one, the
    line is malformed. -/
theorem ofLine_write (valid : description.validate = .ok ()) (writable : description.Writable)
    (spaces : Nat) {entries : List (String × String)} (order : entries.Perm description.entries) :
    ((∀ operand ∈ description.format.operands, operand.transform = .identity) →
      ofLine (String.ofList (description.write spaces entries)) = .ok description) ∧
    ((∃ operand ∈ description.format.operands, operand.transform ≠ .identity) →
      ofLine (String.ofList (description.write spaces entries)) =
        .error (.malformedLine .attributeStart)) := by
  constructor
  · intro identity
    have laidOut := laidOutWith_write valid writable identity spaces order
    have text : (description.toLine entries).LaidOutAs
        (String.ofList (description.write spaces entries)).toList := by
      rw [String.toList_ofList]
      exact ⟨_, laidOut⟩
    rw [ofLine_of_laidOut text]
    exact ofParts_of_yields laidOut.1 (.valid (describes_toLine valid writable order) valid)
  · intro other
    unfold ofLine
    rw [String.toList_ofList, scan_write_of_transform valid writable other]

/-- A store with an attribute, whose manual format scales the offset. -/
def storePointer : Description where
  word := 0x25000000
  mnemonic := "stptr.w"
  format := ⟨[.register .intRegister 0, .register .intRegister 5,
    ⟨.signedImmediate, [⟨10, 14⟩], .identity⟩]⟩
  manualFormat := some ⟨[.register .intRegister 0, .register .intRegister 5,
    ⟨.signedImmediate, [⟨10, 14⟩], .shiftLeft 2⟩]⟩
  attributes := (∅ : Attributes).insert "la64" "true"

/-- A shifted addition, whose format itself has a transform. -/
def shiftedAdd : Description where
  word := 0x00040000
  mnemonic := "alsl.w"
  format := ⟨[.register .intRegister 0, .register .intRegister 5, .register .intRegister 10,
    ⟨.unsignedImmediate, [⟨15, 2⟩], .add 1⟩]⟩

theorem ofLine_write_storePointer :
    storePointer.validate = .ok () ∧ storePointer.Writable ∧
    String.ofList (storePointer.write 1 [("orig_fmt", "DJSk14ps2"), ("la64", "true")]) =
      "25000000 stptr.w  DJSk14 @orig_fmt=DJSk14ps2 @la64=true" ∧
    ofLine "25000000 stptr.w  DJSk14 @orig_fmt=DJSk14ps2 @la64=true" = .ok storePointer ∧
    shiftedAdd.validate = .ok () ∧ shiftedAdd.Writable ∧
    ofLine "00040000 alsl.w DJKUa2pp1" = .error (.malformedLine .attributeStart) := by
  have valid : storePointer.validate = .ok () := by decide
  have writable : storePointer.Writable := by
    refine ⟨⟨'s', by decide⟩, List.all_eq_true.mp (by decide), ?_, ?_⟩
    · intro key value given
      obtain ⟨rfl, rfl⟩ : "la64" = key ∧ "true" = value := by
        simpa [storePointer, attribute?, Std.ExtTreeMap.getElem?_insert] using given
      decide
    · rintro manual ⟨⟩
      exact Format.ofText_repr_of_validate (by decide : Format.validate .manual _ = .ok ())
  have text : String.ofList (storePointer.write 1 [("orig_fmt", "DJSk14ps2"), ("la64", "true")]) =
      "25000000 stptr.w  DJSk14 @orig_fmt=DJSk14ps2 @la64=true" := by decide
  have shiftedValid : shiftedAdd.validate = .ok () := by decide
  have shiftedWritable : shiftedAdd.Writable := by
    refine ⟨⟨'a', by decide⟩, List.all_eq_true.mp (by decide), ?_, nofun⟩
    intro key value given
    simp [shiftedAdd, attribute?] at given
  refine ⟨valid, writable, text, ?_, shiftedValid, shiftedWritable, ?_⟩
  · rw [← text]
    exact (ofLine_write valid writable 1 (by decide)).1 (by decide)
  · have shiftedText : String.ofList (shiftedAdd.write 0 []) = "00040000 alsl.w DJKUa2pp1" := by decide
    rw [← shiftedText]
    exact (ofLine_write shiftedValid shiftedWritable 0 (by decide)).2 (by decide)

end Description

end InsnEncoding
