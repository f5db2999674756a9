import InsnEncoding.Proofs.Encoding
import InsnEncoding.Proofs.FormatReprint
import InsnEncoding.Proofs.LineRoundTrip

/-!
# Which descriptions lines give

Whatever the line, the description that is read from it is valid, it can be written as a line again, and
its format has no transforms (`Description.Readable`). Nothing more can be said of all of them: every such
description is read from some line, so `Description.readable_iff` is exact.
-/

namespace InsnEncoding

namespace LineAttribute

theorem WellFormed.attributeText_value {entry : LineAttribute} (wellFormed : entry.WellFormed) :
    AttributeText entry.value.toList := by
  obtain ⟨-, -, chars⟩ := wellFormed
  unfold value
  cases given : entry.value? with
  | none => decide
  | some value =>
    rw [String.toList_ofList]
    exact chars value given

end LineAttribute

namespace Line

theorem exists_entry_of_lastValue? {line : Line} {key value : String}
    (last : line.lastValue? key = some value) :
    ∃ entry ∈ line.attributes, String.ofList entry.key = key ∧ entry.value = value := by
  obtain ⟨entry, found, rfl⟩ := Option.map_eq_some_iff.mp last
  obtain ⟨member, same⟩ := List.mem_filter.mp (List.mem_of_getLast? found)
  exact ⟨entry, member, eq_of_beq same, rfl⟩

/-- What the line says of a key has the form of an attribute. -/
theorem LaidOutAs.attributeText {line : Line} {text : List Char} (laidOut : line.LaidOutAs text)
    {key value : String} (last : line.lastValue? key = some value) :
    key ≠ "" ∧ AttributeText key.toList ∧ AttributeText value.toList := by
  obtain ⟨_, _, _, attributes, _⟩ := laidOut
  obtain ⟨entry, member, rfl, rfl⟩ := exists_entry_of_lastValue? last
  have wellFormed := attributes.wellFormed entry member
  refine ⟨?_, ?_, wellFormed.attributeText_value⟩
  · simpa using wellFormed.1
  · rw [String.toList_ofList]
    exact wellFormed.2.1

end Line

namespace Description

/-- The description is valid, a line can hold its parts, and its format needs no transforms. -/
structure Readable (description : Description) : Prop extends description.Writable where
  valid : description.validate = .ok ()
  identity : ∀ operand ∈ description.format.operands, operand.transform = .identity

variable {description : Description}

/-- A description that a line describes can be written as a line. -/
theorem writable_of_describes {line : Line} {text : List Char} (laidOut : line.LaidOutAs text)
    (describes : line.Describes description) : description.Writable where
  mnemonic_start := by
    obtain ⟨_, wellFormed, _⟩ := laidOut
    rw [describes.mnemonic, String.toList_ofList]
    exact wellFormed.mnemonic_start
  mnemonic_chars := by
    obtain ⟨_, wellFormed, _⟩ := laidOut
    rw [describes.mnemonic, String.toList_ofList]
    exact wellFormed.mnemonic_chars
  attributes := by
    intro key value given
    rw [describes.attributes] at given
    split at given
    · contradiction
    · next other =>
      obtain ⟨nonempty, keyChars, valueChars⟩ := laidOut.attributeText given
      exact ⟨nonempty, other, keyChars, valueChars⟩
  manualFormat := by
    intro manual given
    have read := describes.manualFormat
    rw [Option.mem_def.mp given, Option.map_some, Option.map_eq_some_iff] at read
    obtain ⟨value, -, read⟩ := read
    exact Format.ofText_repr_of_ofText read

/-- What is read from a line was described by it and is valid. -/
theorem exists_line_of_ofLine {text : String} (read : ofLine text = .ok description) :
    ∃ line : Line, line.LaidOutAs text.toList ∧ line.Describes description ∧
      description.validate = .ok () := by
  cases scanned : Line.scan text.toList with
  | error fault =>
    rw [ofLine, scanned] at read
    contradiction
  | ok line =>
    have laidOut := Line.scan_eq_ok_iff.mp scanned
    exact ⟨line, laidOut, describes_of_ofLine laidOut read⟩

theorem readable_of_ofLine {text : String} (read : ofLine text = .ok description) :
    description.Readable := by
  obtain ⟨line, laidOut, describes, valid⟩ := exists_line_of_ofLine read
  refine ⟨writable_of_describes laidOut describes, valid, ?_⟩
  have ⟨_, wellFormed, _⟩ := laidOut
  have spelled := Format.read_eq_ok_iff.mp describes.format
  rw [String.toList_ofList] at spelled
  exact Format.identity_of_formatText wellFormed.format_text spelled

namespace Readable

/-- The line that is written for the description is one from which it is read. -/
theorem exists_ofLine (readable : description.Readable) : ∃ text, ofLine text = .ok description := by
  have order := List.Perm.refl description.entries
  have laidOut := laidOutWith_write readable.valid readable.toWritable readable.identity 0 order
  have describes := describes_toLine readable.valid readable.toWritable order
  have text : (description.toLine description.entries).LaidOutAs
      (String.ofList (description.write 0 description.entries)).toList := by
    rw [String.toList_ofList]
    exact ⟨_, laidOut⟩
  exact ⟨_, (ofLine_eq_iff text).mpr (.valid describes readable.valid)⟩

/-- The word of the description is itself an encoding of the instruction. -/
theorem isEncoding_word (readable : description.Readable) :
    description.isEncoding description.word :=
  (isEncoding_iff readable.valid).mpr fun _ _ => rfl

/-- The format is valid in the canonical order, so it is valid in any. -/
theorem validate_format (readable : description.Readable) :
    description.format.validate .manual = .ok () := by
  obtain ⟨-, wellFormed, -⟩ := validate_eq_ok_iff.mp readable.valid
  exact Format.validate_manual_of_canonical (Format.validate_eq_ok_iff.mpr wellFormed)

/-- The text of the format can be the format of a line. -/
theorem formatText_repr (readable : description.Readable) : FormatText description.format.repr.toList := by
  rw [Format.repr, String.toList_ofList]
  exact Format.formatText_spell (representable_of_validate readable.valid) readable.identity

theorem ofText_repr_format (readable : description.Readable) :
    Format.ofText description.format.repr = .ok description.format :=
  Format.ofText_repr_iff.mpr (representable_of_validate readable.valid)

end Readable

/-- Exactly these descriptions can be read from a line. -/
theorem readable_iff : description.Readable ↔ ∃ text, ofLine text = .ok description :=
  ⟨Readable.exists_ofLine, fun ⟨_, read⟩ => readable_of_ofLine read⟩

end Description

end InsnEncoding
