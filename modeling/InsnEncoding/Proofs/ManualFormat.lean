import InsnEncoding.Proofs.Encoding

/-!
# The manual format and the format

A manual may list the operands of an instruction in another order and cut its bits into other operands. A
valid manual format covers the bits that the format covers (`Description.covers_iff_of_validateManualFormat`),
and that is all the two have in common. It is enough: both describe the same words, and an operand list in
one of them is turned into an operand list in the other and back without loss, through the word that both
are stored as (`Format.translate_translate`, `Description.manualFormat_encodes`).
-/

namespace InsnEncoding

namespace Format

/-- The operand list in another format that is stored as the same word. -/
def translate (source target : Format) (base : Word) (values : List Word) :
    Except ValidationError (List Word) :=
  (source.encode base values).map target.extract

/-- Translating there and back cuts each value to its width and changes nothing else. -/
theorem translate_translate {first second : Format} (firstPlaced : first.Placed)
    (secondPlaced : second.Placed) (sameBits : ∀ bit, first.Covers bit ↔ second.Covers bit)
    (base : Word) {values : List Word} (length : values.length = first.size) :
    (first.translate second base values >>= second.translate first base) =
      .ok (first.truncate values) := by
  have encoded := encode_of_length_eq base length
  -- The word has the fixed bits of the base, so the other format encodes what it reads as that word.
  have again := encode_extract secondPlaced fun bit outside =>
    getLsbD_of_encode encoded (mt (sameBits bit).mp outside)
  have back := extract_of_encode firstPlaced encoded
  unfold translate
  rw [encoded]
  show (second.encode base _).map first.extract = _
  rw [again]
  exact congrArg Except.ok back

end Format

namespace Description

/-- A valid manual format covers the bits of the format. -/
theorem covers_iff_of_validateManualFormat {description : Description} {manual : Format}
    (valid : description.validate = .ok ()) (given : description.manualFormat = some manual)
    (validManual : description.validateManualFormat = .ok ()) :
    manual.Placed ∧ ∀ bit, manual.Covers bit ↔ description.format.Covers bit := by
  obtain ⟨accepted, sameMask⟩ := (validateManualFormat_eq_ok_iff given).mp validManual
  have placed := (Format.validate_eq_ok_iff.mp accepted).1.placed
  refine ⟨placed, fun bit => ?_⟩
  rw [← Format.getLsbD_mask_iff placed.fits, ← sameMask,
    Format.getLsbD_mask_iff (placed_of_validate valid).fits]

/-- Every operand list of the right length in a valid manual format is encoded as an encoding of the
    instruction, and each operand is read back cut to its width. Every encoding is what its operands in
    either format encode to. Hence an operand list in one of the formats comes back from the other as it
    was, each value cut to its width. -/
theorem manualFormat_encodes {description : Description} {manual : Format}
    (valid : description.validate = .ok ()) (given : description.manualFormat = some manual)
    (validManual : description.validateManualFormat = .ok ()) :
    (∀ values, values.length = manual.size →
      ∃ word, manual.encode description.word values = .ok word ∧ description.isEncoding word ∧
        ∀ (index : Nat) (operand : Operand) (value : Word),
          manual.operands[index]? = some operand → values[index]? = some value →
          (operand.extract word).toNat = value.toNat % 2 ^ operand.totalWidth) ∧
    (∀ word, description.isEncoding word →
      manual.encode description.word (manual.extract word) = .ok word ∧
      description.encode (description.format.extract word) = .ok word) ∧
    (∀ values, values.length = manual.size →
      (manual.translate description.format description.word values >>=
        description.format.translate manual description.word) = .ok (manual.truncate values)) ∧
    (∀ values, values.length = description.format.size →
      (description.format.translate manual description.word values >>=
        manual.translate description.format description.word) =
          .ok (description.format.truncate values)) := by
  have placed := placed_of_validate valid
  obtain ⟨manualPlaced, sameBits⟩ := covers_iff_of_validateManualFormat valid given validManual
  refine ⟨fun values length => ?_, fun word encoding => ⟨?_, (encode_extract_iff valid).mpr encoding⟩,
    fun values => Format.translate_translate manualPlaced placed sameBits description.word,
    fun values => Format.translate_translate placed manualPlaced (fun bit => (sameBits bit).symm)
      description.word⟩
  · have encoded := Format.encode_of_length_eq description.word length
    refine ⟨_, encoded, (isEncoding_iff valid).mpr fun bit outside => ?_, fun _ _ _ =>
      Format.toNat_extract_of_encode manualPlaced encoded⟩
    exact Format.getLsbD_of_encode encoded (mt (sameBits bit).mp outside)
  · apply Format.encode_extract manualPlaced
    intro bit outside
    exact (isEncoding_iff valid).mp encoding bit (mt (sameBits bit).mpr outside)

/-- A store whose manual syntax names the value before the address and joins two fields of the word into
    one offset. -/
def scaledStore : Description where
  word := 0x25000000
  mnemonic := "stptr.w"
  format := ⟨[.register .intRegister 0, .register .intRegister 5,
    ⟨.signedImmediate, [⟨16, 8⟩], .identity⟩, ⟨.unsignedImmediate, [⟨10, 6⟩], .identity⟩]⟩
  manualFormat := some ⟨[.register .intRegister 5,
    ⟨.signedImmediate, [⟨10, 6⟩, ⟨16, 8⟩], .shiftLeft 2⟩, .register .intRegister 0]⟩

theorem manualFormat_encodes_scaledStore : scaledStore.validate = .ok () ∧
    ∃ manual, scaledStore.manualFormat = some manual ∧ scaledStore.validateManualFormat = .ok () ∧
      (manual.translate scaledStore.format scaledStore.word [3, 0x12345, 4] >>=
        scaledStore.format.translate manual scaledStore.word) =
          .ok (manual.truncate [3, 0x12345, 4]) ∧
      ∀ word, scaledStore.isEncoding word →
        manual.encode scaledStore.word (manual.extract word) = .ok word := by
  have valid : scaledStore.validate = .ok () := by decide
  have validManual : scaledStore.validateManualFormat = .ok () := by decide
  obtain ⟨-, encoding, there, -⟩ := manualFormat_encodes valid rfl validManual
  exact ⟨valid, _, rfl, validManual, there _ rfl, fun word encodes => (encoding word encodes).1⟩

end Description

end InsnEncoding
