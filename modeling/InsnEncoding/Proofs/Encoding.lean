import InsnEncoding.Proofs.Placement
import Mathlib.Data.Set.Function

/-!
# Encoding and extraction

To encode is to write one operand after the other (`Operand.insertAll`). Operands that share no bit do
not disturb each other, so what is read from an operand after any number of writes is what was written
to it last (`Operand.extract_insertAll_of_split`), and the bits that no operand covers stay as they were.
The bits that no operand covers and the operands together determine the word
(`Format.eq_of_extract_eq`).

The main statement is `Description.encode_bijective`: a valid description encodes the admitted operand
lists one-to-one onto its encodings, and extraction is the inverse.
-/

namespace InsnEncoding

namespace Operand

/-- No bit is covered by both operands. -/
def Disjoint (first second : Operand) : Prop :=
  ∀ bit, ¬ (first.Covers bit ∧ second.Covers bit)

/-- Write numbers into operands, one after the other. -/
def insertAll (word : Word) (writes : List (Operand × Word)) : Word :=
  writes.foldl (fun word write => write.1.insert word write.2) word

@[simp] theorem insertAll_cons (word : Word) (write : Operand × Word)
    (rest : List (Operand × Word)) :
    insertAll word (write :: rest) = insertAll (write.1.insert word write.2) rest := rfl

theorem insertAll_append (word : Word) (before behind : List (Operand × Word)) :
    insertAll word (before ++ behind) = insertAll (insertAll word before) behind :=
  List.foldl_append

/-- Writes leave every bit alone that none of their operands covers. -/
theorem getLsbD_insertAll_of_not_covers {word : Word} {writes : List (Operand × Word)} {bit : Nat}
    (outside : ∀ write ∈ writes, ¬ write.1.Covers bit) :
    (insertAll word writes).getLsbD bit = word.getLsbD bit := by
  induction writes generalizing word with
  | nil => rfl
  | cons write rest ih =>
    obtain ⟨first, others⟩ := List.forall_mem_cons.mp outside
    rw [insertAll_cons, ih others, getLsbD_insert_of_not_covers first]

/-- Writes to other operands do not change what is read from an operand. -/
theorem extract_insertAll_of_disjoint {operand : Operand} (placed : operand.Placed) {word : Word}
    {writes : List (Operand × Word)} (apart : ∀ write ∈ writes, operand.Disjoint write.1) :
    operand.extract (insertAll word writes) = operand.extract word := by
  apply extract_congr placed
  intro bit covers
  apply getLsbD_insertAll_of_not_covers
  intro write member coversToo
  exact apart write member bit ⟨covers, coversToo⟩

/-- What is read from an operand is what was written to it last. -/
theorem extract_insertAll_of_split {operand : Operand} (placed : operand.Placed) {word value : Word}
    {before behind : List (Operand × Word)}
    (apart : ∀ write ∈ behind, operand.Disjoint write.1) :
    operand.extract (insertAll word (before ++ (operand, value) :: behind)) =
      value &&& Word.lowMask operand.totalWidth := by
  rw [insertAll_append, insertAll_cons, extract_insertAll_of_disjoint placed apart,
    extract_insert placed]

/-- After one write to each of some disjoint operands, each of them holds its own value. -/
theorem map_extract_insertAll_zip {operands : List Operand}
    (placed : ∀ operand ∈ operands, operand.Placed) (apart : operands.Pairwise Operand.Disjoint)
    {word : Word} {values : List Word} (length : values.length = operands.length) :
    (operands.map fun operand => operand.extract (insertAll word (operands.zip values))) =
      List.zipWith (fun operand value => value &&& Word.lowMask operand.totalWidth) operands
        values := by
  induction operands generalizing word values with
  | nil => rfl
  | cons operand rest ih =>
    cases values with
    | nil => contradiction
    | cons value values =>
      obtain ⟨placedFirst, placedRest⟩ := List.forall_mem_cons.mp placed
      obtain ⟨apartFirst, apartRest⟩ := List.pairwise_cons.mp apart
      have others : ∀ write ∈ rest.zip values, operand.Disjoint write.1 :=
        fun write member => apartFirst write.1 (List.of_mem_zip member).1
      have first : operand.extract (insertAll word ([] ++ (operand, value) :: rest.zip values)) =
          value &&& Word.lowMask operand.totalWidth :=
        extract_insertAll_of_split placedFirst others
      have later := @ih placedRest apartRest (operand.insert word value) values
        (Nat.succ.inj length)
      rw [List.zip_cons_cons, List.zipWith_cons_cons, List.map_cons]
      exact congrArg₂ List.cons first later

end Operand

namespace Format

/-- The slots of all operands are placed. -/
abbrev Placed (format : Format) : Prop :=
  Slot.Placed format.slots

theorem WellFormed.placed {format : Format} (wellFormed : format.WellFormed) : format.Placed :=
  ⟨wellFormed.fits, wellFormed.2⟩

theorem Placed.operand {format : Format} (placed : format.Placed) {operand : Operand}
    (member : operand ∈ format.operands) : operand.Placed := by
  refine ⟨fun slot inside => ?_, (List.pairwise_flatMap.mp placed.disjoint).1 operand member⟩
  exact placed.fits slot (List.mem_flatMap.mpr ⟨operand, member, inside⟩)

theorem Placed.operands_disjoint {format : Format} (placed : format.Placed) :
    format.operands.Pairwise Operand.Disjoint := by
  refine (List.pairwise_flatMap.mp placed.disjoint).2.imp ?_
  rintro first second apart bit ⟨⟨slot, inFirst, covers⟩, other, inSecond, coversToo⟩
  exact apart slot inFirst other inSecond bit ⟨covers, coversToo⟩

/-- The raw values of the operands in a word. -/
def extract (format : Format) (word : Word) : List Word :=
  format.operands.map fun operand => operand.extract word

/-- Each value cut to the width of its operand. -/
def truncate (format : Format) (values : List Word) : List Word :=
  List.zipWith (fun operand value => value &&& Word.lowMask operand.totalWidth) format.operands values

/-- There is one value for each operand, and it is not wider than the operand. -/
def Admits (format : Format) (values : List Word) : Prop :=
  List.Forall₂ (fun operand value => value.toNat < 2 ^ operand.totalWidth) format.operands values

theorem Admits.length_eq {format : Format} {values : List Word} (admits : format.Admits values) :
    values.length = format.size :=
  (List.Forall₂.length_eq admits).symm

theorem truncate_of_admits {format : Format} {values : List Word} (admits : format.Admits values) :
    format.truncate values = values := by
  rw [truncate]
  unfold Admits at admits
  generalize format.operands = operands at admits
  induction admits with
  | nil => rfl
  | @cons operand value operands values narrow _ ih =>
    have same : value &&& Word.lowMask operand.totalWidth = value := by
      apply BitVec.eq_of_toNat_eq
      rw [Word.toNat_and_lowMask, Nat.mod_eq_of_lt narrow]
    rw [List.zipWith_cons_cons, same, ih]

theorem Placed.admits_extract {format : Format} (placed : format.Placed) (word : Word) :
    format.Admits (format.extract word) := by
  rw [Admits, extract, List.forall₂_map_right_iff, List.forall₂_same]
  intro operand member
  exact Operand.extract_lt (placed.operand member) word

theorem encode_of_length_eq {format : Format} (base : Word) {values : List Word}
    (length : values.length = format.size) :
    format.encode base values = .ok (Operand.insertAll base (format.operands.zip values)) :=
  if_pos length

theorem encode_of_length_ne {format : Format} (base : Word) {values : List Word}
    (length : values.length ≠ format.size) :
    format.encode base values = .error (.operandCountMismatch format.size values.length) :=
  if_neg length

theorem encode_eq_ok_iff {format : Format} {base word : Word} {values : List Word} :
    format.encode base values = .ok word ↔
      values.length = format.size ∧
        Operand.insertAll base (format.operands.zip values) = word := by
  by_cases length : values.length = format.size
  · simp [encode_of_length_eq base length, length]
  · simp [encode_of_length_ne base length, length]

/-- The operands read from an encoding are those encoded, each cut to its width. -/
theorem extract_of_encode {format : Format} (placed : format.Placed) {base word : Word}
    {values : List Word} (encoded : format.encode base values = .ok word) :
    format.extract word = format.truncate values := by
  obtain ⟨length, rfl⟩ := encode_eq_ok_iff.mp encoded
  exact Operand.map_extract_insertAll_zip (fun _ => placed.operand) placed.operands_disjoint length

/-- An operand in an encoding holds its value, cut to its width. -/
theorem toNat_extract_of_encode {format : Format} (placed : format.Placed) {base word : Word}
    {values : List Word} (encoded : format.encode base values = .ok word) {index : Nat}
    {operand : Operand} {value : Word} (here : format.operands[index]? = some operand)
    (given : values[index]? = some value) :
    (operand.extract word).toNat = value.toNat % 2 ^ operand.totalWidth := by
  have read := congrArg (fun values : List Word => values[index]?) (extract_of_encode placed encoded)
  simp only [extract, truncate, List.getElem?_map, List.getElem?_zipWith, here, given,
    Option.map_some, Option.some.injEq] at read
  rw [read, Word.toNat_and_lowMask]

/-- An encoding has the bits of the base where there is no operand. -/
theorem getLsbD_of_encode {format : Format} {base word : Word} {values : List Word}
    (encoded : format.encode base values = .ok word) {bit : Nat} (outside : ¬ format.Covers bit) :
    word.getLsbD bit = base.getLsbD bit := by
  obtain ⟨-, rfl⟩ := encode_eq_ok_iff.mp encoded
  apply Operand.getLsbD_insertAll_of_not_covers
  intro write member covers
  exact outside (covers_iff.mpr ⟨write.1, (List.of_mem_zip member).1, covers⟩)

/-- The fixed bits of a word are its bits outside the mask. -/
theorem getLsbD_and_fixedMask (format : Format) (word : Word) (bit : Nat) :
    (word &&& format.fixedMask).getLsbD bit = (word.getLsbD bit && !format.mask.getLsbD bit) := by
  rw [fixedMask, BitVec.getLsbD_and, BitVec.getLsbD_not]
  by_cases inWord : bit < 32
  · simp [inWord]
  · simp [BitVec.getLsbD_of_ge word bit (Nat.le_of_not_lt inWord)]

/-- Words that agree wherever no operand is have the same fixed bits. -/
theorem and_fixedMask_congr {format : Format} {first second : Word}
    (agree : ∀ bit, ¬ format.Covers bit → first.getLsbD bit = second.getLsbD bit) :
    first &&& format.fixedMask = second &&& format.fixedMask := by
  apply BitVec.eq_of_getLsbD_eq
  intro bit inWord
  rw [getLsbD_and_fixedMask, getLsbD_and_fixedMask]
  by_cases covered : format.Covers bit
  · rw [getLsbD_mask_iff_covers.mpr ⟨inWord, covered⟩, Bool.not_true, Bool.and_false, Bool.and_false]
  · rw [agree bit covered]

/-- The operands and the bits that no operand covers determine the word. -/
theorem eq_of_extract_eq {format : Format} (placed : format.Placed) {first second : Word}
    (same : format.extract first = format.extract second)
    (fixed : ∀ bit, ¬ format.Covers bit → first.getLsbD bit = second.getLsbD bit) :
    first = second := by
  apply BitVec.eq_of_getLsbD_eq
  intro bit _
  by_cases covered : format.Covers bit
  · obtain ⟨operand, member, covers⟩ := covers_iff.mp covered
    have sameOperand := List.map_inj_left.mp same operand member
    exact Operand.getLsbD_eq_of_extract_eq (placed.operand member) sameOperand covers
  · exact fixed bit covered

/-- To encode what was extracted gives the word back if the base has its fixed bits. -/
theorem encode_extract {format : Format} (placed : format.Placed) {base word : Word}
    (fixed : ∀ bit, ¬ format.Covers bit → word.getLsbD bit = base.getLsbD bit) :
    format.encode base (format.extract word) = .ok word := by
  have length : (format.extract word).length = format.size := List.length_map _
  have encoded := encode_of_length_eq base length
  rw [encoded]
  congr 1
  apply eq_of_extract_eq placed
  · rw [extract_of_encode placed encoded, truncate_of_admits (placed.admits_extract word)]
  · intro bit outside
    rw [getLsbD_of_encode encoded outside, fixed bit outside]

end Format

namespace Description

theorem placed_of_validate {description : Description} (valid : description.validate = .ok ()) :
    description.format.Placed := by
  obtain ⟨-, ⟨wellFormed, -⟩, -⟩ := validate_eq_ok_iff.mp valid
  exact wellFormed.placed

/-- A word is an encoding if it agrees with the description's word where there is no operand. -/
theorem isEncoding_iff {description : Description} (valid : description.validate = .ok ())
    {word : Word} :
    description.isEncoding word ↔
      ∀ bit, ¬ description.format.Covers bit → word.getLsbD bit = description.word.getLsbD bit := by
  obtain ⟨-, ⟨wellFormed, -⟩, clear⟩ := validate_eq_ok_iff.mp valid
  have mask (bit : Nat) : description.format.mask.getLsbD bit ↔ description.format.Covers bit :=
    Format.getLsbD_mask_iff wellFormed.fits
  have fixed (bit : Nat) := description.format.getLsbD_and_fixedMask word bit
  rw [isEncoding, beq_iff_eq]
  constructor
  · rintro same bit outside
    have unmasked := Bool.eq_false_iff.mpr (mt (mask bit).mp outside)
    rw [← same, fixed, unmasked, Bool.not_false, Bool.and_true]
  · intro agree
    apply BitVec.eq_of_getLsbD_eq
    intro bit _
    by_cases covered : description.format.Covers bit
    · rw [fixed, (mask bit).mpr covered, clear bit covered, Bool.not_true, Bool.and_false]
    · have unmasked := Bool.eq_false_iff.mpr (mt (mask bit).mp covered)
      rw [fixed, unmasked, agree bit covered, Bool.not_false, Bool.and_true]

theorem isEncoding_of_encode {description : Description} (valid : description.validate = .ok ())
    {values : List Word} {word : Word} (encoded : description.encode values = .ok word) :
    description.isEncoding word :=
  (isEncoding_iff valid).mpr fun _ => Format.getLsbD_of_encode encoded

theorem encode_extract_iff {description : Description} (valid : description.validate = .ok ())
    {word : Word} :
    description.encode (description.format.extract word) = .ok word ↔
      description.isEncoding word := by
  constructor
  · exact isEncoding_of_encode valid
  · intro encoding
    exact Format.encode_extract (placed_of_validate valid) ((isEncoding_iff valid).mp encoding)

theorem extract_of_encode {description : Description} (valid : description.validate = .ok ())
    {values : List Word} (admits : description.format.Admits values) {word : Word}
    (encoded : description.encode values = .ok word) : description.format.extract word = values := by
  rw [Format.extract_of_encode (placed_of_validate valid) encoded, Format.truncate_of_admits admits]

/-- The admitted operand lists are encoded one-to-one onto the encodings of the instruction. -/
theorem bijOn_encode {description : Description} (valid : description.validate = .ok ()) :
    Set.BijOn description.encode {values | description.format.Admits values}
      (Except.ok '' {word | description.isEncoding word}) := by
  refine ⟨?_, ?_, ?_⟩
  · intro values admits
    have encoded := Format.encode_of_length_eq description.word (Format.Admits.length_eq admits)
    exact ⟨_, isEncoding_of_encode valid encoded, encoded.symm⟩
  · intro first admitsFirst second admitsSecond same
    have encoded := Format.encode_of_length_eq description.word (Format.Admits.length_eq admitsFirst)
    rw [← extract_of_encode valid admitsFirst encoded,
      ← extract_of_encode valid admitsSecond (same.symm.trans encoded)]
  · rintro _ ⟨word, encoding, rfl⟩
    exact ⟨description.format.extract word, (placed_of_validate valid).admits_extract word,
      (encode_extract_iff valid).mpr encoding⟩

/-- Every operand list of the right length is encoded, and each operand is read back cut to its width;
    exactly the encodings are what their own operands encode to. Hence the lists that the format admits
    correspond one-to-one to the encodings. A list of any other length is refused. -/
theorem encode_bijective {description : Description} (valid : description.validate = .ok ()) :
    (∀ values, values.length = description.format.size →
      ∃ word, description.encode values = .ok word ∧ description.isEncoding word ∧
        ∀ (index : Nat) (operand : Operand) (value : Word),
          description.format.operands[index]? = some operand →
          values[index]? = some value →
          (operand.extract word).toNat = value.toNat % 2 ^ operand.totalWidth) ∧
    (∀ word, description.isEncoding word ↔
      description.encode (description.format.extract word) = .ok word) ∧
    Set.BijOn description.encode {values | description.format.Admits values}
      (Except.ok '' {word | description.isEncoding word}) ∧
    (∀ values word, description.format.Admits values → description.encode values = .ok word →
      description.format.extract word = values) ∧
    (∀ values, values.length ≠ description.format.size →
      description.encode values =
        .error (.operandCountMismatch description.format.size values.length)) := by
  refine ⟨fun values length => ?_, fun word => (encode_extract_iff valid).symm, bijOn_encode valid,
    fun values word admits => extract_of_encode valid admits,
    fun values => Format.encode_of_length_ne description.word⟩
  have encoded := Format.encode_of_length_eq description.word length
  exact ⟨_, encoded, isEncoding_of_encode valid encoded, fun _ _ _ =>
    Format.toNat_extract_of_encode (placed_of_validate valid) encoded⟩

/-- A branch on a register, whose offset is split over two slots. -/
def branch : Description where
  word := 0x40000000
  mnemonic := "beqz"
  format := ⟨[.register .intRegister 5, ⟨.signedImmediate, [⟨0, 5⟩, ⟨10, 16⟩], .identity⟩]⟩

theorem encode_branch : branch.validate = .ok () ∧
    (∀ word, branch.isEncoding word ↔ branch.encode (branch.format.extract word) = .ok word) ∧
    Set.BijOn branch.encode {values | branch.format.Admits values}
      (Except.ok '' {word | branch.isEncoding word}) := by
  have valid : branch.validate = .ok () := by decide
  obtain ⟨-, encoding, bijective, -⟩ := encode_bijective valid
  exact ⟨valid, encoding, bijective⟩

end Description

end InsnEncoding
