import InsnEncoding.Proofs.Encoding
import InsnEncoding.Proofs.FirstAndLast

/-!
# Operands as registers

The operands of a valid format can be written one at a time, in any order and as often as one likes. Each
of them then behaves as a register of its own width: it holds what was written to it last, whatever was
written to the others in between (`Format.extract_writeAll`), and the bits that belong to no operand never
change (`Format.writeAll_and_fixedMask`). As operands and fixed bits determine the word, the word that a run
of writes ends in depends on the last write to each operand only: `Format.registers_independent`.
-/

namespace InsnEncoding

namespace Format

/-- A number to be written into one operand of a format. -/
structure Write (format : Format) where
  index : Fin format.operands.length
  value : Word

/-- Do writes on a word, from the first to the last. -/
def writeAll (format : Format) (start : Word) (writes : List format.Write) : Word :=
  writes.foldl (fun word write => format.operands[write.index].insert word write.value) start

/-- What was written last to an operand, if anything was. -/
def lastValue? {format : Format} (writes : List format.Write)
    (index : Fin format.operands.length) : Option Word :=
  (writes.filter fun write => write.index = index).getLast?.map Write.value

variable {format : Format}

/-- A write as a pair of an operand and a number. -/
def Write.entry (write : format.Write) : Operand × Word :=
  (format.operands[write.index], write.value)

theorem writeAll_eq_insertAll (start : Word) (writes : List format.Write) :
    format.writeAll start writes = Operand.insertAll start (writes.map Write.entry) :=
  (List.foldl_map (f := Write.entry) (g := fun word entry => entry.1.insert word entry.2)).symm

theorem lastValue?_eq_none_iff {writes : List format.Write} {index : Fin format.operands.length} :
    lastValue? writes index = none ↔ ∀ write ∈ writes, write.index ≠ index := by
  simp [lastValue?]

/-- The last write to an operand splits the writes: none of those behind it is to that operand. -/
theorem exists_split_of_lastValue? {writes : List format.Write}
    {index : Fin format.operands.length} {value : Word}
    (last : lastValue? writes index = some value) :
    ∃ before behind, writes = before ++ ⟨index, value⟩ :: behind ∧
      ∀ write ∈ behind, write.index ≠ index := by
  obtain ⟨⟨place, number⟩, found, rfl⟩ := Option.map_eq_some_iff.mp last
  obtain ⟨same, before, behind, split, others⟩ := getLast?_filter_eq_some_iff.mp found
  have here : place = index := by simpa using same
  subst here
  exact ⟨before, behind, split, by simpa using others⟩

theorem Placed.disjoint_of_ne (placed : format.Placed) {first second : Fin format.operands.length}
    (different : first ≠ second) :
    Operand.Disjoint format.operands[first] format.operands[second] := by
  have apart := List.pairwise_iff_getElem.mp placed.operands_disjoint
  rcases Nat.lt_or_gt_of_ne (Fin.val_ne_of_ne different) with before | behind
  · exact apart _ _ first.isLt second.isLt before
  · intro bit both
    exact apart _ _ second.isLt first.isLt behind bit both.symm

/-- Writes to other operands are writes to disjoint ones. -/
theorem Placed.disjoint_entries (placed : format.Placed) {index : Fin format.operands.length}
    {writes : List format.Write} (others : ∀ write ∈ writes, write.index ≠ index) :
    ∀ entry ∈ writes.map Write.entry, format.operands[index].Disjoint entry.1 := by
  intro entry member
  obtain ⟨write, inWrites, rfl⟩ := List.mem_map.mp member
  exact placed.disjoint_of_ne (others write inWrites).symm

/-- An operand holds what was written to it last, cut to its width, and what it held before if nothing
    was. -/
theorem extract_writeAll (placed : format.Placed) (start : Word) (writes : List format.Write)
    (index : Fin format.operands.length) :
    format.operands[index].extract (format.writeAll start writes) =
      match lastValue? writes index with
      | some value => value &&& Word.lowMask format.operands[index].totalWidth
      | none => format.operands[index].extract start := by
  have placedHere : format.operands[index].Placed := placed.operand (List.getElem_mem _)
  rw [writeAll_eq_insertAll]
  cases last : lastValue? writes index with
  | none =>
    have others := lastValue?_eq_none_iff.mp last
    exact Operand.extract_insertAll_of_disjoint placedHere (placed.disjoint_entries others)
  | some value =>
    obtain ⟨before, behind, split, others⟩ := exists_split_of_lastValue? last
    rw [split, List.map_append, List.map_cons]
    exact Operand.extract_insertAll_of_split placedHere (placed.disjoint_entries others)

/-- Writes leave every bit alone that no operand covers. -/
theorem getLsbD_writeAll_of_not_covers (start : Word) (writes : List format.Write) {bit : Nat}
    (outside : ¬ format.Covers bit) :
    (format.writeAll start writes).getLsbD bit = start.getLsbD bit := by
  rw [writeAll_eq_insertAll]
  apply Operand.getLsbD_insertAll_of_not_covers
  intro entry member covers
  obtain ⟨write, _, rfl⟩ := List.mem_map.mp member
  exact outside (covers_iff.mpr ⟨_, List.getElem_mem _, covers⟩)

/-- Writes leave the fixed bits alone. -/
theorem writeAll_and_fixedMask (start : Word) (writes : List format.Write) :
    format.writeAll start writes &&& format.fixedMask = start &&& format.fixedMask :=
  and_fixedMask_congr fun _ => getLsbD_writeAll_of_not_covers start writes

/-- The word after some writes depends on the last write to each operand only. -/
theorem writeAll_congr (placed : format.Placed) (start : Word) {writes others : List format.Write}
    (same : ∀ index, lastValue? writes index = lastValue? others index) :
    format.writeAll start writes = format.writeAll start others := by
  apply eq_of_extract_eq placed
  · apply List.map_congr_left
    intro operand member
    obtain ⟨index, inside, rfl⟩ := List.getElem_of_mem member
    have first := extract_writeAll placed start writes ⟨index, inside⟩
    have second := extract_writeAll placed start others ⟨index, inside⟩
    rw [same] at first
    exact first.trans second.symm
  · intro bit outside
    rw [getLsbD_writeAll_of_not_covers start writes outside,
      getLsbD_writeAll_of_not_covers start others outside]

/-- After any run of writes on a word, the fixed bits are those of the word, and each operand holds the
    last value written to it, modulo its width, or what it held in the word. Hence runs that agree for each
    operand on whether it is written and on its last value end in the same word. -/
theorem registers_independent (valid : format.validate .manual = .ok ()) (start : Word) :
    (∀ writes : List format.Write,
      format.writeAll start writes &&& format.fixedMask = start &&& format.fixedMask ∧
      ∀ index : Fin format.operands.length,
        (format.operands[index].extract (format.writeAll start writes)).toNat =
          match lastValue? writes index with
          | some value => value.toNat % 2 ^ format.operands[index].totalWidth
          | none => (format.operands[index].extract start).toNat) ∧
    ∀ writes others : List format.Write,
      (∀ index, lastValue? writes index = lastValue? others index) →
        format.writeAll start writes = format.writeAll start others := by
  have placed := (validate_eq_ok_iff.mp valid).1.placed
  refine ⟨fun writes => ⟨writeAll_and_fixedMask start writes, fun index => ?_⟩,
    fun writes others => writeAll_congr placed start⟩
  rw [extract_writeAll placed start writes index]
  cases lastValue? writes index with
  | none => rfl
  | some value => exact Word.toNat_and_lowMask value _

/-- A bit field move: a register behind an immediate, and another immediate with two slots. -/
def bitField : Format :=
  ⟨[⟨.unsignedImmediate, [⟨0, 5⟩, ⟨10, 6⟩], .add 1⟩, .register .intRegister 5,
    ⟨.signedImmediate, [⟨18, 4⟩, ⟨16, 2⟩], .identity⟩]⟩

theorem registers_independent_bitField : bitField.validate .manual = .ok () ∧
    (bitField.operands[(0 : Fin 3)].extract (bitField.writeAll 0xFFFFFFFF
        [⟨(0 : Fin 3), 1⟩, ⟨(2 : Fin 3), 42⟩, ⟨(0 : Fin 3), 4095⟩, ⟨(2 : Fin 3), 7⟩])).toNat =
      4095 % 2 ^ 11 ∧
    bitField.writeAll 0xFFFFFFFF
        [⟨(0 : Fin 3), 1⟩, ⟨(2 : Fin 3), 42⟩, ⟨(0 : Fin 3), 4095⟩, ⟨(2 : Fin 3), 7⟩] =
      bitField.writeAll 0xFFFFFFFF [⟨(2 : Fin 3), 7⟩, ⟨(0 : Fin 3), 4095⟩] := by
  have valid : bitField.validate .manual = .ok () := by decide
  obtain ⟨reads, determined⟩ := registers_independent valid 0xFFFFFFFF
  exact ⟨valid, (reads _).2 (0 : Fin 3), determined _ _ (by decide)⟩

end Format

end InsnEncoding
