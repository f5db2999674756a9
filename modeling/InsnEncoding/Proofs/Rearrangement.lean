import InsnEncoding.Proofs.Footprint
import Mathlib.Data.List.FinRange
import Mathlib.Logic.Equiv.Fin.Rotate

/-!
# The order of the operands

Except for the rule that no register stands after an immediate, the order of the operands of a format makes no
difference. What is asked of the operands and their slots is asked of each of them or of each pair
(`Format.wellFormed_congr`), and a mask is a union. To encode is to write one operand after the other, and
since the operands of a valid format are disjoint, any two of these writes may be exchanged
(`Operand.insertAll_congr`). Only the numbers must be rearranged as the operands are.

A valid format meets the rule exactly if it is its own rearrangement with the registers first.
-/

namespace InsnEncoding

/-- The second list has the members of the first, each at the place whose old place the order tells. -/
def Rearranged {α : Type} {count : Nat} (order : Equiv.Perm (Fin count)) (list other : List α) : Prop :=
  other.length = list.length ∧ ∀ place : Fin count, other[place.val]? = list[(order place).val]?

namespace Rearranged

variable {α β : Type} {count : Nat} {order : Equiv.Perm (Fin count)}

theorem perm {list other : List α} (length : list.length = count)
    (rearranged : Rearranged order list other) : other.Perm list := by
  subst length
  obtain ⟨length, placed⟩ := rearranged
  have itself : List.ofFn (fun place : Fin list.length => list[place]) = list := List.ofFn_getElem
  have composed : other = List.ofFn ((fun place => list[place]) ∘ order) := by
    apply List.ext_getElem?
    intro place
    by_cases inside : place < list.length
    · rw [placed ⟨place, inside⟩, List.getElem?_ofFn, dif_pos inside]
      exact List.getElem?_eq_getElem _
    · rw [List.getElem?_eq_none (by omega), List.getElem?_eq_none (by rw [List.length_ofFn]; omega)]
  rw [composed]
  exact (order.ofFn_comp_perm _).trans (.of_eq itself)

theorem zip {list other : List α} {list' other' : List β} (first : Rearranged order list other)
    (second : Rearranged order list' other') : Rearranged order (list.zip list') (other.zip other') := by
  refine ⟨?_, fun place => ?_⟩
  · rw [List.length_zip, List.length_zip, first.1, second.1]
  · rw [List.zip_eq_zipWith, List.zip_eq_zipWith, List.getElem?_zipWith, List.getElem?_zipWith, first.2, second.2]

/-- Every permutation of a list rearranges it in some order. -/
theorem exists_of_perm [DecidableEq α] {list other : List α} (permuted : other.Perm list) :
    ∃ order : Equiv.Perm (Fin list.length), Rearranged order list other := by
  refine ⟨(finCongr permuted.length_eq.symm).trans
    (Equiv.ofBijective permuted.idxBij ⟨permuted.idxBij_injective, permuted.idxBij_surjective⟩),
    permuted.length_eq, fun place => ?_⟩
  have inside : place.val < other.length := by rw [permuted.length_eq]; exact place.isLt
  have same := permuted.getElem_idxBij_eq_getElem ⟨place, inside⟩
  rw [List.getElem?_eq_getElem inside, ← same]
  exact (List.getElem?_eq_getElem _).symm

end Rearranged

/-- The members of a list that have a property, followed by the others, are the list itself exactly if no
    member has the property behind one that has not. -/
theorem filter_append_filter_not_eq_self_iff {α : Type} {has : α → Bool} {list : List α} :
    list.filter has ++ list.filter (fun member => !has member) = list ↔
      list.Pairwise fun first second => ¬ has first → ¬ has second := by
  constructor
  · intro same
    rw [← same, List.pairwise_append]
    refine ⟨?_, ?_, ?_⟩
    · exact List.pairwise_of_forall_mem_list fun first member _ _ without =>
        absurd (List.mem_filter.mp member).2 without
    · refine List.pairwise_of_forall_mem_list fun _ _ second member _ => ?_
      simpa using (List.mem_filter.mp member).2
    · intro first member _ _ without
      exact absurd (List.mem_filter.mp member).2 without
  · intro ordered
    induction list with
    | nil => rfl
    | cons first rest ih =>
      obtain ⟨apart, ordered⟩ := List.pairwise_cons.mp ordered
      by_cases with_ : has first
      · rw [List.filter_cons_of_pos with_, List.filter_cons_of_neg (by simp [with_]), List.cons_append,
          ih ordered]
      · have without : ∀ member ∈ first :: rest, ¬ has member :=
          List.forall_mem_cons.mpr ⟨with_, fun member inRest => apart member inRest with_⟩
        rw [List.filter_eq_nil_iff.mpr without, List.nil_append, List.filter_eq_self]
        simpa using without

theorem Slot.Disjoint.symm {first second : Slot} (apart : first.Disjoint second) :
    second.Disjoint first :=
  fun bit ⟨inSecond, inFirst⟩ => apart bit ⟨inFirst, inSecond⟩

namespace Operand

theorem Disjoint.symm {first second : Operand} (apart : first.Disjoint second) :
    second.Disjoint first :=
  fun bit ⟨inSecond, inFirst⟩ => apart bit ⟨inFirst, inSecond⟩

/-- Writes to disjoint operands may be made in any order. -/
theorem insertAll_congr {writes others : List (Operand × Word)} (permuted : others.Perm writes)
    (apart : writes.Pairwise fun first second => first.1.Disjoint second.1) (word : Word) :
    insertAll word others = insertAll word writes := by
  have symmetric : Std.Symm fun first second : Operand × Word => first.1.Disjoint second.1 :=
    ⟨fun _ _ => Disjoint.symm⟩
  refine permuted.foldl_eq' (fun first inOthers second inOthersToo word => ?_) word
  by_cases same : first = second
  · rw [same]
  · have disjoint : first.1.Disjoint second.1 :=
      apart.forall (permuted.mem_iff.mp inOthers) (permuted.mem_iff.mp inOthersToo) same
    exact insert_comm disjoint word first.2 second.2

end Operand

namespace Format

variable {format other : Format}

theorem slots_perm (permuted : other.operands.Perm format.operands) : other.slots.Perm format.slots :=
  permuted.flatMap fun _ _ => .refl _

/-- Well-formedness does not depend on the order of the operands. -/
theorem wellFormed_congr (permuted : other.operands.Perm format.operands) :
    other.WellFormed ↔ format.WellFormed := by
  refine and_congr ?_ ((slots_perm permuted).pairwise_iff Slot.Disjoint.symm)
  exact forall_congr' fun operand => imp_congr_left permuted.mem_iff

/-- Nor does the mask. -/
theorem mask_congr (permuted : other.operands.Perm format.operands) : other.mask = format.mask := by
  apply BitVec.eq_of_getLsbD_eq
  intro bit _
  rw [Bool.eq_iff_iff, getLsbD_mask_iff_covers, getLsbD_mask_iff_covers]
  exact and_congr_right fun _ => exists_congr fun slot =>
    and_congr_left fun _ => (slots_perm permuted).mem_iff

/-- If no two operands share a bit, they are encoded in any order, as long as each has its own number. -/
theorem encode_congr {order : Equiv.Perm (Fin format.size)}
    (apart : format.operands.Pairwise Operand.Disjoint)
    (rearranged : Rearranged order format.operands other.operands) {values others : List Word}
    (rearrangedToo : Rearranged order values others) (base : Word) :
    other.encode base others = format.encode base values := by
  have size : other.size = format.size := rearranged.1
  by_cases length : values.length = format.size
  · have lengthToo : others.length = other.size := by rw [rearrangedToo.1, size, length]
    rw [encode_of_length_eq base length, encode_of_length_eq base lengthToo]
    have pairs : (format.operands.zip values).length = format.size := by
      rw [List.length_zip, length]
      exact Nat.min_self _
    rw [Operand.insertAll_congr ((rearranged.zip rearrangedToo).perm pairs)]
    apply List.pairwise_map.mp
    rwa [List.map_fst_zip (Nat.le_of_eq length.symm)]
  · have lengthToo : others.length ≠ other.size := by rwa [rearrangedToo.1, size]
    rw [encode_of_length_ne base length, encode_of_length_ne base lengthToo, size, rearrangedToo.1]

/-- The operands in the canonical order: the registers, then the immediates, each in the order they had. -/
def canonicalOrder (format : Format) : Format :=
  ⟨format.operands.filter (·.kind.isRegister) ++ format.operands.filter (·.kind.isImmediate)⟩

theorem canonicalOrder_eq (format : Format) :
    format.canonicalOrder.operands =
      format.operands.filter (·.kind.isRegister) ++ format.operands.filter (!·.kind.isRegister) := by
  simp only [canonicalOrder, Kind.isRegister, Bool.not_not]

theorem canonicalOrder_perm (format : Format) :
    format.canonicalOrder.operands.Perm format.operands := by
  rw [canonicalOrder_eq]
  exact List.filter_append_perm _ _

/-- A format has its registers first exactly if the canonical order is its own. -/
theorem canonicalOrder_eq_self_iff : format.canonicalOrder = format ↔ format.RegistersFirst := by
  have inOperands : format.canonicalOrder = format ↔
      format.canonicalOrder.operands = format.operands := by
    rw [← mk.injEq]
  rw [inOperands, canonicalOrder_eq, filter_append_filter_not_eq_self_iff, RegistersFirst]
  simp only [Kind.isRegister_iff, not_not]

theorem registersFirst_canonicalOrder (format : Format) : format.canonicalOrder.RegistersFirst := by
  apply canonicalOrder_eq_self_iff.mp
  simp [canonicalOrder, Kind.isRegister, List.filter_filter]

/-- The operands of a format may be written down in any order without a difference to its validity, its masks
    or the words it encodes, if the numbers are written down in the same order. Only the canonical order asks
    for more: a valid format passes if its registers are put first, and as it is exactly if that changes
    nothing. -/
theorem validate_mask_encode_of_perm :
    (∀ format other : Format, other.operands.Perm format.operands →
      (other.validate .manual = .ok () ↔ format.validate .manual = .ok ()) ∧
      other.mask = format.mask ∧ other.fixedMask = format.fixedMask ∧
      (∃ order : Equiv.Perm (Fin format.size), Rearranged order format.operands other.operands) ∧
      (format.validate .manual = .ok () →
        ∀ order : Equiv.Perm (Fin format.size), Rearranged order format.operands other.operands →
          ∀ base values others, Rearranged order values others →
            other.encode base others = format.encode base values)) ∧
    ∀ format : Format, format.canonicalOrder.operands.Perm format.operands ∧
      (format.validate .manual = .ok () →
        format.canonicalOrder.validate .canonical = .ok () ∧
        (format.validate .canonical = .ok () ↔ format.canonicalOrder = format)) := by
  refine ⟨fun format other permuted => ⟨?_, mask_congr permuted, ?_,
    Rearranged.exists_of_perm permuted, fun valid order rearranged base values others => ?_⟩,
    fun format => ⟨format.canonicalOrder_perm, fun valid => ?_⟩⟩
  · rw [validate_manual_iff, validate_manual_iff, wellFormed_congr permuted]
  · rw [fixedMask, fixedMask, mask_congr permuted]
  · intro rearrangedToo
    have apart := (validate_manual_iff.mp valid).placed.operands_disjoint
    exact encode_congr apart rearranged rearrangedToo base
  · have wellFormed := validate_manual_iff.mp valid
    have sorted := (wellFormed_congr format.canonicalOrder_perm).mpr wellFormed
    refine ⟨validate_canonical_iff.mpr ⟨sorted, format.registersFirst_canonicalOrder⟩, ?_⟩
    rw [validate_canonical_iff, canonicalOrder_eq_self_iff, and_iff_right wellFormed]

/-- A store as a manual writes it, with its offset in two slots before the registers. -/
def offsetFirst : Format :=
  ⟨[⟨.signedImmediate, [⟨0, 5⟩, ⟨15, 7⟩], .shiftLeft 2⟩, .register .floatRegister 10,
    .register .intRegister 5]⟩

theorem validate_mask_encode_offsetFirst :
    offsetFirst.canonicalOrder.validate .canonical = .ok () ∧
    offsetFirst.validate .canonical ≠ .ok () ∧
    ∀ base offset source address,
      offsetFirst.canonicalOrder.encode base [source, address, offset] =
        offsetFirst.encode base [offset, source, address] := by
  have valid : offsetFirst.validate .manual = .ok () := by decide
  obtain ⟨rearranges, orders⟩ := validate_mask_encode_of_perm
  obtain ⟨permuted, ordered⟩ := orders offsetFirst
  obtain ⟨passes, asItIs⟩ := ordered valid
  refine ⟨passes, fun passesToo => ?_, fun base offset source address => ?_⟩
  · exact absurd (asItIs.mp passesToo) (by decide)
  · obtain ⟨-, -, -, -, encodes⟩ := rearranges offsetFirst offsetFirst.canonicalOrder permuted
    refine encodes valid (finRotate 3) ⟨rfl, ?_⟩ base _ _ ⟨rfl, fun (place : Fin 3) => ?_⟩
    · decide
    · match place with
      | 0 => rfl
      | 1 => rfl
      | 2 => rfl

end Format

end InsnEncoding
