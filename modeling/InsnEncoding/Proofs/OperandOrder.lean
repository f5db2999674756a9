import InsnEncoding.Proofs.FirstAndLast
import InsnEncoding.Proofs.Validity
import Mathlib.Logic.Basic

/-!
# The two orders of operands

Validation in the canonical order and in that of a manual is one loop, which asks of each operand the same
things but for its place among the others. An operand passes behind some others in the canonical order if it
does in a manual's and is no register behind an immediate (`Format.validate_canonical_append_singleton`). A
loop that fails does so at an operand before which all pass (`Format.validate_eq_error_iff`).

The main statement is `Format.validate_orders_agree`: the two orders give one result, or the canonical one
stops at the first register behind an immediate, and a manual's goes past it.
-/

namespace InsnEncoding

namespace Operand

/-- What can be wrong with an operand by itself, wherever it stands. -/
inductive OwnFault : ValidationError → Prop where
  | malformedSlot (slot : Slot) (fault : SlotFault) : OwnFault (.malformedSlot slot fault)
  | malformedOperand (kind : Kind) (fault : OperandFault) : OwnFault (.malformedOperand kind fault)
  | overlappingSlot (slot : Slot) : OwnFault (.overlappingSlot slot)

theorem ownFault_of_validateSlots {kind : Kind} {seen : Word} {slots : List Slot}
    {fault : ValidationError} (failed : validateSlots kind seen slots = .error fault) :
    OwnFault fault := by
  induction slots generalizing seen with
  | nil => cases failed
  | cons slot rest ih =>
    rw [validateSlots, Slot.validate] at failed
    cases found : slot.fault? with
    | some wrong =>
      simp only [found] at failed
      cases failed
      exact .malformedSlot slot wrong
    | none =>
      simp only [found] at failed
      split at failed
      · cases failed
        exact .malformedOperand kind _
      · split at failed
        · cases failed
          exact .overlappingSlot slot
        · exact ih failed

theorem ownFault_of_validate {operand : Operand} {fault : ValidationError}
    (failed : operand.validate = .error fault) : OwnFault fault := by
  rw [validate] at failed
  cases shape : operand.shapeFault? with
  | some wrong =>
    simp only [shape] at failed
    cases failed
    exact .malformedOperand operand.kind wrong
  | none =>
    simp only [shape] at failed
    exact ownFault_of_validateSlots failed

end Operand

namespace Format

/-- Some operand of the list is an immediate. -/
def hasImmediate (operands : List Operand) : Bool :=
  operands.any fun operand => operand.kind.isImmediate

theorem validateOperands_cons (order : OperandOrder) (seen : Word) (afterImmediate : Bool)
    (operand : Operand) (rest : List Operand) :
    validateOperands order seen afterImmediate (operand :: rest) =
      (validateOperands order seen afterImmediate [operand]).bind fun _ =>
        validateOperands order (seen ||| operand.mask)
          (afterImmediate || operand.kind.isImmediate) rest := by
  rw [validateOperands, validateOperands]
  cases operand.validate with
  | error fault => rfl
  | ok _ =>
    dsimp only
    split
    · rfl
    · split <;> rfl

/-- To go through operands is to go through the first of them and then, if they pass, through the others. -/
theorem validateOperands_append (order : OperandOrder) (seen : Word) (afterImmediate : Bool)
    (before behind : List Operand) :
    validateOperands order seen afterImmediate (before ++ behind) =
      (validateOperands order seen afterImmediate before).bind fun _ =>
        validateOperands order (seen ||| mask ⟨before⟩) (afterImmediate || hasImmediate before)
          behind := by
  induction before generalizing seen afterImmediate with
  | nil => simp [validateOperands, mask, hasImmediate, Except.bind]
  | cons operand rest ih =>
    have bits : seen ||| operand.mask ||| mask ⟨rest⟩ = seen ||| mask ⟨operand :: rest⟩ := by
      rw [BitVec.or_assoc]
      rfl
    have places : (afterImmediate || operand.kind.isImmediate || hasImmediate rest) =
        (afterImmediate || hasImmediate (operand :: rest)) := by
      rw [Bool.or_assoc]
      rfl
    rw [List.cons_append, validateOperands_cons, ih, bits, places,
      validateOperands_cons order seen afterImmediate operand rest]
    cases validateOperands order seen afterImmediate [operand] <;> rfl

theorem validate_append_singleton (order : OperandOrder) (before : List Operand)
    (operand : Operand) :
    validate order ⟨before ++ [operand]⟩ =
      (validate order ⟨before⟩).bind fun _ =>
        validateOperands order (mask ⟨before⟩) (hasImmediate before) [operand] := by
  have bits : 0 ||| mask ⟨before⟩ = mask ⟨before⟩ := BitVec.zero_or
  rw [validate, validateOperands_append, bits, Bool.false_or]
  rfl

/-- The canonical order asks of an operand what a manual's asks, and then that it is no register behind an
    immediate. -/
theorem validateOperands_canonical_singleton (seen : Word) (afterImmediate : Bool)
    (operand : Operand) :
    validateOperands .canonical seen afterImmediate [operand] =
      (validateOperands .manual seen afterImmediate [operand]).bind fun _ =>
        if operand.kind.isRegister ∧ afterImmediate then .error (.registerAfterImmediate operand)
        else .ok () := by
  simp only [validateOperands]
  cases operand.validate with
  | error fault => rfl
  | ok _ =>
    by_cases shared : operand.mask &&& seen ≠ 0
    · simp only [if_pos shared]
      rfl
    · simp only [if_neg shared, reduceCtorEq, false_and, if_false, true_and]
      rfl

theorem validate_canonical_append_singleton {before : List Operand}
    (passed : validate .canonical ⟨before⟩ = .ok ()) (operand : Operand) :
    validate .canonical ⟨before ++ [operand]⟩ =
      (validate .manual ⟨before ++ [operand]⟩).bind fun _ =>
        if operand.kind.isRegister ∧ hasImmediate before then
          .error (.registerAfterImmediate operand)
        else .ok () := by
  rw [validate_append_singleton, validate_append_singleton, passed, validate_manual_of_canonical passed]
  exact validateOperands_canonical_singleton _ _ operand

theorem validateOperands_manual_ne_registerAfterImmediate (seen : Word) (afterImmediate : Bool)
    (operands : List Operand) (register : Operand) :
    validateOperands .manual seen afterImmediate operands ≠
      .error (.registerAfterImmediate register) := by
  induction operands generalizing seen afterImmediate with
  | nil => simp [validateOperands]
  | cons operand rest ih =>
    rw [validateOperands]
    cases checked : operand.validate with
    | error fault =>
      rintro ⟨⟩
      cases Operand.ownFault_of_validate checked
    | ok _ =>
      by_cases shared : operand.mask &&& seen ≠ 0
      · simp only [if_pos shared, ne_eq, Except.error.injEq, reduceCtorEq, not_false_eq_true]
      · simp only [if_neg shared, reduceCtorEq, false_and, if_false]
        exact ih _ _

/-- The first operands of a format. -/
def take (format : Format) (count : Nat) : Format :=
  ⟨format.operands.take count⟩

theorem take_size (format : Format) : format.take format.size = format :=
  congrArg Format.mk List.take_length

theorem take_take_of_le (format : Format) {first second : Nat} (le : first ≤ second) :
    (format.take second).take first = format.take first := by
  rw [take, take, take, List.take_take, Nat.min_eq_left le]

theorem take_succ {format : Format} {index : Nat} {operand : Operand}
    (here : format.operands[index]? = some operand) :
    format.take (index + 1) = ⟨format.operands.take index ++ [operand]⟩ := by
  rw [take, List.take_add_one, here]
  rfl

theorem validate_eq_bind_take (order : OperandOrder) (format : Format) (count : Nat) :
    format.validate order =
      ((format.take count).validate order).bind fun _ =>
        validateOperands order (0 ||| (format.take count).mask)
          (hasImmediate (format.operands.take count)) (format.operands.drop count) := by
  have split := validateOperands_append order 0 false (format.operands.take count)
    (format.operands.drop count)
  rw [List.take_append_drop] at split
  exact split

theorem validate_take_of_ok {order : OperandOrder} {format : Format}
    (passed : format.validate order = .ok ()) (count : Nat) :
    (format.take count).validate order = .ok () := by
  rw [validate_eq_bind_take order format count] at passed
  cases first : (format.take count).validate order with
  | error fault =>
    rw [first] at passed
    contradiction
  | ok _ => rfl

theorem validate_of_take_error {order : OperandOrder} {format : Format} {count : Nat}
    {fault : ValidationError} (refused : (format.take count).validate order = .error fault) :
    format.validate order = .error fault := by
  rw [validate_eq_bind_take order format count, refused]
  rfl

/-- All operands before an index pass, and with the one at the index validation fails. -/
def RefusedAt (order : OperandOrder) (format : Format) (index : Nat) (fault : ValidationError) :
    Prop :=
  index < format.size ∧ (format.take index).validate order = .ok () ∧
    (format.take (index + 1)).validate order = .error fault

/-- Among the lists of first operands that fail, the shortest ends with the operand that is refused. -/
theorem exists_refusedAt {order : OperandOrder} {format : Format} {fault : ValidationError}
    {count : Nat} (inside : count ≤ format.size)
    (refused : (format.take count).validate order = .error fault) :
    ∃ index, format.RefusedAt order index fault := by
  induction count with
  | zero => cases refused
  | succ index ih =>
    cases before : (format.take index).validate order with
    | ok _ => exact ⟨index, inside, before, refused⟩
    | error other =>
      have shorter : ((format.take (index + 1)).take index).validate order = .error other := by
        rw [take_take_of_le _ (Nat.le_succ index), before]
      -- The operand at the end was never looked at, so the fault is that of the shorter list.
      have same := refused.symm.trans (validate_of_take_error shorter)
      cases same
      exact ih (Nat.le_of_succ_le inside) before

/-- A format fails with the fault of the operand where validation stops. -/
theorem validate_eq_error_iff {order : OperandOrder} {format : Format} {fault : ValidationError} :
    format.validate order = .error fault ↔ ∃ index, format.RefusedAt order index fault := by
  constructor
  · intro refused
    rw [← format.take_size] at refused
    exact exists_refusedAt (Nat.le_refl _) refused
  · rintro ⟨index, -, -, refused⟩
    exact validate_of_take_error refused

/-- Validation never stops among first operands that pass. -/
theorem RefusedAt.le_of_validate_take {order : OperandOrder} {format : Format} {index count : Nat}
    {fault : ValidationError} (stopped : format.RefusedAt order index fault)
    (passed : (format.take count).validate order = .ok ()) : count ≤ index := by
  refine Nat.le_of_not_lt fun before => ?_
  have earlier := validate_take_of_ok passed (index + 1)
  rw [format.take_take_of_le before, stopped.2.2] at earlier
  contradiction

/-- At the index stands a register, and somewhere before it an immediate. -/
def Misplaced (format : Format) (index : Nat) : Prop :=
  ∃ (early : Nat) (immediate register : Operand), early < index ∧
    format.operands[early]? = some immediate ∧ format.operands[index]? = some register ∧
    immediate.kind.isImmediate ∧ register.kind.isRegister

/-- A register is misplaced if it is not in order with all operands before it. -/
theorem misplaced_iff_meetsEarlier {format : Format} {index : Nat} :
    format.Misplaced index ↔
      MeetsEarlier (fun first second => first.kind.isImmediate → second.kind.isImmediate)
        format.operands index := by
  simp only [Misplaced, MeetsEarlier, Classical.not_imp, Kind.isRegister_iff]

theorem misplaced_of_hasImmediate {format : Format} {index : Nat} {operand : Operand}
    (here : format.operands[index]? = some operand) (register : operand.kind.isRegister)
    (after : hasImmediate (format.operands.take index)) : format.Misplaced index := by
  rw [misplaced_iff_meetsEarlier, meetsEarlier_iff here]
  obtain ⟨immediate, member, isImmediate⟩ := List.any_eq_true.mp after
  exact ⟨immediate, member, fun inOrder => Kind.isRegister_iff.mp register (inOrder isImmediate)⟩

/-- Where operands pass in the canonical order, none of them is misplaced. -/
theorem not_misplaced_of_validate_take {format : Format} {count : Nat}
    (passed : (format.take count).validate .canonical = .ok ()) {index : Nat} (inside : index < count) :
    ¬ format.Misplaced index := by
  rw [misplaced_iff_meetsEarlier]
  exact pairwise_take_iff.mp ((validate_eq_ok_iff.mp passed).2 rfl) index inside

/-- Where the canonical order stops, a manual's stops too, or there is a register behind an immediate. -/
theorem RefusedAt.manual_or_misplaced {format : Format} {index : Nat} {fault : ValidationError}
    (stopped : format.RefusedAt .canonical index fault) :
    format.RefusedAt .manual index fault ∨
      ∃ operand, format.operands[index]? = some operand ∧
        fault = .registerAfterImmediate operand ∧ format.Misplaced index ∧
        (format.take (index + 1)).validate .manual = .ok () := by
  obtain ⟨inside, passed, refused⟩ := stopped
  obtain ⟨operand, here⟩ : ∃ operand, format.operands[index]? = some operand :=
    ⟨_, List.getElem?_eq_getElem inside⟩
  have step := validate_canonical_append_singleton passed operand
  rw [← take_succ here, refused] at step
  cases manual : (format.take (index + 1)).validate .manual with
  | error other =>
    rw [manual] at step
    cases step
    exact Or.inl ⟨inside, validate_manual_of_canonical passed, manual⟩
  | ok _ =>
    rw [manual, Except.bind] at step
    by_cases late : operand.kind.isRegister ∧ hasImmediate (format.operands.take index)
    · rw [if_pos late] at step
      exact Or.inr ⟨operand, here, Except.error.inj step,
        misplaced_of_hasImmediate here late.1 late.2, rfl⟩
    · rw [if_neg late] at step
      contradiction

/-- In any format either the two orders give the same result, or the canonical order is refused for an
    operand, which is the first register behind an immediate, and a manual's order passes it and either
    accepts the format or refuses it for an operand further behind. Hence a format that is accepted in the
    canonical order is accepted in a manual's, which is never refused for its order. -/
theorem validate_orders_agree (format : Format) :
    Xor (format.validate .canonical = format.validate .manual)
      (∃ index operand, format.operands[index]? = some operand ∧
        format.validate .canonical = .error (.registerAfterImmediate operand) ∧
        format.Misplaced index ∧ (∀ earlier < index, ¬ format.Misplaced earlier) ∧
        (format.take (index + 1)).validate .manual = .ok () ∧
        (format.validate .manual = .ok () ∨
          ∃ later fault, index < later ∧ format.validate .manual = .error fault ∧
            format.RefusedAt .manual later fault)) ∧
    (format.validate .canonical = .ok () → format.validate .manual = .ok ()) ∧
    ∀ operand, format.validate .manual ≠ .error (.registerAfterImmediate operand) := by
  have neverMisplaced (operand : Operand) :
      format.validate .manual ≠ .error (.registerAfterImmediate operand) :=
    validateOperands_manual_ne_registerAfterImmediate _ _ _ operand
  refine ⟨(xor_iff_or_and_not_and _ _).mpr ⟨?_, ?_⟩, validate_manual_of_canonical, neverMisplaced⟩
  · cases canonical : format.validate .canonical with
    | ok _ => exact Or.inl (validate_manual_of_canonical canonical).symm
    | error fault =>
      obtain ⟨index, stopped⟩ := validate_eq_error_iff.mp canonical
      rcases stopped.manual_or_misplaced with same | ⟨operand, here, rfl, misplaced, passed⟩
      · exact Or.inl (validate_eq_error_iff.mpr ⟨index, same⟩).symm
      · have first (earlier : Nat) (before : earlier < index) : ¬ format.Misplaced earlier :=
          not_misplaced_of_validate_take stopped.2.1 before
        refine Or.inr ⟨index, operand, here, rfl, misplaced, first, passed, ?_⟩
        cases manual : format.validate .manual with
        | ok _ => exact Or.inl rfl
        | error other =>
          obtain ⟨later, stops⟩ := validate_eq_error_iff.mp manual
          exact Or.inr ⟨later, other, stops.le_of_validate_take passed, rfl, stops⟩
  · rintro ⟨same, index, operand, -, refused, -⟩
    exact neverMisplaced operand (same ▸ refused)

/-- A register behind an immediate, and then the same register again. -/
def interleaved : Format :=
  ⟨[⟨.unsignedImmediate, [⟨0, 5⟩], .identity⟩, .register .intRegister 5,
    .register .intRegister 5]⟩

/-- The canonical order is refused for the place of the register, a manual's for its second appearance. -/
theorem validate_orders_agree_interleaved :
    interleaved.validate .canonical = .error (.registerAfterImmediate (.register .intRegister 5)) ∧
    interleaved.validate .manual = .error (.overlappingOperand (.register .intRegister 5)) ∧
    ∃ index later, index < later ∧
      interleaved.operands[index]? = some (.register .intRegister 5) ∧
      interleaved.Misplaced index ∧ (∀ earlier < index, ¬ interleaved.Misplaced earlier) ∧
      (interleaved.take (index + 1)).validate .manual = .ok () ∧
      interleaved.RefusedAt .manual later (.overlappingOperand (.register .intRegister 5)) := by
  have canonical : interleaved.validate .canonical =
      .error (.registerAfterImmediate (.register .intRegister 5)) := rfl
  have manual : interleaved.validate .manual =
      .error (.overlappingOperand (.register .intRegister 5)) := rfl
  obtain ⟨⟨same, -⟩ | ⟨⟨index, operand, here, refused, misplaced, first, passed, outcome⟩, -⟩, -⟩ :=
    validate_orders_agree interleaved
  · rw [canonical, manual] at same
    cases same
  · rw [canonical] at refused
    cases refused
    rw [manual] at outcome
    obtain accepted | ⟨later, fault, behind, failed, stops⟩ := outcome
    · cases accepted
    · cases failed
      exact ⟨canonical, manual, index, later, behind, here, misplaced, first, passed, stops⟩

end Format

end InsnEncoding
