import InsnEncoding.Proofs.Files
import InsnEncoding.Proofs.FormatObstacle
import InsnEncoding.Proofs.Readable

/-!
# The errors that a text can lead to

There are more ways to refuse a description than to write a refused one. What the reader of formats builds has
the right shape and letters at all its positions (`Operand.Representable`), so validation can find only slots
that are wrong or shared and operands in the wrong order. The layout of a line sees to it that there is a
mnemonic and that the word has a value, and it keeps the letter of the transforms out of the format.

`Operand.TextFault`, `Format.TextFault`, `Description.TextFault` and `LineError.Reachable` list what remains, one
level after the other; `Listing.reachable_errors` says that nothing else is ever told.
-/

namespace InsnEncoding

theorem Slot.fault?_ne_offsetOutsideWord {slot : Slot} (inWord : slot.offset.toNat < 32) :
    slot.fault? ≠ some .offsetOutsideWord := by
  rw [fault?, if_neg (Nat.not_le_of_lt inWord)]
  split
  · simp
  · split <;> simp

/-- Every position with a letter is in the word. -/
theorem Kind.offset_lt_of_mem_letters (kind : Kind) : ∀ entry ∈ kind.letters, entry.1.toNat < 32 := by
  cases kind <;> decide

namespace Operand

/-- What can be wrong with an operand that was read from a text. -/
inductive TextFault : ValidationError → Prop where
  | malformedSlot (slot : Slot) {fault : SlotFault} :
      fault ≠ .offsetOutsideWord → TextFault (.malformedSlot slot fault)
  | overlappingSlot (slot : Slot) : TextFault (.overlappingSlot slot)

theorem textFault_of_validateSlots {kind : Kind} {seen : Word} {slots : List Slot}
    {fault : ValidationError}
    (letters : ∀ slot ∈ slots, ∃ letter, (slot.offset, letter) ∈ kind.letters)
    (failed : validateSlots kind seen slots = .error fault) : TextFault fault := by
  induction slots generalizing seen with
  | nil => cases failed
  | cons slot rest ih =>
    obtain ⟨⟨letter, member⟩, others⟩ := List.forall_mem_cons.mp letters
    have named : kind.letters.letter? slot.offset ≠ none := fun missing =>
      (LetterTable.letter?_eq_none_iff kind.letters_distinct).mp missing ⟨letter, member⟩
    rw [validateSlots, Slot.validate] at failed
    cases found : slot.fault? with
    | some wrong =>
      simp only [found] at failed
      cases failed
      refine .malformedSlot slot ?_
      rintro rfl
      exact Slot.fault?_ne_offsetOutsideWord (kind.offset_lt_of_mem_letters _ member) found
    | none =>
      simp only [found, if_neg named] at failed
      split at failed
      · cases failed
        exact .overlappingSlot slot
      · exact ih others failed

theorem Representable.textFault {operand : Operand} (representable : operand.Representable)
    {fault : ValidationError} (failed : operand.validate = .error fault) : TextFault fault := by
  obtain ⟨shaped, letters⟩ := representable
  rw [validate, shapeFault?_eq_none_iff.mpr shaped] at failed
  exact textFault_of_validateSlots letters failed

end Operand

namespace Format

/-- What can be wrong with a format that was read from a text. -/
inductive TextFault (order : OperandOrder) : ValidationError → Prop where
  | operand {fault : ValidationError} : Operand.TextFault fault → TextFault order fault
  | overlappingOperand (operand : Operand) : TextFault order (.overlappingOperand operand)
  | registerAfterImmediate (operand : Operand) :
      order = .canonical → TextFault order (.registerAfterImmediate operand)

theorem TextFault.canonical {order : OperandOrder} {fault : ValidationError}
    (wrong : TextFault order fault) : TextFault .canonical fault := by
  cases wrong with
  | operand wrong => exact .operand wrong
  | overlappingOperand operand => exact .overlappingOperand operand
  | registerAfterImmediate operand _ => exact .registerAfterImmediate operand rfl

theorem TextFault.ne_malformedOperand {order : OperandOrder} {fault : ValidationError}
    (wrong : TextFault order fault) (kind : Kind) (shape : OperandFault) :
    fault ≠ .malformedOperand kind shape := by
  cases wrong with
  | operand wrong => cases wrong <;> simp
  | overlappingOperand operand => simp
  | registerAfterImmediate operand _ => simp

theorem textFault_of_validateOperands {order : OperandOrder} {seen : Word} {afterImmediate : Bool}
    {operands : List Operand} {fault : ValidationError}
    (representable : ∀ operand ∈ operands, operand.Representable)
    (failed : validateOperands order seen afterImmediate operands = .error fault) :
    TextFault order fault := by
  induction operands generalizing seen afterImmediate with
  | nil => cases failed
  | cons operand rest ih =>
    obtain ⟨first, others⟩ := List.forall_mem_cons.mp representable
    rw [validateOperands] at failed
    cases checked : operand.validate with
    | error wrong =>
      simp only [checked] at failed
      cases failed
      exact .operand (first.textFault checked)
    | ok =>
      simp only [checked] at failed
      split at failed
      · cases failed
        exact .overlappingOperand operand
      · split at failed
        · next late =>
          cases failed
          exact .registerAfterImmediate operand late.1
        · exact ih others failed

/-- A format that was read from a text has no operand that cannot stand in any format. -/
theorem textFault_of_ofText {text : String} {format : Format} {order : OperandOrder}
    {fault : ValidationError} (found : ofText text = .ok format)
    (failed : format.validate order = .error fault) : TextFault order fault :=
  textFault_of_validateOperands (ofText_repr_iff.mp (ofText_repr_of_ofText found)) failed

/-- The letter of a transform is awaited only behind the `p` that announces one. -/
theorem mem_of_reached_transform {before ahead : List Char}
    (reached : Reached .transform before ahead) : 'p' ∈ before := by
  generalize awaits : Awaited.transform = awaited at reached
  induction reached with
  | start => cases awaits
  | inside begun =>
    subst awaits
    cases begun with
    | transform => simp
  | behind _ _ _ ih => exact List.mem_append_right _ (ih awaits)

/-- Where the format of a line can stand, no transform is looked for. -/
theorem not_transform_of_formatText {text : List Char} (form : FormatText text)
    {fault : LexicalError} (failed : read text = .error fault) :
    (∀ char index, fault ≠ .invalidTransform char index) ∧
      fault ≠ .unexpectedEnd .transformLetter := by
  obtain ⟨-, awaited, before, ahead, rfl, reached, obstructed⟩ := read_eq_error_iff.mp failed
  have unannounced : awaited ≠ .transform := by
    rintro rfl
    exact form.not_mem_mark (List.mem_append_left _ (mem_of_reached_transform reached))
  constructor
  · rintro char index rfl
    cases obstructed
    contradiction
  · rintro rfl
    cases obstructed
    contradiction

end Format

namespace Description

/-- What can be wrong with a description that was read from a text; its manual format matters only in a
    strict reading. -/
inductive TextFault (strict : Bool) : ValidationError → Prop where
  | format {fault : ValidationError} : Format.TextFault .canonical fault → TextFault strict fault
  | wordOverlapsOperands (word mask : Word) : TextFault strict (.wordOverlapsOperands word mask)
  | manualBitsDiffer (formatMask manualMask : Word) :
      strict → TextFault strict (.manualBitsDiffer formatMask manualMask)

theorem TextFault.excludes {strict : Bool} {fault : ValidationError} (wrong : TextFault strict fault) :
    (∀ kind shape, fault ≠ .malformedOperand kind shape) ∧ fault ≠ .emptyMnemonic ∧
      ∀ expected found, fault ≠ .operandCountMismatch expected found := by
  cases wrong with
  | format wrong =>
    refine ⟨wrong.ne_malformedOperand, ?_⟩
    cases wrong with
    | operand wrong => cases wrong <;> simp
    | overlappingOperand operand => simp
    | registerAfterImmediate operand _ => simp
  | wordOverlapsOperands word mask => simp
  | manualBitsDiffer formatMask manualMask _ => simp

end Description

/-- The errors that a line can lead to. -/
inductive LineError.Reachable (strict : Bool) : LineError → Prop where
  | malformedLine {fault : LineFault} : fault ≠ .wordValue → Reachable strict (.malformedLine fault)
  | malformedFormat {fault : LexicalError} :
      (∀ char index, fault ≠ .invalidTransform char index) →
      fault ≠ .unexpectedEnd .transformLetter → Reachable strict (.malformedFormat fault)
  | malformedManualFormat (fault : LexicalError) :
      Reachable strict (.malformedAttribute Description.manualFormatKey fault)
  | invalid {fault : ValidationError} :
      Description.TextFault strict fault → Reachable strict (.invalid fault)

namespace Line

theorem scanAttributes_ne_wordValue (text : List Char) :
    scanAttributes text ≠ .error .wordValue := by
  fun_induction scanAttributes text with
  | case1 => nofun
  | case2 => nofun
  | case3 => nofun
  | case4 _ _ _ _ _ fault later ih => rwa [later] at ih
  | case5 => nofun
  | case6 => nofun

/-- The layout of a line has nothing to do with the value of its word. -/
theorem scan_ne_wordValue (text : List Char) : scan text ≠ .error .wordValue := by
  intro failed
  unfold scan at failed
  dsimp only at failed
  split at failed
  · cases failed
  · split at failed
    · split at failed
      · cases failed
      · split at failed
        · cases failed
        · split at failed
          · cases failed
          · have tail := eq_error_of_map_eq_error failed
            unfold scanTail at tail
            split at tail
            · cases tail
            · exact scanAttributes_ne_wordValue _ tail
    · cases failed

end Line

namespace LineError

variable {strict : Bool} {error : LineError}

/-- A strict reading adds errors and takes none away. -/
theorem Reachable.strict_of_false (reachable : error.Reachable false) : error.Reachable strict := by
  cases reachable with
  | malformedLine other => exact .malformedLine other
  | malformedFormat other notEnded => exact .malformedFormat other notEnded
  | malformedManualFormat fault => exact .malformedManualFormat fault
  | invalid wrong =>
    cases wrong with
    | format wrong => exact .invalid (.format wrong)
    | wordOverlapsOperands word mask => exact .invalid (.wordOverlapsOperands word mask)
    | manualBitsDiffer _ _ asked => contradiction

/-- No line leads to a word without a value, an operand that can stand in no format, a description without
    a name or a wrong number of operands. -/
theorem Reachable.excludes (reachable : error.Reachable strict) :
    error ≠ .malformedLine .wordValue ∧
    (∀ kind fault, error ≠ .invalid (.malformedOperand kind fault)) ∧
    error ≠ .invalid .emptyMnemonic ∧
    ∀ expected found, error ≠ .invalid (.operandCountMismatch expected found) := by
  cases reachable with
  | malformedLine other => simpa using other
  | malformedFormat _ _ => simp
  | malformedManualFormat fault => simp
  | invalid wrong => simpa using wrong.excludes

end LineError

namespace Description

variable {strict : Bool} {text : String}

/-- A description with a name and a format that was read from a text can be invalid in few ways. -/
theorem textFault_of_validate {description : Description} {format : String} {fault : ValidationError}
    (named : description.mnemonic ≠ "") (found : Format.ofText format = .ok description.format)
    (failed : description.validate = .error fault) : TextFault strict fault := by
  rcases cases_of_validate failed with ⟨unnamed, -⟩ | refused | rfl
  · exact absurd unnamed named
  · exact .format (Format.textFault_of_ofText found refused)
  · exact .wordOverlapsOperands _ _

/-- So can its manual format, if that was read from a text. -/
theorem textFault_of_validateManualFormat {description : Description} {manual : Format}
    {fault : ValidationError} (given : description.manualFormat = some manual)
    (found : Format.ofText text = .ok manual)
    (failed : description.validateManualFormat = .error fault) : TextFault true fault := by
  rcases cases_of_validateManualFormat given failed with refused | rfl
  · exact .format (Format.textFault_of_ofText found refused).canonical
  · exact .manualBitsDiffer _ _ rfl

theorem reachable_of_yields {line : Line} (wellFormed : line.WellFormed) {error : LineError}
    (yields : line.Yields (.error error)) : error.Reachable false := by
  cases yields with
  | malformedFormat failed =>
    rw [Format.ofText, String.toList_ofList] at failed
    obtain ⟨other, notEnded⟩ := Format.not_transform_of_formatText wellFormed.format_text failed
    exact .malformedFormat other notEnded
  | malformedManualFormat _ _ _ => exact .malformedManualFormat _
  | @invalid description _ describes failed =>
    obtain ⟨first, start, -⟩ := wellFormed.mnemonic_start
    have named : description.mnemonic ≠ "" := by
      rw [describes.mnemonic]
      intro empty
      rw [String.ofList_eq_empty_iff.mp empty] at start
      contradiction
    exact .invalid (textFault_of_validate named describes.format failed)

theorem reachable_of_ofLine {error : LineError} (failed : ofLine text = .error error) :
    error.Reachable false := by
  cases scanned : Line.scan text.toList with
  | error fault =>
    rw [ofLine, scanned] at failed
    cases failed
    refine .malformedLine ?_
    rintro rfl
    exact Line.scan_ne_wordValue _ scanned
  | ok line =>
    have laidOut := Line.scan_eq_ok_iff.mp scanned
    have yields := (ofLine_eq_iff laidOut).mp failed
    obtain ⟨_, wellFormed, _⟩ := laidOut
    exact reachable_of_yields wellFormed yields

theorem reachable_of_refused {error : LineError} (refused : Refused strict text error) :
    error.Reachable strict := by
  cases refused with
  | unreadable failed => exact (reachable_of_ofLine failed).strict_of_false
  | @invalidManualFormat description fault asked found failed =>
    subst asked
    cases given : description.manualFormat with
    | none => simp [validateManualFormat, given] at failed
    | some manual =>
      have manualFound := (readable_of_ofLine found).manualFormat manual given
      exact .invalid (textFault_of_validateManualFormat given manualFound failed)

end Description

namespace Listing

variable {strict : Bool}

theorem reachable_of_read {path place : Option String} {text line : String} {number : Nat}
    {fault : LineError} (failed : read strict path text = .error (.badLine place number line fault)) :
    fault.Reachable strict := by
  obtain ⟨_, _, _, _, _, _, _, refused, same⟩ := read_eq_error_iff.mp failed
  cases same
  exact Description.reachable_of_refused refused

theorem reachable_of_readFiles {files : Files} {paths : List String} {place : Option String}
    {line : String} {number : Nat} {fault : LineError}
    (failed : readFiles strict files paths = .error (.badLine place number line fault)) :
    fault.Reachable strict := by
  obtain ⟨_, _, _, _, _, refused⟩ := readFiles_eq_error_iff.mp failed
  cases refused with
  | badLine _ _ _ _ refused => exact Description.reachable_of_refused refused

/-- Validation finds nothing wrong with a format that was read from a text but slots that are outside the word
    or shared, operands that share bits, and in the canonical order a register after an immediate. A line, be
    it read alone, in a listing or in a file, leads to no error but those that are `Reachable`, and a strict
    reading adds manual formats with other bits. -/
theorem reachable_errors :
    (∀ text format order fault, Format.ofText text = .ok format →
      format.validate order = .error fault →
      Format.TextFault order fault ∧ ∀ kind shape, fault ≠ .malformedOperand kind shape) ∧
    (∀ text error, Description.ofLine text = .error error → error.Reachable false) ∧
    (∀ strict text error, Description.ofLineWith strict text = .error error → error.Reachable strict) ∧
    (∀ strict path text place number line fault,
      read strict path text = .error (.badLine place number line fault) → fault.Reachable strict) ∧
    (∀ strict files paths place number line fault,
      readFiles strict files paths = .error (.badLine place number line fault) →
        fault.Reachable strict) ∧
    ∀ strict (error : LineError), error.Reachable strict →
      error ≠ .malformedLine .wordValue ∧
      (∀ kind shape, error ≠ .invalid (.malformedOperand kind shape)) ∧
      error ≠ .invalid .emptyMnemonic ∧
      ∀ expected found, error ≠ .invalid (.operandCountMismatch expected found) := by
  refine ⟨fun text format order fault found failed => ?_,
    fun text error => Description.reachable_of_ofLine, fun strict text error failed => ?_,
    fun _ _ _ _ _ _ _ => reachable_of_read, fun _ _ _ _ _ _ _ => reachable_of_readFiles,
    fun _ _ => LineError.Reachable.excludes⟩
  · have wrong := Format.textFault_of_ofText found failed
    exact ⟨wrong, wrong.ne_malformedOperand⟩
  · exact Description.reachable_of_refused (Description.ofLineWith_eq_error_iff.mp failed)

/-- A branch whose manual format leaves out the highest bit of the offset. -/
def shortBranch : String :=
  "40000000 beqz  JSd5k16@orig_fmt=JSd5k15"

/-- An offset that reaches past the word. -/
def longOffset : Format :=
  ⟨[.register .intRegister 0, ⟨.signedImmediate, [⟨10, 30⟩], .identity⟩]⟩

theorem reachable_errors_shortBranch :
    Format.ofText "DSk30" = .ok longOffset ∧
    longOffset.validate .manual = .error (.malformedSlot ⟨10, 30⟩ .spansBeyondWord) ∧
    Format.TextFault .manual (.malformedSlot ⟨10, 30⟩ .spansBeyondWord) ∧
    Description.ofLineWith true shortBranch =
      .error (.invalid (.manualBitsDiffer 0x3ffffff 0x1ffffff)) ∧
    LineError.Reachable true (.invalid (.manualBitsDiffer 0x3ffffff 0x1ffffff)) ∧
    read false none "\n40000000 beqz JSd\n" =
      .error (.badLine none 2 "40000000 beqz JSd" (.malformedFormat (.missingNumber 3))) ∧
    LineError.Reachable false (.malformedFormat (.missingNumber 3)) := by
  have beyond : Format.ofText "DSk30" = .ok longOffset := by decide +kernel
  have refused : longOffset.validate .manual = .error (.malformedSlot ⟨10, 30⟩ .spansBeyondWord) := by
    decide
  have strictly : Description.ofLineWith true shortBranch =
      .error (.invalid (.manualBitsDiffer 0x3ffffff 0x1ffffff)) := by decide +kernel
  have numberless : read false none "\n40000000 beqz JSd\n" =
      .error (.badLine none 2 "40000000 beqz JSd" (.malformedFormat (.missingNumber 3))) := by
    decide +kernel
  obtain ⟨formats, -, lines, listings, -⟩ := reachable_errors
  exact ⟨beyond, refused, (formats _ _ _ _ beyond refused).1, strictly, lines _ _ _ strictly, numberless,
    listings _ _ _ _ _ _ _ numberless⟩

end Listing

end InsnEncoding
