import InsnEncoding.Position

/-!
# Operand kinds

An operand is a register of one of five files or an immediate of either sign. The kind decides the
width of a register field, the table that its position must be in, and the letter that opens its
text.
-/

namespace InsnEncoding

/-- What an operand stands for. -/
inductive Kind where
  | intRegister
  | floatRegister
  | conditionRegister
  | vectorRegister
  | wideVectorRegister
  | signedImmediate
  | unsignedImmediate
  deriving DecidableEq

namespace Kind

/-- Every kind, in the order of the kinds. -/
def all : List Kind :=
  [.intRegister, .floatRegister, .conditionRegister, .vectorRegister, .wideVectorRegister,
    .signedImmediate, .unsignedImmediate]

/-- The place of a kind in the order of the kinds. -/
def rank : Kind → Nat
  | .intRegister => 0
  | .floatRegister => 1
  | .conditionRegister => 2
  | .vectorRegister => 3
  | .wideVectorRegister => 4
  | .signedImmediate => 5
  | .unsignedImmediate => 6

/-- Kinds in ascending order, equal ones as they stood. -/
def sort (kinds : List Kind) : List Kind :=
  kinds.mergeSort fun first second => first.rank ≤ second.rank

/-- The kind is an immediate. -/
def isImmediate : Kind → Bool
  | .signedImmediate | .unsignedImmediate => true
  | _ => false

/-- The kind is a register. -/
def isRegister (kind : Kind) : Bool :=
  !kind.isImmediate

/-- The width of a register field; immediates may have any. -/
def registerWidth? : Kind → Option UInt32
  | .conditionRegister => some 3
  | .signedImmediate | .unsignedImmediate => none
  | _ => some 5

/-- The table that the positions of such an operand must be in. -/
def letters : Kind → LetterTable
  | .intRegister => intRegisterLetters
  | _ => fieldLetters

/-- The letter that opens the text of an operand. An integer register has none, because the letter
    of its position already says what it is. -/
def lead? : Kind → Option Char
  | .intRegister => none
  | .floatRegister => some 'F'
  | .conditionRegister => some 'C'
  | .vectorRegister => some 'V'
  | .wideVectorRegister => some 'X'
  | .signedImmediate => some 'S'
  | .unsignedImmediate => some 'U'

/-- The kind whose text a letter opens. -/
def ofLead? : Char → Option Kind
  | 'F' => some .floatRegister
  | 'C' => some .conditionRegister
  | 'V' => some .vectorRegister
  | 'X' => some .wideVectorRegister
  | 'S' => some .signedImmediate
  | 'U' => some .unsignedImmediate
  | _ => none

/-- The kind in the words of a message. -/
def name : Kind → String
  | .intRegister => "int register"
  | .floatRegister => "float register"
  | .conditionRegister => "fcc register"
  | .vectorRegister => "vector register"
  | .wideVectorRegister => "extended vector register"
  | .signedImmediate => "signed immediate"
  | .unsignedImmediate => "unsigned immediate"

/-- The short name of the kind, as the display of a faulty operand gives it. -/
def tag : Kind → String
  | .intRegister => "IntReg"
  | .floatRegister => "FPReg"
  | .conditionRegister => "FCCReg"
  | .vectorRegister => "VReg"
  | .wideVectorRegister => "XReg"
  | .signedImmediate => "SignedImm"
  | .unsignedImmediate => "UnsignedImm"

/-- The kind of a short name. -/
def ofTag? (text : String) : Option Kind :=
  all.find? fun kind => kind.tag == text

/-- A letter opens the text of a kind exactly when the kind's text opens with it. -/
theorem ofLead?_eq_some_iff {letter : Char} {kind : Kind} :
    ofLead? letter = some kind ↔ kind.lead? = some letter := by
  constructor
  · intro read
    unfold ofLead? at read
    split at read <;> cases read <;> rfl
  · intro written
    cases kind <;> cases written <;> rfl

theorem isRegister_iff {kind : Kind} : kind.isRegister ↔ ¬ kind.isImmediate := by
  rw [isRegister, Bool.not_eq_true', Bool.not_eq_true]

theorem isUpper_of_lead {kind : Kind} {lead : Char} (opens : kind.lead? = some lead) :
    lead.isUpper := by
  cases kind <;> cases opens <;> rfl

theorem letters_distinct (kind : Kind) : kind.letters.Distinct := by
  cases kind <;> decide

theorem isImmediate_iff_registerWidth? {kind : Kind} :
    kind.isImmediate ↔ kind.registerWidth? = none := by
  cases kind <;> decide

end Kind

end InsnEncoding
