import InsnEncoding.Description.Line
import InsnEncoding.Text.Cursor

/-!
# Scanning a line byte by byte

The layout of a description line, read with a cursor over the bytes of its UTF-8 form. Every class the
cursor goes past has ASCII characters only, and still each part of the line is cut out with a check that
can fail: `Line.scanBytes` tells apart a line that is malformed and a cut inside a character.
-/

namespace InsnEncoding

/-- The classes of bytes that the parts of a line are runs of. -/
inductive ByteClass where
  | wordDigit
  | mnemonicChar
  | space
  | formatChar
  | attributeChar
  deriving DecidableEq

namespace ByteClass

/-- The byte is the code of a character from the first to the last. -/
def between (first last : Char) (byte : UInt8) : Bool :=
  first.toUInt8 ≤ byte && byte ≤ last.toUInt8

/-- The byte is in the class. -/
def contains : ByteClass → UInt8 → Bool
  | .wordDigit, byte => between '0' '9' byte || between 'a' 'f' byte
  | .mnemonicChar, byte =>
    between 'a' 'z' byte || between '0' '9' byte || byte == '_'.toUInt8 || byte == '.'.toUInt8
  | .space, byte => byte == ' '.toUInt8
  | .formatChar, byte =>
    between '0' '9' byte || (['D', 'J', 'K', 'A', 'C', 'F', 'V', 'X', 'S', 'U', 'd', 'j', 'k', 'a',
      'm', 'n'].map Char.toUInt8).contains byte
  | .attributeChar, byte =>
    between 'A' 'Z' byte || between 'a' 'z' byte || between '0' '9' byte || byte == '_'.toUInt8 ||
      byte == '.'.toUInt8

end ByteClass

namespace Cursor

/-- Split off the bytes at the cursor that are in one of the classes of a line. -/
def takeClass (cursor : Cursor) (byteClass : ByteClass) : Except SliceFault (String × Cursor) :=
  cursor.takeWhile byteClass.contains

/-- Read the text of a format. -/
def scanFormat (cursor : Cursor) : Except SliceFault (String × Cursor) := do
  match ← cursor.eatText (String.ofList Format.emptyText) with
  | (true, next) => return (String.ofList Format.emptyText, next)
  | (false, next) => next.takeClass .formatChar

/-- Read the value of an attribute, if an equals sign announces one. -/
def scanValue (cursor : Cursor) : Except SliceFault (Option String × Cursor) :=
  match cursor.eat '='.toUInt8 with
  | (true, next) => do
    let (value, next) ← next.takeClass .attributeChar
    return (some value, next)
  | (false, next) => return (none, next)

/-- What one pass over an attribute comes to. -/
inductive Pass where
  /-- The line is at its end. -/
  | ended
  | failed (fault : LineFault)
  /-- An attribute, and where the next pass goes on. -/
  | found (entry : LineAttribute) (next : Cursor)
  deriving DecidableEq

/-- Read the attribute at the cursor. -/
def scanEntry (cursor : Cursor) : Except SliceFault Pass :=
  match cursor.eat '@'.toUInt8 with
  | (false, _) => return .failed .attributeStart
  | (true, next) => do
    let (key, next) ← next.takeClass .attributeChar
    if key.isEmpty then return .failed .emptyKey
    else
      let (value, next) ← next.scanValue
      return .found ⟨key.toList, value.map String.toList⟩ next

/-- Read the spaces before an attribute and the attribute, or find the end of the line. -/
def pass (cursor : Cursor) : Except SliceFault Pass := do
  let (spaces, next) ← cursor.takeClass .space
  if next.atEnd then
    if spaces.isEmpty then return .ended else return .failed .trailingSpaces
  else next.scanEntry

section Steps

variable {cursor next : Cursor}

/-- The steps that read a value. -/
theorem steps_of_scanValue {value : Option String} (scanned : cursor.scanValue = .ok (value, next)) :
    (∃ start run, cursor.eat '='.toUInt8 = (true, start) ∧
      start.takeClass .attributeChar = .ok (run, next)) ∨ cursor.eat '='.toUInt8 = (false, next) := by
  unfold scanValue at scanned
  split at scanned
  next start eaten =>
    obtain ⟨⟨run, stop⟩, taken, done⟩ := exists_of_bind_eq_ok scanned
    cases done
    exact Or.inl ⟨start, run, eaten, taken⟩
  next start eaten =>
    cases scanned
    exact Or.inr eaten

/-- The steps that find an attribute. -/
theorem steps_of_scanEntry {entry : LineAttribute} (scanned : cursor.scanEntry = .ok (.found entry next)) :
    ∃ start key behind value, cursor.eat '@'.toUInt8 = (true, start) ∧
      start.takeClass .attributeChar = .ok (key, behind) ∧ key ≠ "" ∧
      behind.scanValue = .ok (value, next) := by
  unfold scanEntry at scanned
  split at scanned
  · cases scanned
  next start eaten =>
    obtain ⟨⟨key, behind⟩, taken, scanned⟩ := exists_of_bind_eq_ok scanned
    simp only at scanned
    split at scanned
    · cases scanned
    next nonempty =>
      obtain ⟨⟨value, stop⟩, valueRead, scanned⟩ := exists_of_bind_eq_ok scanned
      cases scanned
      exact ⟨start, key, behind, value, eaten, taken, mt String.isEmpty_iff.mpr nonempty, valueRead⟩

/-- The steps of a pass that finds an attribute. -/
theorem steps_of_pass {entry : LineAttribute} (passed : cursor.pass = .ok (.found entry next)) :
    ∃ spaces start, cursor.takeClass .space = .ok (spaces, start) ∧
      start.scanEntry = .ok (.found entry next) := by
  obtain ⟨⟨spaces, start⟩, taken, passed⟩ := exists_of_bind_eq_ok passed
  simp only at passed
  split at passed
  · split at passed <;> cases passed
  · exact ⟨spaces, start, taken, passed⟩

end Steps

section Advances

variable {cursor next : Cursor}

theorem takeClass_advances {byteClass : ByteClass} {run : String}
    (taken : cursor.takeClass byteClass = .ok (run, next)) : Advances cursor next run.utf8ByteSize :=
  takeWhile_advances taken

theorem scanValue_advances {value : Option String} (inside : cursor.position ≤ cursor.text.utf8ByteSize)
    (scanned : cursor.scanValue = .ok (value, next)) : Advances cursor next 0 := by
  obtain ⟨start, run, eaten, taken⟩ | eaten := steps_of_scanValue scanned
  · exact ((eat_advances eaten).trans (takeClass_advances taken)).mono (Nat.zero_le _)
  · rw [eq_of_eat_eq_false eaten]
    exact ⟨rfl, Nat.le_refl _, inside⟩

/-- A pass that finds an attribute goes past its `@` and past a key that is not empty. -/
theorem pass_advances {entry : LineAttribute} (passed : cursor.pass = .ok (.found entry next)) :
    Advances cursor next 2 := by
  obtain ⟨spaces, start, blank, scanned⟩ := steps_of_pass passed
  obtain ⟨marked, key, behind, value, eaten, taken, nonempty, valueRead⟩ := steps_of_scanEntry scanned
  have letters := takeClass_advances taken
  have rest := scanValue_advances (letters.text ▸ letters.inside) valueRead
  have keySize : 0 < key.utf8ByteSize := Nat.pos_of_ne_zero (mt String.utf8ByteSize_eq_zero_iff.mp nonempty)
  exact ((((takeClass_advances blank).trans (eat_advances eaten)).trans letters).trans rest).mono (by omega)

end Advances

/-- Read attributes up to the end of the line. -/
def scanEntries (cursor : Cursor) : Except SliceFault (Except LineFault (List LineAttribute)) :=
  match _ : cursor.pass with
  | .error fault => .error fault
  | .ok .ended => .ok (.ok [])
  | .ok (.failed fault) => .ok (.error fault)
  | .ok (.found entry next) => do
    let others ← next.scanEntries
    return others.map (entry :: ·)
termination_by cursor.text.utf8ByteSize - cursor.position
decreasing_by
  have advances := pass_advances ‹_›
  have forward := advances.position
  have inside := advances.inside
  rw [advances.text]
  omega

end Cursor

namespace Line

/-- Split the bytes of a line into its parts, or tell the first place where its layout is wrong. -/
def scanBytes (line : String) : Except SliceFault (Except LineFault Line) := do
  let (word, cursor) ← Cursor.takeClass ⟨line, 0⟩ .wordDigit
  if word.utf8ByteSize ≠ 8 then return .error .wordDigits
  else
    match cursor.eat ' '.toUInt8 with
    | (false, _) => return .error .wordSpace
    | (true, cursor) =>
      if !cursor.peek.any (ByteClass.between 'a' 'z') then return .error .mnemonicStart
      else
        let (mnemonic, cursor) ← cursor.takeClass .mnemonicChar
        let (spaces, cursor) ← cursor.takeClass .space
        if spaces.isEmpty then return .error .mnemonicSpaces
        else
          let (format, cursor) ← cursor.scanFormat
          if format.isEmpty then return .error .missingFormat
          else
            let attributes ← cursor.scanEntries
            return attributes.map fun attributes =>
              ⟨word.toList, mnemonic.toList, format.toList, attributes⟩

end Line

end InsnEncoding
