import InsnEncoding.Text.Cursor
import Mathlib.Tactic.SplitIfs

/-!
# Bytes and characters under a cursor

A cursor is on a boundary if whole characters stand before it (`Cursor.onBoundary_iff_exists`). There the
byte at the cursor is the first one of a character, which tells whether the character is ASCII and, if so,
which one it is (`leadByte_eq_iff`). So a step over bytes that only ASCII characters begin with is a step
over characters (`Cursor.eat_between_cons_self`, `Cursor.takeWhile_between`), from boundary to boundary.
-/

namespace InsnEncoding

/-- The first byte of a character's UTF-8 form. -/
def leadByte (char : Char) : UInt8 :=
  (String.utf8EncodeChar char).head String.utf8EncodeChar_ne_nil

section LeadByte

variable {char sign first last : Char}

theorem toNat_leadByte (ascii : char.toNat < 128) : (leadByte char).toNat = char.toNat := by
  have small : char.val.toNat ≤ 127 := Nat.le_of_lt_succ ascii
  simp only [leadByte, String.utf8EncodeChar, if_pos small, List.head_cons, UInt8.toNat_ofNat']
  exact Nat.mod_eq_of_lt (Nat.lt_trans ascii (by decide))

theorem le_toNat_leadByte (outside : ¬ char.toNat < 128) : 128 ≤ (leadByte char).toNat := by
  have large : ¬ char.val.toNat ≤ 127 := mt Nat.lt_succ_of_le outside
  unfold leadByte
  simp only [String.utf8EncodeChar, if_neg large]
  split_ifs
  all_goals
    simp only [List.head_cons, UInt8.toNat_ofNat']
    omega

theorem ascii_of_leadByte_lt (low : leadByte char < 128) : char.toNat < 128 := by
  by_contra outside
  exact absurd (UInt8.lt_iff_toNat_lt.mp low) (Nat.not_lt.mpr (le_toNat_leadByte outside))

theorem utf8Size_of_ascii (ascii : char.toNat < 128) : char.utf8Size = 1 :=
  Char.utf8Size_eq_one_iff.mpr (UInt32.le_iff_toNat_le.mpr (Nat.le_of_lt_succ ascii))

theorem toNat_toUInt8 (ascii : char.toNat < 128) : char.toUInt8.toNat = char.toNat := by
  rw [Char.toUInt8, UInt32.toNat_toUInt8]
  exact Nat.mod_eq_of_lt (Nat.lt_trans ascii (by decide))

/-- The first byte tells an ASCII character from every other character. -/
theorem leadByte_eq_iff (ascii : sign.toNat < 128) : leadByte char = sign.toUInt8 ↔ char = sign := by
  rw [← UInt8.toNat_inj, toNat_toUInt8 ascii, ← Char.toNat_inj]
  by_cases also : char.toNat < 128
  · rw [toNat_leadByte also]
  · have large := le_toNat_leadByte also
    omega

end LeadByte

/-- A text of ASCII characters has one byte for each of them. -/
theorem utf8ByteSize_of_ascii {text : List Char} (ascii : ∀ char ∈ text, char.toNat < 128) :
    (String.ofList text).utf8ByteSize = text.length := by
  induction text with
  | nil => rfl
  | cons char rest ih =>
    obtain ⟨here, later⟩ := List.forall_mem_cons.mp ascii
    rw [String.ofList_cons, String.utf8ByteSize_append, ih later, String.utf8ByteSize_singleton,
      utf8Size_of_ascii here, List.length_cons, Nat.add_comm]

theorem isEmpty_ofList (text : List Char) : (String.ofList text).isEmpty = text.isEmpty := by
  rw [Bool.eq_iff_iff, String.isEmpty_iff, List.isEmpty_iff]
  exact String.ofList_eq_empty_iff

/-- The bytes of the middle part of a text begin where the part before it ends. -/
theorem extract_toByteArray (front part rest : String) :
    (front ++ (part ++ rest)).toByteArray.extract front.utf8ByteSize
      (front.utf8ByteSize + part.utf8ByteSize) = part.toByteArray := by
  rw [String.toByteArray_append, String.toByteArray_append, ← String.size_toByteArray,
    ← String.size_toByteArray]
  exact (ByteArray.extract_append_size_add' (i := 0) rfl).trans (ByteArray.extract_append_eq_left rfl)

namespace Cursor

/-- The cursor between the characters before it and those to come. -/
def between (front : String) (behind : List Char) : Cursor :=
  ⟨front ++ String.ofList behind, front.utf8ByteSize⟩

/-- A cursor is on a boundary if whole characters stand before it. -/
theorem onBoundary_iff_exists {cursor : Cursor} :
    cursor.OnBoundary ↔ ∃ front behind, cursor = between front behind := by
  obtain ⟨text, position⟩ := cursor
  rw [OnBoundary, String.Pos.Raw.isValid_iff_exists_append]
  constructor
  · rintro ⟨front, behind, rfl, reached⟩
    refine ⟨front, behind.toList, ?_⟩
    rw [between, String.ofList_toList]
    exact congrArg _ (congrArg String.Pos.Raw.byteIdx reached)
  · rintro ⟨front, behind, same⟩
    cases same
    exact ⟨front, String.ofList behind, rfl, rfl⟩

example : ¬ (Cursor.mk "é" 1).OnBoundary := by decide

theorem start_eq_between (line : String) : (⟨line, 0⟩ : Cursor) = between "" line.toList := by
  simp [between]

section Between

variable (front : String) (behind : List Char)

theorem onBoundary_between : (between front behind).OnBoundary :=
  onBoundary_iff_exists.mpr ⟨front, behind, rfl⟩

theorem atEnd_between : (between front behind).atEnd = behind.isEmpty := by
  simp only [atEnd, between, String.utf8ByteSize_append]
  cases behind with
  | nil => simp
  | cons char rest =>
    have positive := char.utf8Size_pos
    simp
    omega

theorem peek_between_nil : (between front []).peek = none := by
  simp [peek, between]

theorem peek_between_cons (char : Char) :
    (between front (char :: behind)).peek = some (leadByte char) := by
  have bytes : (front ++ String.ofList (char :: behind)).toByteArray =
      front.toByteArray ++ ((String.utf8EncodeChar char).toByteArray ++ behind.utf8Encode) := by
    rw [String.toByteArray_append, String.toByteArray_ofList, List.utf8Encode_cons,
      List.utf8Encode_singleton]
  have positive := char.utf8Size_pos
  simp only [peek, between, bytes, ← String.size_toByteArray]
  rw [getElem?_pos _ _ (by simp; omega), ByteArray.getElem_append_right (Nat.le_refl _)]
  congr 1
  rw [ByteArray.getElem_append_left (by simp; omega)]
  simp [leadByte, List.head_eq_getElem]

theorem between_append_text (part rest : List Char) :
    (between (front ++ String.ofList part) rest).text = (between front (part ++ rest)).text := by
  simp only [between, String.append_assoc, String.ofList_append]

/-- The step over one byte is the step over a whole ASCII character. -/
theorem advance_between {char : Char} (ascii : char.toNat < 128) :
    (between front (char :: behind)).advance 1 = between (front.push char) behind := by
  have text : front.push char ++ String.ofList behind = front ++ String.ofList (char :: behind) := by
    rw [String.push_eq_append, String.append_assoc, String.ofList_cons]
  rw [between, between, text, String.utf8ByteSize_push, utf8Size_of_ascii ascii]
  rfl

/-- What is cut out of a text between two of its characters. -/
theorem sliceTo_between (part rest : List Char) :
    (between front (part ++ rest)).sliceTo (between (front ++ String.ofList part) rest).position =
      .ok (String.ofList part) := by
  have start := onBoundary_between front (part ++ rest)
  have stop := onBoundary_between (front ++ String.ofList part) rest
  rw [OnBoundary, between_append_text] at stop
  unfold sliceTo
  rw [dif_pos ⟨by simp [between], start, stop⟩, Except.ok.injEq]
  rw [← String.toByteArray_inj, String.toByteArray_extract]
  simp only [between, String.ofList_append, String.utf8ByteSize_append]
  exact extract_toByteArray front (String.ofList part) (String.ofList rest)

theorem sliceTo_end_between :
    (between front behind).sliceTo (between front behind).text.utf8ByteSize =
      .ok (String.ofList behind) := by
  have sliced := sliceTo_between front behind []
  rwa [List.append_nil] at sliced

theorem eat_between_nil (byte : UInt8) : (between front []).eat byte = (false, between front []) := by
  rw [eat, peek_between_nil, if_neg (Option.some_ne_none byte).symm]

theorem eat_between_cons_self {sign : Char} (ascii : sign.toNat < 128) :
    (between front (sign :: behind)).eat sign.toUInt8 = (true, between (front.push sign) behind) := by
  rw [eat, peek_between_cons, if_pos (congrArg some ((leadByte_eq_iff ascii).mpr rfl)),
    advance_between front behind ascii]

theorem eat_between_cons_of_ne {char sign : Char} (ascii : sign.toNat < 128) (other : char ≠ sign) :
    (between front (char :: behind)).eat sign.toUInt8 = (false, between front (char :: behind)) := by
  rw [eat, peek_between_cons, if_neg]
  intro same
  exact other ((leadByte_eq_iff ascii).mp (Option.some.inj same))

theorem eatText_between_append (word : List Char) :
    (between front (word ++ behind)).eatText (String.ofList word) =
      .ok (true, between (front ++ String.ofList word) behind) := by
  have begins : word.isPrefixOf (word ++ behind) := List.isPrefixOf_iff_prefix.mpr (List.prefix_append _ _)
  rw [eatText, sliceTo_end_between, ok_bind, String.toList_ofList, String.toList_ofList, if_pos begins]
  have text := between_append_text front word behind
  simp only [between] at text
  simp only [between, advance, text, String.utf8ByteSize_append]
  rfl

theorem eatText_between_of_not {word : List Char} (other : ¬ word.isPrefixOf behind) :
    (between front behind).eatText (String.ofList word) = .ok (false, between front behind) := by
  rw [eatText, sliceTo_end_between, ok_bind, String.toList_ofList, String.toList_ofList, if_neg other]
  rfl

section Class

variable {inClass : UInt8 → Bool} {chars : Char → Bool}

theorem skipWhile_between (agrees : ∀ char, inClass (leadByte char) = chars char)
    (ascii : ∀ char, chars char → char.toNat < 128) :
    (between front behind).skipWhile inClass =
      between (front ++ String.ofList (behind.takeWhile chars)) (behind.dropWhile chars) := by
  induction behind generalizing front with
  | nil =>
    rw [skipWhile]
    split
    next byte peeked =>
      rw [peek_between_nil] at peeked
      contradiction
    · simp
  | cons char rest ih =>
    rw [skipWhile]
    split
    next byte peeked =>
      rw [peek_between_cons] at peeked
      cases peeked
      rw [agrees]
      by_cases inside : chars char
      · rw [if_pos inside, advance_between front rest (ascii char inside), ih,
          List.takeWhile_cons_of_pos inside, List.dropWhile_cons_of_pos inside,
          String.push_eq_append, String.append_assoc, String.ofList_cons]
      · rw [if_neg inside, List.takeWhile_cons_of_neg inside, List.dropWhile_cons_of_neg inside]
        simp
    next nothing =>
      rw [peek_between_cons] at nothing
      contradiction

theorem takeWhile_between (agrees : ∀ char, inClass (leadByte char) = chars char)
    (ascii : ∀ char, chars char → char.toNat < 128) :
    (between front behind).takeWhile inClass =
      .ok (String.ofList (behind.takeWhile chars),
        between (front ++ String.ofList (behind.takeWhile chars)) (behind.dropWhile chars)) := by
  have sliced := sliceTo_between front (behind.takeWhile chars) (behind.dropWhile chars)
  rw [List.takeWhile_append_dropWhile] at sliced
  rw [takeWhile, skipWhile_between front behind agrees ascii, sliced]
  rfl

end Class

end Between

section Boundary

variable {cursor next : Cursor}

theorem OnBoundary.le_size (onBoundary : cursor.OnBoundary) : cursor.position ≤ cursor.text.utf8ByteSize :=
  onBoundary.le_utf8ByteSize

/-- Going past an ASCII character ends on a boundary. -/
theorem OnBoundary.eat (onBoundary : cursor.OnBoundary) {byte : UInt8} (ascii : byte < 128) {eaten : Bool}
    (stepped : cursor.eat byte = (eaten, next)) : next.OnBoundary ∧ next.text = cursor.text := by
  unfold Cursor.eat at stepped
  split at stepped
  next peeked =>
    cases stepped
    refine ⟨?_, rfl⟩
    obtain ⟨front, behind, rfl⟩ := onBoundary_iff_exists.mp onBoundary
    cases behind with
    | nil =>
      rw [peek_between_nil] at peeked
      contradiction
    | cons char rest =>
      rw [peek_between_cons] at peeked
      rw [advance_between front rest (ascii_of_leadByte_lt (Option.some.inj peeked ▸ ascii))]
      exact onBoundary_between _ _
  · cases stepped
    exact ⟨onBoundary, rfl⟩

theorem OnBoundary.eatText (onBoundary : cursor.OnBoundary) {word : String} {eaten : Bool}
    (stepped : cursor.eatText word = .ok (eaten, next)) : next.OnBoundary ∧ next.text = cursor.text := by
  obtain ⟨front, behind, rfl⟩ := onBoundary_iff_exists.mp onBoundary
  by_cases begins : word.toList.isPrefixOf behind
  · obtain ⟨rest, rfl⟩ := List.isPrefixOf_iff_prefix.mp begins
    have same := eatText_between_append front rest word.toList
    rw [String.ofList_toList, stepped] at same
    cases same
    refine ⟨onBoundary_between _ _, ?_⟩
    have text := between_append_text front word.toList rest
    rwa [String.ofList_toList] at text
  · have same := eatText_between_of_not front behind begins
    rw [String.ofList_toList, stepped] at same
    cases same
    exact ⟨onBoundary, rfl⟩

theorem exists_eatText_iff {word : String} :
    (∃ result, cursor.eatText word = .ok result) ↔ cursor.OnBoundary := by
  constructor
  · rintro ⟨result, done⟩
    obtain ⟨rest, sliced, _⟩ := exists_of_bind_eq_ok done
    exact (bounds_of_sliceTo sliced).1
  · intro onBoundary
    obtain ⟨front, behind, rfl⟩ := onBoundary_iff_exists.mp onBoundary
    rw [Cursor.eatText, sliceTo_end_between]
    exact ⟨_, rfl⟩

theorem onBoundary_of_takeWhile {inClass : UInt8 → Bool} {run : String}
    (taken : cursor.takeWhile inClass = .ok (run, next)) :
    cursor.OnBoundary ∧ next.OnBoundary ∧ next.text = cursor.text := by
  obtain ⟨part, sliced, done⟩ := exists_of_bind_eq_ok taken
  cases done
  obtain ⟨start, stop, _⟩ := bounds_of_sliceTo sliced
  refine ⟨start, ?_, skipWhile_text cursor _⟩
  rwa [OnBoundary, skipWhile_text]

end Boundary

end Cursor

end InsnEncoding
