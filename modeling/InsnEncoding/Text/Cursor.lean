import InsnEncoding.Proofs.Result

/-!
# A cursor over the bytes of a text

A cursor counts the bytes of a text's UTF-8 form, and a character has up to four of them. Reading a byte
is possible anywhere; cutting a part out of the text fails unless both ends lie between characters.
Where the cursor goes on, it goes over bytes of the text and not past its end (`Cursor.Advances`).
-/

namespace InsnEncoding

/-- The text cannot be cut there: an end lies inside a character or outside the text. -/
structure SliceFault where
  start : Nat
  stop : Nat
  deriving DecidableEq

/-- A position in a text, counted in bytes. -/
structure Cursor where
  text : String
  position : Nat
  deriving DecidableEq

namespace Cursor

/-- The cursor stands before a character or at the end of its text. -/
def OnBoundary (cursor : Cursor) : Prop :=
  String.Pos.Raw.IsValid cursor.text ⟨cursor.position⟩

instance (cursor : Cursor) : Decidable cursor.OnBoundary :=
  inferInstanceAs (Decidable (String.Pos.Raw.IsValid _ _))

/-- The cursor some bytes further on. -/
def advance (cursor : Cursor) (count : Nat) : Cursor :=
  { cursor with position := cursor.position + count }

/-- The cursor has passed the last byte. -/
def atEnd (cursor : Cursor) : Bool :=
  cursor.text.utf8ByteSize ≤ cursor.position

/-- The byte at the cursor. -/
def peek (cursor : Cursor) : Option UInt8 :=
  cursor.text.toByteArray[cursor.position]?

/-- The part of the text from the cursor up to a later position. -/
def sliceTo (cursor : Cursor) (stop : Nat) : Except SliceFault String :=
  if bounds : cursor.position ≤ stop ∧ cursor.OnBoundary ∧ OnBoundary ⟨cursor.text, stop⟩ then
    .ok (String.extract (⟨⟨cursor.position⟩, bounds.2.1⟩ : cursor.text.Pos) ⟨⟨stop⟩, bounds.2.2⟩)
  else .error ⟨cursor.position, stop⟩

/-- Go past the byte if it stands at the cursor. -/
def eat (cursor : Cursor) (byte : UInt8) : Bool × Cursor :=
  if cursor.peek = some byte then (true, cursor.advance 1) else (false, cursor)

/-- Go past the word if it stands at the cursor. -/
def eatText (cursor : Cursor) (word : String) : Except SliceFault (Bool × Cursor) := do
  let rest ← cursor.sliceTo cursor.text.utf8ByteSize
  return if word.toList.isPrefixOf rest.toList then (true, cursor.advance word.utf8ByteSize)
    else (false, cursor)

theorem position_lt_of_peek {cursor : Cursor} {byte : UInt8} (peeked : cursor.peek = some byte) :
    cursor.position < cursor.text.utf8ByteSize := by
  obtain ⟨inText, _⟩ := getElem?_eq_some_iff.mp peeked
  exact inText

/-- Go past the bytes at the cursor that are in a class. -/
def skipWhile (cursor : Cursor) (inClass : UInt8 → Bool) : Cursor :=
  match _ : cursor.peek with
  | some byte => if inClass byte then (cursor.advance 1).skipWhile inClass else cursor
  | none => cursor
termination_by cursor.text.utf8ByteSize - cursor.position
decreasing_by
  have inText := position_lt_of_peek ‹_›
  exact Nat.sub_lt_sub_left inText (Nat.lt_succ_self _)

/-- Split off the bytes at the cursor that are in a class. -/
def takeWhile (cursor : Cursor) (inClass : UInt8 → Bool) : Except SliceFault (String × Cursor) := do
  let next := cursor.skipWhile inClass
  let run ← cursor.sliceTo next.position
  return (run, next)

/-- A part that could be cut out has its ends between characters, and all bytes between them. -/
theorem bounds_of_sliceTo {cursor : Cursor} {stop : Nat} {part : String}
    (sliced : cursor.sliceTo stop = .ok part) :
    cursor.OnBoundary ∧ OnBoundary ⟨cursor.text, stop⟩ ∧ stop = cursor.position + part.utf8ByteSize := by
  unfold sliceTo at sliced
  split at sliced
  next bounds =>
    cases sliced
    refine ⟨bounds.2.1, bounds.2.2, ?_⟩
    have inside := bounds.2.2.le_utf8ByteSize
    rw [← String.size_toByteArray, String.toByteArray_extract, ByteArray.size_extract,
      String.size_toByteArray]
    simp only at inside ⊢
    omega
  · contradiction

@[simp] theorem skipWhile_text (cursor : Cursor) (inClass : UInt8 → Bool) :
    (cursor.skipWhile inClass).text = cursor.text := by
  fun_induction skipWhile cursor inClass with
  | case1 cursor byte peeked inClass ih => exact ih
  | case2 => rfl
  | case3 => rfl

/-- The cursor has gone on over at least some bytes of its text, and not past the end. -/
structure Advances (cursor next : Cursor) (count : Nat) : Prop where
  text : next.text = cursor.text
  position : cursor.position + count ≤ next.position
  inside : next.position ≤ cursor.text.utf8ByteSize

namespace Advances

variable {cursor next last : Cursor} {count more : Nat}

theorem trans (first : Advances cursor next count) (second : Advances next last more) :
    Advances cursor last (count + more) where
  text := second.text.trans first.text
  position := by
    have here := first.position
    have there := second.position
    omega
  inside := first.text ▸ second.inside

theorem mono (advances : Advances cursor next count) (fewer : more ≤ count) :
    Advances cursor next more where
  text := advances.text
  position := Nat.le_trans (Nat.add_le_add_left fewer _) advances.position
  inside := advances.inside

end Advances

section Steps

variable {cursor next : Cursor}

theorem eat_advances {byte : UInt8} (eaten : cursor.eat byte = (true, next)) :
    Advances cursor next 1 := by
  unfold eat at eaten
  split at eaten
  next peeked =>
    cases eaten
    exact ⟨rfl, Nat.le_refl _, position_lt_of_peek peeked⟩
  · cases eaten

theorem eq_of_eat_eq_false {byte : UInt8} (eaten : cursor.eat byte = (false, next)) : next = cursor := by
  unfold eat at eaten
  split at eaten
  · cases eaten
  · cases eaten
    rfl

theorem takeWhile_advances {inClass : UInt8 → Bool} {run : String}
    (taken : cursor.takeWhile inClass = .ok (run, next)) : Advances cursor next run.utf8ByteSize := by
  obtain ⟨part, sliced, done⟩ := exists_of_bind_eq_ok taken
  cases done
  obtain ⟨_, inside, reached⟩ := bounds_of_sliceTo sliced
  exact ⟨skipWhile_text cursor _, Nat.le_of_eq reached.symm, inside.le_utf8ByteSize⟩

end Steps

end Cursor

end InsnEncoding
