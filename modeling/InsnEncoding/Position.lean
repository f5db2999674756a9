/-!
# Letters of bit positions

The text of a format names a bit position by a letter, and only some positions have one. There are
two tables: `fieldLetters` for the fields of immediates and of most registers, and
`intRegisterLetters` for integer registers, whose single capital letter also fixes the width.

In both tables the letters and the positions are pairwise distinct, so `letter?` and `offset?` find the
same entries (`letter?_eq_some_iff`, `offset?_eq_some_iff_mem`) and undo each other.
-/

namespace InsnEncoding

/-- Bit positions with the letter of each. -/
abbrev LetterTable := List (UInt32 × Char)

namespace LetterTable

/-- The letter of a position. -/
def letter? (table : LetterTable) (offset : UInt32) : Option Char :=
  (table.find? fun entry => entry.1 == offset).map Prod.snd

/-- The position of a letter. -/
def offset? (table : LetterTable) (letter : Char) : Option UInt32 :=
  (table.find? fun entry => entry.2 == letter).map Prod.fst

/-- No position and no letter occurs twice. -/
def Distinct (table : LetterTable) : Prop :=
  table.Pairwise fun first second => first.1 ≠ second.1 ∧ first.2 ≠ second.2

instance (table : LetterTable) : Decidable table.Distinct :=
  inferInstanceAs (Decidable (List.Pairwise _ _))

/-- Where no two entries have the same key, the entry with a key is the first that has it. -/
theorem find?_eq_some_iff {κ : Type} [BEq κ] [LawfulBEq κ] {key : UInt32 × Char → κ}
    {table : LetterTable} (distinct : table.Pairwise fun first second => key first ≠ key second)
    {sought : κ} {entry : UInt32 × Char} :
    (table.find? fun other => key other == sought) = some entry ↔ entry ∈ table ∧ key entry = sought := by
  induction table with
  | nil => simp
  | cons first rest ih =>
    obtain ⟨apart, distinct⟩ := List.pairwise_cons.mp distinct
    by_cases same : key first = sought
    · subst same
      rw [List.find?_cons_of_pos (by simp), Option.some.injEq, List.mem_cons]
      constructor
      · rintro rfl
        exact ⟨Or.inl rfl, rfl⟩
      · rintro ⟨equal | later, same⟩
        · exact equal.symm
        · exact absurd same.symm (apart entry later)
    · rw [List.find?_cons_of_neg (by simpa using same), ih distinct, List.mem_cons]
      refine and_congr_left fun keyed => ⟨Or.inr, fun member => member.resolve_left ?_⟩
      rintro rfl
      exact same keyed

theorem letter?_eq_some_iff {table : LetterTable} (distinct : table.Distinct) {offset : UInt32}
    {letter : Char} : table.letter? offset = some letter ↔ (offset, letter) ∈ table := by
  rw [letter?, Option.map_eq_some_iff]
  simp only [find?_eq_some_iff (List.Pairwise.imp And.left distinct)]
  constructor
  · rintro ⟨entry, ⟨member, rfl⟩, rfl⟩
    exact member
  · intro member
    exact ⟨_, ⟨member, rfl⟩, rfl⟩

theorem offset?_eq_some_iff_mem {table : LetterTable} (distinct : table.Distinct) {offset : UInt32}
    {letter : Char} : table.offset? letter = some offset ↔ (offset, letter) ∈ table := by
  rw [offset?, Option.map_eq_some_iff]
  simp only [find?_eq_some_iff (List.Pairwise.imp And.right distinct)]
  constructor
  · rintro ⟨entry, ⟨member, rfl⟩, rfl⟩
    exact member
  · intro member
    exact ⟨_, ⟨member, rfl⟩, rfl⟩

end LetterTable

/-- The positions that a field may start at, with their lowercase letters. -/
def fieldLetters : LetterTable :=
  [(0, 'd'), (5, 'j'), (10, 'k'), (15, 'a'), (16, 'm'), (18, 'n')]

/-- The positions of integer registers, with their capital letters. -/
def intRegisterLetters : LetterTable :=
  [(0, 'D'), (5, 'J'), (10, 'K'), (15, 'A')]

theorem fieldLetters_distinct : fieldLetters.Distinct := by decide

theorem intRegisterLetters_distinct : intRegisterLetters.Distinct := by decide

end InsnEncoding
