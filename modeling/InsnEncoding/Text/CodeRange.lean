/-!
# Ranges of code points

A property of characters is a list of ranges in ascending order. `CodeRange.contains` stops at the
first range that begins past the code point, so the lowest code points are the cheapest. In ordered
ranges it finds exactly the code points that lie in some range (`contains_iff`).
-/

namespace InsnEncoding

namespace Text

/-- The code points from `first` to `last`, both included. -/
structure CodeRange where
  first : Nat
  last : Nat

namespace CodeRange

/-- A code point lies in one of some ranges, given in ascending order. -/
def contains : List CodeRange → Nat → Bool
  | [], _ => false
  | range :: rest, code =>
    if code < range.first then false else code ≤ range.last || contains rest code

/-- The ranges begin at `low` or later, no range is empty, and each ends before the next begins. -/
def isOrderedFrom : Nat → List CodeRange → Bool
  | _, [] => true
  | low, range :: rest =>
    low ≤ range.first && range.first ≤ range.last && isOrderedFrom (range.last + 1) rest

theorem low_le_of_isOrderedFrom {ranges : List CodeRange} {low : Nat}
    (ordered : isOrderedFrom low ranges) : ∀ range ∈ ranges, low ≤ range.first := by
  induction ranges generalizing low with
  | nil => intro range member; contradiction
  | cons range rest ih =>
    simp only [isOrderedFrom, Bool.and_eq_true, decide_eq_true_eq] at ordered
    obtain ⟨⟨begins, proper⟩, later⟩ := ordered
    intro other member
    rcases List.mem_cons.mp member with rfl | behind
    · exact begins
    · have := ih later other behind
      omega

/-- In ordered ranges the code points found are those that lie in some range. -/
theorem contains_iff {ranges : List CodeRange} {low : Nat} (ordered : isOrderedFrom low ranges)
    {code : Nat} :
    contains ranges code ↔ ∃ range ∈ ranges, range.first ≤ code ∧ code ≤ range.last := by
  induction ranges generalizing low with
  | nil => simp [contains]
  | cons range rest ih =>
    simp only [isOrderedFrom, Bool.and_eq_true, decide_eq_true_eq] at ordered
    obtain ⟨⟨begins, proper⟩, later⟩ := ordered
    have tail := ih later
    have behind := low_le_of_isOrderedFrom later
    rw [contains]
    by_cases below : code < range.first
    · rw [if_pos below]
      constructor
      · intro found
        contradiction
      · rintro ⟨other, member, first, last⟩
        rcases List.mem_cons.mp member with rfl | inRest
        · omega
        · have := behind other inRest
          omega
    · rw [if_neg below, Bool.or_eq_true, decide_eq_true_eq, tail]
      constructor
      · rintro (inside | ⟨other, member, inside⟩)
        · exact ⟨range, List.mem_cons_self, by omega, inside⟩
        · exact ⟨other, List.mem_cons_of_mem _ member, inside⟩
      · rintro ⟨other, member, inside⟩
        rcases List.mem_cons.mp member with rfl | inRest
        · exact Or.inl inside.2
        · exact Or.inr ⟨other, inRest, inside⟩

end CodeRange

end Text

end InsnEncoding
