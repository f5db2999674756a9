import Mathlib.Data.List.TakeDrop
import Mathlib.Data.List.TakeWhile

/-!
# Runs of characters

The readers take characters of a class as long as they can. A run of the class is taken exactly if
what stands behind it does not go on with the class (`Text.Stops`); then `takeWhile_run` and
`dropWhile_run` split the text there, and `exists_run` says that every text is split in this way.
-/

namespace InsnEncoding

namespace Text

/-- The text does not begin with a character of the class. -/
def Stops (inClass : Char → Bool) (text : List Char) : Prop :=
  ∀ char ∈ text.head?, inClass char = false

variable {inClass : Char → Bool}

theorem stops_nil : Stops inClass [] := by
  intro char first
  contradiction

@[simp] theorem stops_cons {char : Char} {rest : List Char} :
    Stops inClass (char :: rest) ↔ inClass char = false := by
  simp [Stops]

theorem Stops.mono {text : List Char} (stops : Stops inClass text) {part : Char → Bool}
    (member : ∀ char, part char → inClass char) : Stops part text := by
  intro char first
  rw [Bool.eq_false_iff]
  intro inPart
  have outside := stops char first
  rw [member char inPart] at outside
  contradiction

/-- Whether a class stops at a text is seen from its first character. -/
theorem Stops.congr {text other : List Char} (stops : Stops inClass text)
    (same : text.head? = other.head?) : Stops inClass other := by
  unfold Stops
  rw [← same]
  exact stops

theorem Stops.append {text rest : List Char} (stops : Stops inClass text)
    (behind : Stops inClass rest) : Stops inClass (text ++ rest) := by
  cases text with
  | nil => exact behind
  | cons char more => exact stops.congr rfl

theorem stops_dropWhile (text : List Char) : Stops inClass (text.dropWhile inClass) := by
  intro char first
  have outside := List.head?_dropWhile_not inClass text
  rw [Option.mem_def.mp first] at outside
  simpa using outside

theorem takeWhile_run {run rest : List Char} (all : ∀ char ∈ run, inClass char)
    (stops : Stops inClass rest) : (run ++ rest).takeWhile inClass = run := by
  rw [List.takeWhile_append_of_pos all]
  cases rest with
  | nil => simp
  | cons char rest => simp [stops_cons.mp stops]

/-- A run is empty exactly if the text does not begin with the class. -/
theorem takeWhile_eq_nil_iff {text : List Char} : text.takeWhile inClass = [] ↔ Stops inClass text := by
  cases text with
  | nil => simp [stops_nil]
  | cons char rest => simp [List.takeWhile_cons]

theorem dropWhile_run {run rest : List Char} (all : ∀ char ∈ run, inClass char)
    (stops : Stops inClass rest) : (run ++ rest).dropWhile inClass = rest := by
  rw [List.dropWhile_append_of_pos all]
  cases rest with
  | nil => rfl
  | cons char rest => simp [stops_cons.mp stops]

theorem span_run {run rest : List Char} (all : ∀ char ∈ run, inClass char)
    (stops : Stops inClass rest) : (run ++ rest).span inClass = (run, rest) := by
  rw [List.span_eq_takeWhile_dropWhile, takeWhile_run all stops, dropWhile_run all stops]

/-- More text only makes a run longer. -/
theorem takeWhile_prefix_append (text more : List Char) :
    text.takeWhile inClass <+: (text ++ more).takeWhile inClass := by
  induction text with
  | nil => exact List.nil_prefix
  | cons char rest ih =>
    rw [List.cons_append, List.takeWhile_cons, List.takeWhile_cons]
    split
    · exact (List.prefix_cons_inj char).mpr ih
    · exact List.nil_prefix

/-- Every text is a run of the class and then something that does not go on with it. -/
theorem exists_run (inClass : Char → Bool) (text : List Char) :
    ∃ run rest, text = run ++ rest ∧ (∀ char ∈ run, inClass char) ∧ Stops inClass rest :=
  ⟨text.takeWhile inClass, text.dropWhile inClass, List.takeWhile_append_dropWhile.symm,
    fun _ => List.mem_takeWhile_imp, stops_dropWhile text⟩

end Text

end InsnEncoding
