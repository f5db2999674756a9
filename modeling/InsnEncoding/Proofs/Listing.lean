import InsnEncoding.Listing
import InsnEncoding.Proofs.Result
import InsnEncoding.Proofs.Run

/-!
# Reading listings

A text that is empty or ends with a line feed has only complete lines (`Text.Complete`), and what is written
behind it does not change them. So a listing that is put together from two is read as the one and then the
other, and the lines of the second are counted on from those of the first: `Listing.read_append`.

Reading stops at the first line that is refused (`Listing.read_eq_error_iff`) and otherwise gives one
description for every line that is not empty (`Listing.read_eq_ok_iff`).
-/

namespace InsnEncoding

namespace Text

/-- The text has only complete lines. -/
inductive Complete : List Char → Prop where
  | nil : Complete []
  | line {line rest : List Char} :
      '\n' ∉ line → Complete rest → Complete (line ++ '\n' :: rest)

theorem complete_of_getLast? {text : List Char} (last : text.getLast? = some '\n') :
    Complete text := by
  obtain ⟨line, behind, split, inner, stops⟩ := exists_run (· != '\n') text
  have noFeed : '\n' ∉ line := fun member => absurd (inner '\n' member) (by decide)
  cases behind with
  | nil =>
    rw [split, List.append_nil] at last
    exact absurd (List.mem_of_getLast? last) noFeed
  | cons char rest =>
    have feed : char = '\n' := by simpa using stops_cons.mp stops
    subst feed
    rw [split]
    cases rest with
    | nil => exact .line noFeed .nil
    | cons next more =>
      have shorter : (next :: more).length < text.length := by
        simp [split]
        omega
      refine .line noFeed (complete_of_getLast? ?_)
      rw [split, List.getLast?_append_of_ne_nil _ (List.cons_ne_nil _ _), List.getLast?_cons_cons] at last
      exact last
termination_by text.length

theorem complete_iff {text : List Char} :
    Complete text ↔ text = [] ∨ text.getLast? = some '\n' := by
  constructor
  · intro complete
    induction complete with
    | nil => exact Or.inl rfl
    | @line line rest _ _ ih =>
      right
      rw [List.getLast?_append, List.getLast?_cons]
      rcases ih with rfl | last
      · rfl
      · rw [last]
        rfl
  · rintro (rfl | last)
    · exact .nil
    · exact complete_of_getLast? last

variable {first : List Char}

theorem Complete.lines_append (complete : Complete first) (second : List Char) :
    lines (first ++ second) = lines first ++ lines second := by
  induction complete with
  | nil => rw [lines_nil, List.nil_append, List.nil_append]
  | line inner _ ih =>
    rw [List.append_assoc, List.cons_append, lines_append_newline inner, lines_append_newline inner, ih,
      List.cons_append]

theorem Complete.length_lines (complete : Complete first) :
    (lines first).length = first.count '\n' := by
  induction complete with
  | nil => rw [lines_nil, List.count_nil, List.length_nil]
  | line inner _ ih =>
    rw [lines_append_newline inner, List.length_cons, ih, List.count_append,
      List.count_eq_zero_of_not_mem inner, List.count_cons_self, Nat.zero_add]

end Text

namespace Description

/-- The line can be read as the description and, where that is asked, its manual format is valid. -/
def Accepted (strict : Bool) (text : String) (description : Description) : Prop :=
  ofLine text = .ok description ∧ (strict → description.validateManualFormat = .ok ())

/-- The line cannot be read or, where that is asked, its manual format is not valid. -/
inductive Refused (strict : Bool) (text : String) : LineError → Prop where
  | unreadable {fault : LineError} : ofLine text = .error fault → Refused strict text fault
  | invalidManualFormat {description : Description} {fault : ValidationError} :
      strict → ofLine text = .ok description →
      description.validateManualFormat = .error fault → Refused strict text (.invalid fault)

variable {strict : Bool} {text : String}

theorem ofLineWith_of_error {fault : LineError} (failed : ofLine text = .error fault) :
    ofLineWith strict text = .error fault := by
  unfold ofLineWith
  rw [failed]
  rfl

theorem ofLineWith_false : ofLineWith false text = ofLine text := by
  unfold ofLineWith
  cases ofLine text <;> rfl

theorem ofLineWith_true_of_ok {description : Description} (found : ofLine text = .ok description) :
    ofLineWith true text =
      match description.validateManualFormat with
      | .error invalid => .error (.invalid invalid)
      | .ok () => .ok description := by
  unfold ofLineWith
  rw [found]
  show (description.validateManualFormat.mapError LineError.invalid >>= fun _ => pure description) = _
  cases description.validateManualFormat <;> rfl

theorem ofLineWith_eq_ok_iff {description : Description} :
    ofLineWith strict text = .ok description ↔ Accepted strict text description := by
  unfold Accepted
  cases strict with
  | false => simp [ofLineWith_false]
  | true =>
    cases found : ofLine text with
    | error fault => simp [ofLineWith_of_error found]
    | ok other =>
      rw [ofLineWith_true_of_ok found]
      constructor
      · intro passed
        cases valid : other.validateManualFormat with
        | error invalid =>
          rw [valid] at passed
          cases passed
        | ok =>
          rw [valid] at passed
          cases passed
          exact ⟨rfl, fun _ => valid⟩
      · rintro ⟨same, valid⟩
        cases same
        rw [valid rfl]

theorem ofLineWith_eq_error_iff {fault : LineError} :
    ofLineWith strict text = .error fault ↔ Refused strict text fault := by
  constructor
  · intro failed
    cases found : ofLine text with
    | error other =>
      rw [ofLineWith_of_error found] at failed
      cases failed
      exact .unreadable found
    | ok description =>
      cases strict with
      | false =>
        rw [ofLineWith_false, found] at failed
        contradiction
      | true =>
        rw [ofLineWith_true_of_ok found] at failed
        cases valid : description.validateManualFormat with
        | error invalid =>
          rw [valid] at failed
          cases failed
          exact .invalidManualFormat rfl found valid
        | ok =>
          rw [valid] at failed
          contradiction
  · intro refused
    cases refused with
    | unreadable unread => exact ofLineWith_of_error unread
    | invalidManualFormat asked found invalid =>
      subst asked
      rw [ofLineWith_true_of_ok found, invalid]

end Description

/-- The same error if that many more lines stand before the listing. -/
def LoadError.behind (count : Nat) : LoadError → LoadError
  | .badLine path number text fault => .badLine path (number + count) text fault
  | .unreadable path fault => .unreadable path fault

namespace Listing

/-- The lines of a text. -/
def linesOf (text : String) : List String :=
  (Text.lines text.toList).map String.ofList

/-- Lines with their numbers from `start` on, empty ones left out. -/
def numberFrom (start : Nat) (lines : List String) : List (String × Nat) :=
  (lines.zipIdx start).filter fun entry => !entry.1.isEmpty

/-- Read a line with its number. -/
def readEntry (strict : Bool) (path : Option String) (entry : String × Nat) :
    Except LoadError Description :=
  (Description.ofLineWith strict entry.1).mapError (.badLine path entry.2 entry.1)

variable {strict : Bool} {path : Option String}

theorem read_eq_mapM (text : String) :
    read strict path text = (numberFrom 1 (linesOf text)).mapM (readEntry strict path) :=
  rfl

theorem read_empty : read strict path "" = .ok [] := by
  have none : linesOf "" = [] := by
    rw [linesOf, String.toList_empty, Text.lines_nil, List.map_nil]
  rw [read_eq_mapM, none]
  rfl

theorem numberFrom_add (start count : Nat) (lines : List String) :
    numberFrom (count + start) lines =
      (numberFrom start lines).map (Prod.map id (· + count)) := by
  unfold numberFrom
  rw [← List.map_snd_add_zipIdx_eq_zipIdx, List.filter_map]
  rfl

theorem numberFrom_append (start : Nat) (front back : List String) :
    numberFrom start (front ++ back) =
      numberFrom start front ++ numberFrom (start + front.length) back := by
  unfold numberFrom
  rw [List.zipIdx_append, List.filter_append]

theorem numberFrom_cons_of_ne {line : String} (nonempty : line ≠ "") (start : Nat)
    (rest : List String) :
    numberFrom start (line :: rest) = (line, start) :: numberFrom (start + 1) rest := by
  unfold numberFrom
  rw [List.zipIdx_cons, List.filter_cons_of_pos (by simpa using nonempty)]

theorem map_fst_numberFrom (start : Nat) (lines : List String) :
    (numberFrom start lines).map Prod.fst = lines.filter fun line => !line.isEmpty := by
  have numbered : lines = (lines.zipIdx start).map Prod.fst := (List.zipIdx_map_fst start lines).symm
  conv_rhs => rw [numbered, List.filter_map]
  rfl

/-- What stands in a list stands at ascending numbers. -/
theorem ascending_zipIdx {α : Type} (start : Nat) (entries : List α) :
    (entries.zipIdx start).Pairwise fun first second => first.2 < second.2 := by
  rw [← List.pairwise_map, List.zipIdx_map_snd]
  exact List.pairwise_lt_range' 1

theorem ascending_numberFrom (start : Nat) (lines : List String) :
    (numberFrom start lines).Pairwise fun first second => first.2 < second.2 :=
  (ascending_zipIdx start lines).filter _

theorem forall_numberFrom_iff {start : Nat} {lines : List String} (holds : String → Prop) :
    (∀ entry ∈ numberFrom start lines, holds entry.1) ↔ ∀ line ∈ lines, line ≠ "" → holds line := by
  rw [← List.forall_mem_map, map_fst_numberFrom, List.forall_mem_filter]
  simp

/-- A numbered line is a line that is not empty, its number being that of the lines up to it. -/
theorem numberFrom_eq_split_iff {start : Nat} {lines : List String} {front : List (String × Nat)}
    {entry : String × Nat} :
    (∃ back, numberFrom start lines = front ++ entry :: back) ↔
      ∃ before behind, lines = before ++ entry.1 :: behind ∧ numberFrom start before = front ∧
        entry.1 ≠ "" ∧ entry.2 = start + before.length := by
  constructor
  · rintro ⟨back, split⟩
    obtain ⟨kept, rest, split, rfl, found⟩ := List.filter_eq_append_iff.mp split
    obtain ⟨left, behind, rfl, empty, nonempty, -⟩ := List.filter_eq_cons_iff.mp found
    rw [← List.append_assoc] at split
    obtain ⟨before, others, rfl, numbered, later⟩ := List.zipIdx_eq_append_iff.mp split
    obtain ⟨line, after, rfl, rfl, -⟩ := List.zipIdx_eq_cons_iff.mp later.symm
    refine ⟨before, after, rfl, ?_, by simpa using nonempty, rfl⟩
    rw [numberFrom, ← numbered, List.filter_append, List.filter_eq_nil_iff.mpr empty, List.append_nil]
  · rintro ⟨before, behind, rfl, rfl, nonempty, number⟩
    rw [numberFrom_append, numberFrom_cons_of_ne nonempty, ← number]
    exact ⟨_, rfl⟩

theorem readEntry_eq_ok_iff {entry : String × Nat} {description : Description} :
    readEntry strict path entry = .ok description ↔ Description.Accepted strict entry.1 description :=
  mapError_eq_ok_iff.trans Description.ofLineWith_eq_ok_iff

theorem readEntry_eq_error_iff {entry : String × Nat} {error : LoadError} :
    readEntry strict path entry = .error error ↔
      ∃ fault, Description.Refused strict entry.1 fault ∧
        .badLine path entry.2 entry.1 fault = error := by
  simp only [readEntry, mapError_eq_error_iff, Description.ofLineWith_eq_error_iff]

/-- The number of a line has no influence but on the number that is told. -/
theorem readEntry_add (count : Nat) (entry : String × Nat) :
    (readEntry strict path ∘ Prod.map id (· + count)) entry =
      (readEntry strict path entry).mapError (.behind count) := by
  unfold readEntry
  rw [Function.comp_apply, Prod.map_fst, id_eq]
  cases Description.ofLineWith strict entry.1 <;> rfl

/-- A listing is refused for the first of its lines that is refused, and the number of this line counts
    the empty ones before it. -/
theorem read_eq_error_iff {text : String} {error : LoadError} :
    read strict path text = .error error ↔
      ∃ before line behind fault, linesOf text = before ++ line :: behind ∧
        (∀ earlier ∈ before, earlier ≠ "" →
          ∃ description, Description.Accepted strict earlier description) ∧
        line ≠ "" ∧ Description.Refused strict line fault ∧
        error = .badLine path (before.length + 1) line fault := by
  have accepted (lines : List String) := @forall_numberFrom_iff 1 lines fun line =>
    ∃ description, Description.Accepted strict line description
  rw [read_eq_mapM, mapM_eq_error_iff]
  simp only [readEntry_eq_ok_iff]
  constructor
  · rintro ⟨front, ⟨line, number⟩, back, split, passed, failed⟩
    obtain ⟨before, behind, lines, rfl, nonempty, place⟩ := numberFrom_eq_split_iff.mp ⟨back, split⟩
    obtain ⟨fault, refused, rfl⟩ := readEntry_eq_error_iff.mp failed
    refine ⟨before, line, behind, fault, lines, (accepted before).mp passed, nonempty, refused, ?_⟩
    rw [place, Nat.add_comm]
  · rintro ⟨before, line, behind, fault, lines, passed, nonempty, refused, rfl⟩
    have numbered : ∃ back, numberFrom 1 (linesOf text) =
        numberFrom 1 before ++ (line, before.length + 1) :: back :=
      numberFrom_eq_split_iff.mpr ⟨before, behind, lines, rfl, nonempty, Nat.add_comm _ _⟩
    obtain ⟨back, split⟩ := numbered
    exact ⟨_, (line, before.length + 1), back, split, (accepted before).mpr passed,
      readEntry_eq_error_iff.mpr ⟨fault, refused, rfl⟩⟩

/-- A listing is accepted if every line that is not empty is, and gives their descriptions in order. -/
theorem read_eq_ok_iff {text : String} {descriptions : List Description} :
    read strict path text = .ok descriptions ↔
      List.Forall₂ (Description.Accepted strict)
        ((linesOf text).filter fun line => !line.isEmpty) descriptions := by
  rw [read_eq_mapM, mapM_eq_ok_iff, ← map_fst_numberFrom 1, List.forall₂_map_left_iff]
  simp only [readEntry_eq_ok_iff]

theorem exists_accepted_of_read {text : String} {descriptions : List Description}
    (passed : read strict path text = .ok descriptions) {description : Description}
    (member : description ∈ descriptions) :
    ∃ line, Description.Accepted strict line description := by
  obtain ⟨line, -, accepted⟩ := exists_left_of_mem (read_eq_ok_iff.mp passed) member
  exact ⟨line, accepted⟩

/-- A listing is refused if any of its lines is. -/
theorem exists_read_eq_error_iff {text : String} :
    (∃ error, read strict path text = .error error) ↔
      ∃ line ∈ linesOf text, line ≠ "" ∧ ∃ fault, Description.Refused strict line fault := by
  have refused (entry : String × Nat) : (∃ error, readEntry strict path entry = .error error) ↔
      ∃ fault, Description.Refused strict entry.1 fault := by
    simp only [readEntry_eq_error_iff]
    exact ⟨fun ⟨_, fault, refused, _⟩ => ⟨fault, refused⟩,
      fun ⟨fault, refused⟩ => ⟨_, fault, refused, rfl⟩⟩
  rw [read_eq_mapM, exists_mapM_eq_error_iff, ← not_iff_not]
  simp only [refused, not_exists, not_and]
  exact forall_numberFrom_iff fun line => ∀ fault, ¬ Description.Refused strict line fault

/-- Behind complete lines a listing is read as it is by itself, with its lines counted on from theirs. -/
theorem read_append {first : String} (complete : Text.Complete first.toList) (second : String) :
    read strict path (first ++ second) = do
      let front ← read strict path first
      let back ← (read strict path second).mapError (.behind (first.toList.count '\n'))
      return front ++ back := by
  have lines : linesOf (first ++ second) = linesOf first ++ linesOf second := by
    rw [linesOf, String.toList_append, complete.lines_append, List.map_append]
    rfl
  have length : (linesOf first).length = first.toList.count '\n' := by
    rw [linesOf, List.length_map, complete.length_lines]
  have later : (numberFrom (first.toList.count '\n' + 1) (linesOf second)).mapM
      (readEntry strict path) =
        (read strict path second).mapError (.behind (first.toList.count '\n')) := by
    rw [numberFrom_add, List.mapM_map, read_eq_mapM]
    exact mapM_mapError (readEntry_add _) _
  rw [read_eq_mapM, lines, numberFrom_append, List.mapM_append, length, Nat.add_comm 1, later]
  rfl

/-- A listing whose first part has only complete lines is read part by part: a fault of the first part is
    its fault, the descriptions of the second part follow those of the first, and a fault of the second part
    is told with its line counted on. A listing is refused if one of its lines that are not empty is. Then the
    fault is told of the first such line, with its text and its number counted from 1 over all lines.
    Otherwise the listing gives one description for each line that is not empty, in order. -/
theorem read_compositional (strict : Bool) (path : Option String) :
    (∀ first second : String, first = "" ∨ first.toList.getLast? = some '\n' →
      (∀ error, read strict path first = .error error →
        read strict path (first ++ second) = .error error) ∧
      (∀ front back, read strict path first = .ok front → read strict path second = .ok back →
        read strict path (first ++ second) = .ok (front ++ back)) ∧
      ∀ front origin number text fault, read strict path first = .ok front →
        read strict path second = .error (.badLine origin number text fault) →
        read strict path (first ++ second) =
          .error (.badLine origin (number + first.toList.count '\n') text fault)) ∧
    (∀ text, (∃ error, read strict path text = .error error) ↔
      ∃ line ∈ linesOf text, line ≠ "" ∧ ∃ fault, Description.Refused strict line fault) ∧
    (∀ text error, read strict path text = .error error ↔
      ∃ before line behind fault, linesOf text = before ++ line :: behind ∧
        (∀ earlier ∈ before, earlier ≠ "" →
          ∃ description, Description.Accepted strict earlier description) ∧
        line ≠ "" ∧ Description.Refused strict line fault ∧
        error = .badLine path (before.length + 1) line fault) ∧
    ∀ text descriptions, read strict path text = .ok descriptions ↔
      List.Forall₂ (Description.Accepted strict)
        ((linesOf text).filter fun line => !line.isEmpty) descriptions := by
  refine ⟨fun first second ends => ?_, fun _ => exists_read_eq_error_iff,
    fun _ _ => read_eq_error_iff, fun _ _ => read_eq_ok_iff⟩
  have complete : Text.Complete first.toList :=
    Text.complete_iff.mpr (ends.imp_left String.toList_eq_nil_iff.mpr)
  rw [read_append complete second]
  refine ⟨?_, ?_, ?_⟩
  · intro error failed
    rw [failed]
    rfl
  · intro front back passed passedBehind
    rw [passed, passedBehind]
    rfl
  · intro front origin number text fault passed failed
    rw [passed, failed]
    rfl

theorem read_compositional_blankLine :
    read false none "12345678 foo EMPTY\n\n" = .ok [⟨0x12345678, "foo", ⟨[]⟩, none, ∅⟩] ∧
    read false none "12345678 Bar EMPTY\n" =
      .error (.badLine none 1 "12345678 Bar EMPTY" (.malformedLine .mnemonicStart)) ∧
    read false none ("12345678 foo EMPTY\n\n" ++ "12345678 Bar EMPTY\n") =
      .error (.badLine none 3 "12345678 Bar EMPTY" (.malformedLine .mnemonicStart)) := by
  have passed : read false none "12345678 foo EMPTY\n\n" =
      .ok [⟨0x12345678, "foo", ⟨[]⟩, none, ∅⟩] := by decide +kernel
  have failed : read false none "12345678 Bar EMPTY\n" =
      .error (.badLine none 1 "12345678 Bar EMPTY" (.malformedLine .mnemonicStart)) := by decide +kernel
  obtain ⟨joined, -⟩ := read_compositional false none
  obtain ⟨-, -, behind⟩ := joined "12345678 foo EMPTY\n\n" "12345678 Bar EMPTY\n" (Or.inr (by decide))
  exact ⟨passed, failed, behind _ _ _ _ _ passed failed⟩

end Listing

end InsnEncoding
