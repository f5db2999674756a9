import InsnEncoding.Proofs.Files
import Mathlib.Data.List.Nodup
import Mathlib.Data.Prod.Lex

/-!
# Reading strictly

To read strictly is to refuse some lines that could be read, and to change nothing else. So of a strict and a
loose reading of the same texts either may fail first: the strict one at the first line that only it refuses,
if the loose one has not failed before, and otherwise both have the same outcome (`Restriction`).

Many files are gone through as one listing is. Everything that is met in them has its place, the index of its
path and then its line (`Listing.placedParts`), and these places ascend. So the readings are runs of steps
over inputs at ascending places, of which the strict ones are told from the loose ones step by step
(`Stricter.restriction`).
-/

namespace InsnEncoding

/-- How a strict outcome comes from a loose one. Some places are `refused` by the strict reading only, with
    the error that it tells of them; `placeOf` is the place that an error of the loose reading is told of. -/
structure Restriction {ι ε β : Type} [LinearOrder ι] (placeOf : ε → ι) (refused : ι → ε → Prop)
    (valid : β → Prop) (strict loose : Except ε (List β)) : Prop where
  /-- What is read strictly is what is read loosely, if all of it is valid. -/
  ok_iff : ∀ outputs, strict = .ok outputs ↔ loose = .ok outputs ∧ ∀ output ∈ outputs, valid output
  /-- The first place that is refused is told of if the loose reading does not fail before it. -/
  error_of_first : ∀ place error, refused place error →
    (∀ other anyError, refused other anyError → place ≤ other) →
    (∀ cause, loose = .error cause → place < placeOf cause) → strict = .error error
  /-- If nothing is refused, or the loose reading fails before, both readings have the same outcome. -/
  eq_of_loose_first :
    (∀ place error, refused place error → ∃ cause, loose = .error cause ∧ placeOf cause ≤ place) →
    strict = loose

/-- The strict step refuses what the loose one refuses, and of what that one gives it refuses what is not
    valid. -/
structure Stricter {ε α β : Type} (valid : β → Prop) (strict loose : α → Except ε β) : Prop where
  ok_iff : ∀ input output, strict input = .ok output ↔ loose input = .ok output ∧ valid output
  error_of_error : ∀ input error, loose input = .error error → strict input = .error error

section Ascending

variable {ι ε α β : Type} [LinearOrder ι] {position : α → ι} {step strict loose : α → Except ε β}
  {valid : β → Prop} {inputs : List α}

/-- At ascending places the first step that fails is the one at the least place where one does. -/
theorem mapM_eq_error_iff_of_ascending
    (ascending : inputs.Pairwise fun first second => position first < position second) {fault : ε} :
    inputs.mapM step = .error fault ↔
      ∃ input ∈ inputs, step input = .error fault ∧
        ∀ other ∈ inputs, position other < position input → ∃ output, step other = .ok output := by
  rw [mapM_eq_error_iff]
  constructor
  · rintro ⟨before, input, behind, rfl, passed, failed⟩
    refine ⟨input, List.mem_append_right before List.mem_cons_self, failed, ?_⟩
    intro other member less
    obtain ⟨-, tail, -⟩ := List.pairwise_append.mp ascending
    rcases List.mem_append.mp member with inBefore | member
    · exact passed other inBefore
    · rcases List.mem_cons.mp member with rfl | inBehind
      · exact absurd less (lt_irrefl _)
      · exact absurd less (List.rel_of_pairwise_cons tail inBehind).not_gt
  · rintro ⟨input, member, failed, passed⟩
    obtain ⟨before, behind, rfl⟩ := List.append_of_mem member
    obtain ⟨-, -, across⟩ := List.pairwise_append.mp ascending
    refine ⟨before, input, behind, rfl, fun earlier inBefore => ?_, failed⟩
    exact passed earlier (List.mem_append_left _ inBefore)
      (across earlier inBefore input List.mem_cons_self)

/-- If a step fails, the first that does is there or before. -/
theorem exists_first_of_error
    (ascending : inputs.Pairwise fun first second => position first < position second) {input : α}
    (member : input ∈ inputs) {fault : ε} (failed : step input = .error fault) :
    ∃ error, inputs.mapM step = .error error ∧
      ∃ first ∈ inputs, step first = .error error ∧ position first ≤ position input ∧
        ∀ other ∈ inputs, position other < position first → ∃ output, step other = .ok output := by
  obtain ⟨error, result⟩ := exists_mapM_eq_error_iff.mpr ⟨input, member, fault, failed⟩
  obtain ⟨first, inInputs, here, passed⟩ := (mapM_eq_error_iff_of_ascending ascending).mp result
  refine ⟨error, result, first, inInputs, here, le_of_not_gt fun less => ?_, passed⟩
  obtain ⟨output, value⟩ := passed input member less
  rw [failed] at value
  contradiction

theorem eq_of_position_eq
    (ascending : inputs.Pairwise fun first second => position first < position second) {first second : α}
    (inFirst : first ∈ inputs) (inSecond : second ∈ inputs) (same : position first = position second) :
    first = second :=
  List.inj_on_of_nodup_map ((List.pairwise_map.mpr ascending).imp ne_of_lt) inFirst inSecond same

namespace Stricter

variable (stricter : Stricter valid strict loose)
include stricter

theorem mapM_eq_ok_iff {outputs : List β} :
    inputs.mapM strict = .ok outputs ↔
      inputs.mapM loose = .ok outputs ∧ ∀ output ∈ outputs, valid output := by
  rw [InsnEncoding.mapM_eq_ok_iff, InsnEncoding.mapM_eq_ok_iff]
  simp only [stricter.ok_iff]
  constructor
  · intro each
    refine ⟨each.imp fun _ _ => And.left, fun output member => ?_⟩
    obtain ⟨_, -, -, isValid⟩ := exists_left_of_mem each member
    exact isValid
  · rintro ⟨each, allValid⟩
    induction each with
    | nil => exact .nil
    | cons here _ ih =>
      obtain ⟨first, later⟩ := List.forall_mem_cons.mp allValid
      exact .cons ⟨here, first⟩ (ih later)

/-- A run of strict steps as against a run of loose ones at ascending places. The place that an error is told
    of must be right for the first loose step that fails. -/
theorem restriction {placeOf : ε → ι} {refused : ι → ε → Prop}
    (ascending : inputs.Pairwise fun first second => position first < position second)
    (refused_iff : ∀ place error, refused place error ↔ ∃ input ∈ inputs, position input = place ∧
      strict input = .error error ∧ ∃ output, loose input = .ok output)
    (told : ∀ input ∈ inputs, ∀ error, loose input = .error error →
      (∀ other ∈ inputs, position other < position input → ∃ output, loose other = .ok output) →
      placeOf error = position input) :
    Restriction placeOf refused valid (inputs.mapM strict) (inputs.mapM loose) where
  ok_iff _ := stricter.mapM_eq_ok_iff
  error_of_first := by
    intro place error here least unfailed
    obtain ⟨input, member, rfl, failed, -⟩ := (refused_iff place error).mp here
    refine (mapM_eq_error_iff_of_ascending ascending).mpr ⟨input, member, failed, ?_⟩
    intro other inInputs less
    cases strictly : strict other with
    | ok output => exact ⟨output, rfl⟩
    | error fault =>
      exfalso
      cases loosely : loose other with
      | ok output =>
        have refusedThere := (refused_iff (position other) fault).mpr
          ⟨other, inInputs, rfl, strictly, output, loosely⟩
        exact (least _ _ refusedThere).not_gt less
      | error _ =>
        obtain ⟨cause, result, first, inFirst, failedFirst, le, passed⟩ :=
          exists_first_of_error ascending inInputs loosely
        have later := unfailed cause result
        rw [told first inFirst cause failedFirst passed] at later
        exact (le.trans_lt less).not_gt later
  eq_of_loose_first := by
    intro covered
    cases result : inputs.mapM strict with
    | ok outputs => exact (stricter.mapM_eq_ok_iff.mp result).1.symm
    | error error =>
      obtain ⟨input, member, failed, passed⟩ := (mapM_eq_error_iff_of_ascending ascending).mp result
      have passedLoosely : ∀ other ∈ inputs, position other < position input →
          ∃ output, loose other = .ok output := by
        intro other inInputs less
        obtain ⟨output, strictly⟩ := passed other inInputs less
        exact ⟨output, ((stricter.ok_iff other output).mp strictly).1⟩
      refine ((mapM_eq_error_iff_of_ascending ascending).mpr ⟨input, member, ?_, passedLoosely⟩).symm
      cases loosely : loose input with
      | error cause => rw [← failed, stricter.error_of_error input cause loosely]
      | ok output =>
        -- The strict run stops here, where the loose one goes on; that one would have failed by now.
        exfalso
        obtain ⟨cause, looseResult, le⟩ := covered (position input) error
          ((refused_iff _ _).mpr ⟨input, member, rfl, failed, output, loosely⟩)
        obtain ⟨first, inFirst, failedFirst, earlier⟩ :=
          (mapM_eq_error_iff_of_ascending ascending).mp looseResult
        rw [told first inFirst cause failedFirst earlier] at le
        rcases le.lt_or_eq with less | same
        · obtain ⟨value, passedFirst⟩ := passedLoosely first inFirst less
          rw [failedFirst] at passedFirst
          contradiction
        · rw [eq_of_position_eq ascending inFirst member same, loosely] at failedFirst
          contradiction

end Stricter

end Ascending

/-- The number of the line that the error is told of. A file without a text counts as line 0. -/
def LoadError.number (error : LoadError) : Nat :=
  error.lineNumber?.getD 0

/-- The place among some paths that the error is told of: the index of its path, where that stands first, and
    the number of the line. -/
def LoadError.placeIn (paths : List String) (error : LoadError) : Nat ×ₗ Nat :=
  match error with
  | .unreadable path _ | .badLine (some path) _ _ _ => toLex (paths.idxOf path, error.number)
  | .badLine none _ _ _ => toLex (paths.length, error.number)

namespace Description

/-- The line can be read as a description whose manual format has that fault. -/
def ManualFault (text : String) (fault : ValidationError) : Prop :=
  ∃ description, ofLine text = .ok description ∧ description.validateManualFormat = .error fault

/-- The manual format of the description is valid if it has one. -/
def ManualValid (description : Description) : Prop :=
  description.validateManualFormat = .ok ()

end Description

namespace Listing

/-- The line has that number and can be read, but its manual format has that fault. -/
def ManualFaultAt (text : String) (number : Nat) (line : String) (fault : ValidationError) : Prop :=
  (line, number) ∈ numberedLines text ∧ Description.ManualFault line fault

section OneListing

variable {path : Option String} {entry : String × Nat}

theorem stricter_readEntry :
    Stricter Description.ManualValid (readEntry true path) (readEntry false path) where
  ok_iff entry description := by
    simp [readEntry_eq_ok_iff, Description.Accepted, Description.ManualValid]
  error_of_error entry error failed := by
    obtain ⟨fault, refused, rfl⟩ := readEntry_eq_error_iff.mp failed
    cases refused with
    | unreadable unread => exact readEntry_eq_error_iff.mpr ⟨fault, .unreadable unread, rfl⟩
    | invalidManualFormat asked => contradiction

/-- Only the strict reading refuses a line whose manual format has a fault, and it tells that fault. -/
theorem readEntry_refused_iff {error : LoadError} :
    (readEntry true path entry = .error error ∧
        ∃ description, readEntry false path entry = .ok description) ↔
      ∃ fault, Description.ManualFault entry.1 fault ∧
        error = .badLine path entry.2 entry.1 (.invalid fault) := by
  constructor
  · rintro ⟨failed, description, passed⟩
    obtain ⟨found, -⟩ := readEntry_eq_ok_iff.mp passed
    obtain ⟨fault, refused, rfl⟩ := readEntry_eq_error_iff.mp failed
    cases refused with
    | unreadable unread =>
      rw [found] at unread
      contradiction
    | invalidManualFormat _ read invalid => exact ⟨_, ⟨_, read, invalid⟩, rfl⟩
  · rintro ⟨fault, ⟨description, found, invalid⟩, rfl⟩
    exact ⟨readEntry_eq_error_iff.mpr ⟨_, .invalidManualFormat rfl found invalid, rfl⟩,
      description, readEntry_eq_ok_iff.mpr ⟨found, nofun⟩⟩

theorem read_restriction (path : Option String) (text : String) :
    Restriction LoadError.number
      (fun number error => ∃ line fault, ManualFaultAt text number line fault ∧
        error = .badLine path number line (.invalid fault))
      Description.ManualValid (read true path text) (read false path text) := by
  rw [read_eq_mapM, read_eq_mapM]
  refine stricter_readEntry.restriction (ascending_numberFrom 1 _) (fun number error => ?_) ?_
  · constructor
    · rintro ⟨line, fault, ⟨member, faulty⟩, rfl⟩
      exact ⟨(line, number), member, rfl, readEntry_refused_iff.mpr ⟨fault, faulty, rfl⟩⟩
    · rintro ⟨⟨line, number⟩, member, rfl, refused⟩
      obtain ⟨fault, faulty, rfl⟩ := readEntry_refused_iff.mp refused
      exact ⟨line, fault, ⟨member, faulty⟩, rfl⟩
  · intro entry _ error failed _
    obtain ⟨fault, _, rfl⟩ := readEntry_eq_error_iff.mp failed
    rfl

end OneListing

/-- What is met when files are read: a path that gives no text, or a line of a text. -/
inductive Part where
  | unreadable (path : String) (fault : ReadFault)
  | line (path : String) (entry : String × Nat)

namespace Part

/-- The number of the line; what gives no text counts as line 0. -/
def number : Part → Nat
  | .unreadable .. => 0
  | .line _ entry => entry.2

/-- Read what is met. -/
def read (strict : Bool) : Part → Except LoadError Description
  | .unreadable path fault => .error (.unreadable path fault)
  | .line path entry => readEntry strict (some path) entry

end Part

/-- What is met in a file. -/
def partsOf (files : Files) (path : String) : List Part :=
  match files path with
  | .error fault => [.unreadable path fault]
  | .ok text => (numberedLines text).map (.line path)

/-- What is met in some files, with the index of the path and the number of the line. -/
def placedParts (files : Files) (paths : List String) : List ((Nat ×ₗ Nat) × Part) :=
  paths.zipIdx.flatMap fun entry =>
    (partsOf files entry.1).map fun part => (toLex (entry.2, part.number), part)

section ManyFiles

variable {strict : Bool} {files : Files} {paths : List String} {path : String} {part : Part}

theorem readFile_eq_mapM :
    readFile strict files path = (partsOf files path).mapM (Part.read strict) := by
  unfold partsOf
  cases given : files path with
  | error fault =>
    rw [readFile_of_fault given]
    rfl
  | ok text =>
    rw [readFile_of_text given, read_eq_mapM, List.mapM_map]
    rfl

/-- Many files are gone through as one listing is. -/
theorem readFiles_eq_mapM :
    readFiles strict files paths =
      (placedParts files paths).mapM fun entry => entry.2.read strict := by
  have each (entry : String × Nat) :
      ((partsOf files entry.1).map fun part => (toLex (entry.2, part.number), part)).mapM
        (fun placed => placed.2.read strict) = (readFile strict files ∘ Prod.fst) entry := by
    rw [List.mapM_map, Function.comp_apply, readFile_eq_mapM]
    rfl
  rw [placedParts, mapM_flatMap, funext each, ← List.mapM_map, List.zipIdx_map_fst]
  rfl

theorem mem_partsOf_iff :
    part ∈ partsOf files path ↔
      (∃ fault, files path = .error fault ∧ .unreadable path fault = part) ∨
        ∃ text entry, files path = .ok text ∧ entry ∈ numberedLines text ∧ .line path entry = part := by
  unfold partsOf
  cases files path with
  | error fault => simp [eq_comm]
  | ok text => simp

theorem mem_placedParts_iff {entry : (Nat ×ₗ Nat) × Part} :
    entry ∈ placedParts files paths ↔ ∃ index path part, paths[index]? = some path ∧
      part ∈ partsOf files path ∧ (toLex (index, part.number), part) = entry := by
  unfold placedParts
  rw [List.mem_flatMap]
  constructor
  · rintro ⟨⟨path, index⟩, inPaths, member⟩
    obtain ⟨part, inFile, rfl⟩ := List.mem_map.mp member
    exact ⟨index, path, part, List.mk_mem_zipIdx_iff_getElem?.mp inPaths, inFile, rfl⟩
  · rintro ⟨index, path, part, found, inFile, rfl⟩
    exact ⟨(path, index), List.mk_mem_zipIdx_iff_getElem?.mpr found,
      List.mem_map.mpr ⟨part, inFile, rfl⟩⟩

theorem ascending_partsOf :
    (partsOf files path).Pairwise fun first second => first.number < second.number := by
  unfold partsOf
  cases files path with
  | error fault => exact List.pairwise_singleton _ _
  | ok text => exact List.pairwise_map.mpr (ascending_numberFrom 1 _)

theorem ascending_placedParts :
    (placedParts files paths).Pairwise fun first second => first.1 < second.1 := by
  refine List.pairwise_flatMap.mpr ⟨fun entry _ => ?_, ?_⟩
  · refine List.pairwise_map.mpr (ascending_partsOf.imp fun less => ?_)
    exact Prod.Lex.toLex_lt_toLex.mpr (Or.inr ⟨rfl, less⟩)
  · refine (ascending_zipIdx 0 paths).imp fun less _ inFirst _ inSecond => ?_
    obtain ⟨_, _, rfl⟩ := List.mem_map.mp inFirst
    obtain ⟨_, _, rfl⟩ := List.mem_map.mp inSecond
    exact Prod.Lex.toLex_lt_toLex.mpr (Or.inl less)

theorem stricter_part :
    Stricter Description.ManualValid (fun entry : (Nat ×ₗ Nat) × Part => entry.2.read true)
      fun entry => entry.2.read false where
  ok_iff entry description := by
    cases entry.2 with
    | unreadable path fault => simp [Part.read]
    | line path entry => exact stricter_readEntry.ok_iff entry description
  error_of_error entry error failed := by
    cases part : entry.2 with
    | unreadable path fault =>
      rw [part] at failed
      exact failed
    | line path numbered =>
      rw [part] at failed
      exact stricter_readEntry.error_of_error numbered error failed

theorem idxOf_le_of_getElem? {index : Nat} (found : paths[index]? = some path) :
    paths.idxOf path ≤ index := by
  obtain ⟨bound, here⟩ := List.getElem?_eq_some_iff.mp found
  refine le_of_not_gt fun less => ?_
  have other := List.not_of_lt_findIdx less
  simp [here] at other

theorem placeIn_of_read {error : LoadError} (member : part ∈ partsOf files path)
    (failed : part.read strict = .error error) :
    error.placeIn paths = toLex (paths.idxOf path, part.number) := by
  rcases mem_partsOf_iff.mp member with ⟨fault, -, rfl⟩ | ⟨text, entry, -, -, rfl⟩
  · cases failed
    rfl
  · obtain ⟨fault, -, rfl⟩ := readEntry_eq_error_iff.mp failed
    rfl

/-- Only the strict reading refuses a line whose manual format has a fault. -/
theorem refused_placedPart_iff {place : Nat ×ₗ Nat} {error : LoadError} :
    (∃ entry ∈ placedParts files paths, entry.1 = place ∧ entry.2.read true = .error error ∧
        ∃ description, entry.2.read false = .ok description) ↔
      ∃ index path text number line fault, place = toLex (index, number) ∧
        paths[index]? = some path ∧ files path = .ok text ∧ ManualFaultAt text number line fault ∧
        error = .badLine (some path) number line (.invalid fault) := by
  constructor
  · rintro ⟨entry, member, rfl, refused⟩
    obtain ⟨index, path, part, found, inFile, rfl⟩ := mem_placedParts_iff.mp member
    rcases mem_partsOf_iff.mp inFile with ⟨fault, -, rfl⟩ | ⟨text, ⟨line, number⟩, given, inText, rfl⟩
    · obtain ⟨-, description, passed⟩ := refused
      contradiction
    · obtain ⟨fault, faulty, rfl⟩ := readEntry_refused_iff.mp refused
      exact ⟨index, path, text, number, line, fault, rfl, found, given, ⟨inText, faulty⟩, rfl⟩
  · rintro ⟨index, path, text, number, line, fault, rfl, found, given, ⟨inText, faulty⟩, rfl⟩
    have inFile : .line path (line, number) ∈ partsOf files path :=
      mem_partsOf_iff.mpr (Or.inr ⟨text, (line, number), given, inText, rfl⟩)
    exact ⟨_, mem_placedParts_iff.mpr ⟨index, path, _, found, inFile, rfl⟩, rfl,
      readEntry_refused_iff.mpr ⟨fault, faulty, rfl⟩⟩

theorem readFiles_restriction (files : Files) (paths : List String) :
    Restriction (LoadError.placeIn paths)
      (fun place error => ∃ index path text number line fault, place = toLex (index, number) ∧
        paths[index]? = some path ∧ files path = .ok text ∧ ManualFaultAt text number line fault ∧
        error = .badLine (some path) number line (.invalid fault))
      Description.ManualValid (readFiles true files paths) (readFiles false files paths) := by
  rw [readFiles_eq_mapM, readFiles_eq_mapM]
  refine stricter_part.restriction ascending_placedParts
    (fun _ _ => refused_placedPart_iff.symm) ?_
  intro entry member error failed passed
  obtain ⟨index, path, part, found, inFile, rfl⟩ := mem_placedParts_iff.mp member
  -- Were the path among the earlier ones, the reading would have failed there.
  have same : paths.idxOf path = index := by
    refine le_antisymm (idxOf_le_of_getElem? found) (le_of_not_gt fun less => ?_)
    have member : (toLex (paths.idxOf path, part.number), part) ∈ placedParts files paths :=
      mem_placedParts_iff.mpr
        ⟨_, path, part, List.getElem?_idxOf (List.mem_of_getElem? found), inFile, rfl⟩
    obtain ⟨description, value⟩ := passed _ member (Prod.Lex.toLex_lt_toLex.mpr (Or.inl less))
    rw [failed] at value
    contradiction
  rw [placeIn_of_read inFile failed, same]

end ManyFiles

/-- To read strictly is to read loosely and to ask for valid manual formats, and nothing else. What is read
    strictly is what is read loosely, if all its manual formats are valid. If a line with a fault in its manual
    format is the first such line and stands before the line at which the loose reading fails, the strict
    reading fails there with this fault; otherwise both have the same outcome. For many files the places are
    compared by the index of the path and then the line, and a file without a text counts as its line 0. -/
theorem strict_restriction :
    (∀ path text, Restriction LoadError.number
      (fun number error => ∃ line fault, ManualFaultAt text number line fault ∧
        error = .badLine path number line (.invalid fault))
      Description.ManualValid (read true path text) (read false path text)) ∧
    ∀ files paths, Restriction (LoadError.placeIn paths)
      (fun place error => ∃ index path text number line fault, place = toLex (index, number) ∧
        paths[index]? = some path ∧ files path = .ok text ∧ ManualFaultAt text number line fault ∧
        error = .badLine (some path) number line (.invalid fault))
      Description.ManualValid (readFiles true files paths) (readFiles false files paths) :=
  ⟨read_restriction, readFiles_restriction⟩

/-- A load whose manual format leaves out two bits of the offset. -/
def narrowedLoad : Description where
  word := 0x20000000
  mnemonic := "ll.w"
  format := ⟨[.register .intRegister 0, .register .intRegister 5,
    ⟨.signedImmediate, [⟨10, 14⟩], .identity⟩]⟩
  manualFormat := some ⟨[.register .intRegister 0, .register .intRegister 5,
    ⟨.signedImmediate, [⟨10, 12⟩], .identity⟩]⟩

/-- That load, and then a line that is no description. -/
def narrowedListing : String :=
  "20000000 ll.w DJSk14 @orig_fmt=DJSk12\n12345678\n"

/-- The listing is in the only file that there is. -/
def narrowedFile : Files := fun path =>
  if path = "narrowed" then .ok narrowedListing else .error .notFound

theorem strict_restriction_narrowed :
    read false none narrowedListing =
      .error (.badLine none 2 "12345678" (.malformedLine .wordSpace)) ∧
    read true none narrowedListing =
      .error (.badLine none 1 "20000000 ll.w DJSk14 @orig_fmt=DJSk12"
        (.invalid (.manualBitsDiffer 0xffffff 0x3fffff))) ∧
    readFiles true narrowedFile ["absent", "narrowed"] = .error (.unreadable "absent" .notFound) := by
  have loosely : read false none narrowedListing =
      .error (.badLine none 2 "12345678" (.malformedLine .wordSpace)) := by decide +kernel
  have faulty : ManualFaultAt narrowedListing 1 "20000000 ll.w DJSk14 @orig_fmt=DJSk12"
      (.manualBitsDiffer 0xffffff 0x3fffff) :=
    ⟨by decide +kernel, narrowedLoad, by decide +kernel, by decide⟩
  have fromOne : ∀ entry ∈ numberedLines narrowedListing, 1 ≤ entry.2 := by decide +kernel
  obtain ⟨one, many⟩ := strict_restriction
  refine ⟨loosely, ?_, ?_⟩
  · refine (one none narrowedListing).error_of_first 1 _ ⟨_, _, faulty, rfl⟩ ?_ ?_
    · rintro other _ ⟨line, _, ⟨member, -⟩, -⟩
      exact fromOne (line, other) member
    · intro cause failed
      rw [loosely] at failed
      cases failed
      decide
  · have absent : readFiles false narrowedFile ["absent", "narrowed"] =
        .error (.unreadable "absent" .notFound) := by decide +kernel
    refine ((many narrowedFile ["absent", "narrowed"]).eq_of_loose_first ?_).trans absent
    rintro _ _ ⟨index, _, _, number, _, _, rfl, -⟩
    refine ⟨_, absent, Prod.Lex.toLex_le_toLex.mpr ?_⟩
    exact (Nat.eq_zero_or_pos index).symm.imp_right fun first => ⟨first.symm, Nat.zero_le number⟩

end Listing

end InsnEncoding
