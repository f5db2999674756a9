import InsnEncoding.Proofs.Listing

/-!
# Reading files

Files are read one after the other, and the first at fault ends the reading (`Listing.readFiles_eq_error_iff`):
it has no text, or the first of its lines that is refused is told with its number in this file. Without a
fault the descriptions of the files follow each other (`Listing.readFiles_eq_ok_iff`).

The last line of a file never runs on into the next file. So files are read as their texts joined together
would be only if each text has complete lines (`Listing.readFiles_eq_ok_iff_read_join`).
-/

namespace InsnEncoding

/-- The same error if the listing came from that file. -/
def LoadError.inFile (path : String) : LoadError → LoadError
  | .badLine _ number text fault => .badLine (some path) number text fault
  | .unreadable path fault => .unreadable path fault

namespace Listing

/-- Why a file cannot be read: it has no text, or one of its lines is the first that is refused. -/
inductive FileRefused (strict : Bool) (files : Files) (path : String) : LoadError → Prop where
  | unreadable {fault : ReadFault} :
      files path = .error fault → FileRefused strict files path (.unreadable path fault)
  | badLine {text line : String} {before behind : List String} {fault : LineError} :
      files path = .ok text → linesOf text = before ++ line :: behind →
      (∀ earlier ∈ before, earlier ≠ "" →
        ∃ description, Description.Accepted strict earlier description) →
      line ≠ "" → Description.Refused strict line fault →
      FileRefused strict files path (.badLine (some path) (before.length + 1) line fault)

section OneFile

variable {strict : Bool} {files : Files} {path text : String} {listing : List Description}

/-- Where a listing came from has no influence but on what is told of a fault. -/
theorem read_some (path text : String) :
    read strict (some path) text = (read strict none text).mapError (.inFile path) := by
  rw [read_eq_mapM, read_eq_mapM]
  refine mapM_mapError (fun entry => ?_) _
  unfold readEntry
  cases Description.ofLineWith strict entry.1 <;> rfl

theorem readFile_of_text (given : files path = .ok text) :
    readFile strict files path = read strict (some path) text := by
  rw [readFile, given]

theorem readFile_of_fault {fault : ReadFault} (missing : files path = .error fault) :
    readFile strict files path = .error (.unreadable path fault) := by
  rw [readFile, missing]

theorem readFile_eq_ok_iff :
    readFile strict files path = .ok listing ↔
      ∃ text, files path = .ok text ∧ read strict none text = .ok listing := by
  cases given : files path with
  | error fault => simp [readFile_of_fault given]
  | ok text => simp [readFile_of_text given, read_some, mapError_eq_ok_iff]

theorem readFile_eq_error_iff {error : LoadError} :
    readFile strict files path = .error error ↔ FileRefused strict files path error := by
  constructor
  · intro failed
    cases given : files path with
    | error fault =>
      rw [readFile_of_fault given] at failed
      cases failed
      exact .unreadable given
    | ok text =>
      rw [readFile_of_text given] at failed
      obtain ⟨before, line, behind, fault, lines, passed, nonempty, refused, rfl⟩ :=
        read_eq_error_iff.mp failed
      exact .badLine given lines passed nonempty refused
  · intro refused
    cases refused with
    | unreadable missing => exact readFile_of_fault missing
    | badLine given lines passed nonempty refused =>
      rw [readFile_of_text given]
      exact read_eq_error_iff.mpr ⟨_, _, _, _, lines, passed, nonempty, refused, rfl⟩

end OneFile

section ManyFiles

variable {strict : Bool} {files : Files} {paths : List String} {descriptions : List Description}

theorem readFiles_cons (path : String) (rest : List String) :
    readFiles strict files (path :: rest) = do
      let front ← readFile strict files path
      let back ← readFiles strict files rest
      return front ++ back := by
  unfold readFiles
  rw [List.mapM_cons]
  cases readFile strict files path with
  | error fault => rfl
  | ok front => cases rest.mapM (readFile strict files) <;> rfl

/-- Files are read if each of them is, and their descriptions stand in the order of the paths. -/
theorem readFiles_eq_ok_iff :
    readFiles strict files paths = .ok descriptions ↔
      ∃ listings, List.Forall₂ (fun path listing =>
          ∃ text, files path = .ok text ∧ read strict none text = .ok listing) paths listings ∧
        listings.flatten = descriptions := by
  simp only [← readFile_eq_ok_iff, ← mapM_eq_ok_iff]
  constructor
  · exact exists_of_map_eq_ok
  · rintro ⟨listings, passed, rfl⟩
    rw [readFiles, passed]
    rfl

/-- Files are refused for the first of them that is refused, whatever stands behind it. -/
theorem readFiles_eq_error_iff {error : LoadError} :
    readFiles strict files paths = .error error ↔
      ∃ before path behind, paths = before ++ path :: behind ∧
        (∀ earlier ∈ before, ∃ text listing,
          files earlier = .ok text ∧ read strict none text = .ok listing) ∧
        FileRefused strict files path error := by
  have passed (path : String) : (∃ listing, readFile strict files path = .ok listing) ↔
      ∃ text listing, files path = .ok text ∧ read strict none text = .ok listing := by
    simp only [readFile_eq_ok_iff]
    exact exists_comm
  simp only [← readFile_eq_error_iff, ← passed, ← mapM_eq_error_iff]
  constructor
  · exact eq_error_of_map_eq_error
  · intro failed
    rw [readFiles, failed]
    rfl

theorem exists_accepted_of_readFiles (passed : readFiles strict files paths = .ok descriptions)
    {description : Description} (member : description ∈ descriptions) :
    ∃ line, Description.Accepted strict line description := by
  obtain ⟨listings, each, rfl⟩ := readFiles_eq_ok_iff.mp passed
  obtain ⟨listing, inListings, member⟩ := List.mem_flatten.mp member
  obtain ⟨path, -, text, -, read⟩ := exists_left_of_mem each inListings
  exact exists_accepted_of_read read member

/-- If all lines are complete, files are read as their joined texts are. -/
theorem readFiles_eq_ok_iff_read_join {texts : List String}
    (given : List.Forall₂ (fun path text => files path = .ok text) paths texts)
    (complete : ∀ text ∈ texts, Text.Complete text.toList) :
    readFiles strict files paths = .ok descriptions ↔
      read strict none (String.join texts) = .ok descriptions := by
  induction given generalizing descriptions with
  | nil =>
    rw [String.join_nil, read_empty]
    rfl
  | @cons path text rest others here _ ih =>
    obtain ⟨first, later⟩ := List.forall_mem_cons.mp complete
    -- The joined texts tell of another line and of no file if they are refused, so only what is read agrees.
    rw [readFiles_cons, readFile_of_text here, read_some, String.join_cons, read_append first,
      append_eq_ok_iff, append_eq_ok_iff]
    simp only [mapError_eq_ok_iff, ih later]

/-- Files are read in the order of their paths. They give descriptions if each file has a text and each text
    can be read, and then the descriptions of one file follow those of the one before. Otherwise the error is
    that of the first file that has no text or whose text cannot be read; a bad line is told with its file and
    its number there. If each text has complete lines only, the files give what their joined texts give. -/
theorem readFiles_concatenation (strict : Bool) (files : Files) :
    (∀ paths descriptions, readFiles strict files paths = .ok descriptions ↔
      ∃ listings, List.Forall₂ (fun path listing =>
          ∃ text, files path = .ok text ∧ read strict none text = .ok listing) paths listings ∧
        listings.flatten = descriptions) ∧
    (∀ paths error, readFiles strict files paths = .error error ↔
      ∃ before path behind, paths = before ++ path :: behind ∧
        (∀ earlier ∈ before, ∃ text listing,
          files earlier = .ok text ∧ read strict none text = .ok listing) ∧
        FileRefused strict files path error) ∧
    ∀ paths texts, List.Forall₂ (fun path text => files path = .ok text) paths texts →
      (∀ text ∈ texts, text = "" ∨ text.toList.getLast? = some '\n') →
      ∀ descriptions, readFiles strict files paths = .ok descriptions ↔
        read strict none (String.join texts) = .ok descriptions := by
  refine ⟨fun _ _ => readFiles_eq_ok_iff, fun _ _ => readFiles_eq_error_iff, ?_⟩
  intro paths texts given ends descriptions
  refine readFiles_eq_ok_iff_read_join given fun text member => ?_
  exact Text.complete_iff.mpr ((ends text member).imp_left String.toList_eq_nil_iff.mpr)

/-- Files of which one is empty and one is no text. -/
def shelf : Files := fun path =>
  if path = "nops" then .ok "12345678 nop EMPTY\n"
  else if path = "blank" then .ok ""
  else if path = "damaged" then .error .notUtf8
  else .error .notFound

theorem readFiles_concatenation_twice :
    readFiles true shelf ["nops", "blank", "nops"] =
      .ok [⟨0x12345678, "nop", ⟨[]⟩, none, ∅⟩, ⟨0x12345678, "nop", ⟨[]⟩, none, ∅⟩] ∧
    readFiles true shelf ["nops", "damaged", "absent"] = .error (.unreadable "damaged" .notUtf8) := by
  have given : List.Forall₂ (fun path text => shelf path = .ok text) ["nops", "blank", "nops"]
      ["12345678 nop EMPTY\n", "", "12345678 nop EMPTY\n"] :=
    .cons (by decide) (.cons (by decide) (.cons (by decide) .nil))
  have complete : ∀ text ∈ ["12345678 nop EMPTY\n", "", "12345678 nop EMPTY\n"],
      text = "" ∨ text.toList.getLast? = some '\n' := by decide
  have joined : read true none (String.join ["12345678 nop EMPTY\n", "", "12345678 nop EMPTY\n"]) =
      .ok [⟨0x12345678, "nop", ⟨[]⟩, none, ∅⟩, ⟨0x12345678, "nop", ⟨[]⟩, none, ∅⟩] := by
    decide +kernel
  have passed : read true none "12345678 nop EMPTY\n" = .ok [⟨0x12345678, "nop", ⟨[]⟩, none, ∅⟩] := by
    decide +kernel
  obtain ⟨-, refused, concatenated⟩ := readFiles_concatenation true shelf
  refine ⟨(concatenated _ _ given complete _).mpr joined, (refused _ _).mpr ?_⟩
  refine ⟨["nops"], "damaged", ["absent"], rfl, ?_, .unreadable (by decide)⟩
  exact List.forall_mem_singleton.mpr ⟨_, _, by decide, passed⟩

end ManyFiles

end Listing

end InsnEncoding
