import InsnEncoding.Collection
import InsnEncoding.Proofs.Files
import InsnEncoding.Proofs.Readable

/-!
# What collections hold

An edit brings in nothing but descriptions that were read from a line (`Collection.Edit.mem_apply`), so
every description of a collection was there before or was read by one of the edits
(`Collection.mem_extend`), and what holds of all descriptions that are read holds of all in a collection
that begins empty: `Collection.build_readable`.
Since every description of that kind can be added by a line, nothing more holds of all collections
(`Collection.exists_build_iff`).

The same is true of a session as long as no description in it is changed (`Session.readable_of_run`).
-/

namespace InsnEncoding

namespace Collection

variable {description : Description}

namespace Edit

/-- What an edit adds was read from a line, as strictly as the edit asks. -/
theorem exists_accepted_of_mem_added {edit : Edit} (member : description ∈ edit.added) :
    ∃ line, Description.Accepted edit.isStrict line description := by
  cases edit with
  | addLine text => exact ⟨text, eq_ok_of_mem_toOption member, nofun⟩
  | addListing strict text =>
    obtain ⟨found, read, inFound⟩ := exists_of_mem_toOption_getD member
    exact Listing.exists_accepted_of_read read inFound
  | addFiles strict files paths =>
    obtain ⟨found, read, inFound⟩ := exists_of_mem_toOption_getD member
    exact Listing.exists_accepted_of_readFiles read inFound
  | sort | remove index => contradiction

/-- An edit keeps only what was there and what it adds. -/
theorem mem_apply {edit : Edit} {descriptions : List Description}
    (member : description ∈ edit.apply descriptions) :
    description ∈ descriptions ∨ description ∈ edit.added := by
  cases edit with
  | sort => exact Or.inl (List.mem_mergeSort.mp member)
  | remove index => exact Or.inl (List.mem_of_mem_eraseIdx member)
  | addLine | addListing | addFiles => exact List.mem_append.mp member

end Edit

/-- What a collection holds was there before the edits, or one of them added it. -/
theorem mem_extend {descriptions : List Description} {edits : List Edit}
    (member : description ∈ extend descriptions edits) :
    description ∈ descriptions ∨ ∃ edit ∈ edits, description ∈ edit.added := by
  induction edits generalizing descriptions with
  | nil => exact Or.inl member
  | cons edit rest ih =>
    rcases ih member with before | ⟨later, inRest, added⟩
    · exact (Edit.mem_apply before).imp_right fun added => ⟨edit, List.mem_cons_self, added⟩
    · exact Or.inr ⟨later, List.mem_cons_of_mem edit inRest, added⟩

theorem Edit.readable_of_mem_added {edit : Edit} (member : description ∈ edit.added) :
    description.Readable := by
  obtain ⟨_, read, _⟩ := exists_accepted_of_mem_added member
  exact Description.readable_of_ofLine read

theorem readable_of_mem_extend {descriptions : List Description} {edits : List Edit}
    (readable : ∀ earlier ∈ descriptions, earlier.Readable)
    (member : description ∈ extend descriptions edits) : description.Readable := by
  rcases mem_extend member with before | ⟨edit, _, added⟩
  · exact readable description before
  · exact edit.readable_of_mem_added added

theorem build_append_addLine (edits : List Edit) {text : String}
    (read : Description.ofLine text = .ok description) :
    build (edits ++ [.addLine text]) = build edits ++ [description] := by
  rw [build, extend, List.foldl_append]
  show build edits ++ (Description.ofLine text).toOption.toList = _
  rw [read]
  rfl

/-- The collections are the lists of descriptions that can be read from lines. -/
theorem exists_build_iff {descriptions : List Description} :
    (∃ edits, build edits = descriptions) ↔ ∀ description ∈ descriptions, description.Readable := by
  constructor
  · rintro ⟨edits, rfl⟩ description member
    exact readable_of_mem_extend (List.forall_mem_nil _) member
  · intro readable
    induction descriptions using List.reverseRecOn with
    | nil => exact ⟨[], rfl⟩
    | append_singleton front last ih =>
      obtain ⟨inFront, here⟩ := List.forall_mem_append.mp readable
      obtain ⟨edits, rfl⟩ := ih inFront
      obtain ⟨text, read⟩ := (List.forall_mem_singleton.mp here).exists_ofLine
      exact ⟨edits ++ [.addLine text], build_append_addLine edits read⟩

/-- Whatever texts a collection is built from, and in whatever order, each of its descriptions is valid, its
    word is one of its own encodings, a line can hold it, its format has no transforms, both of its formats are
    read back from their texts, and the manual format is not among its attributes. Where a listing was read
    strictly, the manual formats that it gave are valid too. Conversely every list of descriptions of this
    kind is a collection. -/
theorem build_readable :
    (∀ edits, ∀ description ∈ build edits,
      description.validate = .ok () ∧ description.isEncoding description.word ∧
      (∃ first, description.mnemonic.toList.head? = some first ∧ first.isLower) ∧
      (∀ char ∈ description.mnemonic.toList, Line.isMnemonicChar char) ∧
      (∀ operand ∈ description.format.operands, operand.transform = .identity) ∧
      Format.ofText description.format.repr = .ok description.format ∧
      (∀ manual ∈ description.manualFormat, Format.ofText manual.repr = .ok manual) ∧
      description.attribute? Description.manualFormatKey = none ∧
      (∀ key value, description.attribute? key = some value →
        key ≠ "" ∧ AttributeText key.toList ∧ AttributeText value.toList) ∧
      ((∃ edit ∈ edits, edit.isStrict ∧ description ∈ edit.added) →
        description.validateManualFormat = .ok ())) ∧
    ∀ descriptions : List Description, (∀ description ∈ descriptions, description.Readable) →
      ∃ edits, build edits = descriptions := by
  refine ⟨?_, fun _ => exists_build_iff.mpr⟩
  intro edits description member
  have readable : description.Readable := readable_of_mem_extend (List.forall_mem_nil _) member
  refine ⟨readable.valid, readable.isEncoding_word, readable.mnemonic_start, readable.mnemonic_chars,
    readable.identity, readable.ofText_repr_format, readable.manualFormat,
    readable.attribute?_manualFormatKey, ?_, ?_⟩
  · intro key value given
    obtain ⟨nonempty, _, keyChars, valueChars⟩ := readable.attributes key value given
    exact ⟨nonempty, keyChars, valueChars⟩
  · rintro ⟨edit, _, strict, added⟩
    obtain ⟨_, _, valid⟩ := edit.exists_accepted_of_mem_added added
    exact valid strict

/-- A load, to be followed by a store that is done only if nothing came between. -/
def loadReserved : Description where
  word := 0x20000000
  mnemonic := "ll.w"
  format := ⟨[.register .intRegister 0, .register .intRegister 5,
    ⟨.signedImmediate, [⟨10, 14⟩], .identity⟩]⟩

/-- The store that follows it; its manual format scales the offset. -/
def storeConditional : Description where
  word := 0x21000000
  mnemonic := "sc.w"
  format := loadReserved.format
  manualFormat := some ⟨[.register .intRegister 0, .register .intRegister 5,
    ⟨.signedImmediate, [⟨10, 14⟩], .shiftLeft 2⟩]⟩
  attributes := (∅ : Attributes).insert "atomics" "true"

/-- Files of which one is there. -/
def loads : Listing.Files := fun path =>
  if path = "loads" then .ok "20000000 ll.w DJSk14\n" else .error .notFound

/-- The line has no proper mnemonic and the second of two files is missing, so only the store and the load
    are added; the load then comes first and is removed. -/
def storeEdits : List Edit := [
  .addListing true "\n21000000 sc.w DJSk14 @orig_fmt=DJSk14ps2 @atomics\n",
  .addLine "22000000 LL.D DJSk14",
  .addFiles false loads ["loads", "stores"],
  .addFiles false loads ["loads"],
  .sort,
  .remove 0]

theorem build_readable_storeConditional :
    build storeEdits = [storeConditional] ∧
    (∃ edit ∈ storeEdits, edit.isStrict ∧ storeConditional ∈ edit.added) ∧
    storeConditional.validate = .ok () ∧ storeConditional.isEncoding 0x21000000 ∧
    Format.ofText storeConditional.format.repr = .ok storeConditional.format ∧
    AttributeText "atomics".toList ∧ storeConditional.validateManualFormat = .ok () := by
  have grown : build (storeEdits.take 4) = [storeConditional, loadReserved] := by decide +kernel
  have sorted : Description.sortByWord [storeConditional, loadReserved] =
      [loadReserved, storeConditional] := by
    simp [Description.sortByWord, List.mergeSort, storeConditional, loadReserved]
  have built : build storeEdits = [storeConditional] := by
    show (Description.sortByWord (build (storeEdits.take 4))).eraseIdx 0 = _
    rw [grown, sorted]
    rfl
  have strictly : ∃ edit ∈ storeEdits, edit.isStrict ∧ storeConditional ∈ edit.added := by
    decide +kernel
  have member : storeConditional ∈ build storeEdits := by
    rw [built]
    exact List.mem_cons_self
  obtain ⟨each, -⟩ := build_readable
  obtain ⟨valid, encoding, _, _, _, format, _, _, attributes, manual⟩ :=
    each storeEdits storeConditional member
  obtain ⟨_, key, _⟩ := attributes "atomics" "true" (by decide)
  exact ⟨built, strictly, valid, encoding, format, key, manual strictly⟩

end Collection

namespace Session

/-- A step that changes no description makes the edits that it stands for. -/
theorem descriptions_of_step {session after : Session} {step : Step} {answer : Answer}
    (done : session.step step = some (answer, after)) {edits : List Collection.Edit}
    (known : step.edits? = some edits) :
    after.descriptions = Collection.extend session.descriptions edits := by
  cases step with
  | addLine text =>
    cases known
    show after.descriptions = session.descriptions ++ (Description.ofLine text).toOption.toList
    simp only [Session.step] at done
    split at done
    · next read =>
      cases done
      rw [read]
      exact (List.append_nil _).symm
    · next read =>
      cases done
      rw [read]
      rfl
  | addListing strict text =>
    cases known
    show after.descriptions =
      session.descriptions ++ (Listing.read strict none text).toOption.getD []
    simp only [Session.step] at done
    split at done
    · next read =>
      cases done
      rw [read]
      exact (List.append_nil _).symm
    · next read =>
      cases done
      rw [read]
      rfl
  | sort | catalog | setWord word | disassemble | validate =>
    cases known
    cases done
    rfl
  | remove index | insert index operand manual value | extract index operand manual =>
    cases known
    obtain ⟨_, _, done⟩ := Option.bind_eq_some_iff.mp done
    cases done
    rfl
  | encode index values =>
    cases known
    obtain ⟨_, _, done⟩ := Option.bind_eq_some_iff.mp done
    split at done <;> cases done <;> rfl
  | change index changes => contradiction

/-- What a session has after a run, if no step of the run changes a description, is valid and can be read
    from a line. -/
theorem readable_of_run {session : Session} {steps : List Step}
    (readable : ∀ description ∈ session.descriptions, description.Readable)
    (known : ∀ step ∈ steps, ∃ edits, step.edits? = some edits) {results : List (Answer × Session)}
    (done : session.run steps = some results) :
    ∀ result ∈ results, ∀ description ∈ result.2.descriptions, description.Readable := by
  induction steps generalizing session results with
  | nil =>
    cases done
    exact List.forall_mem_nil _
  | cons step rest ih =>
    obtain ⟨⟨edits, here⟩, later⟩ := List.forall_mem_cons.mp known
    obtain ⟨⟨answer, after⟩, stepped, done⟩ := Option.bind_eq_some_iff.mp done
    obtain ⟨others, ran, done⟩ := Option.bind_eq_some_iff.mp done
    have afterwards : ∀ description ∈ after.descriptions, description.Readable := by
      rw [descriptions_of_step stepped here]
      exact fun _ => Collection.readable_of_mem_extend readable
    cases done
    exact List.forall_mem_cons.mpr ⟨afterwards, ih afterwards later ran⟩

end Session

end InsnEncoding
