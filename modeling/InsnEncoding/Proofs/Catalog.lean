import InsnEncoding.Catalog
import InsnEncoding.Proofs.Files
import InsnEncoding.Proofs.Readable
import Mathlib.Algebra.BigOperators.Group.List.Lemmas

/-!
# What catalogs count

After each description the catalog holds, for every text of a format so far, the first format with that text
and the number of descriptions that have it: `Catalog.getElem?_gather`. So its texts are those of the
descriptions, each once (`Catalog.keys_gather_perm`), and no description is lost or counted twice
(`Catalog.sum_uses_gather`).

A text may stand for several formats, but for one valid format at most. So a catalog of valid formats counts
the formats themselves (`Catalog.size_gather`, `Catalog.uses_gather`), and what is read from texts has valid
formats.
-/

namespace InsnEncoding

namespace Description

/-- The format of the description has that text. -/
def hasFormatText (text : String) (description : Description) : Bool :=
  description.format.repr == text

theorem hasFormatText_iff {text : String} {description : Description} :
    description.hasFormatText text ↔ description.format.repr = text :=
  beq_iff_eq

end Description

namespace Catalog

/-- What a catalog knows of a text after one more use. -/
def countOne (format : Format) : Option CatalogEntry → CatalogEntry
  | none => ⟨format, 1⟩
  | some entry => { entry with uses := entry.uses + 1 }

theorem getElem?_add (catalog : Catalog) (format : Format) (text : String) :
    (catalog.add format)[text]? =
      if format.repr = text then some (countOne format catalog[text]?) else catalog[text]? := by
  rw [add, Std.ExtTreeMap.getElem?_alter]
  simp only [Std.compare_eq_iff_eq]
  split
  · next same =>
    rw [same]
    cases catalog[text]? <;> rfl
  · rfl

theorem gather_append_singleton (front : List Description) (last : Description) :
    gather (front ++ [last]) = (gather front).add last.format :=
  List.foldl_append

section Counting

variable {descriptions : List Description} {text : String} {entry : CatalogEntry}

/-- A catalog knows of a text the first format that has it, and how many descriptions have it. -/
theorem getElem?_gather (descriptions : List Description) (text : String) :
    (gather descriptions)[text]? =
      (descriptions.find? (Description.hasFormatText text)).map fun first =>
        ⟨first.format, descriptions.countP (Description.hasFormatText text)⟩ := by
  -- The catalog is filled from the front, so what has been counted so far is the list without its last.
  induction descriptions using List.reverseRecOn with
  | nil => exact Std.ExtTreeMap.getElem?_empty
  | append_singleton front last ih =>
    rw [gather_append_singleton, getElem?_add, ih, List.find?_append, List.countP_append,
      List.countP_singleton]
    by_cases here : last.hasFormatText text
    · rw [if_pos (Description.hasFormatText_iff.mp here), List.find?_cons_of_pos here, if_pos here]
      cases found : front.find? (Description.hasFormatText text) with
      | none =>
        rw [List.countP_eq_zero.mpr (List.find?_eq_none.mp found)]
        rfl
      | some first => rfl
    · rw [if_neg (mt Description.hasFormatText_iff.mpr here), List.find?_cons_of_neg here, if_neg here,
        List.find?_nil, Option.or_none, Nat.add_zero]

theorem uses_of_getElem?_gather (found : (gather descriptions)[text]? = some entry) :
    entry.uses = descriptions.countP (Description.hasFormatText text) := by
  rw [getElem?_gather] at found
  obtain ⟨first, -, rfl⟩ := Option.map_eq_some_iff.mp found
  rfl

theorem format_of_getElem?_gather (found : (gather descriptions)[text]? = some entry) :
    ∃ first, descriptions.find? (Description.hasFormatText text) = some first ∧
      first.format = entry.format := by
  rw [getElem?_gather] at found
  obtain ⟨first, here, rfl⟩ := Option.map_eq_some_iff.mp found
  exact ⟨first, here, rfl⟩

theorem mem_keys_gather_iff :
    text ∈ (gather descriptions).keys ↔
      ∃ description ∈ descriptions, description.format.repr = text := by
  rw [Std.ExtTreeMap.mem_keys, Std.ExtTreeMap.mem_iff_isSome_getElem?, getElem?_gather,
    Option.isSome_map, List.find?_isSome]
  simp only [Description.hasFormatText_iff]

theorem ascending_keys (catalog : Catalog) : catalog.keys.Pairwise (· < ·) :=
  catalog.ordered_keys.imp compareOfLessAndEq_eq_lt.mp

/-- The texts of a catalog are those of the descriptions, each once. -/
theorem keys_gather_perm :
    (gather descriptions).keys.Perm (descriptions.map fun description => description.format.repr).dedup := by
  refine (List.perm_ext_iff_of_nodup Std.ExtTreeMap.nodup_keys (List.nodup_dedup _)).mpr fun text => ?_
  rw [mem_keys_gather_iff, List.mem_dedup, List.mem_map]

theorem sum_uses_gather :
    ((gather descriptions).toList.map fun entry => entry.2.uses).sum = descriptions.length := by
  let texts := descriptions.map fun description => description.format.repr
  have counted : ((gather descriptions).toList.map fun entry => entry.2.uses) =
      (gather descriptions).keys.map fun text => texts.count text := by
    rw [← Std.ExtTreeMap.map_fst_toList_eq_keys, List.map_map]
    refine List.map_congr_left fun entry member => ?_
    have found := Std.ExtTreeMap.mem_toList_iff_getElem?_eq_some.mp member
    rw [uses_of_getElem?_gather found, Function.comp_apply, List.count_eq_countP, List.countP_map]
    rfl
  rw [counted, (keys_gather_perm.map _).sum_eq, List.sum_map_count_dedup_eq_length, List.length_map]

end Counting

-- The text of a register does not tell its width, so formats that are not valid can share a text.
example : (⟨[⟨.intRegister, [⟨0, 4⟩], .identity⟩]⟩ : Format).repr =
    (⟨[⟨.intRegister, [⟨0, 5⟩], .identity⟩]⟩ : Format).repr := by
  decide

section Valid

variable {descriptions : List Description}
  (valid : ∀ description ∈ descriptions, description.format.validate .manual = .ok ())
include valid

/-- Valid formats with the same text are the same. -/
theorem repr_eq_iff_of_mem {first second : Description} (inFirst : first ∈ descriptions)
    (inSecond : second ∈ descriptions) :
    first.format.repr = second.format.repr ↔ first.format = second.format := by
  refine ⟨fun same => ?_, congrArg Format.repr⟩
  have read := Format.ofText_repr_of_validate (valid first inFirst)
  rw [same, Format.ofText_repr_of_validate (valid second inSecond)] at read
  exact (Except.ok.inj read).symm

/-- A catalog of valid formats has an entry for each of them. -/
theorem size_gather :
    (gather descriptions).size = (descriptions.map Description.format).dedup.length := by
  have distinct : ((descriptions.map Description.format).dedup.map Format.repr).Nodup := by
    refine List.Nodup.map_on ?_ (List.nodup_dedup _)
    simp only [List.mem_dedup, List.forall_mem_map]
    intro first inFirst second inSecond
    exact (repr_eq_iff_of_mem valid inFirst inSecond).mp
  have keys : (gather descriptions).keys.Perm
      ((descriptions.map Description.format).dedup.map Format.repr) := by
    refine (List.perm_ext_iff_of_nodup Std.ExtTreeMap.nodup_keys distinct).mpr fun text => ?_
    rw [mem_keys_gather_iff]
    simp
  rw [← Std.ExtTreeMap.length_keys, keys.length_eq, List.length_map]

/-- The uses in a catalog of valid formats are the descriptions that have the format. -/
theorem uses_gather {text : String} {entry : CatalogEntry}
    (found : (gather descriptions)[text]? = some entry) :
    entry.uses = descriptions.countP fun description => description.format == entry.format := by
  obtain ⟨first, here, format⟩ := format_of_getElem?_gather found
  have inFirst := List.mem_of_find?_eq_some here
  have text := Description.hasFormatText_iff.mp (List.find?_some here)
  rw [uses_of_getElem?_gather found]
  refine List.countP_congr fun description member => ?_
  rw [Description.hasFormatText_iff, beq_iff_eq, ← format, ← text]
  exact repr_eq_iff_of_mem valid member inFirst

end Valid

/-- A catalog counts the formats of descriptions by their texts. Its texts are those of the formats, in strictly
    ascending order of their characters, and looking a text up finds what is listed for it: the number of
    descriptions whose format has this text, and the format of the first of them. All uses together are the
    descriptions. If all formats are valid in some order of their operands, as they are when they were read,
    descriptions share an entry exactly if they have the same format. Then there is one entry for each format,
    and its uses are the descriptions with this format. -/
theorem gather_counts :
    (∀ descriptions,
      (∀ text, text ∈ (gather descriptions).toList.map Prod.fst ↔
        ∃ description ∈ descriptions, description.format.repr = text) ∧
      ((gather descriptions).toList.map Prod.fst).Pairwise (· < ·) ∧
      (∀ (text : String) (entry : CatalogEntry), (gather descriptions)[text]? = some entry ↔
        (text, entry) ∈ (gather descriptions).toList) ∧
      (∀ (text : String) (entry : CatalogEntry), (gather descriptions)[text]? = some entry →
        entry.uses = descriptions.countP (Description.hasFormatText text) ∧
        ∃ first, descriptions.find? (Description.hasFormatText text) = some first ∧
          first.format = entry.format) ∧
      ((gather descriptions).toList.map fun entry => entry.2.uses).sum = descriptions.length) ∧
    (∀ descriptions : List Description,
      (∀ description ∈ descriptions, description.format.validate .manual = .ok ()) →
      (∀ first ∈ descriptions, ∀ second ∈ descriptions,
        first.format.repr = second.format.repr ↔ first.format = second.format) ∧
      (gather descriptions).size = (descriptions.map Description.format).dedup.length ∧
      ∀ (text : String) (entry : CatalogEntry), (gather descriptions)[text]? = some entry →
        entry.uses = descriptions.countP fun description => description.format == entry.format) ∧
    ∀ descriptions, (∃ strict path text, Listing.read strict path text = .ok descriptions) ∨
        (∃ strict files paths, Listing.readFiles strict files paths = .ok descriptions) →
      ∀ description ∈ descriptions, description.format.validate .manual = .ok () := by
  refine ⟨fun descriptions => ?_, fun descriptions valid => ?_, fun descriptions loaded => ?_⟩
  · rw [Std.ExtTreeMap.map_fst_toList_eq_keys]
    exact ⟨fun _ => mem_keys_gather_iff, ascending_keys _,
      fun _ _ => Std.ExtTreeMap.mem_toList_iff_getElem?_eq_some.symm,
      fun _ _ found => ⟨uses_of_getElem?_gather found, format_of_getElem?_gather found⟩,
      sum_uses_gather⟩
  · exact ⟨fun _ inFirst _ inSecond => repr_eq_iff_of_mem valid inFirst inSecond, size_gather valid,
      fun _ _ => uses_gather valid⟩
  · intro description member
    have accepted : ∃ strict line, Description.Accepted strict line description := by
      rcases loaded with ⟨strict, path, text, passed⟩ | ⟨strict, files, paths, passed⟩
      · exact ⟨strict, Listing.exists_accepted_of_read passed member⟩
      · exact ⟨strict, Listing.exists_accepted_of_readFiles passed member⟩
    obtain ⟨strict, line, read, -⟩ := accepted
    exact (Description.readable_of_ofLine read).validate_format

/-- An instruction without operands between two that have the same ones. -/
def mixed : List Description :=
  let offset : Format := ⟨[.register .intRegister 0, .register .intRegister 5,
    ⟨.signedImmediate, [⟨10, 14⟩], .identity⟩]⟩
  [⟨0x20000000, "ll.w", offset, none, ∅⟩, ⟨0x12345678, "nop", ⟨[]⟩, none, ∅⟩,
    ⟨0x21000000, "sc.w", offset, none, ∅⟩]

theorem gather_counts_mixed :
    Listing.read true none "20000000 ll.w DJSk14\n12345678 nop EMPTY\n21000000 sc.w DJSk14\n" =
      .ok mixed ∧
    (∀ description ∈ mixed, description.format.validate .manual = .ok ()) ∧
    (gather mixed).size = 2 ∧ ∃ entry, (gather mixed)["DJSk14"]? = some entry ∧
      entry.uses = mixed.countP fun description => description.format == entry.format := by
  have loaded : Listing.read true none
      "20000000 ll.w DJSk14\n12345678 nop EMPTY\n21000000 sc.w DJSk14\n" = .ok mixed := by
    decide +kernel
  obtain ⟨-, formats, read⟩ := gather_counts
  have valid := read mixed (Or.inl ⟨_, _, _, loaded⟩)
  obtain ⟨-, size, uses⟩ := formats mixed valid
  have found : (gather mixed)["DJSk14"]? = some ⟨⟨[.register .intRegister 0, .register .intRegister 5,
      ⟨.signedImmediate, [⟨10, 14⟩], .identity⟩]⟩, 2⟩ := by
    rw [getElem?_gather]
    decide
  exact ⟨loaded, valid, size.trans (by decide), _, found, uses _ _ found⟩

end Catalog

end InsnEncoding
