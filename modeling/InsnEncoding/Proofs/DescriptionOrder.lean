import InsnEncoding.Proofs.Catalog

/-!
# The order of descriptions

Sorting puts descriptions into the order of their words and leaves those with the same word as they stood. There
is only one list of which both is true (`Description.WordsAscend.eq_of_filter_eq`), so every law of sorting is
read off the descriptions with one word (`Description.sortByWord_eq_iff`).

A catalog does not count in any order: the uses of a text are the same however the descriptions stand. The
format that it keeps is the first with that text. Which one that is depends on the order, unless the formats
are valid and so there is only one with that text (`Catalog.gather_of_perm`).
-/

namespace InsnEncoding

namespace Description

/-- The description has that word. -/
def hasWord (word : Word) (description : Description) : Bool :=
  description.word == word

/-- No description stands behind one with a larger word. -/
def WordsAscend (descriptions : List Description) : Prop :=
  descriptions.Pairwise fun first second => first.word ≤ second.word

theorem hasWord_iff {word : Word} {description : Description} :
    description.hasWord word ↔ description.word = word :=
  beq_iff_eq

section Sorting

variable {descriptions first second : List Description}

theorem sortByWord_perm (descriptions : List Description) :
    (sortByWord descriptions).Perm descriptions :=
  List.mergeSort_perm _ _

/-- Any two descriptions are in order one way or the other. -/
theorem word_le_total (first second : Description) :
    (decide (first.word ≤ second.word) || decide (second.word ≤ first.word)) = true := by
  simpa using BitVec.le_total first.word second.word

theorem word_le_trans (first second third : Description)
    (before : decide (first.word ≤ second.word) = true)
    (behind : decide (second.word ≤ third.word) = true) :
    decide (first.word ≤ third.word) = true := by
  simp only [decide_eq_true_eq] at before behind ⊢
  exact BitVec.le_trans before behind

theorem wordsAscend_sortByWord (descriptions : List Description) :
    WordsAscend (sortByWord descriptions) := by
  simpa [WordsAscend, sortByWord] using
    List.pairwise_mergeSort word_le_trans word_le_total descriptions

/-- Descriptions with the same word are in order as they stand, so sorting keeps them so. -/
@[simp] theorem filter_hasWord_sortByWord (descriptions : List Description) (word : Word) :
    (sortByWord descriptions).filter (hasWord word) = descriptions.filter (hasWord word) := by
  have ordered : (descriptions.filter (hasWord word)).Pairwise fun first second =>
      decide (first.word ≤ second.word) = true := by
    refine List.pairwise_of_forall_mem_list fun first inFirst second inSecond => ?_
    have here := hasWord_iff.mp (List.mem_filter.mp inFirst).2
    have there := hasWord_iff.mp (List.mem_filter.mp inSecond).2
    simp [here, there]
  have kept := (List.sublist_mergeSort word_le_trans word_le_total ordered
    List.filter_sublist).filter (hasWord word)
  rw [List.filter_filter] at kept
  simp only [Bool.and_self] at kept
  exact (kept.eq_of_length ((sortByWord_perm descriptions).filter _).length_eq.symm).symm

/-- Lists that have the same descriptions of each word have the same descriptions. -/
theorem mem_iff_of_filter_eq
    (same : ∀ word, first.filter (hasWord word) = second.filter (hasWord word))
    (description : Description) : description ∈ first ↔ description ∈ second := by
  have itself : description.hasWord description.word := hasWord_iff.mpr rfl
  have members := congrArg (description ∈ ·) (same description.word)
  simpa [List.mem_filter, itself] using members

/-- A list in the order of the words is determined by its descriptions of each word. -/
theorem WordsAscend.eq_of_filter_eq (ordered : WordsAscend first) (orderedToo : WordsAscend second)
    (same : ∀ word, first.filter (hasWord word) = second.filter (hasWord word)) : first = second := by
  induction first generalizing second with
  | nil =>
    have members := mem_iff_of_filter_eq same
    exact (List.eq_nil_iff_forall_not_mem.mpr (by simpa using members)).symm
  | cons head rest ih =>
    have members := mem_iff_of_filter_eq same
    cases second with
    | nil => simpa using members head
    | cons other others =>
      obtain ⟨least, later⟩ := List.pairwise_cons.mp ordered
      obtain ⟨leastToo, laterToo⟩ := List.pairwise_cons.mp orderedToo
      -- Each head is in the other list, where no word is less than that of its own head.
      have le : head.word ≤ other.word := by
        rcases List.mem_cons.mp ((members other).mpr List.mem_cons_self) with rfl | inRest
        · exact BitVec.le_refl _
        · exact least other inRest
      have ge : other.word ≤ head.word := by
        rcases List.mem_cons.mp ((members head).mp List.mem_cons_self) with rfl | inRest
        · exact BitVec.le_refl _
        · exact leastToo head inRest
      have itself : head.hasWord head.word := hasWord_iff.mpr rfl
      have itselfToo : other.hasWord head.word := hasWord_iff.mpr (BitVec.le_antisymm ge le)
      have heads := same head.word
      rw [List.filter_cons_of_pos itself, List.filter_cons_of_pos itselfToo] at heads
      obtain ⟨rfl, -⟩ := List.cons.inj heads
      refine congrArg (head :: ·) (ih later laterToo fun word => ?_)
      have here := same word
      by_cases inWord : head.hasWord word
      · rw [List.filter_cons_of_pos inWord, List.filter_cons_of_pos inWord] at here
        exact (List.cons.inj here).2
      · rwa [List.filter_cons_of_neg inWord, List.filter_cons_of_neg inWord] at here

/-- The sorted descriptions are those in the order of the words that have the same ones of each word, in the
    same order. -/
theorem sortByWord_eq_iff :
    sortByWord first = second ↔
      WordsAscend second ∧ ∀ word, second.filter (hasWord word) = first.filter (hasWord word) := by
  constructor
  · rintro rfl
    exact ⟨wordsAscend_sortByWord first, filter_hasWord_sortByWord first⟩
  · rintro ⟨ascends, same⟩
    refine (wordsAscend_sortByWord first).eq_of_filter_eq ascends fun word => ?_
    rw [filter_hasWord_sortByWord, same]

theorem sortByWord_sortByWord (descriptions : List Description) :
    sortByWord (sortByWord descriptions) = sortByWord descriptions :=
  sortByWord_eq_iff.mpr ⟨wordsAscend_sortByWord _, fun _ => rfl⟩

/-- Parts of a list may be sorted before the whole. -/
theorem sortByWord_append (front back : List Description) :
    sortByWord (front ++ back) = sortByWord (sortByWord front ++ sortByWord back) := by
  refine (sortByWord_eq_iff.mpr ⟨wordsAscend_sortByWord _, fun word => ?_⟩).symm
  simp

end Sorting

end Description

namespace Catalog

variable {descriptions other : List Description}

/-- What is counted for a text: nothing if no description has it. -/
theorem map_uses_getElem?_gather (descriptions : List Description) (text : String) :
    (gather descriptions)[text]?.map CatalogEntry.uses =
      if descriptions.countP (Description.hasFormatText text) = 0 then none
      else some (descriptions.countP (Description.hasFormatText text)) := by
  rw [getElem?_gather, Option.map_map]
  cases found : descriptions.find? (Description.hasFormatText text) with
  | none =>
    have unused := List.countP_eq_zero.mpr (List.find?_eq_none.mp found)
    simp [unused]
  | some first =>
    have used : 0 < descriptions.countP (Description.hasFormatText text) :=
      List.countP_pos_iff.mpr ⟨first, List.mem_of_find?_eq_some found, List.find?_some found⟩
    simp [Nat.ne_of_gt used]

/-- The texts of a catalog and their uses do not depend on the order of the descriptions. -/
theorem uses_gather_of_perm (permuted : other.Perm descriptions) :
    ((gather other).toList.map fun entry => (entry.1, entry.2.uses)) =
      (gather descriptions).toList.map fun entry => (entry.1, entry.2.uses) := by
  have same : (gather other).map (fun _ entry => entry.uses) =
      (gather descriptions).map fun _ entry => entry.uses := by
    refine Std.ExtTreeMap.ext_getElem? fun text => ?_
    rw [Std.ExtTreeMap.getElem?_map, Std.ExtTreeMap.getElem?_map]
    show (gather other)[text]?.map CatalogEntry.uses = (gather descriptions)[text]?.map CatalogEntry.uses
    rw [map_uses_getElem?_gather, map_uses_getElem?_gather, permuted.countP_eq]
  simpa only [Std.ExtTreeMap.toList_map] using congrArg Std.ExtTreeMap.toList same

/-- What a catalog of valid formats knows of a text, said without an order: the format that has it, if some
    description has that format, and how many have the text. -/
theorem getElem?_gather_eq_some_iff
    (valid : ∀ description ∈ descriptions, description.format.validate .manual = .ok ()) {text : String}
    {entry : CatalogEntry} :
    (gather descriptions)[text]? = some entry ↔
      (∃ description ∈ descriptions, description.format = entry.format ∧
        description.hasFormatText text) ∧
      entry.uses = descriptions.countP (Description.hasFormatText text) := by
  constructor
  · intro found
    obtain ⟨first, here, format⟩ := format_of_getElem?_gather found
    exact ⟨⟨first, List.mem_of_find?_eq_some here, format, List.find?_some here⟩,
      uses_of_getElem?_gather found⟩
  · rintro ⟨⟨description, member, format, named⟩, uses⟩
    obtain ⟨first, here⟩ := Option.isSome_iff_exists.mp
      (List.find?_isSome.mpr ⟨description, member, named⟩)
    have sameText := (Description.hasFormatText_iff.mp (List.find?_some here)).trans
      (Description.hasFormatText_iff.mp named).symm
    have sameFormat : first.format = entry.format :=
      ((repr_eq_iff_of_mem valid (List.mem_of_find?_eq_some here) member).mp sameText).trans format
    rw [getElem?_gather, here, Option.map_some, sameFormat, ← uses]

/-- A catalog of valid formats does not depend on the order of the descriptions at all. -/
theorem gather_of_perm
    (valid : ∀ description ∈ descriptions, description.format.validate .manual = .ok ())
    (permuted : other.Perm descriptions) : gather other = gather descriptions := by
  have validToo : ∀ description ∈ other, description.format.validate .manual = .ok () :=
    fun description member => valid description (permuted.mem_iff.mp member)
  refine Std.ExtTreeMap.ext_getElem? fun text => Option.ext fun entry => ?_
  rw [getElem?_gather_eq_some_iff valid, getElem?_gather_eq_some_iff validToo, permuted.countP_eq]
  simp only [permuted.mem_iff]

end Catalog

namespace Description

/-- Sorting only rearranges descriptions. It puts them into the order of their words, and those with the same
    word stay in the order they had; no other list of the descriptions is like that. So sorting again changes
    nothing, and parts of a list may be sorted before the whole. A catalog has the same texts with the same
    uses in the same order, whatever the order of the descriptions, and if their formats are valid it is the
    same catalog. -/
theorem sort_stable_and_gather_of_perm :
    (∀ descriptions : List Description,
      (sortByWord descriptions).Perm descriptions ∧
      WordsAscend (sortByWord descriptions) ∧
      (∀ word, (sortByWord descriptions).filter (hasWord word) =
        descriptions.filter (hasWord word)) ∧
      (∀ sorted, WordsAscend sorted →
        (∀ word, sorted.filter (hasWord word) = descriptions.filter (hasWord word)) →
          sorted = sortByWord descriptions) ∧
      sortByWord (sortByWord descriptions) = sortByWord descriptions) ∧
    (∀ front back : List Description,
      sortByWord (front ++ back) = sortByWord (sortByWord front ++ sortByWord back)) ∧
    ∀ descriptions other : List Description, other.Perm descriptions →
      ((Catalog.gather other).toList.map fun entry => (entry.1, entry.2.uses)) =
        ((Catalog.gather descriptions).toList.map fun entry => (entry.1, entry.2.uses)) ∧
      ((∀ description ∈ descriptions, ∃ order, description.format.validate order = .ok ()) →
        Catalog.gather other = Catalog.gather descriptions) := by
  refine ⟨fun descriptions => ⟨sortByWord_perm descriptions, wordsAscend_sortByWord descriptions,
    filter_hasWord_sortByWord descriptions, fun sorted ordered same => ?_,
    sortByWord_sortByWord descriptions⟩, sortByWord_append, fun descriptions other permuted =>
    ⟨Catalog.uses_gather_of_perm permuted, fun valid => ?_⟩⟩
  · exact (sortByWord_eq_iff.mpr ⟨ordered, same⟩).symm
  · refine Catalog.gather_of_perm (fun description member => ?_) permuted
    obtain ⟨order, accepted⟩ := valid description member
    exact Format.validate_manual_iff.mpr (Format.validate_eq_ok_iff.mp accepted).1

/-- Three instructions of which the first and the last have the same word but other operands. -/
def crowded : List Description :=
  [⟨0x20000000, "ll.w", ⟨[.register .intRegister 0, .register .intRegister 5]⟩, none, ∅⟩,
    ⟨0x12345678, "nop", ⟨[]⟩, none, ∅⟩, ⟨0x20000000, "ll.d", ⟨[.register .intRegister 0]⟩, none, ∅⟩]

theorem sort_stable_and_gather_of_perm_crowded :
    ((sortByWord crowded).filter (hasWord 0x20000000)).map mnemonic = ["ll.w", "ll.d"] ∧
    crowded.reverse.Perm crowded ∧
    (∀ description ∈ crowded, description.format.validate .canonical = .ok ()) ∧
    Catalog.gather crowded.reverse = Catalog.gather crowded := by
  have permuted : crowded.reverse.Perm crowded := List.reverse_perm crowded
  have valid : ∀ description ∈ crowded, description.format.validate .canonical = .ok () := by decide
  obtain ⟨sorts, -, gathers⟩ := sort_stable_and_gather_of_perm
  obtain ⟨-, -, stable, -⟩ := sorts crowded
  obtain ⟨-, sameCatalog⟩ := gathers _ _ permuted
  refine ⟨?_, permuted, valid, sameCatalog fun description member => ⟨_, valid description member⟩⟩
  rw [stable]
  decide

end Description

end InsnEncoding
