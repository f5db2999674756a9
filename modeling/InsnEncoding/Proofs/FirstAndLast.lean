import Mathlib.Data.List.Basic

/-!
# The first and the last member of a kind

Of members with the same key the last one counts, and what is refused is refused for the first member that
does not go with one before it. Both are found by splitting the list there.
-/

namespace InsnEncoding

variable {α : Type}

/-- The last member with a property is the one behind which no member has it. -/
theorem getLast?_filter_eq_some_iff {has : α → Bool} {list : List α} {last : α} :
    (list.filter has).getLast? = some last ↔
      has last ∧ ∃ before behind, list = before ++ last :: behind ∧
        ∀ later ∈ behind, ¬ has later := by
  rw [List.getLast?_filter, List.find?_eq_some_iff_append]
  refine and_congr_right fun _ => ?_
  constructor
  · rintro ⟨later, earlier, split, others⟩
    refine ⟨earlier.reverse, later.reverse, ?_, by simpa using others⟩
    simpa using congrArg List.reverse split
  · rintro ⟨before, behind, rfl, others⟩
    exact ⟨behind.reverse, before.reverse, by simp, by simpa using others⟩

section FirstToMeet

variable {apart : α → α → Prop} {list : List α} {index : Nat}

/-- The member at the index is not apart from all that stand before it. -/
def MeetsEarlier (apart : α → α → Prop) (list : List α) (index : Nat) : Prop :=
  ∃ (early : Nat) (first second : α), early < index ∧ list[early]? = some first ∧
    list[index]? = some second ∧ ¬ apart first second

/-- The member at the index is the first that meets one before it. -/
def FirstToMeet (apart : α → α → Prop) (list : List α) (index : Nat) : Prop :=
  MeetsEarlier apart list index ∧ ∀ earlier < index, ¬ MeetsEarlier apart list earlier

theorem meetsEarlier_iff {member : α} (here : list[index]? = some member) :
    MeetsEarlier apart list index ↔ ∃ other ∈ list.take index, ¬ apart other member := by
  constructor
  · rintro ⟨early, first, second, before, found, foundToo, meets⟩
    cases here.symm.trans foundToo
    refine ⟨first, List.mem_of_getElem? (i := early) ?_, meets⟩
    rw [List.getElem?_take_of_lt before, found]
  · rintro ⟨other, earlier, meets⟩
    obtain ⟨early, found⟩ := List.mem_iff_getElem?.mp earlier
    rw [List.getElem?_take, Option.ite_none_right_eq_some] at found
    exact ⟨early, other, member, found.1, found.2, here, meets⟩

theorem pairwise_take_iff {count : Nat} :
    (list.take count).Pairwise apart ↔ ∀ index < count, ¬ MeetsEarlier apart list index := by
  rw [List.pairwise_iff_getElem]
  simp only [List.length_take, List.getElem_take, Nat.lt_min]
  constructor
  · rintro pairwise index inside ⟨early, first, second, before, found, foundToo, meets⟩
    obtain ⟨inList, rfl⟩ := List.getElem?_eq_some_iff.mp found
    obtain ⟨alsoInList, rfl⟩ := List.getElem?_eq_some_iff.mp foundToo
    exact meets (pairwise early index ⟨Nat.lt_trans before inside, inList⟩ ⟨inside, alsoInList⟩ before)
  · intro none early late inList alsoInList before
    by_contra meets
    exact none late alsoInList.1 ⟨early, _, _, before, List.getElem?_eq_getElem inList.2,
      List.getElem?_eq_getElem alsoInList.2, meets⟩

/-- The first to meet one before it stands behind members that are apart from each other. -/
theorem firstToMeet_iff {member : α} (here : list[index]? = some member) :
    FirstToMeet apart list index ↔
      (list.take index).Pairwise apart ∧ ∃ other ∈ list.take index, ¬ apart other member := by
  rw [FirstToMeet, meetsEarlier_iff here, pairwise_take_iff, and_comm]

end FirstToMeet

end InsnEncoding
