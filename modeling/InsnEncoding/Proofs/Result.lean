import Mathlib.Data.List.Forall2

/-!
# Steps that may fail

A step gives a value or a fault. When a list of inputs is gone through, the first fault ends it
(`mapM_eq_error_iff`), and if there is none the values are those of the single steps in order
(`mapM_eq_ok_iff`).
-/

namespace InsnEncoding

section Map

variable {ε α β : Type} {step : α → β} {result : Except ε α}

/-- What a mapped result comes from. -/
theorem exists_of_map_eq_ok {value : β} (mapped : result.map step = .ok value) :
    ∃ inner, result = .ok inner ∧ step inner = value := by
  cases result with
  | error fault => cases mapped
  | ok inner => exact ⟨inner, rfl, Except.ok.inj mapped⟩

theorem eq_error_of_map_eq_error {fault : ε} (mapped : result.map step = .error fault) :
    result = .error fault := by
  cases result with
  | error other => exact congrArg Except.error (Except.error.inj mapped)
  | ok inner => cases mapped

end Map

section MapError

variable {ε δ α : Type} {told : ε → δ} {result : Except ε α}

theorem mapError_eq_ok_iff {value : α} : result.mapError told = .ok value ↔ result = .ok value := by
  cases result <;> simp [Except.mapError]

theorem mapError_eq_error_iff {fault : δ} :
    result.mapError told = .error fault ↔ ∃ cause, result = .error cause ∧ told cause = fault := by
  cases result <;> simp [Except.mapError]

end MapError

/-- Two lists that may have failed to be made are joined if both were made. -/
theorem append_eq_ok_iff {ε α : Type} {first second : Except ε (List α)} {joined : List α} :
    (do return (← first) ++ (← second)) = .ok joined ↔
      ∃ front back, first = .ok front ∧ second = .ok back ∧ front ++ back = joined := by
  cases first with
  | error fault => simp [bind, Except.bind]
  | ok front => cases second <;> simp [bind, Except.bind, pure, Except.pure]

section ToOption

variable {ε α : Type}

theorem eq_ok_of_mem_toOption {result : Except ε α} {value : α}
    (member : value ∈ result.toOption.toList) : result = .ok value := by
  cases result with
  | error fault => contradiction
  | ok inner => rw [List.mem_singleton.mp member]

/-- A value of a list that may have failed to be made is in the list that was made. -/
theorem exists_of_mem_toOption_getD {result : Except ε (List α)} {value : α}
    (member : value ∈ result.toOption.getD []) : ∃ values, result = .ok values ∧ value ∈ values := by
  cases result with
  | error fault => contradiction
  | ok values => exact ⟨values, rfl, member⟩

end ToOption

section Steps

variable {ε α β ι : Type}

@[simp] theorem ok_bind (value : α) (next : α → Except ε β) : (Except.ok value >>= next) = next value :=
  rfl

/-- Two steps succeed only if the first does, and the second on its value. -/
theorem exists_of_bind_eq_ok {first : Except ε α} {next : α → Except ε β} {result : β}
    (done : (first >>= next) = .ok result) : ∃ value, first = .ok value ∧ next value = .ok result := by
  cases first with
  | error fault => cases done
  | ok value => exact ⟨value, rfl, done⟩

/-- If each step succeeds and keeps its state related to that of a step that cannot fail, the whole does. -/
theorem exists_foldlM_eq_ok {step : α → ι → Except ε α} {plain : β → ι → β} {related : α → β → Prop}
    (each : ∀ state other input, related state other →
      ∃ next, step state input = .ok next ∧ related next (plain other input))
    (inputs : List ι) {state : α} {other : β} (start : related state other) :
    ∃ last, inputs.foldlM step state = .ok last ∧ related last (inputs.foldl plain other) := by
  induction inputs generalizing state other with
  | nil => exact ⟨state, rfl, start⟩
  | cons input rest ih =>
    obtain ⟨next, here, kept⟩ := each state other input start
    obtain ⟨last, later, ends⟩ := ih kept
    refine ⟨last, ?_, ends⟩
    rw [List.foldlM_cons, here, ok_bind, later]

/-- If no step fails, the whole is that of the steps that cannot fail. -/
theorem foldlM_eq_ok {step : α → ι → Except ε α} {plain : α → ι → α}
    (each : ∀ state input, step state input = .ok (plain state input)) (inputs : List ι) (state : α) :
    inputs.foldlM step state = .ok (inputs.foldl plain state) := by
  have related : ∀ state other input, state = other →
      ∃ next, step state input = .ok next ∧ next = plain other input :=
    fun state other input same => ⟨_, each state input, same ▸ rfl⟩
  obtain ⟨last, whole, same⟩ := exists_foldlM_eq_ok related inputs (rfl : state = state)
  rw [whole, same]

end Steps

theorem exists_left_of_mem {α β : Type} {related : α → β → Prop} {left : List α} {right : List β}
    (each : List.Forall₂ related left right) {second : β} (member : second ∈ right) :
    ∃ first ∈ left, related first second := by
  induction each with
  | nil => contradiction
  | @cons first _ _ _ here _ ih =>
    rcases List.mem_cons.mp member with rfl | member
    · exact ⟨first, List.mem_cons_self, here⟩
    · obtain ⟨found, inRest, there⟩ := ih member
      exact ⟨found, List.mem_cons_of_mem _ inRest, there⟩

section Sequence

variable {ε δ α β : Type} {step : α → Except ε β} {input : α}

theorem mapM_cons_of_error {fault : ε} (failed : step input = .error fault) (rest : List α) :
    (input :: rest).mapM step = .error fault := by
  rw [List.mapM_cons, failed]
  rfl

theorem mapM_cons_of_ok {output : β} (passed : step input = .ok output) (rest : List α) :
    (input :: rest).mapM step = (rest.mapM step).map (output :: ·) := by
  rw [List.mapM_cons, passed]
  cases rest.mapM step <;> rfl

/-- Every step succeeds, and these are the values in order. -/
theorem mapM_eq_ok_iff {inputs : List α} {outputs : List β} :
    inputs.mapM step = .ok outputs ↔
      List.Forall₂ (fun input output => step input = .ok output) inputs outputs := by
  constructor
  · intro passed
    induction inputs generalizing outputs with
    | nil =>
      cases passed
      exact .nil
    | cons first rest ih =>
      cases here : step first with
      | error fault =>
        rw [mapM_cons_of_error here] at passed
        contradiction
      | ok output =>
        rw [mapM_cons_of_ok here] at passed
        obtain ⟨others, later, rfl⟩ := exists_of_map_eq_ok passed
        exact .cons here (ih later)
  · intro each
    induction each with
    | nil => rfl
    | cons here _ ih =>
      rw [mapM_cons_of_ok here, ih]
      rfl

/-- A step fails, all before it succeed, and this is its fault. -/
theorem mapM_eq_error_iff {inputs : List α} {fault : ε} :
    inputs.mapM step = .error fault ↔
      ∃ before input behind, inputs = before ++ input :: behind ∧
        (∀ earlier ∈ before, ∃ output, step earlier = .ok output) ∧ step input = .error fault := by
  constructor
  · intro failed
    induction inputs with
    | nil => cases failed
    | cons first rest ih =>
      cases here : step first with
      | error other =>
        rw [mapM_cons_of_error here] at failed
        cases failed
        exact ⟨[], first, rest, rfl, nofun, here⟩
      | ok output =>
        rw [mapM_cons_of_ok here] at failed
        obtain ⟨before, input, behind, rfl, passed, found⟩ := ih (eq_error_of_map_eq_error failed)
        exact ⟨first :: before, input, behind, rfl,
          List.forall_mem_cons.mpr ⟨⟨output, here⟩, passed⟩, found⟩
  · rintro ⟨before, input, behind, rfl, passed, found⟩
    induction before with
    | nil => exact mapM_cons_of_error found behind
    | cons first rest ih =>
      obtain ⟨⟨output, here⟩, later⟩ := List.forall_mem_cons.mp passed
      rw [List.cons_append, mapM_cons_of_ok here, ih later]
      rfl

theorem exists_ok_of_mem {inputs : List α} {outputs : List β} (passed : inputs.mapM step = .ok outputs)
    (member : input ∈ inputs) : ∃ output, step input = .ok output := by
  obtain ⟨output, -, here⟩ := exists_left_of_mem (mapM_eq_ok_iff.mp passed).flip member
  exact ⟨output, here⟩

/-- Some step fails, be it the first that does or not. -/
theorem exists_mapM_eq_error_iff {inputs : List α} :
    (∃ fault, inputs.mapM step = .error fault) ↔
      ∃ input ∈ inputs, ∃ fault, step input = .error fault := by
  constructor
  · rintro ⟨fault, failed⟩
    obtain ⟨before, input, behind, rfl, _, found⟩ := mapM_eq_error_iff.mp failed
    exact ⟨input, List.mem_append_right before List.mem_cons_self, fault, found⟩
  · rintro ⟨input, member, fault, found⟩
    cases result : inputs.mapM step with
    | error first => exact ⟨first, rfl⟩
    | ok outputs =>
      obtain ⟨output, passed⟩ := exists_ok_of_mem result member
      rw [found] at passed
      contradiction

/-- If each step fails as another does, but tells the fault in another way, so does the whole. -/
theorem mapM_mapError {other : α → Except δ β} {told : ε → δ}
    (same : ∀ input, other input = (step input).mapError told) (inputs : List α) :
    inputs.mapM other = (inputs.mapM step).mapError told := by
  induction inputs with
  | nil => rfl
  | cons first rest ih =>
    rw [List.mapM_cons, List.mapM_cons, same, ih]
    cases step first with
    | error fault => rfl
    | ok output => cases rest.mapM step <;> rfl

/-- To go through the parts of all inputs is to go through the parts of each. -/
theorem mapM_flatMap {γ : Type} {each : α → Except ε γ} (parts : β → List α) (inputs : List β) :
    (inputs.flatMap parts).mapM each =
      (inputs.mapM fun input => (parts input).mapM each).map List.flatten := by
  induction inputs with
  | nil => rfl
  | cons first rest ih =>
    rw [List.flatMap_cons, List.mapM_append, ih, List.mapM_cons]
    cases (parts first).mapM each with
    | error fault => rfl
    | ok outputs => cases rest.mapM fun input => (parts input).mapM each <;> rfl

end Sequence

end InsnEncoding
