import InsnEncoding.Format.Reader
import InsnEncoding.Proofs.Run

/-!
# Reading and writing numerals

`Numeral.value?` gives up at the first digit that leads past the largest 32-bit number. What has been
read so far never exceeds the whole number (`le_ofDigitChars`), so it gives up exactly if the whole
number is too large: `value?_eq_some_iff`, `value?_eq_none_iff`. The reader goes through the longest run of
digits one by one (`readDigits_run`, `read_eq`), and the writer writes a numeral of its number
(`spells_write`). `read_longest_numeral` says of any place in a text what is read there.
-/

namespace InsnEncoding

namespace Numeral

/-- More digits never make a number smaller. -/
theorem le_ofDigitChars (digits : List Char) (number : Nat) :
    number ≤ Nat.ofDigitChars 10 digits number := by
  rw [Nat.ofDigitChars_eq_ofDigitChars_zero]
  exact Nat.le_add_right_of_le (Nat.le_mul_of_pos_left number (Nat.pow_pos (by decide)))

theorem exists_toNat_eq {number : Nat} (fits : number < UInt32.size) :
    ∃ value : UInt32, value.toNat = number :=
  ⟨UInt32.ofNat number, UInt32.toNat_ofNat_of_lt' fits⟩

theorem mul?_eq_some_iff {first second product : UInt32} :
    mul? first second = some product ↔ first.toNat * second.toNat = product.toNat := by
  have bound := product.toNat_lt_size
  unfold mul?
  split
  next fits =>
    rw [Option.some.injEq, ← UInt32.toNat_inj, UInt32.toNat_mul, Nat.mod_eq_of_lt fits]
  next large =>
    simp only [reduceCtorEq, false_iff]
    omega

theorem add?_eq_some_iff {first second sum : UInt32} :
    add? first second = some sum ↔ first.toNat + second.toNat = sum.toNat := by
  have bound := sum.toNat_lt_size
  unfold add?
  split
  next fits =>
    rw [Option.some.injEq, ← UInt32.toNat_inj, UInt32.toNat_add, Nat.mod_eq_of_lt fits]
  next large =>
    simp only [reduceCtorEq, false_iff]
    omega

theorem toNat_digitValue (digit : Char) : (digitValue digit).toNat = digit.toNat - '0'.toNat :=
  UInt32.toNat_ofNat_of_lt' (Nat.lt_of_le_of_lt (Nat.sub_le _ _) digit.val.toNat_lt_size)

/-- A digit is added exactly if the longer number fits: a product that does not fit is not made smaller by
    the sum. -/
theorem push?_eq_some_iff {value next : UInt32} {digit : Char} :
    push? value digit = some next ↔
      10 * value.toNat + (digit.toNat - '0'.toNat) = next.toNat := by
  have ten : (10 : UInt32).toNat = 10 := rfl
  rw [push?, Option.bind_eq_some_iff]
  constructor
  · rintro ⟨tens, product, sum⟩
    rw [mul?_eq_some_iff, ten] at product
    rw [add?_eq_some_iff, toNat_digitValue] at sum
    omega
  · intro whole
    have bound := next.toNat_lt_size
    obtain ⟨tens, value⟩ := @exists_toNat_eq (value.toNat * 10) (by omega)
    refine ⟨tens, mul?_eq_some_iff.mpr value.symm, add?_eq_some_iff.mpr ?_⟩
    rw [toNat_digitValue]
    omega

/-- The digits lead from one number to another in 32-bit arithmetic if they do so without limit. -/
theorem foldlM_push?_eq_some_iff {digits : List Char} {number value : UInt32} :
    digits.foldlM push? number = some value ↔
      Nat.ofDigitChars 10 digits number.toNat = value.toNat := by
  induction digits generalizing number with
  | nil => simp [UInt32.toNat_inj]
  | cons digit rest ih =>
    rw [List.foldlM_cons, Nat.ofDigitChars_cons]
    refine Option.bind_eq_some_iff.trans ?_
    constructor
    · rintro ⟨next, pushed, later⟩
      rw [push?_eq_some_iff.mp pushed]
      exact ih.mp later
    · intro whole
      -- The digits that are left only add to the number, so it is still small here.
      have grown := le_ofDigitChars rest (10 * number.toNat + (digit.toNat - '0'.toNat))
      rw [whole] at grown
      obtain ⟨next, same⟩ := exists_toNat_eq (Nat.lt_of_le_of_lt grown value.toNat_lt_size)
      exact ⟨next, push?_eq_some_iff.mpr same.symm, ih.mpr (same ▸ whole)⟩

theorem value?_eq_some_iff {digits : List Char} {value : UInt32} :
    value? digits = some value ↔ Nat.ofDigitChars 10 digits 0 = value.toNat :=
  foldlM_push?_eq_some_iff

theorem value?_eq_none_iff {digits : List Char} :
    value? digits = none ↔ UInt32.size ≤ Nat.ofDigitChars 10 digits 0 := by
  constructor
  · intro none
    by_contra small
    obtain ⟨value, same⟩ := exists_toNat_eq (Nat.lt_of_not_le small)
    have some := value?_eq_some_iff.mpr same.symm
    rw [none] at some
    contradiction
  · intro large
    rw [Option.eq_none_iff_forall_ne_some]
    intro value some
    have same := value?_eq_some_iff.mp some
    have bound := value.toNat_lt_size
    omega

theorem spells_iff {digits : List Char} {value : UInt32} :
    Spells digits value ↔
      digits ≠ [] ∧ (∀ digit ∈ digits, digit.isDigit) ∧ value? digits = some value := by
  rw [Spells, value?_eq_some_iff]

/-- What is written is a numeral of the number. -/
theorem spells_write (value : UInt32) : Spells (write value) value :=
  ⟨Nat.toDigits_ne_nil, fun _ => Nat.isDigit_of_mem_toDigits (by decide) (by decide),
    Nat.ofDigitChars_ten_toDigits⟩

/-- Zeros before a numeral do not change its number. -/
theorem Spells.zeros_append {digits : List Char} {value : UInt32} (spells : Spells digits value)
    (zeros : Nat) : Spells (List.replicate zeros '0' ++ digits) value := by
  obtain ⟨nonempty, all, number⟩ := spells
  refine ⟨List.append_ne_nil_of_right_ne_nil _ nonempty, ?_, ?_⟩
  · refine List.forall_mem_append.mpr ⟨fun digit inZeros => ?_, all⟩
    rw [List.eq_of_mem_replicate inZeros]
    rfl
  · rw [Nat.ofDigitChars_append, Nat.ofDigitChars_replicate_zero, Nat.mul_zero, number]

/-- Digit by digit, the reader goes through the longest run and keeps its number and its length. -/
theorem readDigits_run {start taken : Nat} {value : UInt32} {run rest : List Char}
    (all : ∀ digit ∈ run, digit.isDigit) (stops : Text.Stops Char.isDigit rest) :
    readDigits start value taken (run ++ rest) =
      match run.foldlM push? value with
      | none => .error (.numberOverflow start)
      | some number => .ok (number, taken + run.length) := by
  induction run generalizing value taken with
  | nil =>
    cases rest with
    | nil => rfl
    | cons char rest => simp [readDigits, Text.stops_cons.mp stops]
  | cons digit run ih =>
    obtain ⟨here, later⟩ := List.forall_mem_cons.mp all
    rw [List.cons_append, readDigits, if_pos here, List.foldlM_cons]
    cases push? value digit with
    | none => rfl
    | some next =>
      rw [List.length_cons, ← Nat.add_assoc, Nat.add_right_comm]
      exact ih later

/-- The reader looks at the longest run of digits and at nothing else. -/
theorem read_eq (index : Nat) (text : List Char) :
    read index text =
      if text.takeWhile Char.isDigit = [] then .error (.missingNumber index)
      else
        match value? (text.takeWhile Char.isDigit) with
        | none => .error (.numberOverflow index)
        | some value => .ok (value, (text.takeWhile Char.isDigit).length) := by
  have all : ∀ digit ∈ text.takeWhile Char.isDigit, digit.isDigit := fun _ => List.mem_takeWhile_imp
  have steps := @readDigits_run index 0 0 _ _ all (Text.stops_dropWhile text)
  rw [List.takeWhile_append_dropWhile, Nat.zero_add] at steps
  rw [read, steps, value?]
  cases text.takeWhile Char.isDigit with
  | nil => rfl
  | cons digit run => cases (digit :: run).foldlM push? 0 <;> rfl

section Outcomes

variable {index : Nat} {text : List Char}

theorem read_eq_missingNumber_iff :
    read index text = .error (.missingNumber index) ↔ text.takeWhile Char.isDigit = [] := by
  rw [read_eq]
  by_cases empty : text.takeWhile Char.isDigit = []
  · simp [empty]
  · cases value? (text.takeWhile Char.isDigit) with
    | none => simp [empty]
    | some value => simp [empty]

theorem read_eq_numberOverflow_iff :
    read index text = .error (.numberOverflow index) ↔
      UInt32.size ≤ Nat.ofDigitChars 10 (text.takeWhile Char.isDigit) 0 := by
  rw [read_eq, ← value?_eq_none_iff]
  by_cases empty : text.takeWhile Char.isDigit = []
  · simp [empty, value?]
  · cases value? (text.takeWhile Char.isDigit) with
    | none => simp [empty]
    | some value => simp [empty]

/-- A run of digits whose number fits is read. -/
theorem exists_read_eq_ok (some : text.takeWhile Char.isDigit ≠ [])
    (fits : Nat.ofDigitChars 10 (text.takeWhile Char.isDigit) 0 < UInt32.size) :
    ∃ value : UInt32, value.toNat = Nat.ofDigitChars 10 (text.takeWhile Char.isDigit) 0 ∧
      read index text = .ok (value, (text.takeWhile Char.isDigit).length) := by
  obtain ⟨value, same⟩ := exists_toNat_eq fits
  refine ⟨value, same, ?_⟩
  rw [read_eq, if_neg some, value?_eq_some_iff.mpr same.symm]

end Outcomes

/-- A numeral is read as its number. -/
theorem read_of_spells {index : Nat} {digits rest : List Char} {value : UInt32}
    (spells : Spells digits value) (stops : Text.Stops Char.isDigit rest) :
    read index (digits ++ rest) = .ok (value, digits.length) := by
  obtain ⟨nonempty, all, some⟩ := spells_iff.mp spells
  rw [read_eq, Text.takeWhile_run all stops, if_neg nonempty, some]

/-- What is read as a number is a numeral, and no digit stands behind it. -/
theorem spells_of_read {index : Nat} {text : List Char} {value : UInt32} {taken : Nat}
    (found : read index text = .ok (value, taken)) :
    ∃ digits rest, text = digits ++ rest ∧ taken = digits.length ∧ Spells digits value ∧
      Text.Stops Char.isDigit rest := by
  rw [read_eq] at found
  split at found
  · cases found
  next nonempty =>
    split at found
    · cases found
    next number known =>
      cases found
      have spells : Spells (text.takeWhile Char.isDigit) value :=
        spells_iff.mpr ⟨nonempty, fun _ => List.mem_takeWhile_imp, known⟩
      exact ⟨_, _, List.takeWhile_append_dropWhile.symm, rfl, spells, Text.stops_dropWhile text⟩

/-- What is read as a number at a place of a text is the longest run of digits there. It is missing exactly
    if the run is empty and too large exactly if the number of the run is, and otherwise all of the run is
    taken and its number given. So a number that has been written is read back in front of anything but a
    digit, whatever zeros stand before it. -/
theorem read_longest_numeral (chars : List Char) (position : Nat) :
    let run := (chars.drop position).takeWhile Char.isDigit
    let number := Nat.ofDigitChars 10 run 0
    (read position (chars.drop position) = .error (.missingNumber position) ↔ run = []) ∧
    (read position (chars.drop position) = .error (.numberOverflow position) ↔ UInt32.size ≤ number) ∧
    (run ≠ [] → number < UInt32.size →
      ∃ value : UInt32, value.toNat = number ∧
        read position (chars.drop position) = .ok (value, run.length)) ∧
    ∀ (value : UInt32) (zeros : Nat) (rest : List Char), Text.Stops Char.isDigit rest →
      chars.drop position = List.replicate zeros '0' ++ write value ++ rest →
        read position (chars.drop position) = .ok (value, zeros + (write value).length) := by
  intro run number
  refine ⟨read_eq_missingNumber_iff, read_eq_numberOverflow_iff, exists_read_eq_ok, ?written⟩
  case written =>
    intro value zeros rest stops split
    rw [split, read_of_spells ((spells_write value).zeros_append zeros) stops, List.length_append,
      List.length_replicate]

/-- The largest number that fits is read behind three zeros, and the next one is refused. -/
theorem read_longest_numeral_limit :
    read 2 ("Uk0004294967295ps2".toList.drop 2) = .ok (4294967295, 13) ∧
    read 2 ("Uk0004294967296ps2".toList.drop 2) = .error (.numberOverflow 2) ∧
    (∃ value : UInt32, value.toNat = 5 ∧ read 2 ("Uk005".toList.drop 2) = .ok (value, 3)) ∧
    read 2 ("Uk".toList.drop 2) = .error (.missingNumber 2) := by
  have stops : Text.Stops Char.isDigit "ps2".toList := Text.stops_cons.mpr (by decide)
  obtain ⟨-, -, -, written⟩ := read_longest_numeral "Uk0004294967295ps2".toList 2
  obtain ⟨-, overflow, -, -⟩ := read_longest_numeral "Uk0004294967296ps2".toList 2
  obtain ⟨-, -, fits, -⟩ := read_longest_numeral "Uk005".toList 2
  obtain ⟨missing, -, -, -⟩ := read_longest_numeral "Uk".toList 2
  exact ⟨written 4294967295 3 _ stops (by decide), overflow.mpr (by decide),
    fits (by decide) (by decide), missing.mpr (by decide)⟩

end Numeral

end InsnEncoding
