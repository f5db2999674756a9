/-!
# Texts for a terminal

Some control characters steer a terminal: they ring its bell, move its cursor or begin a command. A
text that comes from outside is shown with these spelled out, so that it cannot give commands
(`not_steersTerminal_of_mem`). Tab and the ends of lines are left as they are.
-/

namespace InsnEncoding

namespace Text

/-- The character steers a terminal: bell, backspace, form feed, escape, delete, or one of the
    control characters from U+0080 to U+009F. -/
def steersTerminal (char : Char) : Bool :=
  char ∈ ['\x07', '\x08', '\x0c', '\x1b'] || (0x7f ≤ char.toNat && char.toNat ≤ 0x9f)

/-- A character for a terminal. One that steers it is given by its code point: an ASCII character by
    two digits, another in braces. -/
def spellControl (char : Char) : List Char :=
  if !steersTerminal char then [char]
  else if char.toNat < 0x80 then ['\\', 'x'] ++ (Nat.toDigits 16 char.toNat).leftpad 2 '0'
  else ['\\', 'u', '\x7b'] ++ Nat.toDigits 16 char.toNat ++ ['\x7d']

/-- A text for a terminal. -/
def spellControls (text : String) : String :=
  String.ofList (text.toList.flatMap spellControl)

/-- No character of a text for a terminal steers it. -/
theorem not_steersTerminal_of_mem {text : String} {shown : Char}
    (member : shown ∈ (spellControls text).toList) : steersTerminal shown = false := by
  have spelled : (List.range 0xa0).all (fun code =>
      (spellControl (Char.ofNat code)).all fun other => !steersTerminal other) = true := by
    decide +kernel
  rw [spellControls, String.toList_ofList] at member
  obtain ⟨char, -, inSpelling⟩ := List.mem_flatMap.mp member
  by_cases steers : steersTerminal char
  · have small : char.toNat < 0xa0 := by
      simp only [steersTerminal, List.mem_cons, List.not_mem_nil, or_false, Bool.or_eq_true,
        Bool.and_eq_true, decide_eq_true_eq] at steers
      rcases steers with (rfl | rfl | rfl | rfl) | between
      · decide
      · decide
      · decide
      · decide
      · omega
    have quiet := List.all_eq_true.mp spelled char.toNat (List.mem_range.mpr small)
    rw [Char.ofNat_toNat] at quiet
    simpa using List.all_eq_true.mp quiet shown inSpelling
  · have same : spellControl char = [char] := by
      simp [spellControl, steers]
    rw [same, List.mem_singleton] at inSpelling
    rw [inSpelling]
    exact Bool.eq_false_iff.mpr steers

end Text

end InsnEncoding
