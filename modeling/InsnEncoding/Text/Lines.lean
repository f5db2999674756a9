/-!
# Lines of a text

A line ends at a line feed. One carriage return directly before the line feed belongs to the line end
as well; every other carriage return belongs to the line. What follows the last line feed is a line
only if it is not empty.
-/

namespace InsnEncoding

namespace Text

/-- A line without the carriage return at its end, if there is one. -/
def stripReturn (line : List Char) : List Char :=
  if line.getLast? = some '\r' then line.dropLast else line

/-- The lines of a text, without their ends. -/
def lines : List Char → List (List Char)
  | [] => []
  | first :: rest =>
    let text := first :: rest
    if text.contains '\n' then
      stripReturn (text.takeWhile (· != '\n')) :: lines ((text.dropWhile (· != '\n')).drop 1)
    else [text]
termination_by text => text.length
decreasing_by
  have shorter := (List.dropWhile_sublist (l := text) (· != '\n')).length_le
  rw [List.length_drop]
  exact Nat.lt_succ_of_le (Nat.sub_le_of_le_add shorter)

theorem stripReturn_of_not_mem {line : List Char} (noReturn : '\r' ∉ line) : stripReturn line = line :=
  if_neg fun last => noReturn (List.mem_of_getLast? last)

/-- Only one carriage return is taken away, whatever stands before it. -/
@[simp] theorem stripReturn_append_return (line : List Char) : stripReturn (line ++ ['\r']) = line := by
  simp [stripReturn]

/-- What stands before the last character stays as it is. -/
theorem stripReturn_append_of_ne_nil (front : List Char) {line : List Char} (nonempty : line ≠ []) :
    stripReturn (front ++ line) = front ++ stripReturn line := by
  have last : (front ++ line).getLast? = line.getLast? := by
    rw [List.getLast?_append, Option.or_of_isSome (List.getLast?_isSome.mpr nonempty)]
  rw [stripReturn, stripReturn, last, List.dropLast_append_of_ne_nil nonempty]
  split <;> rfl

theorem lines_nil : lines [] = [] := by
  rw [lines]

/-- A text that begins with a complete line has that line, and then the lines of what follows. -/
theorem lines_append_newline {line rest : List Char} (h : '\n' ∉ line) :
    lines (line ++ '\n' :: rest) = stripReturn line :: lines rest := by
  have all : ∀ char ∈ line, (char != '\n') = true := by
    intro char member
    simpa using fun same : char = '\n' => h (same ▸ member)
  have before : (line ++ '\n' :: rest).takeWhile (· != '\n') = line := by
    simp [List.takeWhile_append_of_pos all]
  have behind : (line ++ '\n' :: rest).dropWhile (· != '\n') = '\n' :: rest := by
    simp [List.dropWhile_append_of_pos all]
  have found : (line ++ '\n' :: rest).contains '\n' := by simp
  cases shape : line ++ '\n' :: rest with
  | nil => simp at shape
  | cons first more =>
    rw [shape] at before behind found
    rw [lines]
    simp only [found, if_true, before, behind, List.drop_succ_cons, List.drop_zero]

/-- A text without a line feed is one line. -/
theorem lines_of_not_mem {text : List Char} (h : '\n' ∉ text) (nonempty : text ≠ []) :
    lines text = [text] := by
  cases text with
  | nil => contradiction
  | cons first rest =>
    rw [lines]
    have missing : (first :: rest).contains '\n' = false := by simpa using h
    simp only [missing, Bool.false_eq_true, if_false]

end Text

end InsnEncoding
