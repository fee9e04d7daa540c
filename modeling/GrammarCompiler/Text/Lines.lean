/-!
The lines of a text. A line break separates two lines and belongs to neither,
so that a text has one line more than it has line breaks.
-/

namespace GrammarCompiler.Text

def lines : List Char → List (List Char)
  | [] => [[]]
  | c :: text =>
    if c = '\n' then [] :: lines text
    else
      match lines text with
      | [] => [[c]]
      | line :: more => (c :: line) :: more

theorem lines_ne_nil (text : List Char) : lines text ≠ [] := by
  fun_cases lines text <;> simp

theorem lines_of_not_mem {text : List Char} (h : '\n' ∉ text) : lines text = [text] := by
  induction text with
  | nil => rfl
  | cons c text ih =>
    obtain ⟨hc, htext⟩ : '\n' ≠ c ∧ '\n' ∉ text := by simpa using h
    rw [lines, if_neg hc.symm, ih htext]

/-- A line break ends a line, wherever it stands. -/
theorem lines_append (front back : List Char) :
    lines (front ++ '\n' :: back) = lines front ++ lines back := by
  induction front with
  | nil => simp [lines]
  | cons c front ih =>
    rw [List.cons_append, lines, lines, ih]
    split
    · rfl
    · cases h : lines front with
      | nil => exact absurd h (lines_ne_nil front)
      | cons line more => rfl

end GrammarCompiler.Text
