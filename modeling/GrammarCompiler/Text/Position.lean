/-!
Lines and columns. The place behind a stretch of text is told by the text
alone: the line ends in it, and the characters behind the last one.
-/

namespace GrammarCompiler.Text

/-- The line, counted from one, of the place behind the text. -/
def lineBehind (text : List Char) : Nat := 1 + text.count '\n'

/-- The column, counted from one, of the place behind the text. -/
def columnBehind (text : List Char) : Nat :=
  1 + (text.reverse.takeWhile fun c => c ≠ '\n').length

theorem lineBehind_newLine (text : List Char) :
    lineBehind (text ++ ['\n']) = lineBehind text + 1 := by
  simp [lineBehind, Nat.add_assoc]

theorem columnBehind_newLine (text : List Char) : columnBehind (text ++ ['\n']) = 1 := by
  simp [columnBehind]

theorem lineBehind_append {more : List Char} (h : '\n' ∉ more) (text : List Char) :
    lineBehind (text ++ more) = lineBehind text := by
  simp [lineBehind, List.count_eq_zero_of_not_mem h]

theorem columnBehind_append {more : List Char} (h : '\n' ∉ more) (text : List Char) :
    columnBehind (text ++ more) = columnBehind text + more.length := by
  have hall : ∀ c ∈ more.reverse, decide (c ≠ '\n') = true := by
    intro c hc
    refine decide_eq_true ?_
    rintro rfl
    exact h (List.mem_reverse.1 hc)
  rw [columnBehind, List.reverse_append, List.takeWhile_append_of_pos hall, List.length_append,
    List.length_reverse, columnBehind]
  omega

/-- More text in front moves a place down by the line ends in it. -/
theorem lineBehind_behind (front text : List Char) :
    lineBehind (front ++ text) = lineBehind text + front.count '\n' := by
  rw [lineBehind, lineBehind, List.count_append]
  omega

theorem one_lt_lineBehind_iff {text : List Char} : 1 < lineBehind text ↔ '\n' ∈ text := by
  rw [lineBehind, ← List.count_pos_iff]
  omega

/-- Text in front moves no place to the side but those on the first line. -/
theorem columnBehind_of_mem {text : List Char} (h : '\n' ∈ text) (front : List Char) :
    columnBehind (front ++ text) = columnBehind text := by
  have hshort : ¬ (text.reverse.takeWhile fun c => decide (c ≠ '\n')).length =
      text.reverse.length := by
    intro hlength
    have hall := (List.takeWhile_prefix _).eq_of_length hlength
    have hmem := List.mem_reverse.2 h
    rw [← hall] at hmem
    simpa using List.all_eq_true.1 List.all_takeWhile _ hmem
  rw [columnBehind, List.reverse_append, List.takeWhile_append, if_neg hshort, columnBehind]

theorem columnBehind_behind (front text : List Char) :
    columnBehind (front ++ text) =
      columnBehind text + (if lineBehind text = 1 then columnBehind front - 1 else 0) := by
  by_cases h : '\n' ∈ text
  · have hlater := one_lt_lineBehind_iff.2 h
    rw [columnBehind_of_mem h, if_neg (by omega)]
    omega
  · have hfirst : lineBehind text = 1 := lineBehind_append h []
    have hthere := columnBehind_append h front
    have hhere : columnBehind text = 1 + text.length := columnBehind_append h []
    have hpos : 1 ≤ columnBehind front := Nat.le_add_right _ _
    rw [if_pos hfirst]
    omega

end GrammarCompiler.Text
