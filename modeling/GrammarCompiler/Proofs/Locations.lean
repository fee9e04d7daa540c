import GrammarCompiler.Naja.Compile
import GrammarCompiler.Proofs.Positions

/-!
Locations of the errors of a compilation. The lexer is given the source
without the white space around it, and counts lines and columns in that; the
white space in front of the source is not counted. So a location is that of
the error in the source itself only if the white space in front holds no line
end, and is empty or stands on another line than the error.
-/

namespace GrammarCompiler.Naja

open Text (lineBehind columnBehind lead trimChars)

/-! ### What an error reports -/

namespace LexError

def line : LexError → Nat
  | .unexpected line _ _ | .outOfRange line _ _ => line

def column : LexError → Nat
  | .unexpected _ column _ | .outOfRange _ column _ => column

/-- The text that the error is about. -/
def reported : LexError → List Char
  | .unexpected _ _ found => [found]
  | .outOfRange _ _ literal => literal.toList

/-- The error has the line and column that the text in front of it tells. -/
structure IsBehind (e : LexError) (text : List Char) : Prop where
  line_eq : e.line = lineBehind text
  column_eq : e.column = columnBehind text

instance (e : LexError) (text : List Char) : Decidable (e.IsBehind text) :=
  decidable_of_iff (e.line = lineBehind text ∧ e.column = columnBehind text)
    ⟨fun h => ⟨h.1, h.2⟩, fun h => ⟨h.line_eq, h.column_eq⟩⟩

/-- What the error reports stands in the source at the line and column of the error. -/
def LocatedIn (e : LexError) (source : List Char) : Prop :=
  ∃ front after, source = front ++ e.reported ++ after ∧ e.IsBehind front

/-- There is a place to look at in front of every character and one at the end. -/
theorem locatedIn_iff {e : LexError} {source : List Char} :
    e.LocatedIn source ↔ ∃ n < source.length + 1,
      e.reported.isPrefixOf (source.drop n) = true ∧ e.IsBehind (source.take n) := by
  constructor
  · rintro ⟨front, after, rfl, hplace⟩
    refine ⟨front.length, ?_, by simpa using hplace⟩
    simp only [List.length_append]
    omega
  · rintro ⟨n, -, hprefix, hplace⟩
    obtain ⟨after, hafter⟩ := List.isPrefixOf_iff_prefix.1 hprefix
    refine ⟨source.take n, after, ?_, hplace⟩
    rw [List.append_assoc, hafter, List.take_append_drop]

instance (e : LexError) (source : List Char) : Decidable (e.LocatedIn source) :=
  decidable_of_iff _ locatedIn_iff.symm

theorem PointsAt.exists_after {front rest : List Char} {e : LexError} (h : e.PointsAt front rest) :
    e.IsBehind front ∧ ∃ after, rest = e.reported ++ after := by
  cases e with
  | unexpected line column found =>
      obtain ⟨hline, hcolumn, hhead, -⟩ := h
      obtain ⟨after, rfl⟩ := List.head?_eq_some_iff.1 hhead
      exact ⟨⟨hline, hcolumn⟩, after, rfl⟩
  | outOfRange line column literal =>
      obtain ⟨hline, hcolumn, -, -, -, after, hrest, -⟩ := h
      exact ⟨⟨hline, hcolumn⟩, after, hrest⟩

/-- Text that is put in front moves the place of the error, unless it holds no line end and the
error is on another line. -/
theorem IsBehind.append_iff {e : LexError} {text : List Char} (h : e.IsBehind text)
    (front : List Char) :
    e.IsBehind (front ++ text) ↔ '\n' ∉ front ∧ (front = [] ∨ 1 < e.line) := by
  have hline := Text.lineBehind_behind front text
  have hcolumn := Text.columnBehind_behind front text
  have hpos : 1 ≤ lineBehind text := Nat.le_add_right _ _
  rw [← h.line_eq] at hline hcolumn hpos
  rw [← h.column_eq] at hcolumn
  constructor
  · rintro ⟨hline', hcolumn'⟩
    have hnone : '\n' ∉ front := List.count_eq_zero.1 (by omega)
    have hwidth : columnBehind front = 1 + front.length := Text.columnBehind_append hnone []
    refine ⟨hnone, ?_⟩
    by_cases hfirst : e.line = 1
    · rw [if_pos hfirst] at hcolumn
      exact .inl (List.length_eq_zero_iff.1 (by omega))
    · exact .inr (by omega)
  · rintro ⟨hnone, rfl | hlater⟩
    · exact h
    · have hzero := List.count_eq_zero.2 hnone
      refine ⟨by omega, ?_⟩
      rw [hcolumn, if_neg (by omega), Nat.add_zero]

end LexError

/-! ### Errors of a compilation -/

/-- Only the lexer gives lexical errors. -/
theorem compile_eq_lex_error_iff {source : String} {e : LexError} :
    compile source = .error (.lex e) ↔ tokenize (Text.trim source) = .error e := by
  rw [compile, parse]
  cases tokenize (Text.trim source) with
  | error e' => simp
  | ok s =>
      simp only [parseStream, assemble]
      cases grammar.parse s with
      | success tree s' => cases h : (Assembly.generator grammar).generate tree <;> simp [h]
      | failure ds s' => simp
      | diverged => simp

/-- A lexical error is located in the source without the white space in front of it. In the
source itself it stands lower by the line ends of that white space and, on the first line, further
to the right by the white space behind them; so the location is that of the source itself if and
only if there is no line end in the white space in front, and no white space at all if the error is
on the first line. -/
theorem compile_locates_error_behind_lead (source : String) (e : LexError)
    (h : compile source = .error (.lex e)) :
    e.LocatedIn (trimChars source.toList) ∧
    ∃ front after, source.toList = lead source.toList ++ front ++ e.reported ++ after ∧
      lineBehind (lead source.toList ++ front) = e.line + (lead source.toList).count '\n' ∧
      columnBehind (lead source.toList ++ front) =
        e.column + (if e.line = 1 then columnBehind (lead source.toList) - 1 else 0) ∧
      (e.IsBehind (lead source.toList ++ front) ↔
        '\n' ∉ lead source.toList ∧ (lead source.toList = [] ∨ 1 < e.line)) := by
  obtain ⟨front, rest, hsource, -, hpoints⟩ :=
    exists_front_of_tokenize (compile_eq_lex_error_iff.1 h)
  obtain ⟨hplace, after, rfl⟩ := hpoints.exists_after
  rw [Text.toList_trim, ← List.append_assoc] at hsource
  obtain ⟨trail, htrail⟩ := Text.exists_trail source.toList
  refine ⟨⟨front, after, hsource, hplace⟩, front, after ++ trail, ?_, ?_, ?_,
    hplace.append_iff _⟩
  · rw [hsource] at htrail
    simpa using htrail
  · rw [Text.lineBehind_behind, hplace.line_eq]
  · rw [hplace.line_eq, hplace.column_eq]
    exact Text.columnBehind_behind _ _

/-- A source behind two empty lines, with an operator that is none. -/
def shiftedSource : String := "\n\n  def f() as int:\n    return 5 % 2"

theorem shiftedSource_location :
    compile shiftedSource = .error (.lex (.unexpected 2 14 '%')) ∧
    ∃ front after,
      shiftedSource.toList = lead shiftedSource.toList ++ front ++ ['%'] ++ after ∧
      lineBehind (lead shiftedSource.toList ++ front) = 4 ∧
      columnBehind (lead shiftedSource.toList ++ front) = 14 := by
  have herror : compile shiftedSource = .error (.lex (.unexpected 2 14 '%')) :=
    compile_eq_lex_error_iff.2 rfl
  obtain ⟨-, front, after, hsource, hline, hcolumn, -⟩ :=
    compile_locates_error_behind_lead shiftedSource _ herror
  exact ⟨herror, front, after, hsource, hline, hcolumn⟩

/-- A number that is too large, behind spaces. -/
def shiftedLiteral : String := "   4294967296"

/-- Neither error is where it says. -/
theorem shifted_errors_misplaced :
    (compile shiftedSource = .error (.lex (.unexpected 2 14 '%')) ∧
      ¬ (LexError.unexpected 2 14 '%').LocatedIn shiftedSource.toList) ∧
    compile shiftedLiteral = .error (.lex (.outOfRange 1 1 "4294967296")) ∧
      ¬ (LexError.outOfRange 1 1 "4294967296").LocatedIn shiftedLiteral.toList := by
  refine ⟨⟨compile_eq_lex_error_iff.2 rfl, ?_⟩, compile_eq_lex_error_iff.2 rfl, ?_⟩
  · decide +kernel
  · decide +kernel

end GrammarCompiler.Naja
