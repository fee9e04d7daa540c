import GrammarCompiler.Proofs.Segmentation
import GrammarCompiler.Text.Position

/-!
Positions of lexemes and of errors. The lexer counts lines and columns as it
goes, by the category of what it has found. The count is right because no
lexeme but a line break holds a line feed, and a line break ends with its only
one; so behind every run of segments the lexer stands at the line and column
that the text of the run tells.

An error is reported at the end of a run that the lexer has found with the bad
text behind it. The run is lexical also without that text, so the source up to
the error is one that the lexer accepts.
-/

namespace GrammarCompiler.Naja

open Text (lineBehind columnBehind)

/-! ### The place behind a run -/

/-- The place has the line and column that the text in front of it tells. -/
structure Place.IsBehind (p : Place) (text : List Char) : Prop where
  line_eq : p.line = lineBehind text
  column_eq : p.column = columnBehind text

theorem Place.isBehind_first : Place.first.IsBehind [] := ⟨rfl, rfl⟩

/-- A line break ends with a line feed, and nothing else holds one. -/
theorem Lexical.lineFeed_cases {lineStart : Bool} {segment : Segment} {rest : List Char}
    (h : Lexical lineStart segment rest) :
    (segment.1 = .newLine ∧ ∃ front, '\n' ∉ front ∧ segment.2 = front ++ ['\n']) ∨
      (segment.1 ≠ .newLine ∧ '\n' ∉ segment.2) := by
  cases h with
  | lineFeed => exact .inl ⟨rfl, [], by decide, rfl⟩
  | carriageReturn => exact .inl ⟨rfl, ['\r'], by decide, rfl⟩
  | tab | indent | space => exact .inr (by decide)
  | punctuation hc =>
      have hmarks : ∀ mark ∈ marks, mark.2 ≠ .newLine ∧ '\n' ∉ [mark.1] := by decide
      exact .inr (hmarks _ hc)
  | intLiteral _ hdigits _ _ =>
      refine .inr ⟨nofun, fun hmem => ?_⟩
      have hfeed := hdigits _ hmem
      revert hfeed
      decide
  | word hc hcs _ =>
      refine .inr ⟨wordCategory_ne (by decide) _, fun hmem => ?_⟩
      rcases List.mem_cons.1 hmem with rfl | hmem
      · revert hc
        decide
      · have hfeed := hcs _ hmem
        revert hfeed
        decide

/-- Within a line the lexer counts characters. -/
theorem Place.behind_of_ne {category : Category} (h : category ≠ .newLine) (p : Place)
    (text : List Char) :
    (p.behind category text).line = p.line ∧
      (p.behind category text).column = p.column + text.length := by
  cases category with
  | newLine => exact absurd rfl h
  | _ => exact ⟨rfl, rfl⟩

theorem Place.IsBehind.behind {p : Place} {text : List Char} (h : p.IsBehind text)
    {lineStart : Bool} {segment : Segment} {rest : List Char}
    (hsegment : Lexical lineStart segment rest) :
    (p.behind segment.1 segment.2).IsBehind (text ++ segment.2) := by
  rcases hsegment.lineFeed_cases with ⟨hc, front, hfront, htext⟩ | ⟨hc, htext⟩
  · rw [htext, ← List.append_assoc, hc]
    refine ⟨?_, (Text.columnBehind_newLine _).symm⟩
    rw [Text.lineBehind_newLine, Text.lineBehind_append hfront, ← h.line_eq]
    rfl
  · obtain ⟨hline, hcolumn⟩ := p.behind_of_ne hc segment.2
    constructor
    · rw [hline, h.line_eq, Text.lineBehind_append htext]
    · rw [hcolumn, h.column_eq, Text.columnBehind_append htext]

theorem Place.IsBehind.through {p : Place} {text : List Char} (h : p.IsBehind text)
    {lineStart : Bool} {segments : List Segment} {rest : List Char}
    (hrun : LexicalRun lineStart segments rest) :
    (p.through segments).IsBehind (text ++ segmentsText segments) := by
  induction segments generalizing p text lineStart with
  | nil => simpa [Place.through] using h
  | cons segment segments ih =>
      obtain ⟨hsegment, hrun⟩ := hrun
      rw [segmentsText_cons, ← List.append_assoc]
      exact ih (h.behind hsegment) hrun

/-! ### The lexemes of a source -/

/-- The text of lexemes one behind the other. -/
def lexemesText (ls : List Lexeme) : List Char := ls.flatMap fun l => l.text.toList

@[simp] theorem lexemesText_nil : lexemesText [] = [] := rfl

@[simp] theorem lexemesText_cons (l : Lexeme) (ls : List Lexeme) :
    lexemesText (l :: ls) = l.text.toList ++ lexemesText ls := by
  simp [lexemesText]

@[simp] theorem lexemesText_placed (p : Place) (segments : List Segment) :
    lexemesText (placed p segments) = segmentsText segments := by
  induction segments generalizing p with
  | nil => rfl
  | cons segment segments ih => simp [placed, ih]

/-- Where the lexemes are divided, the segments are. -/
theorem exists_segments_of_placed {p : Place} {segments : List Segment} {before after : List Lexeme}
    (h : placed p segments = before ++ after) :
    ∃ front back, segments = front ++ back ∧ placed p front = before ∧
      placed (p.through front) back = after := by
  induction before generalizing p segments with
  | nil => exact ⟨[], segments, rfl, rfl, h⟩
  | cons l before ih =>
      cases segments with
      | nil => simp [placed] at h
      | cons segment segments =>
          obtain ⟨hhead, htail⟩ := List.cons_eq_cons.1 h
          obtain ⟨front, back, rfl, hfront, hback⟩ := ih htail
          exact ⟨segment :: front, back, rfl, by rw [placed, hhead, hfront], hback⟩

/-! ### Errors -/

theorem scanPlain?_eq_none_of_scan? {lineStart : Bool} {text : List Char}
    (h : scan? lineStart text = none) : scanPlain? text = none := by
  revert h
  fun_cases scan? lineStart text with
  | case1 => rintro ⟨⟩
  | case2 => exact id

/-- What starts no lexeme starts none at the start of a line either, because a space always starts
one. -/
theorem not_lexical_of_scanPlain? {text : List Char} (h : scanPlain? text = none)
    (lineStart : Bool) {segment : Segment} {after : List Char}
    (htext : segment.2 ++ after = text) : ¬ Lexical lineStart segment after := by
  intro hlexical
  have hscan := hlexical.scan?
  rw [htext, scan?_eq_scanPlain?, h] at hscan
  · cases hscan
  · rintro - ⟨rest, rfl⟩
    cases h

theorem isDigit_eq_false_of_scanPlain? {c : Char} {rest : List Char}
    (h : scanPlain? (c :: rest) = none) : c.isDigit = false := by
  refine Bool.eq_false_iff.2 fun hdigit => ?_
  rw [scanPlain?_of_isAlphanum (by simp [Char.isAlphanum, hdigit]), if_pos hdigit] at h
  cases h

/-- A number that is scanned takes all digits. -/
theorem digits_of_scan? {lineStart : Bool} {text : List Char} {piece : Scanned}
    (h : scan? lineStart text = some piece) (hc : piece.category = .intLiteral) :
    piece.text ≠ [] ∧ (∀ c ∈ piece.text, c.isDigit = true) ∧
      EndsBefore Char.isDigit piece.rest := by
  have hplain : scanPlain? text = some piece := by
    revert h
    fun_cases scan? lineStart text with
    | case1 =>
        rintro ⟨⟩
        cases hc
    | case2 => exact id
  revert hplain
  fun_cases scanPlain? text with
  | case1 | case9 => rintro ⟨⟩
  | case2 | case3 | case4 | case5 =>
      rintro ⟨⟩
      cases hc
  | case6 c rest hbreak hline htab hblank category hcategory =>
      rintro ⟨⟩
      have hmem := Category.ofPunctuation?_eq_some_iff.1 hcategory
      exact absurd hc (category_ne_of_mem_marks hmem (by decide))
  | case7 c rest hbreak hline htab hblank hcategory hdigit =>
      rintro ⟨⟩
      refine ⟨List.cons_ne_nil _ _, ?_, endsBefore_dropWhile _ _⟩
      exact List.forall_mem_cons.2 ⟨hdigit, forall_mem_takeWhile _ _⟩
  | case8 =>
      rintro ⟨⟩
      rw [Category.ofWord_eq_wordCategory] at hc
      exact absurd hc (wordCategory_ne (by decide) _)

/-- The error is right about a source that reads `front` up to the error and `rest` from there
on. A character is unexpected where no lexeme starts; a number is out of range with all its
digits. -/
def LexError.PointsAt (front rest : List Char) : LexError → Prop
  | .unexpected line column found =>
    line = lineBehind front ∧ column = columnBehind front ∧ rest.head? = some found ∧
      found.isDigit = false ∧
      ∀ lineStart segment after, segment.2 ++ after = rest → ¬ Lexical lineStart segment after
  | .outOfRange line column literal =>
    line = lineBehind front ∧ column = columnBehind front ∧
      literal.toList ≠ [] ∧ (∀ c ∈ literal.toList, c.isDigit = true) ∧
      UInt32.size ≤ decimalValue literal.toList ∧
      ∃ after, rest = literal.toList ++ after ∧ EndsBefore Char.isDigit after

theorem Stops.pointsAt {p : Place} {rest : List Char} {e : LexError}
    (h : Stops p rest (some e)) {front : List Char} (hp : p.IsBehind front) :
    e.PointsAt front rest := by
  cases h with
  | unexpected hscan =>
      have hplain := scanPlain?_eq_none_of_scan? hscan
      exact ⟨hp.line_eq, hp.column_eq, rfl, isDigit_eq_false_of_scanPlain? hplain,
        fun lineStart _ _ htext => not_lexical_of_scanPlain? hplain lineStart htext⟩
  | @outOfRange _ piece hscan hrange =>
      obtain ⟨hc, hlarge⟩ :
          piece.category = .intLiteral ∧ maxLiteral < decimalValue piece.text := by
        simpa [Scanned.isOutOfRange] using hrange
      obtain ⟨hne, hdigits, hends⟩ := digits_of_scan? hscan hc
      refine ⟨hp.line_eq, hp.column_eq, ?_⟩
      rw [String.toList_ofList]
      exact ⟨hne, hdigits, hlarge, piece.rest, (append_of_scan? hscan).symm, hends⟩

theorem exists_front_of_tokenize {source : String} {e : LexError}
    (h : tokenize source = .error e) :
    ∃ front rest, source.toList = front ++ rest ∧
      (∃ s, tokenize (String.ofList front) = .ok s) ∧ e.PointsAt front rest := by
  obtain ⟨segments, rest, stop, hsource, hrun, hstop, hlexemes⟩ :=
    exists_run_of_lexemesFrom (p := .first) (Nat.le_refl source.toList.length)
  rw [tokenize, lexemes, hlexemes] at h
  cases stop with
  | none => cases h
  | some e' =>
      obtain rfl : e' = e := by simpa using h
      have hfront : Segmentation (segmentsText segments) segments :=
        segmentation_iff_run.2
          ⟨rfl, LexicalRun.cut (show LexicalRun true segments ([] ++ rest) from hrun)⟩
      refine ⟨segmentsText segments, rest, hsource, ?_, ?_⟩
      · rw [← String.toList_ofList (l := segmentsText segments)] at hfront
        exact ⟨_, tokenize_eq_ok_iff.2 ⟨segments, hfront, rfl⟩⟩
      · exact hstop.pointsAt (Place.isBehind_first.through hrun)

/-- The line and column of a lexeme are told by the source in front of it. If the lexer refuses
the source, it accepts the source up to the error, the line and column of the error are told by
it in the same way, and the error is right about what comes next. -/
theorem tokenize_points_at_source (source : String) :
    (∀ s, tokenize source = .ok s → ∀ before l after, s.lexemes = before ++ l :: after →
      source.toList = lexemesText before ++ l.text.toList ++ lexemesText after ∧
      l.line = lineBehind (lexemesText before) ∧ l.column = columnBehind (lexemesText before)) ∧
    ∀ e, tokenize source = .error e →
      ∃ front rest, source.toList = front ++ rest ∧
        (∃ s, tokenize (String.ofList front) = .ok s) ∧ e.PointsAt front rest := by
  refine ⟨fun s hs before l after hlexemes => ?_, fun e => exists_front_of_tokenize⟩
  obtain ⟨segments, hsegments, rfl⟩ := tokenize_eq_ok_iff.1 hs
  obtain ⟨htext, hrun⟩ := segmentation_iff_run.1 hsegments
  obtain ⟨front, back, rfl, rfl, hback⟩ := exists_segments_of_placed hlexemes
  cases back with
  | nil => cases hback
  | cons segment back =>
      obtain ⟨rfl, rfl⟩ := List.cons_eq_cons.1 hback
      have hfront := ((@lexicalRun_append [] front (segment :: back) []).1 hrun).1
      have hplace := Place.isBehind_first.through hfront
      simp only [lexemesText_placed]
      refine ⟨?_, hplace.line_eq, hplace.column_eq⟩
      simp [← htext]

/-- A source with a strange character on its second line. -/
def strangeSource : String := "x\r\n\t9 $y"

/-- The lexemes in front of the last line of the crowded source. -/
def crowdedFront : List Lexeme :=
  [⟨"Tab", "\t", 1, 1⟩, ⟨"Indent", "    ", 1, 2⟩, ⟨"Space", " ", 1, 6⟩,
   ⟨"Identifier", "x9", 1, 7⟩, ⟨"Space", " ", 1, 9⟩, ⟨"IntLiteral", "007", 1, 10⟩,
   ⟨"Identifier", "asx", 1, 13⟩, ⟨"NewLine", "\r\n", 1, 16⟩]

theorem crowdedSource_positions :
    (tokenize crowdedSource = .ok ((Stream.ofLexemes
        (crowdedFront ++ [⟨"As", "as", 2, 1⟩])).skipping insignificantKinds) ∧
      crowdedSource.toList = lexemesText crowdedFront ++ ['a', 's'] ∧
      2 = lineBehind (lexemesText crowdedFront) ∧ 1 = columnBehind (lexemesText crowdedFront)) ∧
    tokenize strangeSource = .error (.unexpected 2 4 '$') ∧
    ∃ front rest, strangeSource.toList = front ++ rest ∧
      (∃ s, tokenize (String.ofList front) = .ok s) ∧
      (LexError.unexpected 2 4 '$').PointsAt front rest := by
  have hcrowded : tokenize crowdedSource = .ok ((Stream.ofLexemes
      (crowdedFront ++ [⟨"As", "as", 2, 1⟩])).skipping insignificantKinds) := rfl
  have hstrange : tokenize strangeSource = .error (.unexpected 2 4 '$') := rfl
  refine ⟨⟨hcrowded, ?_⟩, hstrange, ?_⟩
  · exact (tokenize_points_at_source crowdedSource).1 _ hcrowded crowdedFront _ [] rfl
  · exact (tokenize_points_at_source strangeSource).2 _ hstrange

end GrammarCompiler.Naja
