import GrammarCompiler.Proofs.Lexing

/-!
The lexer cuts a source as the lexical rules do, and the rules leave it no
choice. The rules judge a segment with all the text behind it in view, so a
run of segments is described here together with what follows it; this is what
allows a run to be cut short or to be continued without a second look at the
segments in it.

The lexer keeps one bit about the line it is on. The rules speak of the
segments in front on the same line instead. That the bit is the answer to
their question is shown once, segment by segment (`atLineStart_concat`), and
the rest of the development uses whichever is at hand.
-/

namespace GrammarCompiler.Naja

/-! ### Texts and lines of segments -/

@[simp] theorem segmentsText_nil : segmentsText [] = [] := rfl

@[simp] theorem segmentsText_cons (segment : Segment) (segments : List Segment) :
    segmentsText (segment :: segments) = segment.2 ++ segmentsText segments := by
  simp [segmentsText]

@[simp] theorem segmentsText_append (front back : List Segment) :
    segmentsText (front ++ back) = segmentsText front ++ segmentsText back := by
  simp [segmentsText]

theorem lastLine_concat {α : Type} (isBreak : α → Bool) (before : List α) (a : α) :
    lastLine isBreak (before ++ [a]) =
      if isBreak a = true then [] else lastLine isBreak before ++ [a] := by
  cases h : isBreak a <;> simp [lastLine, h]

/-- Whether all in front of the place behind a segment on its line is indents and tabs. -/
def lineStartBehind (lineStart : Bool) : Category → Bool
  | .newLine => true
  | .indent | .tab => lineStart
  | _ => false

theorem atLineStart_concat (before : List Segment) (segment : Segment) :
    atLineStart (before ++ [segment]) = lineStartBehind (atLineStart before) segment.1 := by
  obtain ⟨category, text⟩ := segment
  cases category <;> simp [atLineStart, lastLine_concat, lineStartBehind]

/-! ### Runs of segments -/

/-- The segments are lexical one behind the other, with `rest` behind the last one. -/
def LexicalRun : Bool → List Segment → List Char → Prop
  | _, [], _ => True
  | lineStart, segment :: segments, rest =>
    Lexical lineStart segment (segmentsText segments ++ rest) ∧
      LexicalRun (lineStartBehind lineStart segment.1) segments rest

/-- What follows a segment matters only up to where the text is cut. -/
theorem Lexical.cut {lineStart : Bool} {segment : Segment} {rest behind : List Char}
    (h : Lexical lineStart segment (rest ++ behind)) : Lexical lineStart segment rest := by
  have hends : ∀ {isPart}, EndsBefore isPart (rest ++ behind) → EndsBefore isPart rest := by
    intro isPart hends c hc
    exact hends c (by simp [Option.mem_def.1 hc])
  cases h with
  | lineFeed => exact .lineFeed
  | carriageReturn => exact .carriageReturn
  | tab => exact .tab
  | indent => exact .indent
  | space hspaces =>
      exact .space fun hstart hrun => hspaces hstart (hrun.trans (List.prefix_append _ _))
  | punctuation hc => exact .punctuation hc
  | intLiteral hne hdigits hrest hlt => exact .intLiteral hne hdigits (hends hrest) hlt
  | word hc hcs hrest => exact .word hc hcs (hends hrest)

theorem LexicalRun.cut {lineStart : Bool} {segments : List Segment} {rest behind : List Char}
    (h : LexicalRun lineStart segments (rest ++ behind)) : LexicalRun lineStart segments rest := by
  induction segments generalizing lineStart with
  | nil => trivial
  | cons segment segments ih =>
      obtain ⟨hsegment, hrun⟩ := h
      rw [← List.append_assoc] at hsegment
      exact ⟨hsegment.cut, ih hrun⟩

/-- Two runs one behind the other. What the second has in front of it on its line begins with
what the first has. -/
theorem lexicalRun_append {before front back : List Segment} {rest : List Char} :
    LexicalRun (atLineStart before) (front ++ back) rest ↔
      LexicalRun (atLineStart before) front (segmentsText back ++ rest) ∧
        LexicalRun (atLineStart (before ++ front)) back rest := by
  induction front generalizing before with
  | nil => simp [LexicalRun]
  | cons segment front ih =>
      rw [List.cons_append, LexicalRun, LexicalRun, ← atLineStart_concat, ih, segmentsText_append,
        List.append_assoc, List.append_assoc, and_assoc]
      rfl

/-- The segments of a run are lexical where they stand, and this is all that a run is. -/
theorem lexicalRun_iff {front segments : List Segment} {rest : List Char} :
    LexicalRun (atLineStart front) segments rest ↔
      ∀ before segment after, segments = before ++ segment :: after →
        Lexical (atLineStart (front ++ before)) segment (segmentsText after ++ rest) := by
  induction segments generalizing front with
  | nil => simp [LexicalRun]
  | cons head tail ih =>
      rw [LexicalRun, ← atLineStart_concat, ih]
      constructor
      · rintro ⟨hhead, htail⟩ before segment after heq
        cases before with
        | nil =>
            obtain ⟨rfl, rfl⟩ : head = segment ∧ tail = after := by simpa using heq
            simpa using hhead
        | cons first before =>
            obtain ⟨rfl, htl⟩ : head = first ∧ tail = before ++ segment :: after := by
              simpa using heq
            simpa using htail before segment after htl
      · intro hall
        refine ⟨by simpa using hall [] head tail rfl, fun before segment after heq => ?_⟩
        simpa using hall (head :: before) segment after (by simp [heq])

theorem segmentation_iff_run {source : List Char} {segments : List Segment} :
    Segmentation source segments ↔
      segmentsText segments = source ∧ LexicalRun true segments [] := by
  have hrun := @lexicalRun_iff [] segments []
  simp only [List.nil_append, List.append_nil] at hrun
  constructor
  · intro h
    exact ⟨h.text_eq, hrun.2 h.lexical⟩
  · rintro ⟨htext, h⟩
    exact ⟨htext, hrun.1 h⟩

/-! ### The lexer finds the segment that is lexical -/

theorem not_isWordPart_of_mem_marks {c : Char} {category : Category} (h : (c, category) ∈ marks) :
    isWordPart c = false := by
  have hmarks : ∀ mark ∈ marks, isWordPart mark.1 = false := by decide
  exact hmarks _ h

theorem takeWhile_append_of_endsBefore {isPart : Char → Bool} {text rest : List Char}
    (htext : ∀ c ∈ text, isPart c = true) (hrest : EndsBefore isPart rest) :
    (text ++ rest).takeWhile isPart = text := by
  rw [List.takeWhile_append_of_pos htext]
  cases rest with
  | nil => simp
  | cons c rest => simp [hrest c rfl]

theorem dropWhile_append_of_endsBefore {isPart : Char → Bool} {text rest : List Char}
    (htext : ∀ c ∈ text, isPart c = true) (hrest : EndsBefore isPart rest) :
    (text ++ rest).dropWhile isPart = rest := by
  rw [List.dropWhile_append_of_pos htext]
  cases rest with
  | nil => rfl
  | cons c rest => simp [hrest c rfl]

theorem not_isDigit_of_isAlpha {c : Char} (h : c.isAlpha = true) : ¬ c.isDigit = true := by
  delta Char.isAlpha Char.isUpper Char.isLower at h
  simp only [Char.isDigit, Bool.or_eq_true, Bool.and_eq_true, decide_eq_true_eq, ge_iff_le,
    UInt32.le_iff_toNat_le] at h ⊢
  have hnine : '9'.val.toNat = 57 := rfl
  have hupper : 'A'.val.toNat = 65 := rfl
  have hlower : 'a'.val.toNat = 97 := rfl
  omega

/-- A letter or digit is none of the characters that the lexer looks for first. -/
theorem scanPlain?_of_isAlphanum {c : Char} (h : c.isAlphanum = true) (rest : List Char) :
    scanPlain? (c :: rest) =
      if c.isDigit then
        some ⟨.intLiteral, c :: rest.takeWhile Char.isDigit, rest.dropWhile Char.isDigit⟩
      else
        some ⟨wordCategory (String.ofList (c :: rest.takeWhile isWordPart)),
          c :: rest.takeWhile isWordPart, rest.dropWhile isWordPart⟩ := by
  have hpunctuation : Category.ofPunctuation? c = none := by
    refine Option.eq_none_iff_forall_ne_some.2 fun category hc => ?_
    have hpart := not_isWordPart_of_mem_marks (Category.ofPunctuation?_eq_some_iff.1 hc)
    simp [isWordPart, h] at hpart
  have hne : ∀ d, d.isAlphanum = false → c ≠ d := by
    rintro d hd rfl
    rw [h] at hd
    cases hd
  have hletter : c.isDigit = false → c.isAlpha = true := by
    intro hd
    simpa [Char.isAlphanum, hd] using h
  rw [scanPlain?.eq_def]
  split
  · contradiction
  · next heq => exact absurd (List.head_eq_of_cons_eq heq) (hne '\r' (by decide))
  · next heq =>
    obtain ⟨rfl, rfl⟩ := List.cons_eq_cons.1 heq
    rw [if_neg (hne '\n' (by decide)), if_neg (hne '\t' (by decide)), if_neg (hne ' ' (by decide)),
      hpunctuation]
    cases hd : c.isDigit with
    | true => simp
    | false => simp [hletter hd, Category.ofWord_eq_wordCategory]

theorem scan?_eq_scanPlain? {lineStart : Bool} {text : List Char}
    (h : lineStart = true → ¬ fourSpaces <+: text) : scan? lineStart text = scanPlain? text := by
  fun_cases scan? lineStart text with
  | case1 rest => exact absurd ⟨rest, rfl⟩ (h rfl)
  | case2 => rfl

theorem scan?_of_isAlphanum {c : Char} (h : c.isAlphanum = true) (lineStart : Bool)
    (rest : List Char) : scan? lineStart (c :: rest) = scanPlain? (c :: rest) := by
  refine scan?_eq_scanPlain? fun _ hspaces => ?_
  obtain rfl : ' ' = c := (List.cons_prefix_cons.1 hspaces).1
  revert h
  decide

theorem Lexical.scan? {lineStart : Bool} {segment : Segment} {rest : List Char}
    (h : Lexical lineStart segment rest) :
    Naja.scan? lineStart (segment.2 ++ rest) = some ⟨segment.1, segment.2, rest⟩ := by
  cases h with
  | lineFeed | carriageReturn | tab => cases lineStart <;> rfl
  | indent => rfl
  | space hspaces => exact scan?_eq_scanPlain? hspaces
  | @punctuation lineStart c category rest hc =>
      replace hc := Category.ofPunctuation?_eq_some_iff.2 hc
      revert hc
      fun_cases Category.ofPunctuation? c <;> rintro ⟨⟩ <;> cases lineStart <;> rfl
  | @intLiteral lineStart digits rest hne hdigits hrest hlt =>
      obtain ⟨c, cs, rfl⟩ := List.exists_cons_of_ne_nil hne
      obtain ⟨hc, hcs⟩ := List.forall_mem_cons.1 hdigits
      have halnum : c.isAlphanum = true := by simp [Char.isAlphanum, hc]
      rw [List.cons_append, scan?_of_isAlphanum halnum, scanPlain?_of_isAlphanum halnum, if_pos hc,
        takeWhile_append_of_endsBefore hcs hrest, dropWhile_append_of_endsBefore hcs hrest]
  | @word lineStart c cs rest hc hcs hrest =>
      have halnum : c.isAlphanum = true := by simp [Char.isAlphanum, hc]
      rw [List.cons_append, scan?_of_isAlphanum halnum, scanPlain?_of_isAlphanum halnum,
        if_neg (not_isDigit_of_isAlpha hc), takeWhile_append_of_endsBefore hcs hrest,
        dropWhile_append_of_endsBefore hcs hrest]

theorem Lexical.isOutOfRange_eq {lineStart : Bool} {segment : Segment} {rest : List Char}
    (h : Lexical lineStart segment rest) :
    (⟨segment.1, segment.2, rest⟩ : Scanned).isOutOfRange = false := by
  by_cases hc : segment.1 = .intLiteral
  · cases h with
    | lineFeed | carriageReturn | tab | indent | space => cases hc
    | punctuation hp => exact absurd hc (category_ne_of_mem_marks hp (by decide))
    | intLiteral _ _ _ hlt =>
        have hle : _ ≤ maxLiteral := Nat.le_of_lt_succ hlt
        simp [Scanned.isOutOfRange, hle]
    | word _ _ _ => exact absurd hc (wordCategory_ne (by decide) _)
  · simp [Scanned.isOutOfRange, hc]

theorem Lexical.length_pos {lineStart : Bool} {segment : Segment} {rest : List Char}
    (h : Lexical lineStart segment rest) : 0 < segment.2.length := by
  cases h with
  | lineFeed | carriageReturn | tab | indent | space | punctuation | word =>
      exact Nat.zero_lt_succ _
  | intLiteral hne _ _ _ => exact List.length_pos_iff.2 hne

/-- Scanning loses nothing. -/
theorem append_of_scan? {lineStart : Bool} {text : List Char} {piece : Scanned}
    (h : scan? lineStart text = some piece) : piece.text ++ piece.rest = text := by
  have hplain : ∀ {text piece}, scanPlain? text = some piece →
      piece.text ++ piece.rest = text := by
    intro text piece h
    revert h
    fun_cases scanPlain? text with
    | case1 | case9 => rintro ⟨⟩
    | case2 | case3 | case4 | case5 | case6 =>
        rintro ⟨⟩
        rfl
    | case7 | case8 =>
        rintro ⟨⟩
        rw [List.cons_append, List.takeWhile_append_dropWhile]
  revert h
  fun_cases scan? lineStart text with
  | case1 rest =>
      rintro ⟨⟩
      rfl
  | case2 => exact hplain

/-! ### The lexemes of a run -/

/-- The lexemes of segments, the first of which starts at the place. -/
def placed : Place → List Segment → List Lexeme
  | _, [] => []
  | p, segment :: segments =>
    ⟨segment.1.name, String.ofList segment.2, p.line, p.column⟩ ::
      placed (p.behind segment.1 segment.2) segments

/-- The place behind segments, the first of which starts at `p`. -/
def Place.through : Place → List Segment → Place
  | p, [] => p
  | p, segment :: segments => (p.behind segment.1 segment.2).through segments

theorem placed_append (p : Place) (front back : List Segment) :
    placed p (front ++ back) = placed p front ++ placed (p.through front) back := by
  induction front generalizing p with
  | nil => rfl
  | cons segment front ih =>
      rw [List.cons_append, placed, placed, ih]
      rfl

@[simp] theorem Place.lineStart_behind (p : Place) (category : Category) (text : List Char) :
    (p.behind category text).lineStart = lineStartBehind p.lineStart category := by
  cases category <;> rfl

/-- The category and the text of a lexeme, as those of a segment are written. -/
def Segment.kindText (segment : Segment) : String × String :=
  (segment.1.name, String.ofList segment.2)

theorem eq_of_map_kindText {segments segments' : List Segment}
    (h : segments.map Segment.kindText = segments'.map Segment.kindText) :
    segments = segments' := by
  refine (List.map_inj_right ?_).1 h
  intro segment segment' heq
  obtain ⟨hname, htext⟩ := Prod.mk.inj heq
  exact Prod.ext (Category.eq_of_name_eq hname) (String.ofList_injective htext)

theorem map_kindText_placed (p : Place) (segments : List Segment) :
    (placed p segments).map (fun l => (l.kind, l.text)) = segments.map Segment.kindText := by
  induction segments generalizing p with
  | nil => rfl
  | cons segment segments ih => simp [placed, ih, Segment.kindText]

/-- One step of the lexer. -/
theorem lexemesFrom_of_scan? {p : Place} {text : List Char} {piece : Scanned}
    (hscan : scan? p.lineStart text = some piece) (hrange : piece.isOutOfRange = false)
    (count : Nat) :
    lexemesFrom (count + 1) p text =
      (lexemesFrom count (p.behind piece.category piece.text) piece.rest).map
        (piece.lexeme p :: ·) := by
  cases text with
  | nil =>
      cases hstart : p.lineStart <;> simp [hstart, scan?, scanPlain?] at hscan
  | cons c text =>
      rw [lexemesFrom]
      simp only [hscan, hrange]
      cases lexemesFrom count (p.behind piece.category piece.text) piece.rest <;> rfl

/-- The lexer passes over a run, because it finds each segment where the run has it. -/
theorem lexemesFrom_run {p : Place} {segments : List Segment}
    (h : LexicalRun p.lineStart segments []) {count : Nat}
    (hcount : (segmentsText segments).length ≤ count) :
    lexemesFrom count p (segmentsText segments) = .ok (placed p segments) := by
  induction segments generalizing p count with
  | nil => cases count <;> rfl
  | cons segment segments ih =>
      obtain ⟨hsegment, hrun⟩ := h
      rw [List.append_nil] at hsegment
      rw [segmentsText_cons, List.length_append] at hcount
      have hpos := hsegment.length_pos
      cases count with
      | zero => omega
      | succ count =>
          rw [segmentsText_cons, lexemesFrom_of_scan? hsegment.scan? hsegment.isOutOfRange_eq,
            ih (by simpa using hrun) (by omega)]
          rfl

/-- What the lexer meets behind the last segment that it finds: the end, or an error. -/
inductive Stops (p : Place) : List Char → Option LexError → Prop where
  | atEnd : Stops p [] none
  | unexpected {c : Char} {rest : List Char} : scan? p.lineStart (c :: rest) = none →
    Stops p (c :: rest) (some (.unexpected p.line p.column c))
  | outOfRange {text : List Char} {piece : Scanned} : scan? p.lineStart text = some piece →
    piece.isOutOfRange = true →
      Stops p text (some (.outOfRange p.line p.column (String.ofList piece.text)))

/-- The lexer finds a run of segments and stops behind it. -/
theorem exists_run_of_lexemesFrom {count : Nat} {p : Place} {text : List Char}
    (hcount : text.length ≤ count) :
    ∃ segments rest stop, text = segmentsText segments ++ rest ∧
      LexicalRun p.lineStart segments rest ∧ Stops (p.through segments) rest stop ∧
      lexemesFrom count p text = stop.elim (.ok (placed p segments)) .error := by
  induction count generalizing p text with
  | zero =>
      obtain rfl : text = [] := List.length_eq_zero_iff.1 (Nat.le_zero.1 hcount)
      exact ⟨[], [], none, rfl, trivial, .atEnd, rfl⟩
  | succ count ih =>
      cases text with
      | nil => exact ⟨[], [], none, rfl, trivial, .atEnd, rfl⟩
      | cons c text =>
          cases hscan : scan? p.lineStart (c :: text) with
          | none =>
              refine ⟨[], c :: text, _, rfl, trivial, .unexpected hscan, ?_⟩
              simp [lexemesFrom, hscan, Place.through]
          | some piece =>
              cases hrange : piece.isOutOfRange with
              | true =>
                  refine ⟨[], c :: text, _, rfl, trivial, .outOfRange hscan hrange, ?_⟩
                  simp [lexemesFrom, hscan, hrange, Place.through]
              | false =>
                  have hlexical := lexical_of_scan? hscan hrange
                  have hsplit := append_of_scan? hscan
                  -- No piece is empty, so that the count suffices for the text behind it.
                  have hpos : 0 < piece.text.length := hlexical.length_pos
                  have hlength := congrArg List.length hsplit
                  rw [List.length_append] at hlength
                  simp only [List.length_cons] at hlength hcount
                  obtain ⟨segments, rest, stop, hrest, hrun, hstop, hlexemes⟩ :=
                    @ih (p.behind piece.category piece.text) piece.rest (by omega)
                  refine ⟨(piece.category, piece.text) :: segments, rest, stop, ?_, ⟨?_, ?_⟩,
                    hstop, ?_⟩
                  · rw [segmentsText_cons, List.append_assoc, ← hrest, hsplit]
                  · rwa [← hrest]
                  · simpa using hrun
                  · rw [lexemesFrom_of_scan? hscan hrange, hlexemes]
                    cases stop <;> rfl

theorem lexemes_eq_ok_iff {source : List Char} {ls : List Lexeme} :
    lexemes source = .ok ls ↔
      ∃ segments, Segmentation source segments ∧ ls = placed .first segments := by
  constructor
  · intro h
    obtain ⟨segments, rest, stop, hsource, hrun, hstop, hlexemes⟩ :=
      exists_run_of_lexemesFrom (p := .first) (Nat.le_refl source.length)
    rw [lexemes, hlexemes] at h
    cases hstop with
    | unexpected | outOfRange => cases h
    | atEnd =>
        rw [List.append_nil] at hsource
        exact ⟨segments, segmentation_iff_run.2 ⟨hsource.symm, hrun⟩, (Except.ok.inj h).symm⟩
  · rintro ⟨segments, hsegments, rfl⟩
    obtain ⟨rfl, hrun⟩ := segmentation_iff_run.1 hsegments
    exact lexemesFrom_run hrun (Nat.le_refl _)

theorem Segmentation.unique {source : List Char} {segments segments' : List Segment}
    (h : Segmentation source segments) (h' : Segmentation source segments') :
    segments = segments' := by
  have hlexemes := lexemes_eq_ok_iff.2 ⟨segments, h, rfl⟩
  have hlexemes' := lexemes_eq_ok_iff.2 ⟨segments', h', rfl⟩
  have hplaced := Except.ok.inj (hlexemes.symm.trans hlexemes')
  refine eq_of_map_kindText ?_
  rw [← map_kindText_placed, hplaced, map_kindText_placed]

theorem Segmentation.isLexemeChar {source : List Char} {segments : List Segment}
    (h : Segmentation source segments) : ∀ c ∈ source, isLexemeChar c = true := by
  intro c hc
  rw [← h.text_eq, segmentsText] at hc
  obtain ⟨segment, hsegment, hmem⟩ := List.mem_flatMap.1 hc
  obtain ⟨before, after, hsegments⟩ := List.append_of_mem hsegment
  exact (h.lexical before segment after hsegments).isLexemeChar c hmem

theorem tokenize_eq_ok_iff {source : String} {s : Stream} :
    tokenize source = .ok s ↔ ∃ segments, Segmentation source.toList segments ∧
      s = (Stream.ofLexemes (placed .first segments)).skipping insignificantKinds := by
  rw [tokenize]
  constructor
  · intro h
    cases hls : lexemes source.toList with
    | error e => simp [hls] at h
    | ok ls =>
        obtain ⟨segments, hsegments, rfl⟩ := lexemes_eq_ok_iff.1 hls
        rw [hls] at h
        exact ⟨segments, hsegments, (Except.ok.inj h).symm⟩
  · rintro ⟨segments, hsegments, rfl⟩
    rw [lexemes_eq_ok_iff.2 ⟨segments, hsegments, rfl⟩]

/-- The lexer gives the lexemes of a source, with their categories and texts, exactly if they are
a segmentation of it by the lexical rules; and no source has two segmentations. -/
theorem tokenize_gives_segmentation (source : String) (segments : List Segment) :
    ((∃ s, tokenize source = .ok s ∧
      s.lexemes.map (fun l => (l.kind, l.text)) = segments.map Segment.kindText) ↔
        Segmentation source.toList segments) ∧
    ∀ segments', Segmentation source.toList segments → Segmentation source.toList segments' →
      segments = segments' := by
  refine ⟨⟨?_, ?_⟩, fun _ => Segmentation.unique⟩
  · rintro ⟨s, hs, hkinds⟩
    obtain ⟨found, hfound, rfl⟩ := tokenize_eq_ok_iff.1 hs
    have hmap : found.map Segment.kindText = segments.map Segment.kindText :=
      (map_kindText_placed .first found).symm.trans hkinds
    rwa [← eq_of_map_kindText hmap]
  · intro h
    exact ⟨_, tokenize_eq_ok_iff.2 ⟨segments, h, rfl⟩, map_kindText_placed .first segments⟩

/-- Blanks of all kinds at the start of a line, and numbers and words without blanks between
them. -/
def crowdedSource : String := "\t     x9 007asx\r\nas"

/-- The fifth space is no part of an indent, and only the last word is a keyword. -/
def crowdedSegments : List Segment :=
  [(.tab, ['\t']), (.indent, fourSpaces), (.space, [' ']), (.identifier, ['x', '9']),
   (.space, [' ']), (.intLiteral, ['0', '0', '7']), (.identifier, ['a', 's', 'x']),
   (.newLine, ['\r', '\n']), (.asWord, ['a', 's'])]

theorem crowdedSource_segmentation :
    (∃ s, tokenize crowdedSource = .ok s ∧
      s.lexemes.map (fun l => (l.kind, l.text)) = crowdedSegments.map Segment.kindText) ∧
    Segmentation crowdedSource.toList crowdedSegments ∧
      ∀ segments, Segmentation crowdedSource.toList segments → crowdedSegments = segments := by
  have htheorem := tokenize_gives_segmentation crowdedSource crowdedSegments
  have hlexemes : ∃ s, tokenize crowdedSource = .ok s ∧
      s.lexemes.map (fun l => (l.kind, l.text)) = crowdedSegments.map Segment.kindText := by
    refine ⟨_, rfl, ?_⟩
    decide
  have hsegments := htheorem.1.1 hlexemes
  exact ⟨hlexemes, hsegments, fun segments => htheorem.2 segments hsegments⟩

end GrammarCompiler.Naja
