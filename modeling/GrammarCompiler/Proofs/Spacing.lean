import GrammarCompiler.Proofs.Generation
import GrammarCompiler.Proofs.Positions

/-!
Spaces within a line. More spaces between two lexemes leave all other lexemes
as they are: no lexeme but an indent holds a space, so none of those in front
can grow into the new spaces, and those behind do not look back further than
to what stands on their line. The parser passes over spaces and takes no
notice of lines and columns, hence the same tree and the same code.

There is one exception, at the start of a line. Three spaces there are three
spaces, and a fourth makes an indent of them; so spaces may be added to those
that open a line only as long as there are fewer than four.
-/

namespace GrammarCompiler.Naja

open Grammar

/-! ### Runs with more spaces in them -/

theorem EndsBefore.widen {isPart : Char → Bool} (hspace : isPart ' ' = false)
    {front back : List Char} (h : EndsBefore isPart (front ++ back)) (n : Nat) :
    EndsBefore isPart (front ++ (List.replicate n ' ' ++ back)) := by
  cases front with
  | cons c front => exact h
  | nil =>
      cases n with
      | zero => exact h
      | succ n =>
          rintro c ⟨⟩
          exact hspace

/-- More spaces behind a segment, or further behind, can only make an indent of a space. -/
theorem Lexical.widen {lineStart : Bool} {segment : Segment} {front back : List Char}
    (h : Lexical lineStart segment (front ++ back)) {n : Nat}
    (hspaces : segment = (.space, [' ']) → lineStart = true →
      ¬ fourSpaces <+: ' ' :: (front ++ (List.replicate n ' ' ++ back))) :
    Lexical lineStart segment (front ++ (List.replicate n ' ' ++ back)) := by
  cases h with
  | lineFeed => exact .lineFeed
  | carriageReturn => exact .carriageReturn
  | tab => exact .tab
  | indent => exact .indent
  | space _ => exact .space (hspaces rfl)
  | punctuation hc => exact .punctuation hc
  | intLiteral hne hdigits hrest hlt =>
      exact .intLiteral hne hdigits (hrest.widen (by decide) n) hlt
  | word hc hcs hrest => exact .word hc hcs (hrest.widen (by decide) n)

/-- Spaces that are not at the start of a line. -/
theorem lexicalRun_spaces {segments : List Segment} {rest : List Char}
    (h : LexicalRun false segments rest) (n : Nat) :
    LexicalRun false (List.replicate n (.space, [' ']) ++ segments) rest := by
  induction n with
  | zero => exact h
  | succ n ih => exact ⟨.space nofun, ih⟩

theorem segmentsText_spaces (n : Nat) :
    segmentsText (List.replicate n (.space, [' '])) = List.replicate n ' ' := by
  induction n with
  | zero => rfl
  | succ n ih =>
      rw [List.replicate_succ, segmentsText_cons, ih, List.replicate_succ]
      rfl

theorem Segmentation.widen {source : List Char} {front back : List Segment}
    (h : Segmentation source (front ++ back)) (hline : atLineStart front = false) {n : Nat}
    (hspaces : ∀ before after, front = before ++ (.space, [' ']) :: after →
      atLineStart before = true → ¬ fourSpaces <+:
        ' ' :: (segmentsText after ++ (List.replicate n ' ' ++ segmentsText back))) :
    Segmentation (segmentsText front ++ List.replicate n ' ' ++ segmentsText back)
      (front ++ (List.replicate n (.space, [' ']) ++ back)) := by
  obtain ⟨-, hrun⟩ := segmentation_iff_run.1 h
  obtain ⟨hfront, hback⟩ := (@lexicalRun_append [] front back []).1 hrun
  rw [List.nil_append, hline] at hback
  have hwide : LexicalRun true front (List.replicate n ' ' ++ segmentsText back) := by
    rw [List.append_nil] at hfront
    refine (@lexicalRun_iff [] front _).2 fun before segment after heq => ?_
    refine ((@lexicalRun_iff [] front _).1 hfront before segment after heq).widen ?_
    rintro rfl
    exact hspaces before after heq
  refine segmentation_iff_run.2 ⟨?_, (@lexicalRun_append [] front _ []).2 ⟨?_, ?_⟩⟩
  · rw [segmentsText_append, segmentsText_append, segmentsText_spaces, List.append_assoc]
  · rwa [segmentsText_append, segmentsText_spaces, List.append_nil]
  · rw [List.nil_append, hline]
    exact lexicalRun_spaces hback n

/-! ### Lines of lexemes -/

/-- The categories of the lexemes on the last line. -/
def lineKinds (before : List Lexeme) : List String :=
  lastLine (fun kind => kind = Category.newLine.name) (before.map Lexeme.kind)

/-- Some space in front of a place, with nothing but indents and tabs before it on its line, is
the first of four if `n` spaces are put in at the place. -/
def OpensIndent (before : List Lexeme) (n : Nat) (after : List Lexeme) : Prop :=
  ∃ front space back, before = front ++ space :: back ∧ space.kind = Category.space.name ∧
    (∀ kind ∈ lineKinds front, kind ∈ [Category.indent.name, Category.tab.name]) ∧
    fourSpaces <+: lexemesText (space :: back) ++ List.replicate n ' ' ++ lexemesText after

instance decidableOpensIndent (before : List Lexeme) (n : Nat) (after : List Lexeme) :
    Decidable (OpensIndent before n after) :=
  decidable_of_iff
    (∃ i < before.length, before[i]?.map Lexeme.kind = some Category.space.name ∧
      (∀ kind ∈ lineKinds (before.take i), kind ∈ [Category.indent.name, Category.tab.name]) ∧
      fourSpaces <+: lexemesText (before.drop i) ++ List.replicate n ' ' ++ lexemesText after)
    (by
      constructor
      · rintro ⟨i, hi, hkind, hline, hfour⟩
        rw [List.drop_eq_getElem_cons hi] at hfour
        refine ⟨before.take i, before[i], before.drop (i + 1), ?_, ?_, hline, hfour⟩
        · rw [← List.drop_eq_getElem_cons hi, List.take_append_drop]
        · simpa [hi] using hkind
      · rintro ⟨front, space, back, rfl, hkind, hline, hfour⟩
        exact ⟨front.length, by simp, by simp [hkind], by simpa using hline, by simpa using hfour⟩)

theorem lineKinds_placed (p : Place) (segments : List Segment) :
    lineKinds (placed p segments) =
      (lastLine (fun segment => segment.1 = .newLine) segments).map fun segment =>
        segment.1.name := by
  have hkinds : (placed p segments).map Lexeme.kind =
      segments.map fun segment => segment.1.name := by
    induction segments generalizing p with
    | nil => rfl
    | cons segment segments ih => simp [placed, ih]
  rw [lineKinds, hkinds, lastLine, lastLine, ← List.map_reverse, List.takeWhile_map,
    List.map_reverse]
  simp only [Function.comp_def, Category.name_eq_iff]

theorem atLineStart_iff (p : Place) (segments : List Segment) :
    atLineStart segments = true ↔ ∀ kind ∈ lineKinds (placed p segments),
      kind ∈ [Category.indent.name, Category.tab.name] := by
  rw [atLineStart, lineKinds_placed, List.all_eq_true, List.forall_mem_map]
  simp only [List.mem_cons, Category.name_eq_iff, List.not_mem_nil, or_false, Bool.or_eq_true,
    decide_eq_true_eq]

theorem mem_lastLine_append {α : Type} {isBreak : α → Bool} {front back : List α} {a : α}
    (h : a ∈ lastLine isBreak (front ++ back)) : a ∈ lastLine isBreak front ∨ a ∈ back := by
  rw [lastLine, List.mem_reverse, List.reverse_append, List.takeWhile_append] at h
  split at h
  · rcases List.mem_append.1 h with hback | hfront
    · exact .inr (List.mem_reverse.1 hback)
    · exact .inl (List.mem_reverse.2 hfront)
  · exact .inr (List.mem_reverse.1 ((List.takeWhile_prefix _).subset h))

theorem not_fourSpaces_of_not_opensIndent {p q : Place} {front back : List Segment} {n : Nat}
    (h : ¬ OpensIndent (placed p front) n (placed q back)) {before after : List Segment}
    (heq : front = before ++ (.space, [' ']) :: after) (hstart : atLineStart before = true) :
    ¬ fourSpaces <+:
      ' ' :: (segmentsText after ++ (List.replicate n ' ' ++ segmentsText back)) := by
  intro hrun
  have hplaced := placed_append p before ((.space, [' ']) :: after)
  rw [← heq, placed] at hplaced
  refine h ⟨placed p before, _, _, hplaced, rfl, (atLineStart_iff p before).1 hstart, ?_⟩
  simpa using hrun

/-! ### Lines that no indent can open -/

theorem Lexical.exists_ne_space {lineStart : Bool} {segment : Segment} {rest : List Char}
    (h : Lexical lineStart segment rest) (hindent : segment.1 ≠ .indent)
    (hspace : segment.1 ≠ .space) : ∃ c ∈ segment.2, c ≠ ' ' := by
  cases h with
  | lineFeed | carriageReturn | tab => exact ⟨_, List.mem_cons_self, by decide⟩
  | indent => exact absurd rfl hindent
  | space _ => exact absurd rfl hspace
  | punctuation hc =>
      have hmarks : ∀ mark ∈ marks, mark.1 ≠ ' ' := by decide
      exact ⟨_, List.mem_singleton_self _, hmarks _ hc⟩
  | intLiteral hne hdigits _ _ =>
      obtain ⟨c, hc⟩ := List.exists_mem_of_ne_nil _ hne
      have hdigit := hdigits c hc
      exact ⟨c, hc, by rintro rfl; revert hdigit; decide⟩
  | word hc _ _ => exact ⟨_, List.mem_cons_self, by rintro rfl; revert hc; decide⟩

theorem Lexical.of_space {lineStart : Bool} {segment : Segment} {rest : List Char}
    (h : Lexical lineStart segment rest) (hc : segment.1 = .space) :
    segment.2 = [' '] ∧ (lineStart = true → ¬ fourSpaces <+: ' ' :: rest) := by
  cases h with
  | lineFeed | carriageReturn | tab | indent | intLiteral => cases hc
  | space hspaces => exact ⟨rfl, hspaces⟩
  | punctuation hp => exact absurd hc (category_ne_of_mem_marks hp (by decide))
  | word _ _ _ => exact absurd hc (wordCategory_ne (by decide) _)

/-- Behind something that is no space it does not matter what follows. -/
theorem fourSpaces_of_append {front back : List Char} (h : fourSpaces <+: front ++ back)
    (hfront : ∃ c ∈ front, c ≠ ' ') : fourSpaces <+: front := by
  rcases List.prefix_or_prefix_of_prefix h (List.prefix_append front back) with hfour | hshort
  · exact hfour
  · obtain ⟨c, hc, hne⟩ := hfront
    have hspaces : ∀ c ∈ fourSpaces, c = ' ' := by simp [fourSpaces]
    exact absurd (hspaces c (hshort.subset hc)) hne

/-- If spaces further behind make an indent of a space, then nothing but spaces stands between. -/
theorem Segmentation.blank_of_fourSpaces {source : List Char} {before more back : List Segment}
    {segment : Segment} (h : Segmentation source (before ++ segment :: (more ++ back)))
    (hspace : segment.1 = .space) (hstart : atLineStart before = true) {text : List Char}
    (hfour : fourSpaces <+: ' ' :: (segmentsText more ++ text)) :
    ∀ other ∈ more, other.1 = .indent ∨ other.1 = .space := by
  intro other hother
  refine Decidable.byContradiction fun hnot => ?_
  obtain ⟨hindent, hne⟩ := not_or.1 hnot
  have hlexical := h.lexical before segment (more ++ back) rfl
  refine (hlexical.of_space hspace).2 hstart ?_
  -- The spaces come to an end within `more`, so they are four without the text.
  have hmore : fourSpaces <+: ' ' :: segmentsText more := by
    refine fourSpaces_of_append (show fourSpaces <+: ' ' :: segmentsText more ++ text from hfour) ?_
    obtain ⟨first, last, rfl⟩ := List.append_of_mem hother
    obtain ⟨c, hc, hcne⟩ :=
      (h.lexical (before ++ segment :: first) other (last ++ back) (by simp)).exists_ne_space
        hindent hne
    exact ⟨c, by simp [hc], hcne⟩
  rw [segmentsText_append, ← List.cons_append]
  exact hmore.trans (List.prefix_append _ _)

/-- An indent can only open a line that is all indents, tabs and spaces up to the place. -/
theorem OpensIndent.kinds {source : List Char} {p q : Place} {front back : List Segment}
    {n : Nat} (h : OpensIndent (placed p front) n (placed q back))
    (hsource : Segmentation source (front ++ back)) :
    ∀ kind ∈ lineKinds (placed p front),
      kind ∈ [Category.indent.name, Category.tab.name, Category.space.name] := by
  obtain ⟨before, space, more, hbefore, hspace, hstart, hfour⟩ := h
  obtain ⟨before, more, rfl, rfl, hmore⟩ := exists_segments_of_placed hbefore
  cases more with
  | nil => cases hmore
  | cons segment more =>
      obtain ⟨rfl, rfl⟩ := List.cons_eq_cons.1 hmore
      have hcategory : segment.1 = .space := Category.eq_of_name_eq hspace
      rw [List.append_assoc, List.cons_append] at hsource
      have htext := ((hsource.lexical before segment (more ++ back) rfl).of_space hcategory).1
      have hblank := hsource.blank_of_fourSpaces hcategory ((atLineStart_iff p before).2 hstart)
        (by simpa [htext] using hfour)
      rw [lineKinds_placed, List.forall_mem_map] at hstart ⊢
      intro other hother
      simp only [List.mem_cons, List.not_mem_nil, or_false, Category.name_eq_iff] at hstart ⊢
      rcases mem_lastLine_append hother with hother | hother
      · exact (hstart other hother).imp_right .inl
      · rcases List.mem_cons.1 hother with rfl | hother
        · exact .inr (.inr hcategory)
        · exact (hblank other hother).imp_right .inr

/-! ### What the parser sees -/

/-- A tree is made of categories and texts, so it does not depend on where the lexemes stand. -/
theorem accepts_of_map_eq {ls ls' : List Lexeme} {tree : Tree}
    (h : ls.map (fun l => (l.kind, l.text)) = ls'.map fun l => (l.kind, l.text))
    (haccepts : grammar.Accepts ls tree) : grammar.Accepts ls' tree := by
  rw [accepts_iff_exists_derivation] at haccepts ⊢
  obtain ⟨d, hd, rfl, htree⟩ := haccepts
  have hkinds : ls'.map Lexeme.kind = d.lexemes.map Lexeme.kind := by
    simpa [Function.comp_def] using congrArg (List.map Prod.fst) h.symm
  have htexts : ls'.map Lexeme.text = d.lexemes.map Lexeme.text := by
    simpa [Function.comp_def] using congrArg (List.map Prod.snd) h.symm
  obtain ⟨d', hd', hlexemes, htrees⟩ := DerivesSymbol.respell hd ls' hkinds
  exact ⟨d', hd', hlexemes, (htrees htexts).trans htree⟩

theorem map_filter_placed (p : Place) (segments : List Segment) :
    ((placed p segments).filter fun l => l.kind ≠ Category.space.name).map
        (fun l => (l.kind, l.text)) =
      (segments.filter fun segment => segment.1 ≠ .space).map Segment.kindText := by
  induction segments generalizing p with
  | nil => rfl
  | cons segment segments ih =>
      by_cases hspace : segment.1 = .space
      · simpa [placed, hspace] using ih _
      · simpa [placed, hspace, Category.name_eq_iff, Segment.kindText] using ih _

theorem map_significant_of_segmentation {source : String} {segments : List Segment} {s : Stream}
    (hsegments : Segmentation source.toList segments) (hs : tokenize source = .ok s) :
    s.significant.map (fun l => (l.kind, l.text)) =
      (segments.filter fun segment => segment.1 ≠ .space).map Segment.kindText := by
  have hlexemes : s.lexemes = placed .first segments := by
    rw [tokenize_eq_ok_iff.2 ⟨segments, hsegments, rfl⟩] at hs
    rw [← Except.ok.inj hs]
    rfl
  rw [significant_of_tokenize hs, hlexemes, map_filter_placed]

/-- Both sources compile to the same code or neither compiles, and they are parse errors
together. -/
def CompilesAlike (source source' : String) : Prop :=
  (∀ code, compile source = .ok code ↔ compile source' = .ok code) ∧
    ((∃ ds, compile source = .error (.parse ds)) ↔ ∃ ds, compile source' = .error (.parse ds))

theorem compile_eq_ok_iff_parse {source code : String} :
    compile source = .ok code ↔ ∃ tree, parse source = .ok tree ∧ assemble tree = .ok code := by
  rw [compile]
  cases parse source <;> simp

/-- A source that has lexemes has a tree or is a parse error. -/
theorem exists_parse_error_iff {source : String} {s : Stream}
    (hs : tokenize (Text.trim source) = .ok s) :
    (∃ ds, compile source = .error (.parse ds)) ↔ ∀ tree, parse source ≠ .ok tree := by
  have hassemble : ∀ tree ds, assemble tree ≠ .error (.parse ds) := by
    intro tree ds
    rw [assemble]
    cases (Assembly.generator grammar).generate tree <;> simp
  rw [compile, parse, hs]
  simp only [parseStream]
  cases grammar.parse s with
  | success tree s' => simp [hassemble]
  | failure ds s' => simp
  | diverged => simp

theorem compilesAlike_of_significant {source source' : String} {s s' : Stream}
    (hs : tokenize (Text.trim source) = .ok s) (hs' : tokenize (Text.trim source') = .ok s')
    (h : s.significant.map (fun l => (l.kind, l.text)) =
      s'.significant.map fun l => (l.kind, l.text)) : CompilesAlike source source' := by
  have hparse : ∀ tree, parse source = .ok tree ↔ parse source' = .ok tree := by
    intro tree
    rw [parse_eq_ok_iff_accepts hs, parse_eq_ok_iff_accepts hs']
    exact ⟨accepts_of_map_eq h, accepts_of_map_eq h.symm⟩
  constructor
  · intro code
    simp only [compile_eq_ok_iff_parse, hparse]
  · simp only [exists_parse_error_iff hs, exists_parse_error_iff hs', ne_eq, hparse]

/-! ### Sources with more spaces in them -/

/-- The source with `n` spaces more behind its first `offset` characters. -/
def insertSpaces (source : String) (offset n : Nat) : String :=
  String.ofList
    (source.toList.take offset ++ List.replicate n ' ' ++ source.toList.drop offset)

theorem toList_insertSpaces {source : String} {front back : List Char}
    (h : source.toList = front ++ back) (n : Nat) :
    (insertSpaces source front.length n).toList = front ++ List.replicate n ' ' ++ back := by
  simp [insertSpaces, h]

theorem Segmentation.text_ne_nil {source : List Char} {before part after : List Segment}
    (h : Segmentation source (before ++ part ++ after)) (hpart : part ≠ []) :
    segmentsText part ≠ [] := by
  obtain ⟨segment, part, rfl⟩ := List.exists_cons_of_ne_nil hpart
  have hpos := (h.lexical before segment (part ++ after) (by simp)).length_pos
  rw [segmentsText_cons]
  exact fun hnil => List.ne_nil_of_length_pos hpos (List.append_eq_nil_iff.1 hnil).1

theorem trim_insertSpaces {source : String} {front back : List Char}
    (htrim : Text.trim source = source) (h : source.toList = front ++ back)
    (hfront : front ≠ []) (hback : back ≠ []) (n : Nat) :
    Text.trim (insertSpaces source front.length n) = insertSpaces source front.length n := by
  have hchars : Text.trimChars (front ++ back) = front ++ back := by
    rw [← h, ← Text.toList_trim, htrim]
  rw [← String.toList_inj, Text.toList_trim, toList_insertSpaces h]
  exact Text.trimChars_insert hfront hback hchars _

theorem compilesAlike_insertSpaces {source : String} {front back : List Segment}
    (htrim : Text.trim source = source) (hsource : Segmentation source.toList (front ++ back))
    (hback : back ≠ []) (hline : atLineStart front = false) {n : Nat} {p q : Place}
    (h : ¬ OpensIndent (placed p front) n (placed q back)) :
    CompilesAlike source (insertSpaces source (segmentsText front).length n) := by
  have htext : source.toList = segmentsText front ++ segmentsText back := by
    rw [← hsource.text_eq, segmentsText_append]
  have hfront : front ≠ [] := by
    rintro rfl
    cases hline
  have hwide := hsource.widen hline fun before after => not_fourSpaces_of_not_opensIndent h
  rw [← toList_insertSpaces htext] at hwide
  have htrimmed := trim_insertSpaces htrim htext
    (Segmentation.text_ne_nil (show Segmentation _ ([] ++ front ++ back) from hsource) hfront)
    (Segmentation.text_ne_nil (by rwa [List.append_nil]) hback) n
  have hs := tokenize_eq_ok_iff.2 ⟨_, hsource, rfl⟩
  have hs' := tokenize_eq_ok_iff.2 ⟨_, hwide, rfl⟩
  refine compilesAlike_of_significant (by rw [htrim]; exact hs) (by rw [htrimmed]; exact hs') ?_
  rw [map_significant_of_segmentation hsource hs, map_significant_of_segmentation hwide hs']
  simp

/-- Spaces within a line do not matter. They may be put in between two lexemes of a trimmed source
wherever something other than indents and tabs stands in front on the line, unless they make an
indent of the spaces that open the line; and they make none if something other than indents, tabs
and spaces stands there. -/
theorem spaces_within_line_do_not_matter (source : String) (s : Stream)
    (before after : List Lexeme) (htrim : Text.trim source = source)
    (hs : tokenize source = .ok s) (hlexemes : s.lexemes = before ++ after) (hafter : after ≠ [])
    (hline : ∃ kind ∈ lineKinds before, kind ∉ [Category.indent.name, Category.tab.name]) :
    (∀ n, ¬ OpensIndent before n after →
      CompilesAlike source (insertSpaces source (lexemesText before).length n)) ∧
    ((∃ kind ∈ lineKinds before,
        kind ∉ [Category.indent.name, Category.tab.name, Category.space.name]) →
      ∀ n, CompilesAlike source (insertSpaces source (lexemesText before).length n)) := by
  obtain ⟨segments, hsegments, rfl⟩ := tokenize_eq_ok_iff.1 hs
  obtain ⟨front, back, rfl, rfl, rfl⟩ := exists_segments_of_placed hlexemes
  have hback : back ≠ [] := by
    rintro rfl
    exact hafter rfl
  have hstart : atLineStart front = false := by
    obtain ⟨kind, hkind, hnot⟩ := hline
    exact Bool.eq_false_iff.2 fun hstart => hnot ((atLineStart_iff _ _).1 hstart kind hkind)
  have halike : ∀ n,
      ¬ OpensIndent (placed .first front) n (placed (Place.first.through front) back) →
        CompilesAlike source (insertSpaces source (segmentsText front).length n) := by
    intro n h
    exact compilesAlike_insertSpaces htrim hsegments hback hstart h
  rw [lexemesText_placed]
  refine ⟨halike, ?_⟩
  rintro ⟨kind, hkind, hnot⟩ n
  refine halike n fun h => hnot ?_
  exact h.kinds hsegments kind hkind

/-- A tab and a space open the second line. -/
def openedSource : String := "def f as int:\n\t return 8-2"

def openedHead : List Lexeme :=
  [⟨"Def", "def", 1, 1⟩, ⟨"Space", " ", 1, 4⟩, ⟨"Identifier", "f", 1, 5⟩,
   ⟨"Space", " ", 1, 6⟩, ⟨"As", "as", 1, 7⟩, ⟨"Space", " ", 1, 9⟩, ⟨"Int", "int", 1, 10⟩,
   ⟨"Colon", ":", 1, 13⟩, ⟨"NewLine", "\n", 1, 14⟩, ⟨"Tab", "\t", 2, 1⟩, ⟨"Space", " ", 2, 2⟩]

def openedMiddle : List Lexeme :=
  [⟨"Return", "return", 2, 3⟩, ⟨"Space", " ", 2, 9⟩, ⟨"IntLiteral", "8", 2, 10⟩]

def openedTail : List Lexeme := [⟨"Minus", "-", 2, 11⟩, ⟨"IntLiteral", "2", 2, 12⟩]

theorem openedSource_takes_spaces :
    tokenize openedSource =
      .ok ((Stream.ofLexemes (openedHead ++ openedMiddle ++ openedTail)).skipping ["Space"]) ∧
    CompilesAlike openedSource "def f as int:\n\t   return 8-2" ∧
      ∀ n, CompilesAlike openedSource (insertSpaces openedSource 24 n) := by
  have htrim : Text.trim openedSource = openedSource := by decide +kernel
  have hlexemes : tokenize openedSource =
      .ok ((Stream.ofLexemes (openedHead ++ openedMiddle ++ openedTail)).skipping ["Space"]) :=
    eq_ok_of_toOption (by decide +kernel)
  refine ⟨hlexemes, ?_, ?_⟩
  · exact (spaces_within_line_do_not_matter openedSource _ openedHead (openedMiddle ++ openedTail)
      htrim hlexemes rfl (by decide) ⟨"Space", by decide +kernel⟩).1 2 (by decide +kernel)
  · exact (spaces_within_line_do_not_matter openedSource _ (openedHead ++ openedMiddle) openedTail
      htrim hlexemes rfl (by decide) ⟨"Return", by decide +kernel⟩).2
      ⟨"Return", by decide +kernel⟩

/-- Three spaces are no indent. -/
def unindentedSource : String := "def f as int:\n   return 5"

def unindentedHead : List Lexeme :=
  [⟨"Def", "def", 1, 1⟩, ⟨"Space", " ", 1, 4⟩, ⟨"Identifier", "f", 1, 5⟩,
   ⟨"Space", " ", 1, 6⟩, ⟨"As", "as", 1, 7⟩, ⟨"Space", " ", 1, 9⟩, ⟨"Int", "int", 1, 10⟩,
   ⟨"Colon", ":", 1, 13⟩, ⟨"NewLine", "\n", 1, 14⟩, ⟨"Space", " ", 2, 1⟩]

def unindentedTail : List Lexeme :=
  [⟨"Space", " ", 2, 2⟩, ⟨"Space", " ", 2, 3⟩, ⟨"Return", "return", 2, 4⟩,
   ⟨"Space", " ", 2, 10⟩, ⟨"IntLiteral", "5", 2, 11⟩]

/-- One space more, behind the first space of the second line, makes a program of it. -/
theorem unindentedSource_minds_space :
    Text.trim unindentedSource = unindentedSource ∧
    tokenize unindentedSource =
      .ok ((Stream.ofLexemes (unindentedHead ++ unindentedTail)).skipping insignificantKinds) ∧
    (∃ kind ∈ lineKinds unindentedHead, kind ∉ [Category.indent.name, Category.tab.name]) ∧
    ¬ CompilesAlike unindentedSource
      (insertSpaces unindentedSource (lexemesText unindentedHead).length 1) := by
  refine ⟨by decide +kernel, eq_ok_of_toOption (by decide +kernel), ?_, ?_⟩
  · exact ⟨"Space", by decide +kernel⟩
  rintro ⟨hcode, -⟩
  have hnone : (parse unindentedSource).toOption = none := by decide +kernel
  have hsome : (parse (insertSpaces unindentedSource
      (lexemesText unindentedHead).length 1)).toOption.isSome = true := by decide +kernel
  obtain ⟨tree, htree⟩ := Option.isSome_iff_exists.1 hsome
  obtain ⟨p, -, -, hcompile⟩ := exists_compiled_of_parse (eq_ok_of_toOption htree)
  obtain ⟨tree', htree', -⟩ := compile_eq_ok_iff_parse.1 ((hcode _).2 hcompile)
  rw [htree'] at hnone
  cases hnone

end GrammarCompiler.Naja
