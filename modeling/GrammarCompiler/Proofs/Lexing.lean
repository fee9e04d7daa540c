import GrammarCompiler.Naja.Segmentation
import GrammarCompiler.Proofs.Reading

/-!
What is known of every lexeme of a source text. The lexer is compared with the
lexical rules piece by piece: a scanned piece is lexical where it stands. What
later stages need of a lexeme follows from the rule that it falls under, and
not from how the lexer found it.
-/

namespace GrammarCompiler.Naja

/-! ### Scanned pieces -/

theorem endsBefore_dropWhile (isPart : Char → Bool) (text : List Char) :
    EndsBefore isPart (text.dropWhile isPart) := by
  intro c hc
  have hnot := List.head?_dropWhile_not isPart text
  rw [hc] at hnot
  simpa using hnot

theorem forall_mem_takeWhile (isPart : Char → Bool) (text : List Char) :
    ∀ c ∈ text.takeWhile isPart, isPart c = true :=
  List.all_eq_true.1 List.all_takeWhile

/-- The lexer knows the marks. -/
theorem Category.ofPunctuation?_eq_some_iff {c : Char} {category : Category} :
    ofPunctuation? c = some category ↔ (c, category) ∈ marks := by
  constructor
  · fun_cases ofPunctuation? c <;> rintro ⟨⟩ <;> decide
  · intro hmem
    have hmarks : ∀ mark ∈ marks, ofPunctuation? mark.1 = some mark.2 := by decide
    exact hmarks _ hmem

/-- The lexer knows the keywords. -/
theorem Category.ofWord_eq_wordCategory (word : String) : ofWord word = wordCategory word := by
  fun_cases ofWord word with
  | case6 word hdef has hint hreturn hnot =>
      have hlookup : keywords.lookup word = none :=
        List.lookup_eq_none_iff.2 (by simpa [keywords] using ⟨hdef, has, hint, hreturn, hnot⟩)
      rw [wordCategory, hlookup, Option.getD_none]
  | _ => rfl

theorem lexical_of_scanPlain? {lineStart : Bool} {text : List Char} {piece : Scanned}
    (hspaces : lineStart = true → ¬ fourSpaces <+: text) (h : scanPlain? text = some piece)
    (hrange : piece.isOutOfRange = false) :
    Lexical lineStart (piece.category, piece.text) piece.rest := by
  revert h
  fun_cases scanPlain? text with
  | case1 =>
      intro h
      cases h
  | case2 rest =>
      rintro ⟨⟩
      exact .carriageReturn
  | case3 rest =>
      rintro ⟨⟩
      exact .lineFeed
  | case4 rest =>
      rintro ⟨⟩
      exact .tab
  | case5 rest =>
      rintro ⟨⟩
      exact .space hspaces
  | case6 c rest hbreak hline htab hblank category hcategory =>
      rintro ⟨⟩
      exact .punctuation (Category.ofPunctuation?_eq_some_iff.1 hcategory)
  | case7 c rest hbreak hline htab hblank hcategory hdigit =>
      rintro ⟨⟩
      have hle : decimalValue (c :: rest.takeWhile Char.isDigit) ≤ maxLiteral := by
        simpa [Scanned.isOutOfRange] using hrange
      have hlt := Nat.lt_succ_of_le hle
      refine .intLiteral (List.cons_ne_nil _ _) ?_ (endsBefore_dropWhile _ _) hlt
      intro d hd
      rcases List.mem_cons.1 hd with rfl | hd
      · exact hdigit
      · exact forall_mem_takeWhile _ _ d hd
  | case8 c rest hbreak hline htab hblank hcategory hdigit halpha word =>
      rintro ⟨⟩
      rw [Category.ofWord_eq_wordCategory]
      exact .word halpha (forall_mem_takeWhile _ _) (endsBefore_dropWhile _ _)
  | case9 =>
      intro h
      cases h

theorem lexical_of_scan? {lineStart : Bool} {text : List Char} {piece : Scanned}
    (h : scan? lineStart text = some piece) (hrange : piece.isOutOfRange = false) :
    Lexical lineStart (piece.category, piece.text) piece.rest := by
  revert h
  fun_cases scan? lineStart text with
  | case1 rest =>
      rintro ⟨⟩
      exact .indent
  | case2 _ _ hnot =>
      intro h
      refine lexical_of_scanPlain? ?_ h hrange
      rintro hstart ⟨rest, hrest⟩
      exact hnot rest hstart hrest.symm

/-- The characters that lexemes are made of. -/
def isLexemeChar (c : Char) : Bool :=
  isWordPart c || (['\n', '\r', '\t', ' '] ++ marks.map Prod.fst).contains c

theorem Lexical.isLexemeChar {lineStart : Bool} {segment : Segment} {rest : List Char}
    (h : Lexical lineStart segment rest) : ∀ c ∈ segment.2, isLexemeChar c = true := by
  cases h with
  | lineFeed | carriageReturn | tab | indent | space => exact List.all_eq_true.1 rfl
  | punctuation hc =>
      intro c hmem
      obtain rfl := List.mem_singleton.1 hmem
      have hmarks : ∀ mark ∈ marks, Naja.isLexemeChar mark.1 = true := by decide
      exact hmarks _ hc
  | intLiteral _ hdigits _ _ =>
      intro c hmem
      simp [Naja.isLexemeChar, isWordPart, Char.isAlphanum, hdigits c hmem]
  | word halpha hparts _ =>
      intro c hmem
      rcases List.mem_cons.1 hmem with rfl | hmem
      · simp [Naja.isLexemeChar, isWordPart, Char.isAlphanum, halpha]
      · simp [Naja.isLexemeChar, hparts c hmem]

/-- A lexeme that falls under a lexical rule somewhere. -/
def IsLexical (l : Lexeme) : Prop :=
  ∃ lineStart segment rest, Lexical lineStart segment rest ∧ l.kind = segment.1.name ∧
    l.text.toList = segment.2

theorem isLexical_of_mem_lexemesFrom {count : Nat} {p : Place} {text : List Char}
    {ls : List Lexeme} (h : lexemesFrom count p text = .ok ls) {l : Lexeme} (hl : l ∈ ls) :
    IsLexical l := by
  revert h
  fun_induction lexemesFrom count p text generalizing ls with
  | case1 =>
      rintro ⟨⟩
      cases hl
  | case2 =>
      rintro ⟨⟩
      cases hl
  | case3 | case4 | case5 => rintro ⟨⟩
  | case6 count p c text piece hpiece hrange ls' hls' ih =>
      rintro ⟨⟩
      rcases List.mem_cons.1 hl with rfl | hl
      · refine ⟨_, _, _, lexical_of_scan? hpiece (by simpa using hrange), rfl, ?_⟩
        simp [Scanned.lexeme]
      · exact ih hl hls'

/-! ### Identifiers and literals -/

theorem category_ne_of_mem_marks {c : Char} {category other : Category}
    (h : (c, category) ∈ marks) (hother : other ∉ marks.map Prod.snd) : category ≠ other := by
  rintro rfl
  exact hother (List.mem_map_of_mem h)

theorem wordCategory_ne {other : Category} (hother : other ∉ .identifier :: keywords.map Prod.snd)
    (word : String) : wordCategory word ≠ other := by
  have hmem : wordCategory word ∈ .identifier :: keywords.map Prod.snd := by
    rw [← Category.ofWord_eq_wordCategory]
    fun_cases Category.ofWord word <;> decide
  intro heq
  exact hother (heq ▸ hmem)

theorem Lexical.isWordPart_of_identifier {lineStart : Bool} {segment : Segment}
    {rest : List Char} (h : Lexical lineStart segment rest) (hc : segment.1 = .identifier) :
    ∀ c ∈ segment.2, isWordPart c = true := by
  cases h with
  | lineFeed | carriageReturn | tab | indent | space | intLiteral => cases hc
  | punctuation hp => exact absurd hc (category_ne_of_mem_marks hp (by decide))
  | word halpha hparts _ =>
      intro c hmem
      rcases List.mem_cons.1 hmem with rfl | hmem
      · simp [isWordPart, Char.isAlphanum, halpha]
      · exact hparts c hmem

theorem Lexical.isDigit_of_intLiteral {lineStart : Bool} {segment : Segment} {rest : List Char}
    (h : Lexical lineStart segment rest) (hc : segment.1 = .intLiteral) :
    segment.2 ≠ [] ∧ ∀ c ∈ segment.2, c.isDigit = true := by
  cases h with
  | lineFeed | carriageReturn | tab | indent | space => cases hc
  | punctuation hp => exact absurd hc (category_ne_of_mem_marks hp (by decide))
  | intLiteral hne hdigits _ _ => exact ⟨hne, hdigits⟩
  | word _ _ _ => exact absurd hc (wordCategory_ne (by decide) _)

theorem IsLexical.isWordPart {l : Lexeme} (h : IsLexical l)
    (hk : l.kind = Category.identifier.name) : ∀ c ∈ l.text.toList, isWordPart c = true := by
  obtain ⟨lineStart, segment, rest, hlexical, hkind, htext⟩ := h
  rw [htext]
  exact hlexical.isWordPart_of_identifier (Category.eq_of_name_eq (hkind.symm.trans hk))

theorem IsLexical.isDigit {l : Lexeme} (h : IsLexical l)
    (hk : l.kind = Category.intLiteral.name) :
    l.text.toList ≠ [] ∧ ∀ c ∈ l.text.toList, c.isDigit = true := by
  obtain ⟨lineStart, segment, rest, hlexical, hkind, htext⟩ := h
  rw [htext]
  exact hlexical.isDigit_of_intLiteral (Category.eq_of_name_eq (hkind.symm.trans hk))

/-! ### Streams of lexemes -/

theorem exists_lexemes_of_tokenize {source : String} {s : Stream} (h : tokenize source = .ok s) :
    ∃ ls, lexemes source.toList = .ok ls ∧
      s = (Stream.ofLexemes ls).skipping insignificantKinds := by
  rw [tokenize] at h
  cases hls : lexemes source.toList with
  | error e => simp [hls] at h
  | ok ls =>
      rw [hls] at h
      exact ⟨ls, rfl, (Except.ok.inj h).symm⟩

theorem isLexical_of_tokenize {source : String} {s : Stream} (h : tokenize source = .ok s)
    {l : Lexeme} (hl : l ∈ s.lexemes) : IsLexical l := by
  obtain ⟨ls, hls, rfl⟩ := exists_lexemes_of_tokenize h
  exact isLexical_of_mem_lexemesFrom hls hl

theorem Category.name_ne_endKind (c : Category) : c.name ≠ Lexeme.endKind := by
  cases c <;> decide

/-- The categories of the lexer leave the sentinel alone. -/
theorem tidy_of_tokenize {source : String} {s : Stream} (h : tokenize source = .ok s) :
    s.Tidy where
  no_sentinel := by
    intro l hl
    obtain ⟨lineStart, segment, rest, -, hk, -⟩ := isLexical_of_tokenize h hl
    rw [hk]
    exact segment.1.name_ne_endKind
  sentinel_kept := by
    obtain ⟨ls, -, rfl⟩ := exists_lexemes_of_tokenize h
    change Lexeme.endKind ∉ insignificantKinds
    decide

/-- A reader sees all lexemes but spaces. -/
theorem significant_of_tokenize {source : String} {s : Stream} (h : tokenize source = .ok s) :
    s.significant = s.lexemes.filter fun l => l.kind ≠ Category.space.name := by
  obtain ⟨ls, -, rfl⟩ := exists_lexemes_of_tokenize h
  have hkinds : insignificantKinds = [Category.space.name] := rfl
  simp [Stream.significant, Stream.ahead, Stream.isInsignificant, Stream.ofLexemes,
    Stream.skipping, hkinds]

end GrammarCompiler.Naja
