import GrammarCompiler.Proofs.Printing

/-!
Where reading stops. A text is refused at its end if something was read but
more than layout is left over. The reader has then looked beyond the place
where it stopped, at separators that no item follows and at productions that
are not finished; nevertheless the text up to that place is a whole one. For
what was read stands in a front of the text, layout is what lies between that
front and the rest, and a front with layout behind it is read as the same
value, because layout continues nothing.

A grammar is never refused in any other way, and its rest begins neither with
layout nor with a production.
-/

namespace GrammarCompiler.Ebnf

variable {α : Type}

/-! ### The place behind the layout -/

theorem skipLayout_skipLayout (text : List Char) :
    skipLayout (skipLayout text) = skipLayout text := by
  obtain ⟨gap, hgap, heq⟩ := exists_layout text
  have hskip := hgap.skipLayout_append (skipLayout text)
  rw [← heq] at hskip
  exact hskip.symm

/-- Behind the layout there is no more of it. -/
theorem eq_nil_of_skipLayout {text gap rest : List Char} (h : skipLayout text = gap ++ rest)
    (hgap : Layout gap) : gap = [] := by
  have hskip : skipLayout rest = gap ++ rest := by
    rw [← hgap.skipLayout_append, ← h, skipLayout_skipLayout]
  obtain ⟨front, -, heq⟩ := exists_layout rest
  have hlength := congrArg List.length heq
  rw [hskip, List.length_append, List.length_append] at hlength
  exact List.length_eq_zero_iff.1 (by omega)

theorem eq_of_finish_eq_error {value : α} {rest : List Char} {f : Failure}
    (h : finish value rest = .error f) :
    skipLayout rest ≠ [] ∧ f = ⟨.endOfText, skipLayout rest⟩ := by
  rw [finish] at h
  split at h
  · cases h
  · next c left hskip =>
    obtain rfl := Except.error.inj h
    simp [hskip]

/-- What is left over has only layout in front of it. -/
theorem exists_layout_of_finish {value : α} {rest : List Char} {f : Failure}
    (h : finish value rest = .error f) : ∃ gap, Layout gap ∧ rest = gap ++ f.rest := by
  obtain ⟨-, rfl⟩ := eq_of_finish_eq_error h
  exact exists_layout rest

/-! ### Bodies and productions -/

theorem Expr.exists_front_of_parseChars {text : List Char} {f : Failure}
    (h : Expr.parseChars text = .error f) (hend : f.expected = .endOfText) :
    ∃ front e, text = front ++ f.rest ∧ Expr.parseChars front = .ok e := by
  rw [Expr.parseChars] at h
  split at h
  · obtain rfl := Except.error.inj h
    cases hend
  · next e rest hread =>
    obtain ⟨front, hfront, rfl⟩ := readExpr_sound hread
    obtain ⟨gap, hgap, hrest⟩ := exists_layout_of_finish h
    refine ⟨front ++ gap, e, ?_, Expr.parseChars_eq_ok_iff.2 ⟨front, gap, hfront, hgap, rfl⟩⟩
    rw [List.append_assoc, ← hrest]

theorem expected_of_readProduction {text : List Char} {f : Failure}
    (h : readProduction text = .error f) : f.expected = .token := by
  revert h
  fun_cases readProduction text <;> rintro ⟨⟩ <;> rfl

theorem Production.exists_front_of_parseChars {text : List Char} {f : Failure}
    (h : Production.parseChars text = .error f) (hend : f.expected = .endOfText) :
    ∃ front p, text = front ++ f.rest ∧ Production.parseChars front = .ok p := by
  rw [Production.parseChars] at h
  split at h
  · next hread =>
    obtain rfl := Except.error.inj h
    rw [expected_of_readProduction hread] at hend
    cases hend
  · next p rest hread =>
    obtain ⟨front, hfront, rfl⟩ := exists_of_readProduction hread
    obtain ⟨gap, hgap, hrest⟩ := exists_layout_of_finish h
    refine ⟨front ++ gap, p, ?_, Production.parseChars_eq_ok_iff.2 ⟨front, gap, hfront, hgap, rfl⟩⟩
    rw [List.append_assoc, ← hrest]

/-! ### Grammars -/

/-- Reading productions ends because none is read, not because the rounds are used up. -/
theorem readProductions_stops {rounds : Nat} {text last : List Char} {ps : List Production}
    (hrounds : text.length ≤ rounds) (h : readProductions rounds text = (ps, last)) :
    ∃ f, readProduction last = .error f := by
  induction rounds generalizing text ps with
  | zero =>
      obtain ⟨rfl, rfl⟩ := Prod.mk.inj h
      obtain rfl : text = [] := List.length_eq_zero_iff.1 (by omega)
      exact ⟨_, readProduction_layout .nil⟩
  | succ rounds ih =>
      rw [readProductions] at h
      split at h
      · next f hread =>
        obtain ⟨rfl, rfl⟩ := Prod.mk.inj h
        exact ⟨f, hread⟩
      · next p rest hread =>
        obtain ⟨rfl, rfl⟩ := Prod.mk.inj h
        obtain ⟨front, hfront, rfl⟩ := exists_of_readProduction hread
        have hpos := hfront.length_pos
        rw [List.length_append] at hrounds
        exact ih (by omega) rfl

theorem readProduction_skipLayout (text : List Char) :
    readProduction (skipLayout text) = readProduction text := by
  rw [readProduction, skipLayout_skipLayout, ← readProduction]

/-- Productions are read as long as possible, so that the rest does not begin with one. -/
theorem Grammar.exists_front_of_parseChars {text : List Char} {f : Failure}
    (h : Grammar.parseChars text = .error f) :
    (∃ front g, text = front ++ f.rest ∧ Grammar.parseChars front = .ok g) ∧
      ∃ f', readProduction f.rest = .error f' := by
  rw [Grammar.parseChars] at h
  obtain ⟨⟨ps, last⟩, hread⟩ : ∃ found, readProductions text.length text = found := ⟨_, rfl⟩
  rw [hread] at h
  obtain ⟨-, hf⟩ := eq_of_finish_eq_error h
  obtain ⟨gap, hgap, hlast⟩ := exists_layout_of_finish h
  constructor
  · obtain ⟨front, htext, hfront⟩ := exists_of_readProductions hread
    refine ⟨front ++ gap, ⟨ps⟩, ?_, Grammar.parseChars_eq_ok_iff.2 (hfront hgap)⟩
    rw [List.append_assoc, ← hlast]
    exact htext
  · rw [hf, readProduction_skipLayout]
    exact readProductions_stops (Nat.le_refl _) hread

theorem ne_append_of_readProduction {text : List Char} {f : Failure}
    (h : readProduction text = .error f) {p : Production} {front : List Char}
    (hfront : ProductionText p front) (rest : List Char) : text ≠ front ++ rest := by
  rintro rfl
  rw [hfront.read rest] at h
  cases h

/-! ### Refused texts -/

/-- A text that is refused as a grammar is refused for what is left over. It is cut in front of
the rest: what is in front is accepted, and the rest is not empty and begins neither with layout
nor with a production. Whenever a text is refused as a body or as a production for what is left
over, what is in front of that is accepted. -/
theorem leftover_splits_text (text : String) (f : Failure) :
    (Grammar.parse text = .error f →
      f.reason = "Eof near '" ++ String.ofList (f.rest.take 24) ++ "'" ∧ f.rest ≠ [] ∧
      (∃ front : String, text.toList = front.toList ++ f.rest ∧
        ∃ g, Grammar.parse front = .ok g) ∧
      (∀ gap rest, Layout gap → f.rest = gap ++ rest → gap = []) ∧
      (∃ f', readProduction f.rest = .error f') ∧
      ∀ p front rest, ProductionText p front → f.rest ≠ front ++ rest) ∧
    (Expr.parse text = .error f → f.expected = .endOfText →
      ∃ front : String, text.toList = front.toList ++ f.rest ∧ ∃ e, Expr.parse front = .ok e) ∧
    (Production.parse text = .error f → f.expected = .endOfText →
      ∃ front : String, text.toList = front.toList ++ f.rest ∧
        ∃ p, Production.parse front = .ok p) := by
  refine ⟨fun h => ?_, fun h hend => ?_, fun h hend => ?_⟩
  · obtain ⟨⟨front, g, htext, hfront⟩, f', hf'⟩ := Grammar.exists_front_of_parseChars h
    obtain ⟨hne, hf⟩ := eq_of_finish_eq_error h
    refine ⟨?_, ?_, ⟨String.ofList front, ?_, g, ?_⟩, fun gap rest hgap heq => ?_, ⟨f', hf'⟩,
      fun p first rest hp => ne_append_of_readProduction hf' hp rest⟩
    · rw [hf]
      rfl
    · rw [hf]
      exact hne
    · simpa using htext
    · simpa [Grammar.parse] using hfront
    · rw [hf] at heq
      exact eq_nil_of_skipLayout heq hgap
  · obtain ⟨front, e, htext, hfront⟩ := Expr.exists_front_of_parseChars h hend
    exact ⟨String.ofList front, by simpa using htext, e, by simpa [Expr.parse] using hfront⟩
  · obtain ⟨front, p, htext, hfront⟩ := Production.exists_front_of_parseChars h hend
    exact ⟨String.ofList front, by simpa using htext, p, by simpa [Production.parse] using hfront⟩

/-- The failure with which a text was refused. -/
def failure? : Except Failure α → Option Failure
  | .ok _ => none
  | .error f => some f

theorem eq_error_of_failure? {outcome : Except Failure α} {f : Failure}
    (h : failure? outcome = some f) : outcome = .error f := by
  cases outcome with
  | ok value => cases h
  | error f' => rw [Option.some.inj h]

/-- A production that ends in a separator, behind a finished one and a comment. -/
def unfinishedText : String := "a = b ;(* c *) d = \x7b e , ; "

/-- A bar that no alternative follows. -/
def danglingText : String := "a , 'x' (**) | , b"

/-- The text from the second production on. -/
def unfinishedRest : List Char := "d = \x7b e , ; ".toList

theorem unfinishedText_splits :
    (Grammar.parse unfinishedText = .error ⟨.endOfText, unfinishedRest⟩ ∧
      ∃ front : String, unfinishedText.toList = front.toList ++ unfinishedRest ∧
        ∃ g, Grammar.parse front = .ok g) ∧
    (Expr.parse danglingText = .error ⟨.endOfText, ['|', ' ', ',', ' ', 'b']⟩ ∧
      ∃ front : String, danglingText.toList = front.toList ++ ['|', ' ', ',', ' ', 'b'] ∧
        ∃ e, Expr.parse front = .ok e) ∧
    Production.parse unfinishedText = .error ⟨.endOfText, unfinishedRest⟩ ∧
      ∃ front : String, unfinishedText.toList = front.toList ++ unfinishedRest ∧
        ∃ p, Production.parse front = .ok p := by
  have hgrammar : Grammar.parse unfinishedText = .error ⟨.endOfText, unfinishedRest⟩ :=
    eq_error_of_failure? (by decide +kernel)
  have hbody : Expr.parse danglingText = .error ⟨.endOfText, ['|', ' ', ',', ' ', 'b']⟩ :=
    eq_error_of_failure? (by decide +kernel)
  have hproduction : Production.parse unfinishedText = .error ⟨.endOfText, unfinishedRest⟩ :=
    eq_error_of_failure? (by decide +kernel)
  refine ⟨⟨hgrammar, ?_⟩, ⟨hbody, ?_⟩, hproduction, ?_⟩
  · exact ((leftover_splits_text _ _).1 hgrammar).2.2.1
  · exact (leftover_splits_text _ _).2.1 hbody rfl
  · exact (leftover_splits_text _ _).2.2 hproduction rfl

end GrammarCompiler.Ebnf
