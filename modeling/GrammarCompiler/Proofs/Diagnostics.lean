import GrammarCompiler.Proofs.Configuration
import GrammarCompiler.Proofs.Invariant

/-!
What a failed parse reports. Diagnostics come up at any depth, and most of
them are lost again: an alternative that matches makes up for those before it,
a repetition ends without a word, and of several alternatives that fail only
the place is told. What is left at the end is one diagnostic, because at every
level a failure has exactly one; and the lexeme that it is about is one that
the parser has seen, which it only does at or behind the cursor that it was
given.

The second part is an invariant of the descent. Successes move the cursor
onward, so that whatever lies ahead of a later cursor lies ahead of the first
one; and a failure names a lexeme ahead, the sentinel, or no lexeme.
-/

namespace GrammarCompiler

namespace Stream

/-- The second stream is the first one with its cursor moved onward, or not moved. -/
structure Onward (s s' : Stream) : Prop where
  same : s' = s.rewind s'.cursor
  cursor_le : s.cursor ≤ s'.cursor

/-- The lexeme is a significant one that lies at the cursor or behind it. -/
def HasAhead (s : Stream) (l : Lexeme) : Prop :=
  ∃ i, s.cursor ≤ i ∧ s.lexemes[i]? = some l ∧ s.isInsignificant l = false

variable {s s' s'' : Stream} {l : Lexeme}

theorem Onward.refl (s : Stream) : s.Onward s := ⟨rfl, Nat.le_refl _⟩

theorem Onward.trans (h : s.Onward s') (h' : s'.Onward s'') : s.Onward s'' where
  same := by
    rw [h'.same, h.same]
    rfl
  cursor_le := Nat.le_trans h.cursor_le h'.cursor_le

theorem onward_nextSignificant (s : Stream) : s.Onward s.nextSignificant.2 :=
  ⟨rfl, Nat.le_add_right _ _⟩

/-- What lies ahead after a move has been ahead before it. -/
theorem HasAhead.of_onward (h : s'.HasAhead l) (hmove : s.Onward s') : s.HasAhead l := by
  obtain ⟨i, hi, hl, hkept⟩ := h
  rw [hmove.same] at hl hkept
  exact ⟨i, Nat.le_trans hmove.cursor_le hi, hl, hkept⟩

theorem hasAhead_of_mem_significant (h : l ∈ s.significant) : s.HasAhead l := by
  obtain ⟨n, hn⟩ := List.mem_iff_getElem?.1 (List.mem_filter.1 h).1
  rw [ahead, List.getElem?_drop] at hn
  exact ⟨s.cursor + n, Nat.le_add_right _ _, hn, isInsignificant_of_mem_significant h⟩

/-- Lookahead shows the sentinel or a lexeme ahead. -/
theorem peekSignificant_cases (s : Stream) :
    s.peekSignificant = .endOfStream ∨ s.HasAhead s.peekSignificant := by
  rw [peekSignificant_eq]
  cases hs : s.significant with
  | nil => exact .inl rfl
  | cons l rest => exact .inr (hasAhead_of_mem_significant (by simp [hs]))

end Stream

namespace Diagnostic

/-! ### Messages -/

/-- A message that names a lexeme shows it, and its place is the end of the message. -/
theorem exists_message_eq {d : Diagnostic} {l : Lexeme} (h : d.lexeme? = some l) :
    ∃ front middle, d.message = front ++ l.render ++ middle ++ l.location := by
  cases d with
  | mismatch rule expected found =>
      obtain rfl := Option.some.inj h
      exact ⟨_, "'", rfl⟩
  | noAlternative name found =>
      obtain rfl := Option.some.inj h
      refine ⟨"Unable to find syntax that matches " ++ name ++ " at ", "", ?_⟩
      rw [String.append_empty]
      rfl
  | trailing found start =>
      obtain rfl := Option.some.inj h
      exact ⟨"Unexpected ", " after the end of " ++ start, by rw [← String.append_assoc]; rfl⟩
  | _ => cases h

/-- The diagnostic says why the parse failed, and a lexeme that it names is the sentinel or lies
ahead of the stream. -/
structure Founded (s : Stream) (d : Diagnostic) : Prop where
  explained : ∀ start, d ≠ .unexplained start
  ahead : ∀ l, d.lexeme? = some l → l = .endOfStream ∨ s.HasAhead l

theorem Founded.of_lexeme?_eq_none {s : Stream} {d : Diagnostic} (h : d.lexeme? = none)
    (hexplained : ∀ start, d ≠ .unexplained start) : d.Founded s :=
  ⟨hexplained, fun _ hl => nomatch h.symm.trans hl⟩

theorem Founded.of_onward {s s' : Stream} {d : Diagnostic} (h : d.Founded s')
    (hmove : s.Onward s') : d.Founded s :=
  ⟨h.explained, fun l hl => (h.ahead l hl).imp id fun hahead => hahead.of_onward hmove⟩

/-- Lookahead is all that diagnostics get their lexemes from. -/
theorem founded_of_peek {s : Stream} {d : Diagnostic} (h : d.lexeme? = some s.peekSignificant)
    (hexplained : ∀ start, d ≠ .unexplained start) : d.Founded s := by
  refine ⟨hexplained, fun l hl => ?_⟩
  obtain rfl : s.peekSignificant = l := Option.some.inj (h.symm.trans hl)
  exact s.peekSignificant_cases

end Diagnostic

namespace Grammar

open Diagnostic

variable {g : Grammar}

/-! ### The invariant -/

/-- There is one diagnostic, and it is founded on the stream. -/
def FailsFounded (s : Stream) (ds : List Diagnostic) : Prop := ∃ d, ds = [d] ∧ d.Founded s

theorem invariant_founded :
    Descent.Invariant g (fun s _ s' => s.Onward s') FailsFounded where
  nil := .refl
  append h h' := h.trans h'
  leaf {s} _ _ := s.onward_nextSignificant
  node _ h := h
  repetition _ h := h
  mismatch {s _} _ _ _ _ :=
    ⟨_, rfl, founded_of_peek (congrArg some s.fst_nextSignificant) nofun⟩
  undefined _ _ := ⟨_, rfl, .of_lexeme?_eq_none rfl nofun⟩
  endOfFile _ _ := ⟨_, rfl, .of_lexeme?_eq_none rfl nofun⟩
  noAlternative _ _ := ⟨_, rfl, founded_of_peek rfl nofun⟩
  later hmove h := by
    obtain ⟨d, rfl, hd⟩ := h
    exact ⟨d, rfl, hd.of_onward hmove⟩

/-! ### Parses -/

theorem parseAt_failsFounded {levels : Nat} {s s' : Stream} {ds : List Diagnostic}
    (h : g.parseAt levels s = .failure ds s') : FailsFounded s ds := by
  rcases parseAt_failure_cases h with
    ⟨e, -, rfl, -⟩ | ⟨rule, d, hstart, ho, rfl, -⟩ | ⟨rule, ts, hstart, ho, -, rfl⟩
  · exact ⟨_, rfl, .of_lexeme?_eq_none rfl nofun⟩
  · have hobeys := matchRule_start_obeys invariant_founded hstart levels s
    rwa [ho] at hobeys
  · -- The start symbol has matched, and what is left lies ahead of where the parse began.
    have hobeys := matchRule_start_obeys invariant_founded hstart levels s
    rw [ho] at hobeys
    have hleft : (trailing s'.peekSignificant g.start).Founded s' := founded_of_peek rfl nofun
    exact ⟨_, rfl, hleft.of_onward hobeys⟩

/-- A parse that fails has exactly one diagnostic, which says why. If it names a lexeme, then this
is the sentinel or a significant lexeme at or behind the cursor from which the parse began, and
the message shows it and ends in its place. -/
theorem failed_parse_has_one_diagnostic (g : Grammar) (s s' : Stream) (ds : List Diagnostic)
    (h : g.parse s = .failure ds s') :
    ∃ d, ds = [d] ∧ (∀ start, d ≠ .unexplained start) ∧
      ∀ l, d.lexeme? = some l →
        (l = .endOfStream ∨ ∃ i, s.cursor ≤ i ∧ s.lexemes[i]? = some l ∧
          s.isInsignificant l = false) ∧
        ∃ front middle, d.message = front ++ l.render ++ middle ++ l.location := by
  obtain ⟨d, rfl, hd⟩ := parseAt_failsFounded h
  exact ⟨d, rfl, hd.explained, fun l hl => ⟨hd.ahead l hl, exists_message_eq hl⟩⟩

/-- A block whose last word is followed by a comma, read from behind another block. -/
def commaBlock : Stream :=
  ((Stream.ofLexemes
    [⟨"Open", "(", 1, 1⟩, ⟨"Close", ")", 1, 2⟩, ⟨"Space", " ", 1, 3⟩, ⟨"Open", "(", 2, 1⟩,
     ⟨"Word", "a", 2, 2⟩, ⟨"Space", " ", 2, 3⟩, ⟨"Comma", ",", 2, 4⟩,
     ⟨"Close", ")", 2, 5⟩]).skipping ["Space"]).rewind 2

/-- The alternatives that have failed at the comma are forgotten, and the end of the block is
missed there. -/
theorem blocks_miss_close_at_comma :
    ∃ ds s', blocks.parse commaBlock = .failure ds s' ∧ ∃ d, ds = [d] ∧
      d.message = "Error parsing at rule block for token 'Close', got lexeme 'Comma<,>'"
        ++ " at line 2, column 4" ∧
      ∃ i, commaBlock.cursor ≤ i ∧ commaBlock.lexemes[i]? = some ⟨"Comma", ",", 2, 4⟩ := by
  have hfail : blocks.parse commaBlock =
      .failure [.mismatch "block" "Close" ⟨"Comma", ",", 2, 4⟩] commaBlock := by decide +kernel
  obtain ⟨d, hd, -, hlexeme⟩ := failed_parse_has_one_diagnostic blocks commaBlock _ _ hfail
  obtain rfl := List.singleton_inj.1 hd
  obtain ⟨hend | ⟨i, hi, hl, -⟩, -⟩ := hlexeme _ rfl
  · exact absurd hend (by decide)
  · exact ⟨_, _, hfail, _, rfl, by decide +kernel, i, hi, hl⟩

end Grammar

end GrammarCompiler
