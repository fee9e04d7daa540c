import GrammarCompiler.Lexeme.Stream

/-!
What reading does to the significant lexemes of a stream. A reader of
significant lexemes sees a list: the next read takes its head and leaves its
tail, whatever stands between the two in the stream. The cursor itself is of
interest only for progress, and there it is enough to know that a read that
finds a lexeme moves it and shortens what is ahead.
-/

namespace GrammarCompiler.Stream

/-- The sentinel can be told from the lexemes of the stream, and readers do not pass over it. -/
structure Tidy (s : Stream) : Prop where
  no_sentinel : ∀ l ∈ s.lexemes, l.kind ≠ Lexeme.endKind
  sentinel_kept : Lexeme.endKind ∉ s.skipped

theorem Tidy.rewind {s : Stream} (h : s.Tidy) (n : Nat) : (s.rewind n).Tidy where
  no_sentinel := h.no_sentinel
  sentinel_kept := h.sentinel_kept

theorem mem_lexemes_of_mem_significant {s : Stream} {l : Lexeme} (h : l ∈ s.significant) :
    l ∈ s.lexemes :=
  List.mem_of_mem_drop (List.mem_filter.1 h).1

theorem isInsignificant_of_mem_significant {s : Stream} {l : Lexeme} (h : l ∈ s.significant) :
    s.isInsignificant l = false := by
  simpa using (List.mem_filter.1 h).2

theorem isInsignificant_endOfStream {s : Stream} (h : Lexeme.endKind ∉ s.skipped) :
    s.isInsignificant .endOfStream = false := by
  simpa [isInsignificant, Lexeme.endOfStream] using h

theorem Tidy.kind_ne {s : Stream} (h : s.Tidy) {l : Lexeme} {ls : List Lexeme}
    (hl : s.significant = l :: ls) : l.kind ≠ Lexeme.endKind :=
  h.no_sentinel l (mem_lexemes_of_mem_significant (by simp [hl]))

/-! ### Moving the cursor forward -/

theorem ahead_rewind_add (s : Stream) (n : Nat) :
    (s.rewind (s.cursor + n)).ahead = s.ahead.drop n := by
  simp [ahead, List.drop_drop]

theorem significant_rewind_add (s : Stream) (n : Nat) :
    (s.rewind (s.cursor + n)).significant =
      (s.ahead.drop n).filter fun l => !s.isInsignificant l := by
  rw [significant, ahead_rewind_add]
  rfl

theorem ahead_behind_ahead (s : Stream) : (s.rewind (s.cursor + s.ahead.length)).ahead = [] := by
  rw [ahead_rewind_add, List.drop_length]

theorem significant_behind_ahead (s : Stream) :
    (s.rewind (s.cursor + s.ahead.length)).significant = [] := by
  rw [significant, ahead_behind_ahead]
  rfl

/-! ### The next significant lexeme -/

theorem readPast_of_filter_eq_nil {skip : Lexeme → Bool} {ls : List Lexeme}
    (h : (ls.filter fun l => !skip l) = []) :
    readPast skip ls = (.endOfStream, ls.length) := by
  induction ls with
  | nil => rfl
  | cons l ls ih =>
      cases hl : skip l with
      | false => simp [hl] at h
      | true =>
          have hls : (ls.filter fun l => !skip l) = [] := by simpa [hl] using h
          simp [readPast, hl, ih hls]

theorem readPast_of_filter_eq_cons {skip : Lexeme → Bool} {ls rest : List Lexeme} {l : Lexeme}
    (h : (ls.filter fun l => !skip l) = l :: rest) :
    ∃ n < ls.length, readPast skip ls = (l, n + 1) ∧
      ((ls.drop (n + 1)).filter fun l => !skip l) = rest := by
  induction ls with
  | nil => simp at h
  | cons x ls ih =>
      cases hx : skip x with
      | false =>
          obtain ⟨rfl, hrest⟩ : x = l ∧ (ls.filter fun l => !skip l) = rest := by
            simpa [hx] using h
          exact ⟨0, by simp, by simp [readPast, hx], by simpa using hrest⟩
      | true =>
          have hls : (ls.filter fun l => !skip l) = l :: rest := by simpa [hx] using h
          obtain ⟨n, hn, hread, hrest⟩ := ih hls
          exact ⟨n + 1, by simpa using hn, by simp [readPast, hx, hread], by simpa using hrest⟩

theorem readPast_append {skip : Lexeme → Bool} {front : List Lexeme} {l : Lexeme}
    (hfront : ∀ x ∈ front, skip x = true) (hl : skip l = false) (back : List Lexeme) :
    readPast skip (front ++ l :: back) = (l, front.length + 1) := by
  induction front with
  | nil => simp [readPast, hl]
  | cons x front ih =>
      obtain ⟨hx, hfront⟩ := List.forall_mem_cons.1 hfront
      simp [readPast, hx, ih hfront]

/-- At the end a read gives the sentinel, and nothing is ahead any more. -/
theorem nextSignificant_of_nil {s : Stream} (h : s.significant = []) :
    s.nextSignificant = (.endOfStream, s.rewind (s.cursor + s.ahead.length)) := by
  have hread : readPast s.isInsignificant s.ahead = (.endOfStream, s.ahead.length) :=
    readPast_of_filter_eq_nil h
  simp only [nextSignificant, hread]

/-- A read takes the head of the significant lexemes and leaves their tail. -/
theorem nextSignificant_of_cons {s : Stream} {l : Lexeme} {rest : List Lexeme}
    (h : s.significant = l :: rest) :
    ∃ n < s.ahead.length, s.nextSignificant = (l, s.rewind (s.cursor + (n + 1))) ∧
      (s.rewind (s.cursor + (n + 1))).significant = rest := by
  obtain ⟨n, hn, hread, hrest⟩ := readPast_of_filter_eq_cons h
  refine ⟨n, hn, ?_, ?_⟩
  · simp only [nextSignificant, hread]
  · rw [significant_rewind_add]
    exact hrest

theorem peekSignificant_eq (s : Stream) :
    s.peekSignificant = s.significant.head?.getD .endOfStream := by
  rw [peekSignificant, significant, List.head?_filter]

/-- Lookahead shows the sentinel exactly where no significant lexeme is left. -/
theorem isEnd_peekSignificant_iff {s : Stream} (h : s.Tidy) :
    s.peekSignificant.isEnd = true ↔ s.significant = [] := by
  rw [peekSignificant_eq]
  cases hs : s.significant with
  | nil => simp
  | cons l ls => simpa [Lexeme.isEnd_iff] using h.kind_ne hs

/-- A search finds nothing insignificant but the sentinel. -/
theorem isInsignificant_endOfStream_of_next {s : Stream}
    (h : s.isInsignificant s.nextSignificant.1 = true) :
    s.isInsignificant .endOfStream = true := by
  cases hs : s.significant with
  | nil =>
      rw [nextSignificant_of_nil hs] at h
      exact h
  | cons l rest =>
      obtain ⟨n, -, hread, -⟩ := nextSignificant_of_cons hs
      rw [hread, isInsignificant_of_mem_significant (by simp [hs])] at h
      cases h

/-! ### Progress

An attempt that succeeds may leave the cursor where it was. What it must not
do is to move the cursor for nothing, and what counts as something depends on
the argument: the significant lexemes ahead, or all lexemes ahead. -/

/-- The second stream is the first one with its cursor put elsewhere, and there the measure is
less. -/
structure Advance (measure : Stream → Nat) (s s' : Stream) : Prop where
  same : s' = s.rewind s'.cursor
  less : s'.cursor ≠ s.cursor → measure s' < measure s

namespace Advance

variable {measure : Stream → Nat} {s s' s'' : Stream}

theorem refl (s : Stream) : s.Advance measure s := ⟨rfl, fun h => absurd rfl h⟩

theorem eq_of_cursor_eq (h : s.Advance measure s') (hc : s'.cursor = s.cursor) : s' = s := by
  rw [h.same, hc, rewind_cursor]

theorem measure_le (h : s.Advance measure s') : measure s' ≤ measure s := by
  by_cases hc : s'.cursor = s.cursor
  · exact Nat.le_of_eq (by rw [h.eq_of_cursor_eq hc])
  · exact Nat.le_of_lt (h.less hc)

theorem trans (h : s.Advance measure s') (h' : s'.Advance measure s'') :
    s.Advance measure s'' where
  same := by
    rw [h'.same, h.same]
    simp
  less hc := by
    by_cases hm : s'.cursor = s.cursor
    · rw [h.eq_of_cursor_eq hm] at h'
      exact h'.less hc
    · exact Nat.lt_of_le_of_lt h'.measure_le (h.less hm)

theorem tidy (h : s.Advance measure s') (hs : s.Tidy) : s'.Tidy := by
  rw [h.same]
  exact hs.rewind _

end Advance

end GrammarCompiler.Stream
