import GrammarCompiler.Lexeme.Session
import GrammarCompiler.Proofs.Reading

/-!
Lookahead and reading agree, wherever a session has taken the stream. Reading
on to a significant lexeme is a loop: lexemes are read one by one, and at the
end the sentinel is read over and over. So the loop has an end because the
sentinel is significant; then it stops at the first significant lexeme, which
is what lookahead shows. This is a matter of the stream alone, and holds for a
cursor that lies past the end as well.

That the sentinel stays significant, and that checkpoints keep their meaning,
is a matter of the session. No step does more than to move the cursor, to add
categories to those that are passed over and to take a checkpoint.
-/

namespace GrammarCompiler.Stream

/-- Reading one lexeme after the other up to a significant one gives the lexeme and leaves the
second stream. -/
inductive Seeks : Stream → Lexeme → Stream → Prop where
  | found {s : Stream} : s.isInsignificant s.next.1 = false → Seeks s s.next.1 s.next.2
  | passed {s s' : Stream} {l : Lexeme} :
    s.isInsignificant s.next.1 = true → Seeks s.next.2 l s' → Seeks s l s'

/-- The lexeme is the first significant one from the cursor on, and this is its place. -/
structure FirstSignificant (s : Stream) (i : Nat) (l : Lexeme) : Prop where
  cursor_le : s.cursor ≤ i
  lexeme : s.lexemes[i]? = some l
  significant : s.isInsignificant l = false
  first : ∀ j m, s.cursor ≤ j → j < i → s.lexemes[j]? = some m → s.isInsignificant m = true

/-- Reading on to a significant lexeme has an end. It gives what lookahead shows, and leaves the
cursor one behind the first significant lexeme, or at the end of the stream, or where it was if it
was past the end already. -/
structure ReadsAsShown (s : Stream) : Prop where
  ends : ∀ l s', s.Seeks l s' ↔ s.nextSignificant = (l, s')
  shown : s.nextSignificant.1 = s.peekSignificant
  behind_first : ∀ i l, s.FirstSignificant i l → s.nextSignificant = (l, s.rewind (i + 1))
  at_end : (∀ i l, ¬ s.FirstSignificant i l) →
    s.nextSignificant = (.endOfStream, s.rewind (max s.cursor s.length))

variable {s s' : Stream} {i : Nat} {l m : Lexeme}

/-! ### One lexeme -/

theorem next_of_lexeme (h : s.lexemes[s.cursor]? = some l) :
    s.next = (l, s.rewind (s.cursor + 1)) := by
  rw [next, h]

theorem next_of_end (h : s.lexemes[s.cursor]? = none) : s.next = (.endOfStream, s) := by
  rw [next, h]

theorem ahead_of_lexeme (h : s.lexemes[s.cursor]? = some l) :
    s.ahead = l :: (s.rewind (s.cursor + 1)).ahead := by
  obtain ⟨hlt, rfl⟩ := List.getElem?_eq_some_iff.1 h
  exact List.drop_eq_getElem_cons hlt

theorem ahead_of_end (h : s.lexemes[s.cursor]? = none) : s.ahead = [] :=
  List.drop_eq_nil_iff.2 (List.getElem?_eq_none_iff.1 h)

theorem nextSignificant_of_found (h : s.isInsignificant s.next.1 = false) :
    s.nextSignificant = s.next := by
  cases hl : s.lexemes[s.cursor]? with
  | none =>
      rw [next_of_end hl, nextSignificant, ahead_of_end hl]
      rfl
  | some l =>
      rw [next_of_lexeme hl] at h ⊢
      rw [nextSignificant, ahead_of_lexeme hl, readPast, h]
      rfl

theorem nextSignificant_of_passed (h : s.isInsignificant s.next.1 = true) :
    s.nextSignificant = s.next.2.nextSignificant := by
  cases hl : s.lexemes[s.cursor]? with
  | none => rw [next_of_end hl]
  | some l =>
      rw [next_of_lexeme hl] at h ⊢
      rw [nextSignificant, ahead_of_lexeme hl, readPast, h, nextSignificant]
      simp [Nat.add_assoc, Nat.add_comm 1]

/-! ### Reading on -/

theorem Seeks.nextSignificant_eq (h : s.Seeks l s') : s.nextSignificant = (l, s') := by
  induction h with
  | found hfound => exact nextSignificant_of_found hfound
  | passed hpassed _ ih => rw [nextSignificant_of_passed hpassed, ih]

/-- What is passed over is a lexeme of the stream, and not the sentinel. -/
theorem exists_lexeme_of_passed (hkept : Lexeme.endKind ∉ s.skipped)
    (h : s.isInsignificant s.next.1 = true) :
    ∃ l, s.lexemes[s.cursor]? = some l := by
  cases hl : s.lexemes[s.cursor]? with
  | none =>
      rw [next_of_end hl, isInsignificant_endOfStream hkept] at h
      cases h
  | some l => exact ⟨l, rfl⟩

/-- The loop has an end: as long as it goes on, less and less is ahead. -/
theorem seeks_nextSignificant (s : Stream) (hkept : Lexeme.endKind ∉ s.skipped) :
    s.Seeks s.nextSignificant.1 s.nextSignificant.2 := by
  cases hpassed : s.isInsignificant s.next.1 with
  | false =>
      rw [nextSignificant_of_found hpassed]
      exact .found hpassed
  | true =>
      obtain ⟨l, hl⟩ := exists_lexeme_of_passed hkept hpassed
      have hless : (s.rewind (s.cursor + 1)).ahead.length < s.ahead.length := by
        rw [ahead_of_lexeme hl]
        exact Nat.lt_succ_self _
      rw [nextSignificant_of_passed hpassed]
      apply Seeks.passed hpassed
      rw [next_of_lexeme hl]
      exact seeks_nextSignificant (s.rewind (s.cursor + 1)) hkept
termination_by s.ahead.length

/-! ### The first significant lexeme -/

theorem firstSignificant_iff : s.FirstSignificant i l ↔
    ∃ front back, s.ahead = front ++ l :: back ∧ i = s.cursor + front.length ∧
      (∀ m ∈ front, s.isInsignificant m = true) ∧ s.isInsignificant l = false := by
  have hget : ∀ n, s.ahead[n]? = s.lexemes[s.cursor + n]? := fun n => List.getElem?_drop
  constructor
  · rintro ⟨hle, hl, hsignificant, hfirst⟩
    obtain ⟨n, rfl⟩ := Nat.exists_eq_add_of_le hle
    rw [← hget] at hl
    obtain ⟨hlt, rfl⟩ := List.getElem?_eq_some_iff.1 hl
    refine ⟨s.ahead.take n, s.ahead.drop (n + 1), ?_, ?_, fun m hm => ?_, hsignificant⟩
    · rw [← List.drop_eq_getElem_cons hlt, List.take_append_drop]
    · rw [List.length_take, Nat.min_eq_left (Nat.le_of_lt hlt)]
    · obtain ⟨j, hj⟩ := List.mem_iff_getElem?.1 hm
      have hjn : j < n := by
        obtain ⟨hj', -⟩ := List.getElem?_eq_some_iff.1 hj
        rw [List.length_take] at hj'
        omega
      rw [List.getElem?_take_of_lt hjn, hget] at hj
      exact hfirst _ m (Nat.le_add_right _ _) (Nat.add_lt_add_left hjn _) hj
  · rintro ⟨front, back, hahead, rfl, hfront, hl⟩
    rw [hahead] at hget
    refine ⟨Nat.le_add_right _ _, ?_, hl, fun j m hle hlt hm => ?_⟩
    · rw [← hget]
      simp
    · obtain ⟨n, rfl⟩ := Nat.exists_eq_add_of_le hle
      have hn : n < front.length := by omega
      rw [← hget, List.getElem?_append_left hn] at hm
      exact hfront m (List.mem_of_getElem? hm)

theorem nextSignificant_of_first (h : s.FirstSignificant i l) :
    s.nextSignificant = (l, s.rewind (i + 1)) := by
  obtain ⟨front, back, hahead, rfl, hfront, hl⟩ := firstSignificant_iff.1 h
  rw [nextSignificant, hahead, readPast_append hfront hl]
  rfl

theorem significant_eq_nil_of_none (h : ∀ i l, ¬ s.FirstSignificant i l) : s.significant = [] := by
  cases hs : s.significant with
  | nil => rfl
  | cons l rest =>
      obtain ⟨front, back, hahead, hfront, hl, -⟩ := List.filter_eq_cons_iff.1 hs
      refine absurd (firstSignificant_iff.2 ⟨front, back, hahead, rfl, ?_, ?_⟩) (h _ l)
      · simpa using hfront
      · simpa using hl

theorem nextSignificant_of_none (h : ∀ i l, ¬ s.FirstSignificant i l) :
    s.nextSignificant = (.endOfStream, s.rewind (max s.cursor s.length)) := by
  have hcursor : s.cursor + s.ahead.length = max s.cursor s.length := by
    rw [ahead, List.length_drop, length]
    omega
  rw [nextSignificant_of_nil (significant_eq_nil_of_none h), hcursor]

theorem readsAsShown (hkept : Lexeme.endKind ∉ s.skipped) : s.ReadsAsShown where
  ends l s' := by
    refine ⟨Seeks.nextSignificant_eq, fun h => ?_⟩
    have hseeks := seeks_nextSignificant s hkept
    rwa [h] at hseeks
  shown := fst_nextSignificant s
  behind_first _ _ := nextSignificant_of_first
  at_end := nextSignificant_of_none

/-! ### Sessions -/

/-- The categories that the operations add. -/
def addedBy (ops : List Operation) : List String := ops.flatMap Operation.added

/-- Besides moving the cursor, the way to the second stream has added the categories, and that is
all. -/
structure Extends (s : Stream) (kinds : List String) (s' : Stream) : Prop where
  lexemes_eq : s'.lexemes = s.lexemes
  skipped_eq : s'.skipped = s.skipped ++ kinds

namespace Extends

theorem rewound (s : Stream) (cursor : Nat) : s.Extends [] (s.rewind cursor) where
  lexemes_eq := rfl
  skipped_eq := (List.append_nil _).symm

theorem refl (s : Stream) : s.Extends [] s := rewound s s.cursor

theorem trans {s s' s'' : Stream} {kinds more : List String} (h : s.Extends kinds s')
    (h' : s'.Extends more s'') : s.Extends (kinds ++ more) s'' where
  lexemes_eq := h'.lexemes_eq.trans h.lexemes_eq
  skipped_eq := by rw [h'.skipped_eq, h.skipped_eq, List.append_assoc]

/-- Putting the cursor back undoes all but the categories that have been added. -/
theorem rewind_eq {kinds : List String} (h : s.Extends kinds s') :
    s'.rewind s.cursor = s.skipping kinds := by
  obtain ⟨lexemes, skipped, cursor⟩ := s'
  obtain ⟨rfl, rfl⟩ := h
  rfl

end Extends

theorem extends_next (s : Stream) : s.Extends [] s.next.2 := by
  cases hl : s.lexemes[s.cursor]? with
  | none =>
      rw [next_of_end hl]
      exact .refl s
  | some l =>
      rw [next_of_lexeme hl]
      exact .rewound s (s.cursor + 1)

theorem cursor_next_le (h : s.cursor ≤ s.length) : s.next.2.cursor ≤ s.length := by
  cases hl : s.lexemes[s.cursor]? with
  | none =>
      rw [next_of_end hl]
      exact h
  | some l =>
      rw [next_of_lexeme hl]
      exact (List.getElem?_eq_some_iff.1 hl).1

theorem cursor_nextSignificant_le (h : s.cursor ≤ s.length) :
    s.nextSignificant.2.cursor ≤ s.length := by
  have hahead : s.ahead.length = s.length - s.cursor := List.length_drop
  cases hs : s.significant with
  | nil =>
      rw [nextSignificant_of_nil hs]
      show s.cursor + s.ahead.length ≤ s.length
      omega
  | cons l rest =>
      obtain ⟨n, hn, hread, -⟩ := nextSignificant_of_cons hs
      rw [hread]
      show s.cursor + (n + 1) ≤ s.length
      omega

namespace Session

variable {w : Session}

theorem extends_perform (w : Session) (op : Operation) :
    w.stream.Extends op.added (w.perform op).stream := by
  cases op with
  | next => exact extends_next w.stream
  | nextSignificant => exact .rewound _ _
  | checkpoint => exact .refl _
  | rewind number => exact .rewound _ _
  | rewindForeign cursor => exact .rewound _ _
  | skipping kinds => exact ⟨rfl, rfl⟩

theorem extends_run (w : Session) (ops : List Operation) :
    w.stream.Extends (addedBy ops) (w.run ops).stream := by
  induction ops generalizing w with
  | nil => exact .refl w.stream
  | cons op ops ih => exact (extends_perform w op).trans (ih (w.perform op))

theorem checkpoints_perform (w : Session) (op : Operation) :
    (w.perform op).checkpoints =
      w.checkpoints ++ if op = .checkpoint then [w.stream.cursor] else [] := by
  cases op <;> simp [perform]

/-- The checkpoints of a session stay where they are, and the next one gets the next number. -/
theorem checkpoints_run (w : Session) (ops : List Operation) :
    ∃ more, (w.run ops).checkpoints = w.checkpoints ++ more ∧
      more.length = ops.count .checkpoint := by
  induction ops generalizing w with
  | nil => exact ⟨[], (List.append_nil _).symm, rfl⟩
  | cons op ops ih =>
      obtain ⟨more, hmore, hcount⟩ := ih (w.perform op)
      rw [run_cons, hmore, checkpoints_perform, List.append_assoc, List.count_cons]
      refine ⟨_, rfl, ?_⟩
      rw [List.length_append, hcount]
      by_cases hop : op = .checkpoint
      · simp [hop]
        omega
      · simp [hop]

/-- Neither the cursor nor a checkpoint lies past the end. -/
structure Within (w : Session) : Prop where
  cursor_le : w.stream.cursor ≤ w.stream.length
  checkpoints_le : ∀ cursor ∈ w.checkpoints, cursor ≤ w.stream.length

theorem within_start (lexemes : List Lexeme) : (start lexemes).Within where
  cursor_le := Nat.zero_le _
  checkpoints_le _ h := absurd h List.not_mem_nil

theorem Within.perform (h : w.Within) {op : Operation}
    (hop : ∀ cursor, op = .rewindForeign cursor → cursor ≤ w.stream.length) :
    (w.perform op).Within := by
  have hlength : (w.perform op).stream.length = w.stream.length :=
    congrArg List.length (extends_perform w op).lexemes_eq
  constructor
  · rw [hlength]
    cases op with
    | next => exact cursor_next_le h.cursor_le
    | nextSignificant => exact cursor_nextSignificant_le h.cursor_le
    | checkpoint => exact h.cursor_le
    | rewind number =>
        show w.checkpoints[number]?.getD w.stream.cursor ≤ w.stream.length
        cases hc : w.checkpoints[number]? with
        | none => exact h.cursor_le
        | some cursor => exact h.checkpoints_le cursor (List.mem_of_getElem? hc)
    | rewindForeign cursor => exact hop cursor rfl
    | skipping kinds => exact h.cursor_le
  · intro cursor hcursor
    rw [hlength]
    rw [checkpoints_perform, List.mem_append] at hcursor
    rcases hcursor with hold | hnew
    · exact h.checkpoints_le cursor hold
    · split at hnew
      · obtain rfl := List.mem_singleton.1 hnew
        exact h.cursor_le
      · cases hnew

theorem Within.run (h : w.Within) {ops : List Operation}
    (hops : ∀ cursor, .rewindForeign cursor ∈ ops → cursor ≤ w.stream.length) :
    (w.run ops).Within := by
  induction ops generalizing w with
  | nil => exact h
  | cons op ops ih =>
      apply ih (h.perform fun cursor hop => hops cursor (hop ▸ List.mem_cons_self))
      intro cursor hcursor
      rw [length, (extends_perform w op).lexemes_eq]
      exact hops cursor (List.mem_cons_of_mem op hcursor)

/-- Going back to a checkpoint leads to the stream of which it has been taken. -/
theorem stream_perform_rewind (w : Session) (back : List Operation) :
    (((w.perform .checkpoint).run back).perform (.rewind w.checkpoints.length)).stream =
      w.stream.skipping (addedBy back) := by
  obtain ⟨more, hmore, -⟩ := checkpoints_run (w.perform .checkpoint) back
  have hcursor : ((w.perform .checkpoint).run back).checkpoints[w.checkpoints.length]? =
      some w.stream.cursor := by
    rw [hmore, checkpoints_perform, if_pos rfl, List.append_assoc]
    simp
  have hextends := extends_run (w.perform .checkpoint) back
  show ((w.perform .checkpoint).run back).stream.rewind
    (((w.perform .checkpoint).run back).checkpoints[w.checkpoints.length]?.getD _) = _
  rw [hcursor]
  exact hextends.rewind_eq

end Session

/-- Whatever has been done to a stream, as long as the sentinel is not passed over: reading on to a
significant lexeme gives what lookahead shows; the lexemes are those that it began with; the cursor
is not past the end, unless it has been put to a foreign checkpoint past the end; and going back to
a checkpoint undoes everything since, except for the categories that have been added. -/
theorem lookahead_agrees_throughout_session (lexemes : List Lexeme) (ops : List Operation)
    (hkept : Lexeme.endKind ∉ addedBy ops) :
    (after lexemes ops).ReadsAsShown ∧
    (after lexemes ops).lexemes = lexemes ∧
    ((∀ cursor, .rewindForeign cursor ∈ ops → cursor ≤ lexemes.length) →
      (after lexemes ops).cursor ≤ (after lexemes ops).length) ∧
    ∀ front back, ops = front ++ .checkpoint :: back →
      after lexemes (ops ++ [.rewind (front.count .checkpoint)]) =
        (after lexemes front).skipping (addedBy back) := by
  have hextends := Session.extends_run (.start lexemes) ops
  have hskipped : (after lexemes ops).skipped = addedBy ops := hextends.skipped_eq
  refine ⟨readsAsShown (hskipped ▸ hkept), hextends.lexemes_eq, fun hforeign => ?_, ?_⟩
  · exact ((Session.within_start lexemes).run hforeign).cursor_le
  · rintro front back rfl
    obtain ⟨more, hmore, hcount⟩ := Session.checkpoints_run (.start lexemes) front
    have hnumber : ((Session.start lexemes).run front).checkpoints.length =
        front.count .checkpoint := by
      rw [hmore, ← hcount]
      rfl
    rw [after, Session.run_append, Session.run_append, Session.run_cons, ← hnumber]
    exact Session.stream_perform_rewind _ back

/-- A word, and a lexeme of the category of the sentinel, between spaces. -/
def spacedLexemes : List Lexeme :=
  [⟨"Space", " ", 1, 1⟩, ⟨"Word", "a", 1, 2⟩, ⟨"None", "n", 1, 3⟩, ⟨"Space", " ", 1, 4⟩]

/-- Reads on where there is nothing to read, and goes back. -/
def roundTrip : List Operation :=
  [.next, .checkpoint, .skipping ["Space"], .rewindForeign 9, .nextSignificant, .rewind 0,
    .nextSignificant]

theorem spacedLexemes_roundTrip :
    (after spacedLexemes roundTrip).nextSignificant =
      (⟨"None", "n", 1, 3⟩, (after spacedLexemes roundTrip).rewind 3) ∧
    after spacedLexemes (roundTrip ++ [.rewind 0]) =
      (after spacedLexemes [.next]).skipping ["Space"] := by
  obtain ⟨hreads, -, -, hback⟩ :=
    lookahead_agrees_throughout_session spacedLexemes roundTrip (by decide)
  refine ⟨hreads.behind_first 2 _ ⟨by decide, rfl, by decide, fun j m hle hlt _ => ?_⟩, ?_⟩
  · have hcursor : (after spacedLexemes roundTrip).cursor = 2 := by decide
    omega
  · exact hback [.next] _ rfl

end GrammarCompiler.Stream
