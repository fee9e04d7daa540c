import GrammarCompiler.Parse.Descent
import GrammarCompiler.Grammar.LeftCall
import GrammarCompiler.Proofs.Reading

/-!
The descent comes to an end if no non-terminal can come back to itself where
it stands. A path of the descent goes through non-terminals. As long as the
cursor stays, each of them is a left call of the one before, and a `rank` that
falls along left calls lets only so many of them follow each other; when the
cursor has moved, the rank may rise again, but the cursor can move only so
many times. So `bound` levels for each place that is left, and the rank on
top, are enough.

The one fact about matching that this needs is that a symbol which succeeds
without moving the cursor is nullable. It is proved together with the claim
that nothing diverges: `lost` says what a diverging attempt would mean, and
with `True` for it the statement is about the successes alone.
-/

namespace GrammarCompiler

namespace Stream

/-- The number of times that the cursor can still be moved by a match: past each significant
lexeme, and to the end of the stream. -/
def places (s : Stream) : Nat := s.significant.length + if s.ahead = [] then 0 else 1

theorem places_le (s : Stream) : s.places ≤ s.significant.length + 1 := by
  rw [places]
  split <;> omega

theorem length_ahead_rewind_add (s : Stream) (n : Nat) :
    (s.rewind (s.cursor + n)).ahead.length = s.ahead.length - n := by
  rw [ahead_rewind_add, List.length_drop]

/-- A match moves the cursor to another place or leaves it alone. -/
structure Moves (s s' : Stream) : Prop where
  places : s.Advance Stream.places s'
  ahead : s.Advance (·.ahead.length) s'

namespace Moves

variable {s s' s'' : Stream}

theorem refl (s : Stream) : s.Moves s := ⟨.refl s, .refl s⟩

theorem trans (h : s.Moves s') (h' : s'.Moves s'') : s.Moves s'' :=
  ⟨h.places.trans h'.places, h.ahead.trans h'.ahead⟩

theorem eq_of_cursor_eq (h : s.Moves s') (hc : s'.cursor = s.cursor) : s' = s :=
  h.places.eq_of_cursor_eq hc

/-- If the cursor is back where it was after two moves, it never left. -/
theorem cursor_eq (h : s.Moves s') (h' : s'.Moves s'') (hc : s''.cursor = s.cursor) :
    s'.cursor = s.cursor := by
  refine Decidable.byContradiction fun hne => ?_
  have hlt := h.places.less hne
  have hle := h'.places.measure_le
  rw [(h.trans h').eq_of_cursor_eq hc] at hle
  omega

end Moves

/-- Reading a significant lexeme, or the sentinel, is a move. -/
theorem moves_nextSignificant (s : Stream) : s.Moves s.nextSignificant.2 := by
  cases hs : s.significant with
  | nil =>
      rw [nextSignificant_of_nil hs]
      have hpos : s.cursor + s.ahead.length ≠ s.cursor → s.ahead ≠ [] := by
        intro hc he
        rw [he] at hc
        exact hc rfl
      refine ⟨⟨rfl, fun hc => ?_⟩, ⟨rfl, fun hc => ?_⟩⟩
      · simp [places, hs, ahead_behind_ahead, significant_behind_ahead, hpos hc]
      · rw [ahead_behind_ahead]
        exact List.length_pos_iff.2 (hpos hc)
  | cons l rest =>
      obtain ⟨n, hn, hread, hrest⟩ := nextSignificant_of_cons hs
      rw [hread]
      have hne : s.ahead ≠ [] := by
        intro he
        simp [he] at hn
      refine ⟨⟨rfl, fun _ => ?_⟩, ⟨rfl, fun _ => ?_⟩⟩
      · have hle := places_le (s.rewind (s.cursor + (n + 1)))
        rw [hrest] at hle
        have hs' : s.places = rest.length + 1 + 1 := by simp [places, hs, hne]
        dsimp only
        omega
      · change (s.rewind (s.cursor + (n + 1))).ahead.length < s.ahead.length
        rw [length_ahead_rewind_add]
        omega

end Stream

/-- A success of the attempt on `s` is a move, and `still` holds if the cursor stayed; and if the
attempt has no end, then `lost` holds. -/
def Outcome.Settles (still lost : Prop) (s : Stream) : Outcome (List Tree) → Prop
  | .success _ s' => s.Moves s' ∧ (s'.cursor = s.cursor → still)
  | .failure _ s' => s' = s.rewind s'.cursor
  | .diverged => lost

theorem Outcome.Settles.mono {still still' lost : Prop} {s : Stream} {o : Outcome (List Tree)}
    (h : o.Settles still lost s) (himp : still → still') : o.Settles still' lost s := by
  cases o with
  | success ts s' => exact ⟨h.1, fun hc => himp (h.2 hc)⟩
  | failure ds s' => exact h
  | diverged => exact h

namespace Descent

variable {g : Grammar} {resolve : Resolver} {lost : Prop}

open Grammar (Nullable LeftIn)

/-- Non-terminals that succeed without moving the cursor are nullable. -/
def Resolver.Steady (g : Grammar) (resolve : Resolver) : Prop :=
  ∀ name s, (resolve name s).Settles (Nullable g (.nonTerminal name)) True s

theorem matchTerminal_settles (rule kind : String) (s : Stream)
    (hkept : s.isInsignificant .endOfStream = true → lost) :
    (matchTerminal rule kind s).Settles (Nullable g (.terminal kind)) lost s := by
  have hmoves := Stream.moves_nextSignificant s
  rw [matchTerminal_eq]
  by_cases hfound : s.isInsignificant s.nextSignificant.1 = true
  · rw [if_pos hfound]
    exact hkept (Stream.isInsignificant_endOfStream_of_next hfound)
  by_cases hk : s.nextSignificant.1.kind = kind
  · rw [if_neg hfound, if_pos hk]
    refine ⟨hmoves, fun hc => ?_⟩
    -- Only the sentinel is read without moving.
    cases hs : s.significant with
    | nil =>
        rw [Stream.nextSignificant_of_nil hs] at hk
        rw [← hk]
        exact .sentinel
    | cons l rest =>
        obtain ⟨n, -, hread, -⟩ := Stream.nextSignificant_of_cons hs
        simp only [hread, Stream.cursor_rewind] at hc
        omega
  · rw [if_neg hfound, if_neg hk]
    exact hmoves.places.same

theorem rewound_settles {still : Prop} {s : Stream} {o : Outcome (List Tree)}
    (h : o.Settles still lost s) : (o.rewound s.cursor).Settles still lost s := by
  cases o with
  | success ts s' => exact h
  | diverged => exact h
  | failure ds s' =>
      rw [Outcome.Settles] at h
      rw [Outcome.rewound, Outcome.Settles, h]
      rfl

/-- The non-terminals that the sequence can call come to an end, where it stands and behind, and
so does the search for a lexeme. -/
structure Ready (g : Grammar) (resolve : Resolver) (lost : Prop) (xs : List Symbol)
    (s : Stream) : Prop where
  kept : s.isInsignificant .endOfStream = true → lost
  here : ∀ name, LeftIn g name xs → resolve name s = .diverged → lost
  later : ∀ name s', s.Moves s' → s'.places < s.places → resolve name s' = .diverged → lost

namespace Ready

variable {x : Symbol} {xs ys body : List Symbol} {s s' : Stream}

/-- Where nothing is said about an end, nothing has to come to one. -/
theorem trivially : Ready g resolve True xs s :=
  ⟨fun _ => trivial, fun _ _ _ => trivial, fun _ _ _ _ _ => trivial⟩

theorem head (h : Ready g resolve lost (x :: xs) s) : Ready g resolve lost [x] s where
  kept := h.kept
  here name hl := by
    refine h.here name ?_
    cases hl with
    | here => exact .here
    | inside hl => exact .inside hl
    | behind _ hl => cases hl
  later := h.later

theorem inside (h : Ready g resolve lost [.repetition body] s) :
    Ready g resolve lost body s where
  kept := h.kept
  here name hl := h.here name (.inside hl)
  later := h.later

/-- Behind a move nothing is asked of the sequence any more. -/
theorem after (h : Ready g resolve lost xs s) (hm : s.Moves s') (hc : s'.cursor ≠ s.cursor) :
    Ready g resolve lost ys s' where
  kept := by
    rw [hm.places.same]
    exact h.kept
  here name _ := h.later name s' hm (hm.places.less hc)
  later name s'' hm' hp := by
    refine h.later name s'' (hm.trans hm') ?_
    exact Nat.lt_trans hp (hm.places.less hc)

theorem tail (h : Ready g resolve lost (x :: xs) s) (hm : s.Moves s')
    (hx : s'.cursor = s.cursor → Nullable g x) : Ready g resolve lost xs s' := by
  by_cases hc : s'.cursor = s.cursor
  · rw [hm.eq_of_cursor_eq hc]
    exact ⟨h.kept, fun name hl => h.here name (.behind (hx hc) hl), h.later⟩
  · exact h.after hm hc

end Ready

theorem eq_of_matchSequence_failed {still : Prop} {rule : String} {symbols : List Symbol}
    {s s' : Stream} {ds : List Diagnostic}
    (h : (matchSymbols resolve rule symbols s).Settles still lost s)
    (hf : matchSequence resolve rule symbols s = .failure ds s') : s' = s := by
  refine Outcome.eq_of_rewound_failure (fun ds' s'' ho => ?_) hf
  rw [ho] at h
  exact h

/-- Every round but the last passes a lexeme, so that the lexemes ahead bound the rounds. -/
theorem rounds_settles {label : String} {body : List Symbol}
    (hbody : ∀ s, Ready g resolve lost body s →
      (matchSymbols resolve label body s).Settles (∀ x ∈ body, Nullable g x) lost s)
    (bound : Nat) (s : Stream) (hbound : s.ahead.length < bound)
    (hready : Ready g resolve lost body s) :
    (rounds (matchSequence resolve label body) bound s).Settles True lost s := by
  induction bound generalizing s with
  | zero => omega
  | succ bound ih =>
      have hround : (matchSequence resolve label body s).Settles
          (∀ x ∈ body, Nullable g x) lost s := rewound_settles (hbody s hready)
      rw [rounds]
      cases ho : matchSequence resolve label body s with
      | diverged =>
          rw [ho] at hround
          exact hround
      | failure ds s' =>
          obtain rfl := eq_of_matchSequence_failed (hbody s hready) ho
          exact ⟨.refl _, fun _ => trivial⟩
      | success ts s' =>
          rw [ho] at hround
          obtain ⟨hm, -⟩ := hround
          by_cases hc : s'.cursor = s.cursor
          · simp only [hc, if_true]
            exact ⟨hm, fun _ => trivial⟩
          · simp only [hc, if_false]
            -- A round that moved leaves less ahead, so that the bound suffices for the others.
            have hless := hm.ahead.less hc
            have hmore := ih s' (by omega) (hready.after hm hc)
            cases hr : rounds (matchSequence resolve label body) bound s' with
            | diverged =>
                rw [hr] at hmore
                exact hmore
            | failure ds s'' =>
                rw [hr] at hmore
                rw [Outcome.Settles] at hmore ⊢
                rw [hmore, hm.places.same]
                rfl
            | success us s'' =>
                rw [hr] at hmore
                exact ⟨hm.trans hmore.1, fun _ => trivial⟩

theorem rounds_ne_failure (round : Stream → Outcome (List Tree)) (bound : Nat) (s s' : Stream)
    (ds : List Diagnostic) : rounds round bound s ≠ .failure ds s' := by
  induction bound generalizing s with
  | zero => simp [rounds]
  | succ bound ih =>
      rw [rounds]
      cases round s with
      | diverged => simp
      | failure ds' s'' => simp
      | success ts s'' =>
          dsimp only
          split
          · simp
          · have hmore := ih s''
            cases hr : rounds round bound s'' with
            | success us s₃ => simp
            | diverged => simp
            | failure ds' s₃ =>
                rw [hr] at hmore
                exact hmore

theorem matchRepetition_settles {body : List Symbol}
    (hbody : ∀ s, Ready g resolve lost body s →
      (matchSymbols resolve (Symbol.renderRepetition body) body s).Settles
        (∀ x ∈ body, Nullable g x) lost s)
    (s : Stream) (hready : Ready g resolve lost body s) :
    (matchRepetition resolve body s).Settles True lost s :=
  rounds_settles hbody _ s (Nat.lt_succ_self _) hready

theorem resolve_settles (hres : Resolver.Steady g resolve) {name : String} {s : Stream}
    (h : resolve name s = .diverged → lost) :
    (resolve name s).Settles (Nullable g (.nonTerminal name)) lost s := by
  have hsteady := hres name s
  cases ho : resolve name s with
  | success ts s' =>
      rw [ho] at hsteady
      exact hsteady
  | failure ds s' =>
      rw [ho] at hsteady
      exact hsteady
  | diverged => exact h ho

mutual
theorem matchSymbol_settles (hres : Resolver.Steady g resolve) (rule : String) (x : Symbol)
    (s : Stream) (hready : Ready g resolve lost [x] s) :
    (matchSymbol resolve rule x s).Settles (Nullable g x) lost s := by
  match x with
  | .terminal kind =>
      rw [matchSymbol]
      exact matchTerminal_settles rule kind s hready.kept
  | .nonTerminal name =>
      rw [matchSymbol]
      exact resolve_settles hres (hready.here name .here)
  | .repetition body =>
      have hrep : (matchRepetition resolve body s).Settles True lost s :=
        matchRepetition_settles (fun s' hr => matchSymbols_settles hres _ body s' hr) s
          hready.inside
      rw [matchSymbol_repetition]
      cases ho : matchRepetition resolve body s with
      | diverged =>
          rw [ho] at hrep
          exact hrep
      | failure ds s' =>
          rw [ho] at hrep
          exact hrep
      | success ts s' =>
          rw [ho] at hrep
          exact ⟨hrep.1, fun _ => .repetition body⟩
termination_by structural x

theorem matchSymbols_settles (hres : Resolver.Steady g resolve) (rule : String)
    (xs : List Symbol) (s : Stream) (hready : Ready g resolve lost xs s) :
    (matchSymbols resolve rule xs s).Settles (∀ x ∈ xs, Nullable g x) lost s := by
  match xs with
  | [] =>
      rw [matchSymbols]
      exact ⟨.refl s, fun _ x hx => by cases hx⟩
  | x :: xs =>
      have hx := matchSymbol_settles hres rule x s hready.head
      rw [matchSymbols]
      cases ho : matchSymbol resolve rule x s with
      | diverged =>
          rw [ho] at hx
          exact hx
      | failure ds s' =>
          rw [ho] at hx
          exact hx
      | success ts s' =>
          rw [ho] at hx
          obtain ⟨hm, hstill⟩ := hx
          have hmore := matchSymbols_settles hres rule xs s' (hready.tail hm hstill)
          dsimp only
          cases hr : matchSymbols resolve rule xs s' with
          | diverged =>
              rw [hr] at hmore
              exact hmore
          | failure ds s'' =>
              rw [hr] at hmore
              rw [Outcome.Settles] at hmore ⊢
              rw [hmore, hm.places.same]
              rfl
          | success us s'' =>
              rw [hr] at hmore
              obtain ⟨hm', hstill'⟩ := hmore
              refine ⟨hm.trans hm', fun hc => ?_⟩
              -- The cursor never goes back, so it stayed at every symbol.
              have hc' := hm.cursor_eq hm' hc
              have hall := hstill' (hc.trans hc'.symm)
              intro y hy
              rcases List.mem_cons.1 hy with rfl | hy
              · exact hstill hc'
              · exact hall y hy
termination_by structural xs
end

theorem matchRule_settles (hres : Resolver.Steady g resolve) (name : String) {rule : Rule}
    (hrule : g.HasRule name rule) (s : Stream) (hready : Ready g resolve lost rule.symbols s) :
    (matchRule resolve name rule s).Settles (Nullable g (.nonTerminal name)) lost s := by
  cases rule with
  | sequence symbols =>
      have hseq := rewound_settles (matchSymbols_settles hres name symbols s hready)
      exact hseq.mono fun hall => .ofSequence hrule hall
  | repetition body =>
      have hrep := matchRepetition_settles (matchSymbols_settles hres _ body) s hready
      exact hrep.mono fun _ => .ofRepetition hrule

theorem eq_of_matchRule_failed (hres : Resolver.Steady g resolve) {name : String} {rule : Rule}
    {s s' : Stream} {ds : List Diagnostic}
    (hf : matchRule resolve name rule s = .failure ds s') : s' = s := by
  cases rule with
  | sequence symbols =>
      exact eq_of_matchSequence_failed (matchSymbols_settles hres name symbols s .trivially) hf
  | repetition body => exact absurd hf (rounds_ne_failure _ _ _ _ _)

/-- The alternatives of a non-terminal are all tried where it stands. -/
theorem matchFirst_settles (hres : Resolver.Steady g resolve) (name : String)
    (alternatives : Nat) (s : Stream) (left : List Rule) (hleft : ∀ rule ∈ left,
      g.HasRule name rule ∧ Ready g resolve lost rule.symbols s) (last : List Diagnostic) :
    (matchFirst resolve name alternatives left last s).Settles
      (Nullable g (.nonTerminal name)) lost s := by
  induction left generalizing last with
  | nil =>
      rw [matchFirst]
      exact rfl
  | cons rule left ih =>
      obtain ⟨hrule, hready⟩ := hleft rule (List.mem_cons_self ..)
      have hfirst := matchRule_settles hres name hrule s hready
      rw [matchFirst]
      cases ho : matchRule resolve name rule s with
      | diverged =>
          rw [ho] at hfirst
          exact hfirst
      | success ts s' =>
          rw [ho] at hfirst
          exact hfirst
      | failure ds s' =>
          obtain rfl := eq_of_matchRule_failed hres ho
          exact ih (fun r hr => hleft r (List.mem_cons_of_mem _ hr)) ds

end Descent

namespace Grammar

variable {g : Grammar}

/-- A rank below `bound` that falls along left calls. A non-terminal without rules calls nothing
and needs no rank. -/
structure Ranks (g : Grammar) (rank : String → Nat) (bound : Nat) : Prop where
  falls : ∀ caller callee, LeftCalls g caller callee → g.isNonTerminal callee = true →
    rank callee < rank caller
  lt_bound : ∀ name, g.isNonTerminal name = true → rank name < bound

theorem descend_steady (g : Grammar) (levels : Nat) :
    Descent.Resolver.Steady g (g.descend levels) := by
  induction levels with
  | zero =>
      intro name s
      rw [descend]
      cases g.rules? name with
      | none => exact rfl
      | some rules => trivial
  | succ levels ih =>
      intro name s
      rw [descend]
      cases hrules : g.rules? name with
      | none => exact rfl
      | some rules =>
          refine Descent.matchFirst_settles ih name _ s rules (fun rule hr => ?_) []
          exact ⟨⟨rules, hrules, hr⟩, .trivially⟩

/-- A non-terminal without rules fails at once, at any level. -/
theorem descend_returns_of_undefined {name : String} (h : ¬ g.isNonTerminal name = true)
    (levels : Nat) (s : Stream) : (g.descend levels name s).Returns := by
  have hnone : g.rules? name = none := by simpa [isNonTerminal] using h
  cases levels <;> simp [descend, hnone, Outcome.Returns]

/-- With `bound` levels for each place that is left, all calls of a rule come to an end. -/
theorem ready_of_ranks {rank : String → Nat} {bound levels : Nat} (hrank : g.Ranks rank bound)
    (hdown : ∀ name s, s.isInsignificant .endOfStream = false →
      bound * s.places + rank name < levels → (g.descend levels name s).Returns)
    {name : String} {rule : Rule} (hrule : g.HasRule name rule) {s : Stream}
    (hkept : s.isInsignificant .endOfStream = false)
    (hlevels : bound * s.places + rank name ≤ levels) :
    Descent.Ready g (g.descend levels) False rule.symbols s where
  kept h := by
    rw [hkept] at h
    cases h
  here callee hl := by
    by_cases hdefined : g.isNonTerminal callee = true
    · refine hdown callee s hkept ?_
      have hfalls := hrank.falls name callee ⟨rule, hrule, hl⟩ hdefined
      omega
    · exact descend_returns_of_undefined hdefined levels s
  later callee s' hm hp := by
    by_cases hdefined : g.isNonTerminal callee = true
    · have hkept' : s'.isInsignificant .endOfStream = false := by
        rw [hm.places.same]
        exact hkept
      refine hdown callee s' hkept' ?_
      have hlt := hrank.lt_bound callee hdefined
      have hmul : bound * s'.places + bound ≤ bound * s.places := by
        rw [← Nat.mul_succ]
        exact Nat.mul_le_mul_left bound hp
      omega
    · exact descend_returns_of_undefined hdefined levels s'

theorem descend_returns {rank : String → Nat} {bound : Nat} (hrank : g.Ranks rank bound)
    (levels : Nat) (name : String) (s : Stream) (hkept : s.isInsignificant .endOfStream = false)
    (hlevels : bound * s.places + rank name < levels) : (g.descend levels name s).Returns := by
  induction levels generalizing name s with
  | zero => omega
  | succ levels ih =>
      intro hdiv
      rw [descend] at hdiv
      cases hrules : g.rules? name with
      | none => simp [hrules] at hdiv
      | some rules =>
          rw [hrules] at hdiv
          have hsettles := Descent.matchFirst_settles (descend_steady g levels) name rules.length
            s rules (fun rule hr => ⟨⟨rules, hrules, hr⟩,
              ready_of_ranks hrank ih ⟨rules, hrules, hr⟩ hkept (Nat.le_of_lt_succ hlevels)⟩) []
          rw [show Descent.matchFirst (g.descend levels) name rules.length rules [] s =
            .diverged from hdiv] at hsettles
          exact hsettles

/-- Parsing comes to an end if the levels do not run out. -/
theorem parseAt_returns {rank : String → Nat} {bound levels : Nat} (hrank : g.Ranks rank bound)
    {s : Stream} (hkept : s.isInsignificant .endOfStream = false)
    (hlevels : bound * s.places + rank g.start ≤ levels) : (g.parseAt levels s).Returns := by
  intro hdiv
  rw [parseAt] at hdiv
  cases hstart : g.startRule with
  | error e => simp [hstart] at hdiv
  | ok rule =>
      have hrule : g.HasRule g.start rule :=
        ⟨[rule], startRule_eq_ok_iff.1 hstart, List.mem_singleton.2 rfl⟩
      have hsettles := Descent.matchRule_settles (descend_steady g levels) g.start hrule s
        (ready_of_ranks hrank (descend_returns hrank levels) hrule hkept hlevels)
      rw [hstart] at hdiv
      cases ho : Descent.matchRule (g.descend levels) g.start rule s with
      | diverged =>
          rw [ho] at hsettles
          exact hsettles
      | success ts s' =>
          simp only [ho, complete] at hdiv
          split at hdiv <;> cases hdiv
      | failure ds s' =>
          simp only [ho] at hdiv
          split at hdiv <;> simp_all

/-- A grammar that has no rule for its start symbol is refused at once. -/
theorem parseAt_returns_of_undefined (h : ¬ g.isNonTerminal g.start = true) (levels : Nat)
    (s : Stream) : (g.parseAt levels s).Returns := by
  intro hdiv
  rw [parseAt] at hdiv
  cases hstart : g.startRule with
  | error e => simp [hstart] at hdiv
  | ok rule =>
      have hrules := startRule_eq_ok_iff.1 hstart
      simp [isNonTerminal, hrules] at h

/-- The bound that `parse` chooses is enough for a rank below the number of entries. -/
theorem parse_returns {rank : String → Nat} (hrank : g.Ranks rank g.entries.length) {s : Stream}
    (hkept : s.isInsignificant .endOfStream = false) : (g.parse s).Returns := by
  by_cases hstart : g.isNonTerminal g.start = true
  · refine parseAt_returns hrank hkept ?_
    have hlt := hrank.lt_bound g.start hstart
    have hmul := Nat.mul_le_mul_left g.entries.length s.places_le
    rw [depthBound, show s.significant.length + 2 = (s.significant.length + 1) + 1 from rfl,
      Nat.mul_succ]
    omega
  · exact parseAt_returns_of_undefined hstart _ s

end Grammar

/-! ### Left calls read off the rules

Which symbols are nullable depends on the whole grammar. A rank that falls
along more calls than there are can be checked rule by rule: those that stand
in front of the first terminal which takes a lexeme. -/

namespace Symbol

/-- The symbol consumes a lexeme wherever it matches. -/
def takesLexeme : Symbol → Bool
  | .terminal kind => kind ≠ Lexeme.endKind
  | .nonTerminal _ | .repetition _ => false

mutual
/-- The non-terminals with which the symbol may begin. -/
def leadingOf : Symbol → List String
  | .terminal _ => []
  | .nonTerminal name => [name]
  | .repetition body => leading body

/-- The non-terminals in front of the first symbol that takes a lexeme. -/
def leading : List Symbol → List String
  | [] => []
  | x :: xs => leadingOf x ++ if takesLexeme x then [] else leading xs
end

end Symbol

namespace Grammar

variable {g : Grammar}

theorem Nullable.takesLexeme {x : Symbol} (h : Nullable g x) : x.takesLexeme = false := by
  cases h with
  | sentinel => simp [Symbol.takesLexeme]
  | repetition body => rfl
  | ofRepetition hrule => rfl
  | ofSequence hrule hall => rfl

theorem LeftIn.mem_leading {name : String} {xs : List Symbol} (h : LeftIn g name xs) :
    name ∈ Symbol.leading xs := by
  induction h with
  | here => simp [Symbol.leading, Symbol.leadingOf]
  | inside _ ih => simp [Symbol.leading, Symbol.leadingOf, ih]
  | behind hx _ ih => simp [Symbol.leading, hx.takesLexeme, ih]

/-- A rank that falls from every rule to the non-terminals it may begin with falls along left
calls. -/
theorem ranks_of_entries {rank : String → Nat} {bound : Nat}
    (hfalls : ∀ entry ∈ g.entries, ∀ rule ∈ entry.2, ∀ callee ∈ Symbol.leading rule.symbols,
      rank callee < rank entry.1)
    (hbound : ∀ name, rank name < bound) : g.Ranks rank bound where
  falls caller callee := by
    rintro ⟨rule, hrule, hl⟩ -
    obtain ⟨rules, hentry, hmem⟩ := exists_mem_entries hrule
    exact hfalls _ hentry rule hmem callee hl.mem_leading
  lt_bound name _ := hbound name

end Grammar

end GrammarCompiler
