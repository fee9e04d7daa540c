import GrammarCompiler.Proofs.Termination

/-!
Invariants of the descent. Whatever an attempt does is put together from few
pieces: it reads a lexeme, goes on behind another attempt, wraps what it has
in a node, or gives up. A statement about successes and one about failures
that are kept by these pieces hold of all attempts, however deep the descent
and however much of it was tried and put back. The induction is made here
once, over the symbols and over the levels.
-/

namespace GrammarCompiler

/-- The answer of an attempt on `s` is as `done` and `failed` say. -/
def Outcome.Obeys (done : Stream → List Tree → Stream → Prop)
    (failed : Stream → List Diagnostic → Prop) (s : Stream) : Outcome (List Tree) → Prop
  | .success ts s' => done s ts s'
  | .failure ds _ => failed s ds
  | .diverged => True

namespace Descent

/-- Two statements that are kept by the pieces of which attempts consist: `done` relates a stream,
what was matched and the stream behind it, and `failed` a stream and the diagnostics. -/
structure Invariant (g : Grammar) (done : Stream → List Tree → Stream → Prop)
    (failed : Stream → List Diagnostic → Prop) : Prop where
  nil : ∀ s, done s [] s
  append : ∀ {s s' s'' ts us}, done s ts s' → done s' us s'' → done s (ts ++ us) s''
  leaf : ∀ {s}, ¬ s.isInsignificant s.nextSignificant.1 = true →
    g.Mentions (.terminal s.nextSignificant.1.kind) →
      done s [.ofLexeme s.nextSignificant.1] s.nextSignificant.2
  node : ∀ {s s' ts name}, g.isNonTerminal name = true → done s ts s' →
    done s (fragment name name ts) s'
  repetition : ∀ {s s' ts} body, done s ts s' →
    done s (fragment repetitionKind (Symbol.renderRepetition body) ts) s'
  mismatch : ∀ {s kind} rule, g.Mentions (.terminal kind) →
    ¬ s.isInsignificant s.nextSignificant.1 = true → s.nextSignificant.1.kind ≠ kind →
      failed s [.mismatch rule kind s.nextSignificant.1]
  undefined : ∀ {s name}, g.Mentions (.nonTerminal name) → g.rules? name = none →
    failed s [.undefinedNonTerminal name]
  endOfFile : ∀ {s} name, s.peekSignificant.isEnd = true → failed s [.endOfFile name]
  noAlternative : ∀ {s} name, s.peekSignificant.isEnd = false →
    failed s [.noAlternative name s.peekSignificant]
  later : ∀ {s s' ts ds}, done s ts s' → failed s' ds → failed s ds

variable {g : Grammar} {done : Stream → List Tree → Stream → Prop}
  {failed : Stream → List Diagnostic → Prop} {resolve : Resolver}

/-- Non-terminals that the grammar mentions are matched in accordance with the invariant. -/
structure Resolver.Obeys (g : Grammar) (done : Stream → List Tree → Stream → Prop)
    (failed : Stream → List Diagnostic → Prop) (resolve : Resolver) : Prop where
  steady : resolve.Steady g
  obeys : ∀ name, g.Mentions (.nonTerminal name) → ∀ s, (resolve name s).Obeys done failed s

theorem matchTerminal_obeys (hinv : Invariant g done failed) (rule : String) {kind : String}
    (hkind : g.Mentions (.terminal kind)) (s : Stream) :
    (matchTerminal rule kind s).Obeys done failed s := by
  rw [matchTerminal_eq]
  split
  · trivial
  · next hfound =>
    split
    · next hk => exact hinv.leaf hfound (hk ▸ hkind)
    · next hk => exact hinv.mismatch rule hkind hfound hk

theorem rewound_obeys {o : Outcome (List Tree)} {s : Stream} (h : o.Obeys done failed s)
    (cursor : Nat) : (o.rewound cursor).Obeys done failed s := by
  cases o with
  | success ts s' => exact h
  | failure ds s' => exact h
  | diverged => trivial

/-- The rounds of a repetition, of which the last one leaves nothing behind. -/
theorem rounds_obeys (hinv : Invariant g done failed) (hres : Resolver.Obeys g done failed resolve)
    {label : String} {body : List Symbol}
    (hbody : ∀ s, (matchSymbols resolve label body s).Obeys done failed s) (bound : Nat)
    (s : Stream) :
    (rounds (matchSequence resolve label body) bound s).Obeys done failed s := by
  induction bound generalizing s with
  | zero => trivial
  | succ bound ih =>
      have hall := matchSymbols_settles hres.steady label body s .trivially
      have hmoves : (matchSequence resolve label body s).Settles _ True s := rewound_settles hall
      have hround : (matchSequence resolve label body s).Obeys done failed s :=
        rewound_obeys (hbody s) s.cursor
      rw [rounds]
      cases ho : matchSequence resolve label body s with
      | diverged => trivial
      | failure ds s' =>
          obtain rfl := eq_of_matchSequence_failed hall ho
          exact hinv.nil _
      | success ts s' =>
          rw [ho] at hround hmoves
          dsimp only
          split
          -- The round stood still: its trees are thrown away, and its stream is the one before.
          · next hc =>
            rw [hmoves.1.eq_of_cursor_eq hc]
            exact hinv.nil s
          · have hmore := ih s'
            cases hr : rounds (matchSequence resolve label body) bound s' with
            | diverged => trivial
            | failure ds s'' => exact absurd hr (rounds_ne_failure _ _ _ _ _)
            | success us s'' =>
                rw [hr] at hmore
                exact hinv.append hround hmore

theorem matchRepetition_obeys (hinv : Invariant g done failed)
    (hres : Resolver.Obeys g done failed resolve) {body : List Symbol}
    (hbody : ∀ s, (matchSymbols resolve (Symbol.renderRepetition body) body s).Obeys done failed s)
    (s : Stream) : (matchRepetition resolve body s).Obeys done failed s :=
  rounds_obeys hinv hres hbody _ s

mutual
theorem matchSymbol_obeys (hinv : Invariant g done failed)
    (hres : Resolver.Obeys g done failed resolve) (rule : String) (x : Symbol)
    (hx : g.Covers [x]) (s : Stream) : (matchSymbol resolve rule x s).Obeys done failed s := by
  match x with
  | .terminal kind =>
      rw [matchSymbol]
      exact matchTerminal_obeys hinv rule hx.mentions s
  | .nonTerminal name =>
      rw [matchSymbol]
      exact hres.obeys name hx.mentions s
  | .repetition body =>
      have hrep := matchRepetition_obeys hinv hres
        (fun s' => matchSymbols_obeys hinv hres _ body hx.inside s') s
      rw [matchSymbol_repetition]
      cases ho : matchRepetition resolve body s with
      | diverged => trivial
      | failure ds s' => exact absurd ho (rounds_ne_failure _ _ _ _ _)
      | success ts s' =>
          rw [ho] at hrep
          exact hinv.repetition body hrep
termination_by structural x

theorem matchSymbols_obeys (hinv : Invariant g done failed)
    (hres : Resolver.Obeys g done failed resolve) (rule : String) (xs : List Symbol)
    (hxs : g.Covers xs) (s : Stream) : (matchSymbols resolve rule xs s).Obeys done failed s := by
  match xs with
  | [] =>
      rw [matchSymbols]
      exact hinv.nil s
  | x :: xs =>
      have hx := matchSymbol_obeys hinv hres rule x hxs.head s
      rw [matchSymbols]
      cases ho : matchSymbol resolve rule x s with
      | diverged => trivial
      | failure ds s' =>
          rw [ho] at hx
          exact hx
      | success ts s' =>
          rw [ho] at hx
          have hmore := matchSymbols_obeys hinv hres rule xs hxs.tail s'
          dsimp only
          cases hr : matchSymbols resolve rule xs s' with
          | diverged => trivial
          | failure ds s'' =>
              rw [hr] at hmore
              exact hinv.later hx hmore
          | success us s'' =>
              rw [hr] at hmore
              exact hinv.append hx hmore
termination_by structural xs
end

theorem matchRule_obeys (hinv : Invariant g done failed)
    (hres : Resolver.Obeys g done failed resolve) (name : String) {rule : Rule}
    (hrule : g.Covers rule.symbols) (s : Stream) :
    (matchRule resolve name rule s).Obeys done failed s := by
  cases rule with
  | sequence symbols =>
      exact rewound_obeys (matchSymbols_obeys hinv hres name symbols hrule s) s.cursor
  | repetition body =>
      exact matchRepetition_obeys hinv hres (matchSymbols_obeys hinv hres _ body hrule) s

theorem exhausted_failed (hinv : Invariant g done failed) {s : Stream} (name : String)
    {alternatives : Nat} {last : List Diagnostic} (hlast : alternatives = 1 → failed s last) :
    failed s (exhausted s name alternatives last) := by
  rw [exhausted]
  split
  · next hone => exact hlast hone
  · split
    · next hend => exact hinv.endOfFile name hend
    · next hend => exact hinv.noAlternative name (by simpa using hend)

/-- The alternatives of a non-terminal. An only alternative has failed before its diagnostics are
handed on, because a list of one rule is not the empty list. -/
theorem matchFirst_obeys (hinv : Invariant g done failed)
    (hres : Resolver.Obeys g done failed resolve) {name : String}
    (hname : g.isNonTerminal name = true) (alternatives : Nat) (s : Stream) (left : List Rule)
    (hleft : ∀ rule ∈ left, g.Covers rule.symbols) (last : List Diagnostic)
    (hlast : left = [] → alternatives = 1 → failed s last) :
    (matchFirst resolve name alternatives left last s).Obeys done failed s := by
  induction left generalizing last with
  | nil => exact exhausted_failed hinv name (hlast rfl)
  | cons rule left ih =>
      have hfirst := matchRule_obeys hinv hres name (hleft rule (List.mem_cons_self ..)) s
      rw [matchFirst]
      cases ho : matchRule resolve name rule s with
      | diverged => trivial
      | success ts s' =>
          rw [ho] at hfirst
          exact hinv.node hname hfirst
      | failure ds s' =>
          rw [ho] at hfirst
          obtain rfl := eq_of_matchRule_failed hres.steady ho
          exact ih (fun r hr => hleft r (List.mem_cons_of_mem _ hr)) ds (fun _ _ => hfirst)

theorem matchAlternatives_obeys (hinv : Invariant g done failed)
    (hres : Resolver.Obeys g done failed resolve) {name : String} {rules : List Rule}
    (hrules : g.rules? name = some rules) (s : Stream) :
    (matchAlternatives resolve name rules s).Obeys done failed s := by
  refine matchFirst_obeys hinv hres (by simp [Grammar.isNonTerminal, hrules]) _ s rules
    (fun rule hr => Grammar.HasRule.covers ⟨rules, hrules, hr⟩) [] fun hnil hone => ?_
  simp [hnil] at hone

end Descent

namespace Grammar

variable {g : Grammar} {done : Stream → List Tree → Stream → Prop}
  {failed : Stream → List Diagnostic → Prop}

theorem descend_obeys (hinv : Descent.Invariant g done failed) (levels : Nat) :
    Descent.Resolver.Obeys g done failed (g.descend levels) := by
  induction levels with
  | zero =>
      refine ⟨descend_steady g 0, fun name hname s => ?_⟩
      rw [descend]
      cases hrules : g.rules? name with
      | none => exact hinv.undefined hname hrules
      | some rules => trivial
  | succ levels ih =>
      refine ⟨descend_steady g (levels + 1), fun name hname s => ?_⟩
      rw [descend]
      cases hrules : g.rules? name with
      | none => exact hinv.undefined hname hrules
      | some rules => exact Descent.matchAlternatives_obeys hinv ih hrules s

/-- The rule of the start symbol keeps every invariant of the descent. -/
theorem matchRule_start_obeys (hinv : Descent.Invariant g done failed) {rule : Rule}
    (hstart : g.startRule = .ok rule) (levels : Nat) (s : Stream) :
    (Descent.matchRule (g.descend levels) g.start rule s).Obeys done failed s :=
  Descent.matchRule_obeys hinv (descend_obeys hinv levels) g.start
    (HasRule.covers ⟨[rule], startRule_eq_ok_iff.1 hstart, List.mem_singleton.2 rfl⟩) s

end Grammar

end GrammarCompiler
