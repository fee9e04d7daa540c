import GrammarCompiler.Parse.Calls
import GrammarCompiler.Proofs.Checking
import GrammarCompiler.Proofs.Termination

/-!
A grammar that passes its check does not fail the parser. The check looks at
names where they are written, the parser looks them up where a run comes to
them, at any depth. The link is that a run only ever works on pieces of rules:
`Call.Fits` says so of a call, and every call that a run makes fits.

Every diagnostic is found by a call of the run. So what can be wrong with the
grammar would have to be wrong where a run comes to it, and there nothing is:
what is left are the ways in which the lexemes do not fit the grammar.
-/

namespace GrammarCompiler

/-! ### The calls of a run work on pieces of rules -/

/-- What the call works on is a piece of a rule, and a repetition has something to repeat. -/
def Call.Fits (g : Grammar) : Call → Prop
  | .rule name r _ => g.HasRule name r
  | .symbols _ xs _ => g.Covers xs
  | .symbol _ x _ => g.Covers [x]
  | .round body _ => body ≠ [] ∧ g.Covers body

namespace Grammar

variable {g : Grammar} {s₀ : Stream} {levels : Nat}

theorem Reaches.fits (hwell : g.WellFormed) {call : Call} (h : g.Reaches s₀ call) :
    call.Fits g := by
  induction h with
  | start hstart => exact ⟨_, startRule_eq_ok_iff.1 hstart, List.mem_singleton.2 rfl⟩
  | sequence _ ih => exact HasRule.covers ih
  | ofRepetition _ ih => exact ⟨hwell.symbols_ne_nil _ _ ih, HasRule.covers ih⟩
  | head _ ih => exact Covers.head ih
  | tail _ _ ih => exact Covers.tail ih
  | alternative _ hrules _ _ => exact ⟨_, hrules, by simp⟩
  | repetition _ ih => exact ⟨hwell.admits (Covers.mentions ih), Covers.inside ih⟩
  | body _ ih => exact ih.2
  | nextRound _ _ _ ih => exact ih

/-- Where a run looks a name up, there are rules. -/
theorem Reaches.exists_rules (hwell : g.WellFormed) {label name : String} {s : Stream}
    (h : g.Reaches s₀ (.symbol label (.nonTerminal name) s)) :
    ∃ rules, g.rules? name = some rules ∧ rules ≠ [] := by
  have hdefined : g.isNonTerminal name = true := hwell.admits (Covers.mentions (h.fits hwell))
  obtain ⟨rules, hrules⟩ := Option.isSome_iff_exists.1 hdefined
  refine ⟨rules, hrules, ?_⟩
  rintro rfl
  exact hwell.rules_ne_nil name hrules

theorem Reaches.two_le_length (hwell : g.WellFormed) {label name : String} {s : Stream}
    (h : g.Reaches s₀ (.symbol label (.nonTerminal name) s)) {rules : List Rule}
    (hrules : g.rules? name = some rules) (hone : rules.length ≠ 1) : 2 ≤ rules.length := by
  obtain ⟨rules', hrules', hne⟩ := h.exists_rules hwell
  obtain rfl : rules = rules' := Option.some.inj (hrules.symm.trans hrules')
  have hpos := List.length_pos_iff.2 hne
  omega

/-! ### Diagnostics are found by calls -/

/-- What a call of the run can find: a lexeme that does not match, a name without an entry, or
alternatives none of which matches. The failure of an only alternative is not among them, because
it is handed on. -/
inductive Finds (g : Grammar) (s₀ : Stream) : Diagnostic → Prop where
  | mismatch {label kind : String} {s : Stream} :
    g.Reaches s₀ (.symbol label (.terminal kind) s) → s.nextSignificant.1.kind ≠ kind →
      Finds g s₀ (.mismatch label kind s.nextSignificant.1)
  | undefined {label name : String} {s : Stream} :
    g.Reaches s₀ (.symbol label (.nonTerminal name) s) → g.rules? name = none →
      Finds g s₀ (.undefinedNonTerminal name)
  | endOfFile {label name : String} {s : Stream} {rules : List Rule} :
    g.Reaches s₀ (.symbol label (.nonTerminal name) s) → g.rules? name = some rules →
      rules.length ≠ 1 → (∀ rule ∈ rules, g.Fails name rule s) →
        s.peekSignificant.isEnd = true → Finds g s₀ (.endOfFile name)
  | noAlternative {label name : String} {s : Stream} {rules : List Rule} :
    g.Reaches s₀ (.symbol label (.nonTerminal name) s) → g.rules? name = some rules →
      rules.length ≠ 1 → (∀ rule ∈ rules, g.Fails name rule s) →
        s.peekSignificant.isEnd = false → Finds g s₀ (.noAlternative name s.peekSignificant)

end Grammar

/-- If the attempt fails, it has one diagnostic, and a call of the run has found it. -/
def Outcome.Traced (g : Grammar) (s₀ : Stream) : Outcome (List Tree) → Prop
  | .failure ds _ => ∃ d, ds = [d] ∧ g.Finds s₀ d
  | _ => True

namespace Descent

variable {g : Grammar} {s₀ : Stream} {levels : Nat}

theorem matchTerminal_traced {label kind : String} {s : Stream}
    (h : g.Reaches s₀ (.symbol label (.terminal kind) s)) :
    (matchTerminal label kind s).Traced g s₀ := by
  rw [matchTerminal_eq]
  split
  · trivial
  · split
    · trivial
    · next hkind => exact ⟨_, rfl, .mismatch h hkind⟩

/-- Non-terminals that a run comes to fail in a traced way. -/
def Resolver.Traced (g : Grammar) (s₀ : Stream) (resolve : Resolver) : Prop :=
  ∀ {label name s}, g.Reaches s₀ (.symbol label (.nonTerminal name) s) →
    (resolve name s).Traced g s₀

theorem matchSymbol_traced (hres : Resolver.Traced g s₀ (g.descend levels)) {label : String}
    {x : Symbol} {s : Stream} (h : g.Reaches s₀ (.symbol label x s)) :
    (matchSymbol (g.descend levels) label x s).Traced g s₀ := by
  cases x with
  | terminal kind =>
      rw [matchSymbol]
      exact matchTerminal_traced h
  | nonTerminal name =>
      rw [matchSymbol]
      exact hres h
  | repetition body =>
      rw [matchSymbol_repetition]
      cases ho : matchRepetition (g.descend levels) body s with
      | success ts s' => trivial
      | diverged => trivial
      | failure ds s' => exact absurd ho (rounds_ne_failure _ _ _ _ _)

theorem matchSymbols_traced (hres : Resolver.Traced g s₀ (g.descend levels)) {label : String}
    {xs : List Symbol} {s : Stream} (h : g.Reaches s₀ (.symbols label xs s)) :
    (matchSymbols (g.descend levels) label xs s).Traced g s₀ := by
  induction xs generalizing s with
  | nil =>
      rw [matchSymbols]
      trivial
  | cons x xs ih =>
      have hx := matchSymbol_traced hres h.head
      rw [matchSymbols]
      cases ho : matchSymbol (g.descend levels) label x s with
      | diverged => trivial
      | failure ds s' =>
          rw [ho] at hx
          exact hx
      | success ts s' =>
          have hmore := ih (h.tail ho)
          dsimp only
          cases hr : matchSymbols (g.descend levels) label xs s' with
          | diverged => trivial
          | success us s'' => trivial
          | failure ds s'' =>
              rw [hr] at hmore
              exact hmore

theorem matchRule_traced (hres : Resolver.Traced g s₀ (g.descend levels)) {name : String}
    {rule : Rule} {s : Stream} (h : g.Reaches s₀ (.rule name rule s)) :
    (matchRule (g.descend levels) name rule s).Traced g s₀ := by
  cases rule with
  | sequence symbols =>
      have hall := matchSymbols_traced hres h.sequence
      rw [matchRule, matchSequence]
      cases ho : matchSymbols (g.descend levels) name symbols s with
      | diverged => trivial
      | success ts s' => trivial
      | failure ds s' =>
          rw [ho] at hall
          exact hall
  | repetition body =>
      cases ho : matchRule (g.descend levels) name (.repetition body) s with
      | diverged => trivial
      | success ts s' => trivial
      | failure ds s' => exact absurd ho (rounds_ne_failure _ _ _ _ _)

/-- The alternatives that are left are tried behind those that have failed. If there is only one,
its diagnostics are handed on; that it has been tried is what `hlast` keeps. -/
theorem matchFirst_traced (hres : Resolver.Traced g s₀ (g.descend levels)) {label name : String}
    {s : Stream} (h : g.Reaches s₀ (.symbol label (.nonTerminal name) s)) {rules : List Rule}
    (hrules : g.rules? name = some rules) (before left : List Rule)
    (hsplit : rules = before ++ left)
    (hbefore : ∀ rule ∈ before, g.Fails name rule s) (last : List Diagnostic)
    (hlast : left = [] → rules.length = 1 → ∃ d, last = [d] ∧ g.Finds s₀ d) :
    (matchFirst (g.descend levels) name rules.length left last s).Traced g s₀ := by
  induction left generalizing before last with
  | nil =>
      have hall : ∀ rule ∈ rules, g.Fails name rule s := by
        rw [hsplit, List.append_nil]
        exact hbefore
      rw [matchFirst, exhausted]
      split
      · next hone => exact hlast rfl hone
      · next hmany =>
        split
        · next hend => exact ⟨_, rfl, .endOfFile h hrules hmany hall hend⟩
        · next hend => exact ⟨_, rfl, .noAlternative h hrules hmany hall (by simpa using hend)⟩
  | cons rule left ih =>
      have hfirst := matchRule_traced hres (h.alternative (hsplit ▸ hrules) hbefore)
      rw [matchFirst]
      cases ho : matchRule (g.descend levels) name rule s with
      | diverged => trivial
      | success ts s' => trivial
      | failure ds s' =>
          rw [ho] at hfirst
          obtain rfl := eq_of_matchRule_failed (Grammar.descend_steady g levels) ho
          refine ih (before ++ [rule]) (by simp [hsplit]) ?_ ds fun _ _ => hfirst
          simpa [or_imp, forall_and] using ⟨hbefore, levels, ds, s', ho⟩

end Descent

namespace Grammar

variable {g : Grammar} {s₀ : Stream}

theorem descend_traced (levels : Nat) : Descent.Resolver.Traced g s₀ (g.descend levels) := by
  induction levels with
  | zero =>
      intro label name s h
      rw [descend]
      cases hrules : g.rules? name with
      | none => exact ⟨_, rfl, .undefined h hrules⟩
      | some rules => trivial
  | succ levels ih =>
      intro label name s h
      rw [descend]
      cases hrules : g.rules? name with
      | none => exact ⟨_, rfl, .undefined h hrules⟩
      | some rules =>
          refine Descent.matchFirst_traced ih h hrules [] rules rfl (by simp) [] fun hnil hone => ?_
          simp [hnil] at hone

/-- How a parse fails: the start symbol is not fit to start from, its rule fails, or it matches and
lexemes are left. -/
theorem parseAt_failure_cases {levels : Nat} {s s' : Stream} {ds : List Diagnostic}
    (h : g.parseAt levels s = .failure ds s') :
    (∃ e, g.startRule = .error e ∧ ds = [.badStart e] ∧ s' = s) ∨
    (∃ rule d, g.startRule = .ok rule ∧
      Descent.matchRule (g.descend levels) g.start rule s = .failure [d] s' ∧
      ds = [d] ∧ g.Finds s d) ∨
    ∃ rule ts, g.startRule = .ok rule ∧
      Descent.matchRule (g.descend levels) g.start rule s = .success ts s' ∧
      s'.peekSignificant.isEnd = false ∧ ds = [.trailing s'.peekSignificant g.start] := by
  rw [parseAt] at h
  cases hstart : g.startRule with
  | error e =>
      rw [hstart] at h
      obtain ⟨rfl, rfl⟩ := Outcome.failure.inj h
      exact .inl ⟨e, rfl, rfl, rfl⟩
  | ok rule =>
      have htraced : (Descent.matchRule (g.descend levels) g.start rule s).Traced g s :=
        Descent.matchRule_traced (descend_traced levels) (.start hstart)
      rw [hstart] at h
      dsimp only at h
      cases ho : Descent.matchRule (g.descend levels) g.start rule s with
      | diverged =>
          rw [ho] at h
          cases h
      | failure ds' s'' =>
          rw [ho] at h htraced
          obtain ⟨d, rfl, hd⟩ := htraced
          obtain ⟨rfl, rfl⟩ := Outcome.failure.inj h
          exact .inr (.inl ⟨rule, d, rfl, ho, rfl, hd⟩)
      | success ts s'' =>
          rw [ho] at h
          dsimp only at h
          -- The rule has matched, so that a lexeme that is left over is the only cause.
          rw [complete] at h
          split at h
          · cases h
          · next hend =>
            obtain ⟨rfl, rfl⟩ := Outcome.failure.inj h
            exact .inr (.inr ⟨rule, ts, rfl, ho, by simpa using hend, rfl⟩)

/-- Why a parse fails: the start symbol is not fit to start from, a call of the run has found
something, or a lexeme is left. -/
theorem parseAt_failure {levels : Nat} {s s' : Stream} {ds : List Diagnostic}
    (h : g.parseAt levels s = .failure ds s') :
    ∃ d, ds = [d] ∧ ((∃ e, g.startRule = .error e ∧ d = .badStart e) ∨ g.Finds s d ∨
      (s'.peekSignificant.isEnd = false ∧ d = .trailing s'.peekSignificant g.start)) := by
  rcases parseAt_failure_cases h with
    ⟨e, hstart, rfl, -⟩ | ⟨-, d, -, -, rfl, hd⟩ | ⟨-, -, -, -, hend, rfl⟩
  · exact ⟨_, rfl, .inl ⟨e, hstart, rfl⟩⟩
  · exact ⟨d, rfl, .inr (.inl hd)⟩
  · exact ⟨_, rfl, .inr (.inr ⟨hend, rfl⟩)⟩

end Grammar

/-! ### No call is left out

A run looks at the entries of a grammar where it looks names up, and nowhere
else. So a grammar that agrees with another one wherever a run comes to is
parsed with in the same way. -/

namespace Descent

variable {g : Grammar} {s₀ : Stream} {levels : Nat} {resolve : Resolver}

/-- Non-terminals that a run comes to are matched in the same way. -/
def Resolver.Agrees (g : Grammar) (s₀ : Stream) (levels : Nat) (resolve : Resolver) : Prop :=
  ∀ {label name s}, g.Reaches s₀ (.symbol label (.nonTerminal name) s) →
    resolve name s = g.descend levels name s

theorem rounds_agree {body : List Symbol}
    (hbody : ∀ {s}, g.Reaches s₀ (.symbols (Symbol.renderRepetition body) body s) →
      matchSymbols resolve (Symbol.renderRepetition body) body s =
        matchSymbols (g.descend levels) (Symbol.renderRepetition body) body s)
    (bound : Nat) {s : Stream} (h : g.Reaches s₀ (.round body s)) :
    rounds (matchSequence resolve (Symbol.renderRepetition body) body) bound s =
      rounds (matchSequence (g.descend levels) (Symbol.renderRepetition body) body) bound s := by
  induction bound generalizing s with
  | zero => rfl
  | succ bound ih =>
      have hround : matchSequence resolve (Symbol.renderRepetition body) body s =
          matchSequence (g.descend levels) (Symbol.renderRepetition body) body s := by
        rw [matchSequence, matchSequence, hbody h.body]
      rw [rounds, rounds, hround]
      cases ho : matchSequence (g.descend levels) (Symbol.renderRepetition body) body s with
      | diverged => rfl
      | failure ds s' => rfl
      | success ts s' =>
          dsimp only
          by_cases hc : s'.cursor = s.cursor
          · rw [if_pos hc, if_pos hc]
          · rw [if_neg hc, if_neg hc, ih (h.nextRound ho hc)]

mutual
theorem matchSymbol_agree (hres : Resolver.Agrees g s₀ levels resolve) (label : String)
    (x : Symbol) {s : Stream} (h : g.Reaches s₀ (.symbol label x s)) :
    matchSymbol resolve label x s = matchSymbol (g.descend levels) label x s := by
  match x with
  | .terminal kind => rw [matchSymbol, matchSymbol]
  | .nonTerminal name =>
      rw [matchSymbol, matchSymbol]
      exact hres h
  | .repetition body =>
      have hrep : matchRepetition resolve body s = matchRepetition (g.descend levels) body s :=
        rounds_agree (fun hr => matchSymbols_agree hres _ body hr) _ h.repetition
      rw [matchSymbol_repetition, matchSymbol_repetition, hrep]
termination_by structural x

theorem matchSymbols_agree (hres : Resolver.Agrees g s₀ levels resolve) (label : String)
    (xs : List Symbol) {s : Stream} (h : g.Reaches s₀ (.symbols label xs s)) :
    matchSymbols resolve label xs s = matchSymbols (g.descend levels) label xs s := by
  match xs with
  | [] => rw [matchSymbols, matchSymbols]
  | x :: xs =>
      rw [matchSymbols, matchSymbols, matchSymbol_agree hres label x h.head]
      cases ho : matchSymbol (g.descend levels) label x s with
      | diverged => rfl
      | failure ds s' => rfl
      | success ts s' =>
          dsimp only
          rw [matchSymbols_agree hres label xs (h.tail ho)]
termination_by structural xs
end

theorem matchRule_agree (hres : Resolver.Agrees g s₀ levels resolve) {name : String} {rule : Rule}
    {s : Stream} (h : g.Reaches s₀ (.rule name rule s)) :
    matchRule resolve name rule s = matchRule (g.descend levels) name rule s := by
  cases rule with
  | sequence symbols =>
      rw [matchRule, matchRule, matchSequence, matchSequence,
        matchSymbols_agree hres name symbols h.sequence]
  | repetition body =>
      exact rounds_agree (fun hr => matchSymbols_agree hres _ body hr) _ h.ofRepetition

theorem matchFirst_agree (hres : Resolver.Agrees g s₀ levels resolve) {label name : String}
    {s : Stream} (h : g.Reaches s₀ (.symbol label (.nonTerminal name) s)) (alternatives : Nat)
    (before left : List Rule) (hrules : g.rules? name = some (before ++ left))
    (hbefore : ∀ rule ∈ before, g.Fails name rule s) (last : List Diagnostic) :
    matchFirst resolve name alternatives left last s =
      matchFirst (g.descend levels) name alternatives left last s := by
  induction left generalizing before last with
  | nil => rfl
  | cons rule left ih =>
      rw [matchFirst, matchFirst, matchRule_agree hres (h.alternative hrules hbefore)]
      cases ho : matchRule (g.descend levels) name rule s with
      | diverged => rfl
      | success ts s' => rfl
      | failure ds s' =>
          obtain rfl := eq_of_matchRule_failed (Grammar.descend_steady g levels) ho
          refine ih (before ++ [rule]) (by simpa using hrules) ?_ ds
          simpa [or_imp, forall_and] using ⟨hbefore, levels, ds, s', ho⟩

end Descent

namespace Grammar

variable {g g' : Grammar} {s₀ : Stream}

theorem descend_agrees
    (hagree : ∀ {label name s}, g.Reaches s₀ (.symbol label (.nonTerminal name) s) →
      g'.rules? name = g.rules? name) (levels : Nat) :
    Descent.Resolver.Agrees g s₀ levels (g'.descend levels) := by
  induction levels with
  | zero =>
      intro label name s h
      rw [descend, descend, hagree h]
  | succ levels ih =>
      intro label name s h
      rw [descend, descend, hagree h]
      cases hrules : g.rules? name with
      | none => rfl
      | some rules =>
          exact Descent.matchFirst_agree ih h rules.length [] rules hrules (by simp) []

/-- Only the start symbol and the names that the run looks up matter to a parse. -/
theorem parseAt_eq_of_agree (hstart : g'.start = g.start)
    (hrules : g'.rules? g.start = g.rules? g.start)
    (hagree : ∀ {label name s}, g.Reaches s₀ (.symbol label (.nonTerminal name) s) →
      g'.rules? name = g.rules? name) (levels : Nat) :
    g'.parseAt levels s₀ = g.parseAt levels s₀ := by
  have hrule : g'.startRule = g.startRule := by rw [startRule, startRule, hstart, hrules]
  rw [parseAt, parseAt, hrule]
  cases hok : g.startRule with
  | error e => rfl
  | ok rule =>
      dsimp only
      rw [hstart, Descent.matchRule_agree (descend_agrees hagree levels) (.start hok)]
      have hcomplete : g'.complete = g.complete := by
        funext children s
        rw [complete, complete, hstart]
      rw [hcomplete]

/-! ### Grammars that pass their check -/

/-- A grammar that passes its check meets no defect of its own in any run: wherever a run comes
to, names have rules and repetitions have symbols. So if the parse fails, a lexeme does not match,
or none of several alternatives does, or a lexeme is left. The last part says that a run looks
names up nowhere else. -/
theorem checked_grammar_meets_no_defect (g : Grammar) (hcheck : g.check = .ok ()) (s : Stream) :
    (∃ rule, g.rules? g.start = some [rule]) ∧
    (∀ label name s', g.Reaches s (.symbol label (.nonTerminal name) s') →
      ∃ rules, g.rules? name = some rules ∧ rules ≠ []) ∧
    (∀ body s', g.Reaches s (.round body s') → body ≠ []) ∧
    (∀ ds s', g.parse s = .failure ds s' → ∃ d, ds = [d] ∧
      ((∃ label kind found, d = .mismatch label kind found ∧ found.kind ≠ kind) ∨
        (∃ name rules s'', g.rules? name = some rules ∧ 2 ≤ rules.length ∧
          (∀ rule ∈ rules, g.Fails name rule s'') ∧
            (d = .endOfFile name ∨ d = .noAlternative name s''.peekSignificant)) ∨
        d = .trailing s'.peekSignificant g.start)) ∧
    ∀ g' : Grammar, g'.start = g.start → g'.rules? g.start = g.rules? g.start →
      (∀ label name s', g.Reaches s (.symbol label (.nonTerminal name) s') →
        g'.rules? name = g.rules? name) →
      ∀ levels, g'.parseAt levels s = g.parseAt levels s := by
  have hwell := wellFormed_of_check hcheck
  refine ⟨hwell.start_single, fun label name s' h => h.exists_rules hwell,
    fun body s' h => (h.fits hwell).1, fun ds s' h => ?_, fun g' hstart hrules hagree =>
      parseAt_eq_of_agree hstart hrules (hagree _ _ _)⟩
  obtain ⟨d, rfl, ⟨e, hstart, -⟩ | hfinds | ⟨-, hd⟩⟩ := parseAt_failure h
  · obtain ⟨rule, hrule⟩ := hwell.start_single
    rw [startRule_eq_ok_iff.2 hrule] at hstart
    cases hstart
  · refine ⟨d, rfl, ?_⟩
    cases hfinds with
    | mismatch _ hkind => exact .inl ⟨_, _, _, rfl, hkind⟩
    | undefined hr hnone =>
        obtain ⟨rules, hrules, -⟩ := hr.exists_rules hwell
        rw [hrules] at hnone
        cases hnone
    | endOfFile hr hrules hone hall _ =>
        have hmany := hr.two_le_length hwell hrules hone
        exact .inr (.inl ⟨_, _, _, hrules, hmany, hall, .inl rfl⟩)
    | noAlternative hr hrules hone hall _ =>
        have hmany := hr.two_le_length hwell hrules hone
        exact .inr (.inl ⟨_, _, _, hrules, hmany, hall, .inr rfl⟩)
  · exact ⟨d, rfl, .inr (.inr hd)⟩

/-- Blocks that nest, with words between them. -/
def blocks : Grammar where
  start := "block"
  entries :=
    [("block",
      [.sequence [.terminal "Open", .repetition [.nonTerminal "item"], .terminal "Close"]]),
     ("item", [.sequence [.nonTerminal "block"], .sequence [.terminal "Word"]])]
  distinct := by decide

/-- A block that is not closed. -/
def openBlock : Stream := .ofLexemes [⟨"Open", "(", 1, 1⟩, ⟨"Word", "a", 1, 2⟩]

/-- The run looks up what stands in the repetition, and then misses the end of the block. -/
theorem blocks_meet_no_defect :
    (∃ rules, blocks.rules? "item" = some rules ∧ rules ≠ []) ∧
    ∃ ds s', blocks.parse openBlock = .failure ds s' ∧ ∃ d, ds = [d] ∧
      ∃ label kind found, d = .mismatch label kind found ∧ found.kind ≠ kind := by
  have hall := checked_grammar_meets_no_defect blocks rfl openBlock
  have hopen : Descent.matchSymbol (blocks.descend 0) "block" (.terminal "Open") openBlock =
      .success [.node "Open" "(" []] (openBlock.rewind 1) := rfl
  have hfirst : blocks.Reaches openBlock (.symbols "block"
      [.terminal "Open", .repetition [.nonTerminal "item"], .terminal "Close"] openBlock) :=
    Reaches.sequence (.start rfl)
  refine ⟨hall.2.1 _ "item" _ (hfirst.tail hopen).head.repetition.body.head, ?_⟩
  have hfail : blocks.parse openBlock =
      .failure [.mismatch "block" "Close" .endOfStream] openBlock := by decide +kernel
  obtain ⟨d, hd, hcause⟩ := hall.2.2.2.1 _ _ hfail
  refine ⟨_, _, hfail, d, hd, ?_⟩
  obtain rfl := List.singleton_inj.1 hd
  exact ⟨_, _, _, rfl, by decide⟩

end Grammar

end GrammarCompiler
