import GrammarCompiler.Proofs.ConcreteSyntax
import GrammarCompiler.Proofs.Derivation

/-!
Phrases and the grammar of Naja. In one direction, all derivations of the
grammar are derivations of phrases, so that nothing was lost when the names
were left out. In the other, ordered choice finds every phrase: the first
lexeme of a phrase selects its alternative, and a repetition that takes all
rounds it can get takes those of the phrase, because what follows the phrase
does not go on with an operator.
-/

namespace GrammarCompiler

namespace Grammar

variable {g : Grammar}

theorem hasRule_iff {name : String} {rules : List Rule} (h : g.rules? name = some rules)
    {rule : Rule} : g.HasRule name rule ↔ rule ∈ rules := by
  simp [HasRule, h]

/-- What is derived from a non-terminal whose alternatives are all sequences. -/
theorem DerivesSymbol.exists_sequence {name : String} {d : Derivation}
    (h : DerivesSymbol g (.nonTerminal name) d) {sequences : List (List Symbol)}
    (hrules : g.rules? name = some (sequences.map .sequence)) :
    ∃ xs ∈ sequences, ∃ ds, DerivesSequence g xs ds ∧
      d = .nonTerminal name (.sequence xs) [ds] := by
  cases h with
  | nonTerminal hrule hd =>
      obtain ⟨xs, hxs, rfl⟩ := List.mem_map.1 ((hasRule_iff hrules).1 hrule)
      cases hd with
      | sequence hs => exact ⟨xs, hxs, _, hs, rfl⟩

end Grammar

namespace Naja

open Grammar GrammarCompiler.Derivation

/-! ### The rules by name -/

theorem rules?_program :
    grammar.rules? programKind = some ([[.nonTerminal functionKind]].map .sequence) := rfl

theorem rules?_function : grammar.rules? functionKind =
    some ((headings.map fun cs => cs.map lexemeOf ++ [.nonTerminal statementKind]).map
      .sequence) := rfl

theorem rules?_statement : grammar.rules? statementKind =
    some ([[.nonTerminal indentKind, lexemeOf .returnWord, .nonTerminal expressionKind]].map
      .sequence) := rfl

theorem rules?_indent : grammar.rules? indentKind =
    some (([Category.indent, .tab].map fun c => [lexemeOf c]).map .sequence) := rfl

theorem rules?_level (level : Level) : grammar.rules? level.kind =
    some ([[.nonTerminal level.operand.kind, .repetition level.body]].map .sequence) := by
  cases level <;> rfl

theorem rules?_signs (level : Level) : grammar.rules? level.signKind =
    some ((level.signs.map fun c => [lexemeOf c]).map .sequence) := by
  cases level <;> rfl

theorem rules?_factor : grammar.rules? factorKind =
    some ([[lexemeOf .parenOpen, .nonTerminal expressionKind, lexemeOf .parenClose],
      [.nonTerminal unaryKind], [lexemeOf .intLiteral]].map .sequence) := rfl

theorem rules?_unary : grammar.rules? unaryKind =
    some ((unarySigns.map fun c => [lexemeOf c, .nonTerminal factorKind]).map .sequence) := rfl

/-! ### From derivations to phrases -/

theorem exists_lexemeOf {c : Category} {categories : List Category} (hc : c ∈ categories)
    {d : Derivation} (h : DerivesSymbol grammar (lexemeOf c) d) :
    ∃ l : LexemeOf categories, l.category = c ∧ d = .terminal l.lexeme := by
  cases h with
  | @terminal _ l hk => exact ⟨⟨c, hc, l, hk⟩, rfl, rfl⟩

theorem exists_choice {kind : String} {categories : List Category}
    (hrules : grammar.rules? kind = some ((categories.map fun c => [lexemeOf c]).map .sequence))
    {d : Derivation} (h : DerivesSymbol grammar (.nonTerminal kind) d) :
    ∃ l : LexemeOf categories, d = l.choice kind := by
  obtain ⟨xs, hxs, ds, hds, rfl⟩ := h.exists_sequence hrules
  obtain ⟨c, hc, rfl⟩ := List.mem_map.1 hxs
  cases hds with
  | cons hd hnil =>
      cases hnil
      obtain ⟨l, rfl, rfl⟩ := exists_lexemeOf hc hd
      exact ⟨l, rfl⟩

/-- A derivation of a level: an operand, and the rounds behind it. -/
theorem exists_level {level : Level} {d : Derivation}
    (h : DerivesSymbol grammar (.nonTerminal level.kind) d) :
    ∃ first rounds, DerivesSymbol grammar (.nonTerminal level.operand.kind) first ∧
      DerivesRounds grammar level.body rounds ∧
      d = .nonTerminal level.kind level.rule [[first, .repetition level.body rounds]] := by
  obtain ⟨xs, hxs, ds, hds, rfl⟩ := h.exists_sequence (rules?_level level)
  obtain rfl := List.mem_singleton.1 hxs
  cases hds with
  | cons hfirst hmore =>
      cases hmore with
      | cons hrounds hnil =>
          cases hnil
          cases hrounds with
          | repetition hrounds => exact ⟨_, _, hfirst, hrounds, rfl⟩

/-- The parts of a derivation are smaller than the whole. -/
theorem sizeOf_lt_of_mem {d e : Derivation} {name : String} {rule : Rule} {ds : List Derivation}
    (hd : d = .nonTerminal name rule [ds]) (he : e ∈ ds) : sizeOf e < sizeOf d := by
  have hlt := List.sizeOf_lt_of_mem he
  subst hd
  simp only [nonTerminal.sizeOf_spec, List.cons.sizeOf_spec]
  omega

mutual
/-- The derivations of the symbols of expressions are those of phrases. -/
theorem exists_phrase {part : Part} {d : Derivation}
    (h : DerivesSymbol grammar (.nonTerminal part.kind) d) :
    ∃ p : Phrase part, p.derivation = d := by
  match part with
  | .operands level =>
      obtain ⟨first, rounds, hfirst, hrounds, hd⟩ := exists_level h
      -- The recursion is on the size of the derivation.
      have hlt : sizeOf first < sizeOf d := sizeOf_lt_of_mem hd (by simp)
      have hlt' : sizeOf rounds < sizeOf d := by
        have hrep : sizeOf (repetition level.body rounds) < sizeOf d :=
          sizeOf_lt_of_mem hd (by simp)
        rw [repetition.sizeOf_spec] at hrep
        omega
      obtain ⟨p, hp⟩ := exists_phrase hfirst
      obtain ⟨r, hr⟩ := exists_rounds hrounds
      exact ⟨.operands p r, by rw [Phrase.derivation, hp, hr, hd]⟩
  | .factor =>
      obtain ⟨xs, hxs, ds, hds, hd⟩ := h.exists_sequence rules?_factor
      rcases List.mem_cons.1 hxs with rfl | hxs
      · match ds, hds with
        | [d₁, inner, d₃], .cons h₁ (.cons h₂ (.cons h₃ .nil)) =>
            have hlt : sizeOf inner < sizeOf d := sizeOf_lt_of_mem hd (by simp)
            obtain ⟨opening, -, rfl⟩ := exists_lexemeOf (List.mem_singleton.2 rfl) h₁
            obtain ⟨p, hp⟩ := @exists_phrase (.operands .additive) inner h₂
            obtain ⟨closing, -, rfl⟩ := exists_lexemeOf (List.mem_singleton.2 rfl) h₃
            exact ⟨.parens opening p closing, by rw [Phrase.derivation, hp, hd, Part.kind]⟩
      rcases List.mem_cons.1 hxs with rfl | hxs
      · match ds, hds with
        | [unary], .cons hunary .nil =>
            have hlt : sizeOf unary < sizeOf d := sizeOf_lt_of_mem hd (by simp)
            obtain ⟨p, hp⟩ := @exists_phrase .unary unary hunary
            exact ⟨.signed p, by rw [Phrase.derivation, hp, hd, Part.kind]⟩
      obtain rfl := List.mem_singleton.1 hxs
      match ds, hds with
      | [_], .cons hdigits .nil =>
          obtain ⟨digits, hc, rfl⟩ := exists_lexemeOf (List.mem_singleton.2 rfl) hdigits
          exact ⟨.literal digits, by rw [Phrase.derivation, LexemeOf.choice, hc, hd, Part.kind]⟩
  | .unary =>
      obtain ⟨xs, hxs, ds, hds, hd⟩ := h.exists_sequence rules?_unary
      obtain ⟨c, hc, rfl⟩ := List.mem_map.1 hxs
      match ds, hds with
      | [_, operand], .cons hsign (.cons hoperand .nil) =>
          have hlt : sizeOf operand < sizeOf d := sizeOf_lt_of_mem hd (by simp)
          obtain ⟨sign, rfl, rfl⟩ := exists_lexemeOf hc hsign
          obtain ⟨p, hp⟩ := @exists_phrase .factor operand hoperand
          exact ⟨.unary sign p, by rw [Phrase.derivation, hp, hd, Part.kind]⟩
termination_by sizeOf d
decreasing_by all_goals assumption

theorem exists_rounds {level : Level} {rounds : List (List Derivation)}
    (h : DerivesRounds grammar level.body rounds) :
    ∃ r : Rounds level, r.derivations = rounds := by
  match rounds, h with
  | [], .none => exact ⟨.stop, by rw [Rounds.derivations]⟩
  | [_, operand] :: rounds, .round (.cons hsign (.cons hoperand .nil)) hrounds =>
      obtain ⟨sign, rfl⟩ := exists_choice (rules?_signs level) hsign
      obtain ⟨p, hp⟩ := exists_phrase hoperand
      obtain ⟨r, hr⟩ := exists_rounds hrounds
      exact ⟨.round sign p r, by rw [Rounds.derivations, hp, hr]⟩
termination_by sizeOf rounds
end

/-- A derivation of a sequence that begins with terminals begins with their lexemes. -/
theorem exists_terminals {categories : List Category} {xs : List Symbol} {ds : List Derivation}
    (h : DerivesSequence grammar (categories.map lexemeOf ++ xs) ds) :
    ∃ (ls : List Lexeme) (more : List Derivation), DerivesSequence grammar xs more ∧
      ls.map Lexeme.kind = categories.map Category.name ∧ ds = ls.map .terminal ++ more := by
  induction categories generalizing ds with
  | nil => exact ⟨[], ds, h, rfl, rfl⟩
  | cons c cs ih =>
      cases h with
      | cons hd hds =>
          cases hd with
          | @terminal _ l hk =>
              obtain ⟨ls, more, hmore, hls, rfl⟩ := ih hds
              exact ⟨l :: ls, more, hmore, by rw [List.map_cons, List.map_cons, hk, hls], rfl⟩

theorem exists_statement {d : Derivation}
    (h : DerivesSymbol grammar (.nonTerminal statementKind) d) :
    ∃ (indent : LexemeOf [.indent, .tab]) (word : LexemeOf [.returnWord])
      (result : Phrase (.operands .additive)),
      d = .nonTerminal statementKind
        (.sequence [.nonTerminal indentKind, lexemeOf .returnWord, .nonTerminal expressionKind])
        [[indent.choice indentKind, .terminal word.lexeme, result.derivation]] := by
  obtain ⟨xs, hxs, ds, hds, rfl⟩ := h.exists_sequence rules?_statement
  obtain rfl := List.mem_singleton.1 hxs
  match ds, hds with
  | [_, _, result], .cons hindent (.cons hreturn (.cons hresult .nil)) =>
      obtain ⟨indent, rfl⟩ := exists_choice rules?_indent hindent
      obtain ⟨word, -, rfl⟩ := exists_lexemeOf (List.mem_singleton.2 rfl) hreturn
      obtain ⟨p, rfl⟩ := @exists_phrase (.operands .additive) result hresult
      exact ⟨indent, word, p, rfl⟩

/-- The derivations of the grammar are those of programs. -/
theorem exists_programPhrase {d : Derivation} (h : grammar.Derives d) :
    ∃ p : ProgramPhrase, p.derivation = d := by
  obtain ⟨xs, hxs, ds, hds, rfl⟩ := h.exists_sequence rules?_program
  obtain rfl := List.mem_singleton.1 hxs
  match ds, hds with
  | [_], .cons hfunction .nil =>
      obtain ⟨xs, hxs, ds, hds, rfl⟩ := hfunction.exists_sequence rules?_function
      obtain ⟨categories, hmem, rfl⟩ := List.mem_map.1 hxs
      obtain ⟨heading, more, hmore, hkinds, rfl⟩ := exists_terminals hds
      match more, hmore with
      | [_], .cons hstatement .nil =>
          obtain ⟨indent, word, result, rfl⟩ := exists_statement hstatement
          exact ⟨⟨categories, hmem, heading, hkinds, indent, word, result⟩, rfl⟩

/-! ### Ordered choice on phrases -/

section

variable {g : Grammar} {categories : List Category}

/-- Among alternatives that begin with different terminals the first lexeme selects one. -/
theorem choiceRuns_of_mem {c : Category} (hc : c ∈ categories) {l : Lexeme}
    (hk : l.kind = c.name) {more : List Symbol} {ls rest : List Lexeme} {ts : List Tree}
    (h : SequenceRuns g more ls (some (ts, rest))) :
    ChoiceRuns g ((categories.map fun c => lexemeOf c :: more).map .sequence) (l :: ls)
      (some (.ofLexeme l :: ts, rest)) := by
  induction categories with
  | nil => cases hc
  | cons c' cs ih =>
      rcases List.mem_cons.1 hc with rfl | hc
      · exact .first (.sequence (.cons (.hit hk) h))
      by_cases hk' : l.kind = c'.name
      · exact .first (.sequence (.cons (.hit hk') h))
      · exact .later (.sequence (.fails (.miss hk'))) (ih hc)

theorem choiceRuns_of_not_mem {more : List Symbol} {ls : List Lexeme}
    (h : ∀ l ∈ ls.head?, ∀ c ∈ categories, l.kind ≠ c.name) :
    ChoiceRuns g ((categories.map fun c => lexemeOf c :: more).map .sequence) ls none := by
  induction categories with
  | nil => exact .nil
  | cons c cs ih =>
      refine .later (.sequence (.fails ?_))
        (ih fun l hl d hd => h l hl d (List.mem_cons_of_mem _ hd))
      cases ls with
      | nil => exact .atEnd
      | cons l ls => exact .miss (h l rfl c (List.mem_cons_self ..))

/-- A sequence that begins with terminals does behind their lexemes what the rest of it does. -/
theorem sequenceRuns_terminals {heading : List Lexeme}
    (hk : heading.map Lexeme.kind = categories.map Category.name) {more : List Symbol}
    {ls : List Lexeme} {v : Verdict} (h : SequenceRuns g more ls v) :
    SequenceRuns g (categories.map lexemeOf ++ more) (heading ++ ls)
      (v.map fun (ts, rest) => (heading.map .ofLexeme ++ ts, rest)) := by
  induction categories generalizing heading with
  | nil =>
      obtain rfl : heading = [] := by simpa using hk
      cases v <;> exact h
  | cons c cs ih =>
      cases heading with
      | nil => cases hk
      | cons l heading =>
          obtain ⟨hl, hk⟩ := List.cons.inj hk
          cases v with
          | none => exact .failsLater (.hit hl) (ih hk)
          | some result =>
              obtain ⟨ts, rest⟩ := result
              change SequenceRuns g (lexemeOf c :: (cs.map lexemeOf ++ more)) _
                (some ([.ofLexeme l] ++ (heading.map .ofLexeme ++ ts), rest))
              exact .cons (.hit hl) (ih hk)

end

/-- Where no alternative of a choice can begin, the choice fails. -/
theorem choice_refused {kind : String} {categories : List Category} {more : List Symbol}
    (hrules : grammar.rules? kind =
      some ((categories.map fun c => lexemeOf c :: more).map .sequence))
    {ls : List Lexeme} (h : ∀ l ∈ ls.head?, ∀ c ∈ categories, l.kind ≠ c.name) :
    SymbolRuns grammar (.nonTerminal kind) ls none :=
  .refused hrules (choiceRuns_of_not_mem h)

theorem LexemeOf.choice_runs {categories : List Category} (l : LexemeOf categories)
    {kind : String}
    (hrules : grammar.rules? kind = some ((categories.map fun c => [lexemeOf c]).map .sequence))
    (rest : List Lexeme) :
    SymbolRuns grammar (.nonTerminal kind) (l.lexeme :: rest)
      (some ((l.choice kind).trees, rest)) :=
  .chosen hrules (choiceRuns_of_mem l.mem l.kind_eq .nil)

/-- The node of a non-terminal whose chosen alternative is a sequence. -/
theorem symbolRuns_of_sequence {name : String} {rules : List Rule} {rule : Rule}
    {ds : List Derivation} {ls rest : List Lexeme} (hrules : grammar.rules? name = some rules)
    (h : ChoiceRuns grammar rules ls (some (partsTrees ds, rest))) :
    SymbolRuns grammar (.nonTerminal name) ls (some ((nonTerminal name rule [ds]).trees, rest)) := by
  have hrun := SymbolRuns.chosen hrules h
  rwa [← List.append_nil (partsTrees ds)] at hrun

mutual
theorem Phrase.runs {part : Part} (p : Phrase part) {rest : List Lexeme}
    (h : part.Closed rest) :
    SymbolRuns grammar (.nonTerminal part.kind) (p.lexemes ++ rest)
      (some (p.derivation.trees, rest)) := by
  match p with
  | @Phrase.operands level first rounds =>
      -- The rounds begin with a sign of this level, which no operand goes on with.
      have hfirst := first.runs (rounds.closed_operand h)
      have hrounds := SymbolRuns.rounds (rounds.runs h)
      rw [fragment_roundsTrees rounds.roundsTrees_ne_nil] at hrounds
      rw [Phrase.lexemes_operands, List.append_assoc, Phrase.derivation]
      refine symbolRuns_of_sequence (rules?_level level) (.first (.sequence ?_))
      exact .cons hfirst (.cons hrounds .nil)
  | .parens opening inner closing =>
      have hinner := inner.runs (Part.closed_cons closing (by decide) rest)
      rw [Phrase.lexemes_parens, List.cons_append, List.append_assoc, Phrase.derivation]
      refine symbolRuns_of_sequence rules?_factor (.first (.sequence ?_))
      exact .cons (.hit opening.kind_eq_of_singleton)
        (.cons hinner (.cons (.hit closing.kind_eq_of_singleton) .nil))
  | .signed (.unary sign operand) =>
      have hunary := (Phrase.unary sign operand).runs h
      rw [Phrase.lexemes_signed, Phrase.derivation]
      refine symbolRuns_of_sequence rules?_factor (.later ?_ (.first (.sequence ?_)))
      · rw [Phrase.lexemes_unary]
        exact .sequence (.fails (.miss (sign.kind_ne (by decide))))
      · exact .cons hunary .nil
  | .literal digits =>
      rw [Phrase.lexemes_literal, Phrase.derivation]
      -- At digits the parenthesis and all unary operators fail.
      refine symbolRuns_of_sequence rules?_factor (.later ?_ (.later ?_ (.first (.sequence ?_))))
      · exact .sequence (.fails (.miss (digits.kind_ne (by decide))))
      · exact .sequence (.fails
          (choice_refused rules?_unary (digits.head_kind_ne (by decide) rest)))
      · exact .cons (.hit digits.kind_eq_of_singleton) .nil
  | .unary sign operand =>
      have hoperand := SequenceRuns.cons (operand.runs h) .nil
      rw [Phrase.lexemes_unary, Phrase.derivation]
      exact symbolRuns_of_sequence rules?_unary
        (choiceRuns_of_mem sign.mem sign.kind_eq hoperand)
termination_by structural p

theorem Rounds.runs {level : Level} (p : Rounds level) {rest : List Lexeme}
    (h : (Part.operands level).Closed rest) :
    RoundsRun grammar level.body (p.lexemes ++ rest) (roundsTrees p.derivations) rest := by
  match p with
  | .stop =>
      rw [Rounds.derivations, Rounds.lexemes_stop]
      -- One more round would have to begin with a sign, and the rest is closed to signs.
      refine .fails (.fails (choice_refused (rules?_signs level) ?_))
      intro l hl c hc
      exact h l hl c (Level.mem_extensions hc)
  | .round sign operand more =>
      have hoperand := operand.runs (more.closed_operand h)
      rw [Rounds.lexemes_round, List.cons_append, List.append_assoc, Rounds.derivations]
      have hsign := sign.choice_runs (rules?_signs level)
        (operand.lexemes ++ (more.lexemes ++ rest))
      refine .round (.cons hsign (.cons hoperand .nil)) ?_ (more.runs h)
      intro he
      have hlen := congrArg List.length he
      simp only [List.length_cons, List.length_append] at hlen
      omega
termination_by structural p
end

theorem ProgramPhrase.statement_runs (p : ProgramPhrase) :
    SymbolRuns grammar (.nonTerminal statementKind)
      (p.indent.lexeme :: p.returnWord.lexeme :: p.result.lexemes)
      (some (p.statement.trees, [])) := by
  have hindent := p.indent.choice_runs rules?_indent (p.returnWord.lexeme :: p.result.lexemes)
  have hresult := p.result.runs (Part.closed_nil _)
  rw [List.append_nil] at hresult
  refine symbolRuns_of_sequence rules?_statement (.first (.sequence ?_))
  exact .cons hindent (.cons (.hit p.returnWord.kind_eq_of_singleton) (.cons hresult .nil))

/-- A heading without parentheses is not mistaken for one with parentheses. -/
theorem heading_refused {heading : List Lexeme} {x y : List Category}
    (hk : heading.map Lexeme.kind =
      ([.defWord, .identifier] ++ .asWord :: x : List Category).map Category.name)
    {more : List Symbol} {ls : List Lexeme} :
    SequenceRuns grammar
      (([.defWord, .identifier] ++ .parenOpen :: y : List Category).map lexemeOf ++ more)
      (heading ++ ls) none := by
  rw [List.map_append] at hk
  obtain ⟨front, back, rfl, hfront, hback⟩ := List.map_eq_append_iff.1 hk
  obtain ⟨l, back, rfl, hl, -⟩ := List.map_eq_cons_iff.1 hback
  have hmiss : l.kind ≠ Category.parenOpen.name := by
    rw [hl]
    decide
  rw [List.map_append, List.append_assoc, List.append_assoc]
  exact sequenceRuns_terminals hfront (.fails (.miss hmiss))

theorem ProgramPhrase.function_runs (p : ProgramPhrase) :
    SymbolRuns grammar (.nonTerminal functionKind) p.lexemes (some (p.function.trees, [])) := by
  have hrun : SequenceRuns grammar (p.categories.map lexemeOf ++ [.nonTerminal statementKind])
      p.lexemes (some (partsTrees (p.heading.map .terminal ++ [p.statement]), [])) := by
    rw [p.lexemes_eq, partsTrees_terminals]
    exact sequenceRuns_terminals p.kinds_eq (SequenceRuns.cons p.statement_runs .nil)
  refine symbolRuns_of_sequence rules?_function ?_
  rcases List.mem_cons.1 p.mem with hc | hmem
  · rw [hc] at hrun
    exact .first (.sequence hrun)
  · have hc := List.mem_singleton.1 hmem
    have hk := p.kinds_eq
    rw [hc] at hrun hk
    refine .later (.sequence ?_) (.first (.sequence hrun))
    rw [p.lexemes_eq]
    exact heading_refused hk

/-- Ordered choice accepts every program, with the tree of its derivation. -/
theorem ProgramPhrase.accepts (p : ProgramPhrase) {tree : Tree}
    (h : p.derivation.trees = [tree]) : grammar.Accepts p.lexemes tree := by
  refine ⟨_, _, rules?_program, .sequence (.cons p.function_runs .nil), ?_⟩
  have htree := List.head_eq_of_cons_eq h
  rw [← htree, roundsTrees, roundsTrees, List.append_nil]
  rfl

end Naja

end GrammarCompiler
