import GrammarCompiler.Naja.Compile
import GrammarCompiler.Proofs.Lexing
import GrammarCompiler.Proofs.OrderedChoice
import GrammarCompiler.Proofs.PhraseParsing
import GrammarCompiler.Proofs.Termination

/-!
The language of the Naja parser. The parser runs ordered choice on the
significant lexemes of the source, ordered choice derives what it accepts and
accepts every program, and every derivation is one of a program; so the parser
accepts what the grammar derives, and the tree that it returns is that of the
only derivation there is.
-/

namespace GrammarCompiler.Naja

open Grammar

/-! ### The parser as ordered choice -/

/-- Every alternative calls non-terminals that are defined later, except behind a lexeme. -/
def rank (name : String) : Nat := 9 - grammar.nonTerminals.idxOf name

theorem ranks_grammar : grammar.Ranks rank grammar.entries.length := by
  refine ranks_of_entries (by decide) ?_
  intro name
  change 9 - _ < 10
  omega

theorem sentinelFree_grammar : grammar.SentinelFree := sentinelFree_of_entries (by decide)

theorem parseStream_eq_ok_iff {s : Stream} {tree : Tree} :
    parseStream s = .ok tree ↔ (grammar.parse s).result? = some (.ok tree) := by
  rw [parseStream]
  cases grammar.parse s <;> simp [Outcome.result?]

/-- The parser returns on every stream, so that nothing is said about a return. -/
theorem parseStream_eq_ok_iff_accepts {s : Stream} (hs : s.Tidy) {tree : Tree} :
    parseStream s = .ok tree ↔ grammar.Accepts s.significant tree := by
  rw [parseStream_eq_ok_iff]
  exact parseAt_ok_iff_accepts sentinelFree_grammar (by decide) hs
    (parse_returns ranks_grammar (Stream.isInsignificant_endOfStream hs.sentinel_kept)) tree

theorem parse_eq_ok_iff_accepts {source : String} {s : Stream}
    (h : tokenize (Text.trim source) = .ok s) {tree : Tree} :
    parse source = .ok tree ↔ grammar.Accepts s.significant tree := by
  rw [parse, h]
  exact parseStream_eq_ok_iff_accepts (tidy_of_tokenize h)

/-! ### The language -/

/-- Ordered choice finds every derivation. -/
theorem accepts_iff_exists_derivation {ls : List Lexeme} {tree : Tree} :
    grammar.Accepts ls tree ↔ ∃ d, grammar.Derives d ∧ d.lexemes = ls ∧ d.trees = [tree] := by
  constructor
  · exact Accepts.exists_derivation
  · rintro ⟨d, hd, rfl, htree⟩
    obtain ⟨p, rfl⟩ := exists_programPhrase hd
    exact p.accepts htree

theorem exists_trees_of_derives {d : Derivation} (h : grammar.Derives d) :
    ∃ tree, d.trees = [tree] := by
  obtain ⟨p, rfl⟩ := exists_programPhrase h
  rw [ProgramPhrase.derivation, Derivation.trees]
  exact ⟨_, rfl⟩

theorem derivation_unique {d d' : Derivation} (h : grammar.Derives d) (h' : grammar.Derives d')
    (he : d.lexemes = d'.lexemes) : d = d' := by
  obtain ⟨p, rfl⟩ := exists_programPhrase h
  obtain ⟨p', rfl⟩ := exists_programPhrase h'
  rw [ProgramPhrase.unique he]

/-- What the parser accepts is a program made of lexemes of the language. -/
theorem exists_programPhrase_of_parse {source : String} {tree : Tree}
    (h : parse source = .ok tree) :
    ∃ p : ProgramPhrase, p.derivation.trees = [tree] ∧ ∀ l ∈ p.lexemes, IsLexical l := by
  cases hs : tokenize (Text.trim source) with
  | error e => simp [parse, hs] at h
  | ok s =>
      obtain ⟨d, hd, hlexemes, htree⟩ :=
        ((parse_eq_ok_iff_accepts hs).1 h).exists_derivation
      obtain ⟨p, rfl⟩ := exists_programPhrase hd
      refine ⟨p, htree, fun l hl => isLexical_of_tokenize hs ?_⟩
      rw [ProgramPhrase.lexemes, hlexemes] at hl
      exact Stream.mem_lexemes_of_mem_significant hl

/-- The parser accepts a source exactly if the categories of its lexemes, without spaces, are
derived by the grammar; the tree is that of the derivation; and no two derivations derive the same
lexemes. -/
theorem parse_accepts_context_free_language (source : String) (s : Stream)
    (h : tokenize (Text.trim source) = .ok s) :
    ((∃ tree, parse source = .ok tree) ↔
      ∃ d, grammar.Derives d ∧ d.lexemes.map Lexeme.kind =
        (s.lexemes.filter fun l => l.kind ≠ Category.space.name).map Lexeme.kind) ∧
    (∀ tree, parse source = .ok tree ↔
      ∃ d, grammar.Derives d ∧
        d.lexemes = (s.lexemes.filter fun l => l.kind ≠ Category.space.name) ∧
        d.trees = [tree]) ∧
    ∀ d d', grammar.Derives d → grammar.Derives d' → d.lexemes = d'.lexemes → d = d' := by
  rw [← significant_of_tokenize h]
  have htree : ∀ tree, parse source = .ok tree ↔
      ∃ d, grammar.Derives d ∧ d.lexemes = s.significant ∧ d.trees = [tree] := by
    intro tree
    rw [parse_eq_ok_iff_accepts h, accepts_iff_exists_derivation]
  refine ⟨⟨?_, ?_⟩, htree, fun d d' => derivation_unique⟩
  · rintro ⟨tree, hparse⟩
    obtain ⟨d, hd, hlexemes, -⟩ := (htree tree).1 hparse
    exact ⟨d, hd, by rw [hlexemes]⟩
  · rintro ⟨d, hd, hkinds⟩
    -- The grammar only looks at categories, so the derivation can have the lexemes of the source.
    obtain ⟨d', hd', hlexemes⟩ := DerivesSymbol.relabel hd s.significant hkinds.symm
    obtain ⟨tree, ht⟩ := exists_trees_of_derives hd'
    exact ⟨tree, (htree tree).2 ⟨d', hd', hlexemes, ht⟩⟩

theorem eq_ok_of_toOption {ε α : Type} {x : Except ε α} {a : α} (h : x.toOption = some a) :
    x = .ok a := by
  cases x with
  | error e => cases h
  | ok b => rw [Option.some.inj h]

/-- A source with a difference and a product. -/
def differenceSource : String := "\ndef f as int:\n\treturn 8 - 2 * 3\n"

/-- The lexemes of the source without the line breaks around it. -/
def differenceLexemes : List Lexeme :=
  [⟨"Def", "def", 1, 1⟩, ⟨"Space", " ", 1, 4⟩, ⟨"Identifier", "f", 1, 5⟩,
   ⟨"Space", " ", 1, 6⟩, ⟨"As", "as", 1, 7⟩, ⟨"Space", " ", 1, 9⟩, ⟨"Int", "int", 1, 10⟩,
   ⟨"Colon", ":", 1, 13⟩, ⟨"NewLine", "\n", 1, 14⟩, ⟨"Tab", "\t", 2, 1⟩,
   ⟨"Return", "return", 2, 2⟩, ⟨"Space", " ", 2, 8⟩, ⟨"IntLiteral", "8", 2, 9⟩,
   ⟨"Space", " ", 2, 10⟩, ⟨"Minus", "-", 2, 11⟩, ⟨"Space", " ", 2, 12⟩,
   ⟨"IntLiteral", "2", 2, 13⟩, ⟨"Space", " ", 2, 14⟩, ⟨"Multiply", "*", 2, 15⟩,
   ⟨"Space", " ", 2, 16⟩, ⟨"IntLiteral", "3", 2, 17⟩]

/-- The product binds closer than the difference, and the term in front of the difference has no
rounds. -/
def differenceTree : Tree :=
  .ofSymbol programKind
    [.ofSymbol functionKind
      [.node "Def" "def" [], .node "Identifier" "f" [], .node "As" "as" [], .node "Int" "int" [],
       .node "Colon" ":" [], .node "NewLine" "\n" [],
       .ofSymbol statementKind
        [.ofSymbol indentKind [.node "Tab" "\t" []], .node "Return" "return" [],
         .ofSymbol expressionKind
          [.ofSymbol termKind [.ofSymbol factorKind [.node "IntLiteral" "8" []]],
           .node repetitionKind "\x7b additive , term \x7d"
            [.ofSymbol additiveKind [.node "Minus" "-" []],
             .ofSymbol termKind
              [.ofSymbol factorKind [.node "IntLiteral" "2" []],
               .node repetitionKind "\x7b multiplicative , factor \x7d"
                [.ofSymbol multiplicativeKind [.node "Multiply" "*" []],
                 .ofSymbol factorKind [.node "IntLiteral" "3" []]]]]]]]]

theorem parse_differenceSource : parse differenceSource = .ok differenceTree :=
  eq_ok_of_toOption (by decide +kernel)

theorem exists_derivation_of_difference :
    tokenize (Text.trim differenceSource) =
      .ok ((Stream.ofLexemes differenceLexemes).skipping ["Space"]) ∧
    parse differenceSource = .ok differenceTree ∧
    ∃ d, grammar.Derives d ∧
      d.lexemes = differenceLexemes.filter (fun l => l.kind ≠ Category.space.name) ∧
      d.trees = [differenceTree] := by
  have hlexemes : tokenize (Text.trim differenceSource) =
      .ok ((Stream.ofLexemes differenceLexemes).skipping ["Space"]) :=
    eq_ok_of_toOption (by decide +kernel)
  refine ⟨hlexemes, parse_differenceSource, ?_⟩
  exact ((parse_accepts_context_free_language _ _ hlexemes).2.1 _).1 parse_differenceSource

end GrammarCompiler.Naja
