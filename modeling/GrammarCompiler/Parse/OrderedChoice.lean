import GrammarCompiler.Parse.Descent

/-!
Ordered choice with greedy repetition, as a relation on lists of significant
lexemes. There is no cursor, no rewinding and no bound: a symbol consumes the
front of a list and leaves the rest, or it fails. Failing is a judgement of
its own, because an alternative may be chosen only if all before it fail, and
because a repetition ends where its body fails.

A round that consumes nothing ends a repetition and contributes nothing.
-/

namespace GrammarCompiler.Grammar

/-- What a symbol does to a list of lexemes: the fragment it contributes and the lexemes it
leaves, or `none` if it fails. -/
abbrev Verdict := Option (List Tree × List Lexeme)

mutual
inductive SymbolRuns (g : Grammar) : Symbol → List Lexeme → Verdict → Prop where
  | hit {kind : String} {l : Lexeme} {ls : List Lexeme} :
    l.kind = kind → SymbolRuns g (.terminal kind) (l :: ls) (some ([.ofLexeme l], ls))
  | miss {kind : String} {l : Lexeme} {ls : List Lexeme} :
    l.kind ≠ kind → SymbolRuns g (.terminal kind) (l :: ls) none
  | atEnd {kind : String} : SymbolRuns g (.terminal kind) [] none
  | undefined {name : String} {ls : List Lexeme} :
    g.rules? name = none → SymbolRuns g (.nonTerminal name) ls none
  | refused {name : String} {rules : List Rule} {ls : List Lexeme} :
    g.rules? name = some rules → ChoiceRuns g rules ls none →
      SymbolRuns g (.nonTerminal name) ls none
  | chosen {name : String} {rules : List Rule} {ls rest : List Lexeme} {ts : List Tree} :
    g.rules? name = some rules → ChoiceRuns g rules ls (some (ts, rest)) →
      SymbolRuns g (.nonTerminal name) ls (some ([.ofSymbol name ts], rest))
  | rounds {body : List Symbol} {ls rest : List Lexeme} {ts : List Tree} :
    RoundsRun g body ls ts rest →
      SymbolRuns g (.repetition body) ls
        (some (Descent.fragment repetitionKind (Symbol.renderRepetition body) ts, rest))

inductive SequenceRuns (g : Grammar) : List Symbol → List Lexeme → Verdict → Prop where
  | nil {ls : List Lexeme} : SequenceRuns g [] ls (some ([], ls))
  | fails {x : Symbol} {xs : List Symbol} {ls : List Lexeme} :
    SymbolRuns g x ls none → SequenceRuns g (x :: xs) ls none
  | failsLater {x : Symbol} {xs : List Symbol} {ls ms : List Lexeme} {ts : List Tree} :
    SymbolRuns g x ls (some (ts, ms)) → SequenceRuns g xs ms none →
      SequenceRuns g (x :: xs) ls none
  | cons {x : Symbol} {xs : List Symbol} {ls ms rest : List Lexeme} {ts us : List Tree} :
    SymbolRuns g x ls (some (ts, ms)) → SequenceRuns g xs ms (some (us, rest)) →
      SequenceRuns g (x :: xs) ls (some (ts ++ us, rest))

/-- The rounds of a repetition, which never fail. -/
inductive RoundsRun (g : Grammar) : List Symbol → List Lexeme → List Tree → List Lexeme → Prop where
  | fails {body : List Symbol} {ls : List Lexeme} :
    SequenceRuns g body ls none → RoundsRun g body ls [] ls
  | standsStill {body : List Symbol} {ls : List Lexeme} {ts : List Tree} :
    SequenceRuns g body ls (some (ts, ls)) → RoundsRun g body ls [] ls
  | round {body : List Symbol} {ls ms rest : List Lexeme} {ts us : List Tree} :
    SequenceRuns g body ls (some (ts, ms)) → ms ≠ ls → RoundsRun g body ms us rest →
      RoundsRun g body ls (ts ++ us) rest

inductive RuleRuns (g : Grammar) : Rule → List Lexeme → Verdict → Prop where
  | sequence {symbols : List Symbol} {ls : List Lexeme} {v : Verdict} :
    SequenceRuns g symbols ls v → RuleRuns g (.sequence symbols) ls v
  | repetition {body : List Symbol} {ls rest : List Lexeme} {ts : List Tree} :
    RoundsRun g body ls ts rest → RuleRuns g (.repetition body) ls (some (ts, rest))

/-- The first alternative that succeeds. -/
inductive ChoiceRuns (g : Grammar) : List Rule → List Lexeme → Verdict → Prop where
  | nil {ls : List Lexeme} : ChoiceRuns g [] ls none
  | first {rule : Rule} {rules : List Rule} {ls rest : List Lexeme} {ts : List Tree} :
    RuleRuns g rule ls (some (ts, rest)) → ChoiceRuns g (rule :: rules) ls (some (ts, rest))
  | later {rule : Rule} {rules : List Rule} {ls : List Lexeme} {v : Verdict} :
    RuleRuns g rule ls none → ChoiceRuns g rules ls v → ChoiceRuns g (rule :: rules) ls v
end

/-- The start symbol consumes all lexemes, with the given syntax tree. -/
def Accepts (g : Grammar) (ls : List Lexeme) (t : Tree) : Prop :=
  ∃ rule ts, g.rules? g.start = some [rule] ∧ RuleRuns g rule ls (some (ts, [])) ∧
    t = .ofSymbol g.start ts

end GrammarCompiler.Grammar
