import GrammarCompiler.Grammar.Printer
import GrammarCompiler.Grammar.WellFormed
import GrammarCompiler.Tree

/-!
Grammars read as context-free grammars. Alternatives have no order, and a
repetition stands for any number of rounds: nothing is said about which
alternative or how many rounds a parser would choose.

A derivation keeps every choice that it makes: the alternative of each
non-terminal and the rounds of each repetition. What it spans and which
syntax tree it stands for are functions of it, so that two derivations of the
same lexemes may still be told apart.
-/

namespace GrammarCompiler

/-- A derivation of a symbol. An alternative that is a sequence counts as one round. -/
inductive Derivation where
  | terminal (lexeme : Lexeme)
  | nonTerminal (name : String) (rule : Rule) (rounds : List (List Derivation))
  | repetition (body : List Symbol) (rounds : List (List Derivation))
deriving Repr, Inhabited

namespace Derivation

mutual
/-- The lexemes that a derivation spans, in order. -/
@[simp] def lexemes : Derivation → List Lexeme
  | .terminal lexeme => [lexeme]
  | .nonTerminal _ _ rounds => roundsLexemes rounds
  | .repetition _ rounds => roundsLexemes rounds

@[simp] def partsLexemes : List Derivation → List Lexeme
  | [] => []
  | d :: ds => d.lexemes ++ partsLexemes ds

@[simp] def roundsLexemes : List (List Derivation) → List Lexeme
  | [] => []
  | round :: rounds => partsLexemes round ++ roundsLexemes rounds
end

mutual
/-- The fragment of a syntax tree that a derivation contributes. The rounds of a repetition are
collected under one node, and a repetition without rounds has none. -/
@[simp] def trees : Derivation → List Tree
  | .terminal lexeme => [.ofLexeme lexeme]
  | .nonTerminal name _ rounds => [.ofSymbol name (roundsTrees rounds)]
  | .repetition _ [] => []
  | .repetition body (round :: rounds) =>
    [.node repetitionKind (Symbol.renderRepetition body)
      (partsTrees round ++ roundsTrees rounds)]

@[simp] def partsTrees : List Derivation → List Tree
  | [] => []
  | d :: ds => d.trees ++ partsTrees ds

@[simp] def roundsTrees : List (List Derivation) → List Tree
  | [] => []
  | round :: rounds => partsTrees round ++ roundsTrees rounds
end

theorem partsLexemes_terminals (ls : List Lexeme) (ds : List Derivation) :
    partsLexemes (ls.map .terminal ++ ds) = ls ++ partsLexemes ds := by
  induction ls with
  | nil => rfl
  | cons l ls ih => simp [ih]

theorem partsTrees_terminals (ls : List Lexeme) (ds : List Derivation) :
    partsTrees (ls.map .terminal ++ ds) = ls.map .ofLexeme ++ partsTrees ds := by
  induction ls with
  | nil => rfl
  | cons l ls ih => simp [ih]

end Derivation

namespace Grammar

mutual
inductive DerivesSymbol (g : Grammar) : Symbol → Derivation → Prop where
  | terminal {kind : String} {l : Lexeme} :
    l.kind = kind → DerivesSymbol g (.terminal kind) (.terminal l)
  | nonTerminal {name : String} {rule : Rule} {rounds : List (List Derivation)} :
    g.HasRule name rule → DerivesRule g rule rounds →
      DerivesSymbol g (.nonTerminal name) (.nonTerminal name rule rounds)
  | repetition {body : List Symbol} {rounds : List (List Derivation)} :
    DerivesRounds g body rounds → DerivesSymbol g (.repetition body) (.repetition body rounds)

inductive DerivesSequence (g : Grammar) : List Symbol → List Derivation → Prop where
  | nil : DerivesSequence g [] []
  | cons {x : Symbol} {xs : List Symbol} {d : Derivation} {ds : List Derivation} :
    DerivesSymbol g x d → DerivesSequence g xs ds → DerivesSequence g (x :: xs) (d :: ds)

/-- Any number of rounds of the body. -/
inductive DerivesRounds (g : Grammar) : List Symbol → List (List Derivation) → Prop where
  | none {body : List Symbol} : DerivesRounds g body []
  | round {body : List Symbol} {ds : List Derivation} {rounds : List (List Derivation)} :
    DerivesSequence g body ds → DerivesRounds g body rounds → DerivesRounds g body (ds :: rounds)

inductive DerivesRule (g : Grammar) : Rule → List (List Derivation) → Prop where
  | sequence {symbols : List Symbol} {ds : List Derivation} :
    DerivesSequence g symbols ds → DerivesRule g (.sequence symbols) [ds]
  | repetition {body : List Symbol} {rounds : List (List Derivation)} :
    DerivesRounds g body rounds → DerivesRule g (.repetition body) rounds
end

/-- The derivation is one of the start symbol. -/
def Derives (g : Grammar) (d : Derivation) : Prop := DerivesSymbol g (.nonTerminal g.start) d

end Grammar

end GrammarCompiler
