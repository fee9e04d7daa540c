import GrammarCompiler.Lexeme
import GrammarCompiler.Grammar.WellFormed

/-!
Left calls: which non-terminals can be entered from another one before any
lexeme is consumed. A symbol is nullable if it can match without moving the
cursor; besides repetitions that is the category of the sentinel, which can be
matched at the end of the stream over and over.
-/

namespace GrammarCompiler.Grammar

/-- The symbol can match without moving the cursor. -/
inductive Nullable (g : Grammar) : Symbol → Prop where
  | sentinel : Nullable g (.terminal Lexeme.endKind)
  | repetition (body : List Symbol) : Nullable g (.repetition body)
  | ofRepetition {name : String} {body : List Symbol} :
    g.HasRule name (.repetition body) → Nullable g (.nonTerminal name)
  | ofSequence {name : String} {symbols : List Symbol} :
    g.HasRule name (.sequence symbols) → (∀ x ∈ symbols, Nullable g x) →
      Nullable g (.nonTerminal name)

/-- The non-terminal stands in the sequence, possibly inside repetitions, with nothing but
nullable symbols in front of it. -/
inductive LeftIn (g : Grammar) (name : String) : List Symbol → Prop where
  | here {xs : List Symbol} : LeftIn g name (.nonTerminal name :: xs)
  | inside {body xs : List Symbol} : LeftIn g name body → LeftIn g name (.repetition body :: xs)
  | behind {x : Symbol} {xs : List Symbol} :
    Nullable g x → LeftIn g name xs → LeftIn g name (x :: xs)

/-- A non-terminal can be entered from `caller` at the place where `caller` was. -/
def LeftCalls (g : Grammar) (caller callee : String) : Prop :=
  ∃ rule, g.HasRule caller rule ∧ LeftIn g callee rule.symbols

/-- A non-terminal that can come back to itself without consuming anything. -/
def LeftRecursive (g : Grammar) (name : String) : Prop :=
  Relation.TransGen (LeftCalls g) name name

end GrammarCompiler.Grammar
