import GrammarCompiler.Parse.Descent

/-!
The calls that a run of the parser makes, as a relation. A run begins with the
rule of the start symbol, and every call leads to further ones: a rule to its
symbols, a symbol to those behind it if it matches, a non-terminal to its
alternatives up to the first that matches, and a repetition to its rounds.

What a call leads to depends on how the calls before it have ended. That a
call ends in some way means that it does so for some bound on the descent; a
run that never ends makes calls too, and they are among those described here.
-/

namespace GrammarCompiler

inductive Call where
  /-- A rule of the named non-terminal is applied. -/
  | rule (name : String) (rule : Rule) (s : Stream)
  /-- What is left of a sequence is matched. -/
  | symbols (label : String) (symbols : List Symbol) (s : Stream)
  /-- A symbol is matched. The rules of a non-terminal are looked up here. -/
  | symbol (label : String) (x : Symbol) (s : Stream)
  /-- A repetition stands in front of a round. -/
  | round (body : List Symbol) (s : Stream)

namespace Grammar

/-- The rule is tried and fails. -/
def Fails (g : Grammar) (name : String) (rule : Rule) (s : Stream) : Prop :=
  ∃ levels ds s', Descent.matchRule (g.descend levels) name rule s = .failure ds s'

/-- The run that begins with the stream `s₀` makes the call. -/
inductive Reaches (g : Grammar) (s₀ : Stream) : Call → Prop where
  | start {rule : Rule} : g.startRule = .ok rule → Reaches g s₀ (.rule g.start rule s₀)
  | sequence {name : String} {symbols : List Symbol} {s : Stream} :
    Reaches g s₀ (.rule name (.sequence symbols) s) → Reaches g s₀ (.symbols name symbols s)
  | ofRepetition {name : String} {body : List Symbol} {s : Stream} :
    Reaches g s₀ (.rule name (.repetition body) s) → Reaches g s₀ (.round body s)
  | head {label : String} {x : Symbol} {xs : List Symbol} {s : Stream} :
    Reaches g s₀ (.symbols label (x :: xs) s) → Reaches g s₀ (.symbol label x s)
  | tail {label : String} {x : Symbol} {xs : List Symbol} {s s' : Stream} {levels : Nat}
      {ts : List Tree} :
    Reaches g s₀ (.symbols label (x :: xs) s) →
      Descent.matchSymbol (g.descend levels) label x s = .success ts s' →
        Reaches g s₀ (.symbols label xs s')
  | alternative {label name : String} {before after : List Rule} {rule : Rule} {s : Stream} :
    Reaches g s₀ (.symbol label (.nonTerminal name) s) →
      g.rules? name = some (before ++ rule :: after) → (∀ r ∈ before, g.Fails name r s) →
        Reaches g s₀ (.rule name rule s)
  | repetition {label : String} {body : List Symbol} {s : Stream} :
    Reaches g s₀ (.symbol label (.repetition body) s) → Reaches g s₀ (.round body s)
  | body {body : List Symbol} {s : Stream} :
    Reaches g s₀ (.round body s) → Reaches g s₀ (.symbols (Symbol.renderRepetition body) body s)
  | nextRound {body : List Symbol} {s s' : Stream} {levels : Nat} {ts : List Tree} :
    Reaches g s₀ (.round body s) →
      Descent.matchSequence (g.descend levels) (Symbol.renderRepetition body) body s =
        .success ts s' →
        s'.cursor ≠ s.cursor → Reaches g s₀ (.round body s')

end Grammar

end GrammarCompiler
