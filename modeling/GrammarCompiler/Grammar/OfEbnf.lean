import GrammarCompiler.Ebnf.Basic
import GrammarCompiler.Grammar.Check

/-!
From the notation to a grammar. Terminals of the notation name categories of
lexemes, and names refer to non-terminals. Productions of one name add up
their alternatives. Sequences are flat: a concatenation inside another is
spliced in. Choice exists only between the alternatives of a non-terminal, so
an alternation anywhere but at the top of a body is refused.
-/

namespace GrammarCompiler.Grammar

open Ebnf (Expr)

mutual
/-- The symbols of one item of a sequence in a production of `owner`. -/
def symbolsOfItem (owner : String) : Expr → Except GrammarError (List Symbol)
  | .reference name => .ok [.nonTerminal name]
  | .terminal kind => .ok [.terminal kind]
  | .repetition (.alternation _) => .error (.alternationInRepetition owner)
  | .repetition body =>
    match symbolsOfItem owner body with
    | .error e => .error e
    | .ok symbols => .ok [.repetition symbols]
  | .concatenation items => symbolsOfItems owner items
  | .alternation _ => .error (.nestedAlternation owner)

/-- The symbols of the items of a sequence, in order. -/
def symbolsOfItems (owner : String) : List Expr → Except GrammarError (List Symbol)
  | [] => .ok []
  | e :: es =>
    match symbolsOfItem owner e with
    | .error err => .error err
    | .ok symbols =>
      match symbolsOfItems owner es with
      | .error err => .error err
      | .ok rest => .ok (symbols ++ rest)
end

/-- One rule for each alternative. -/
def rulesOfAlternatives (owner : String) : List Expr → Except GrammarError (List Rule)
  | [] => .ok []
  | e :: es =>
    match symbolsOfItem owner e with
    | .error err => .error err
    | .ok symbols =>
      match rulesOfAlternatives owner es with
      | .error err => .error err
      | .ok rules => .ok (.sequence symbols :: rules)

/-- Defines the productions in order. -/
def defineAll (g : Grammar) : List Ebnf.Production → Except GrammarError Grammar
  | [] => .ok g
  | p :: ps =>
    match rulesOfAlternatives p.name p.body.alternatives with
    | .error e => .error e
    | .ok rules => defineAll (g.define p.name rules) ps

/-- The grammar that the productions describe, if it can be handed to the parser. -/
def ofEbnf (source : Ebnf.Grammar) (start : String) : Except GrammarError Grammar :=
  match defineAll (empty start) source.productions with
  | .error e => .error e
  | .ok g =>
    match g.check with
    | .error e => .error e
    | .ok () => .ok g

end GrammarCompiler.Grammar
