import GrammarCompiler.Grammar.Basic

/-!
The text of symbols, rules and grammars. A grammar whose rules are all
sequences prints as a grammar of the EBNF notation. The text of a repetition
also labels its node in a syntax tree.
-/

namespace GrammarCompiler

namespace Symbol

mutual
def print : Symbol → List Char
  | .terminal kind => '\x22' :: (kind.toList ++ ['\x22'])
  | .nonTerminal name => name.toList
  | .repetition body => '\x7b' :: ' ' :: (printSequence body ++ [' ', '\x7d'])

/-- Symbols with commas between them. -/
def printSequence : List Symbol → List Char
  | [] => []
  | x :: xs => x.print ++ printRest xs

/-- Symbols with a comma in front of each. -/
def printRest : List Symbol → List Char
  | [] => []
  | x :: xs => ' ' :: ',' :: ' ' :: (x.print ++ printRest xs)
end

def render (x : Symbol) : String := String.ofList x.print

/-- The text of a repetition. -/
def renderRepetition (body : List Symbol) : String := render (.repetition body)

end Symbol

namespace Rule

def print : Rule → List Char
  | .sequence symbols => Symbol.printSequence symbols
  | .repetition body => Symbol.print (.repetition body)

def render (r : Rule) : String := String.ofList r.print

/-- Alternatives with a bar in front of each. -/
def printRest : List Rule → List Char
  | [] => []
  | r :: rs => ' ' :: '|' :: ' ' :: (r.print ++ printRest rs)

/-- Alternatives with bars between them. -/
def printAlternatives : List Rule → List Char
  | [] => []
  | r :: rs => r.print ++ printRest rs

end Rule

namespace Grammar

/-- The line of one non-terminal. -/
def printEntry (name : String) (rules : List Rule) : List Char :=
  name.toList ++ [' ', '=', ' '] ++ Rule.printAlternatives rules ++ [' ', ';', '\n']

def print (g : Grammar) : List Char := g.entries.flatMap fun (name, rules) => printEntry name rules

/-- The text of a grammar, one non-terminal a line. -/
def render (g : Grammar) : String := String.ofList g.print

end Grammar

end GrammarCompiler
