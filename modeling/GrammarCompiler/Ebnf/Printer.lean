import GrammarCompiler.Ebnf.Basic

/-!
Printing the notation. There is one output style: tokens are separated by
single blanks, terminals stand in double quotes, and every production is a
line of its own.
-/

namespace GrammarCompiler.Ebnf

def printTerminal (text : String) : List Char := doubleQuote :: (text.toList ++ [doubleQuote])

namespace Expr

mutual
def print : Expr → List Char
  | .reference name => name.toList
  | .terminal text => printTerminal text
  | .repetition body => openBrace :: ' ' :: (body.print ++ [' ', closeBrace])
  | .alternation items => printItems '|' items
  | .concatenation items => printItems ',' items

/-- Items with the separator between them. -/
def printItems (separator : Char) : List Expr → List Char
  | [] => []
  | e :: es => e.print ++ printRest separator es

/-- Items with the separator in front of each. -/
def printRest (separator : Char) : List Expr → List Char
  | [] => []
  | e :: es => ' ' :: separator :: ' ' :: (e.print ++ printRest separator es)
end

def render (e : Expr) : String := String.ofList e.print

end Expr

namespace Production

def print (p : Production) : List Char :=
  p.name.toList ++ [' ', '=', ' '] ++ p.body.print ++ [' ', ';']

def render (p : Production) : String := String.ofList p.print

end Production

namespace Grammar

def print (g : Grammar) : List Char := g.productions.flatMap fun p => p.print ++ ['\n']

/-- The text of a grammar, one production a line. -/
def render (g : Grammar) : String := String.ofList g.print

end Grammar

end GrammarCompiler.Ebnf
