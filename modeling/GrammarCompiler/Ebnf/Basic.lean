/-!
The notation in which grammars are written down: productions `name = body ;`
whose bodies are built from names of productions, quoted terminals, repetition
in braces, concatenation and alternation.

A value of `Expr` need not be one that a text can denote: it may nest lists in
ways that the notation, which has no parentheses, cannot show.
-/

namespace GrammarCompiler.Ebnf

inductive Expr where
  | reference (name : String)
  | terminal (text : String)
  | repetition (body : Expr)
  | alternation (items : List Expr)
  | concatenation (items : List Expr)
deriving Repr, Inhabited

namespace Expr

mutual
/-- Equality of bodies is decided part by part. -/
def decEq : (a b : Expr) → Decidable (a = b)
  | .reference m, .reference n =>
    if h : m = n then isTrue (by rw [h]) else isFalse fun e => h (by injection e)
  | .terminal s, .terminal t =>
    if h : s = t then isTrue (by rw [h]) else isFalse fun e => h (by injection e)
  | .repetition a, .repetition b =>
    match decEq a b with
    | isTrue h => isTrue (by rw [h])
    | isFalse h => isFalse fun e => h (by injection e)
  | .alternation as, .alternation bs =>
    match decEqList as bs with
    | isTrue h => isTrue (by rw [h])
    | isFalse h => isFalse fun e => h (by injection e)
  | .concatenation as, .concatenation bs =>
    match decEqList as bs with
    | isTrue h => isTrue (by rw [h])
    | isFalse h => isFalse fun e => h (by injection e)
  | .reference _, .terminal _ | .reference _, .repetition _ | .reference _, .alternation _
  | .reference _, .concatenation _ | .terminal _, .reference _ | .terminal _, .repetition _
  | .terminal _, .alternation _ | .terminal _, .concatenation _ | .repetition _, .reference _
  | .repetition _, .terminal _ | .repetition _, .alternation _ | .repetition _, .concatenation _
  | .alternation _, .reference _ | .alternation _, .terminal _ | .alternation _, .repetition _
  | .alternation _, .concatenation _ | .concatenation _, .reference _
  | .concatenation _, .terminal _ | .concatenation _, .repetition _
  | .concatenation _, .alternation _ => isFalse nofun

def decEqList : (as bs : List Expr) → Decidable (as = bs)
  | [], [] => isTrue rfl
  | [], _ :: _ => isFalse nofun
  | _ :: _, [] => isFalse nofun
  | a :: as, b :: bs =>
    match decEq a b with
    | isTrue ha =>
      match decEqList as bs with
      | isTrue hs => isTrue (by rw [ha, hs])
      | isFalse hs => isFalse fun h => hs (by injection h)
    | isFalse ha => isFalse fun h => ha (by injection h)
end

instance : DecidableEq Expr := decEq

/-- The alternatives of a body; whatever is no alternation is its own only alternative. -/
def alternatives : Expr → List Expr
  | .alternation items => items
  | e => [e]

/-- The items of a body that is read as a sequence. -/
def sequence : Expr → List Expr
  | .concatenation items => items
  | e => [e]

/-- The body that a list of alternatives denotes: a single one denotes itself. -/
def ofAlternatives : List Expr → Expr
  | [e] => e
  | es => .alternation es

/-- The body that a list of items in sequence denotes: a single one denotes itself. -/
def ofSequence : List Expr → Expr
  | [e] => e
  | es => .concatenation es

end Expr

/-- A production, which defines its name by its body. -/
structure Production where
  name : String
  body : Expr
deriving DecidableEq, Repr, Inhabited

/-- A grammar as it is written down. -/
structure Grammar where
  productions : List Production
deriving DecidableEq, Repr, Inhabited

/-- The first character of a name: an ASCII letter or an underscore. -/
def isNameStart (c : Char) : Bool := c.isAlpha || c == '_'

/-- A further character of a name: an ASCII letter or digit or an underscore. -/
def isNamePart (c : Char) : Bool := c.isAlphanum || c == '_'

/-- The characters of which blank layout consists. -/
def isBlank (c : Char) : Bool := c == ' ' || c == '\t' || c == '\r' || c == '\n'

/-- The quote in which terminals are printed. -/
def doubleQuote : Char := '\x22'

/-- The other quote in which a terminal may be written. -/
def singleQuote : Char := '\x27'

def openBrace : Char := '\x7b'

def closeBrace : Char := '\x7d'

end GrammarCompiler.Ebnf
