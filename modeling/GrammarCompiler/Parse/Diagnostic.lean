import GrammarCompiler.Lexeme
import GrammarCompiler.Grammar.Check

/-!
Why a stream of lexemes was not accepted. A diagnostic keeps the lexeme that
it is about; its wording is fixed in `Diagnostic.message` alone.
-/

namespace GrammarCompiler

inductive Diagnostic where
  /-- A rule wanted a lexeme of category `expected` and met another one. -/
  | mismatch (rule expected : String) (found : Lexeme)
  /-- A rule refers to a non-terminal without an entry. -/
  | undefinedNonTerminal (name : String)
  /-- No alternative of a non-terminal fits at the end of the stream. -/
  | endOfFile (name : String)
  /-- No alternative of a non-terminal fits at a lexeme. -/
  | noAlternative (name : String) (found : Lexeme)
  /-- Lexemes are left behind a complete start symbol. -/
  | trailing (found : Lexeme) (start : String)
  /-- The start symbol is not fit to start from. -/
  | badStart (error : GrammarError)
  /-- The start symbol failed without saying why. -/
  | unexplained (start : String)
deriving DecidableEq, Repr, Inhabited

namespace Diagnostic

def message : Diagnostic → String
  | .mismatch rule expected found =>
    "Error parsing at rule " ++ rule ++ " for token '" ++ expected ++ "', got lexeme '"
      ++ found.render ++ "'" ++ found.location
  | .undefinedNonTerminal name => "No production rules for " ++ GrammarError.quote name
  | .endOfFile name => "Unexpected end of file occurred. Expected a " ++ name ++ "."
  | .noAlternative name found =>
    "Unable to find syntax that matches " ++ name ++ " at " ++ found.render ++ found.location
  | .trailing found start =>
    "Unexpected " ++ found.render ++ " after the end of " ++ start ++ found.location
  | .badStart error => error.message
  | .unexplained start => "Unable to parse " ++ start

/-- The lexeme that a diagnostic names. -/
def lexeme? : Diagnostic → Option Lexeme
  | .mismatch _ _ found => some found
  | .noAlternative _ found => some found
  | .trailing found _ => some found
  | _ => none

/-- The messages of a failed parse as one text, a line each. -/
def joined (diagnostics : List String) : String := "\n".intercalate diagnostics

end Diagnostic

end GrammarCompiler
