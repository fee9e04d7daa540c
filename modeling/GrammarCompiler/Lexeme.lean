import GrammarCompiler.Text.Escape

/-!
Lexemes: classified pieces of source text. The classification is a name, so
that a grammar can refer to categories of any lexer; reading past the last
lexeme gives a sentinel of the reserved category `None`.
-/

namespace GrammarCompiler

/-- A piece of source text with its category and the place of its first character. Lines and
columns count from one; a lexeme that comes from no text has both zero. -/
structure Lexeme where
  kind : String
  text : String
  line : Nat := 0
  column : Nat := 0
deriving DecidableEq, Repr, Inhabited

namespace Lexeme

/-- The category of the sentinel. -/
def endKind : String := "None"

/-- What stands behind the last lexeme of a stream. -/
def endOfStream : Lexeme where
  kind := endKind
  text := endKind

/-- Whether the category is that of the sentinel. -/
def isEnd (lexeme : Lexeme) : Bool := lexeme.kind == endKind

/-- The lexeme as it is named in a message. -/
def render (lexeme : Lexeme) : String := lexeme.kind ++ "<" ++ Text.escape lexeme.text ++ ">"

/-- The place of the lexeme as the tail of a message, empty for a lexeme without one. -/
def location (lexeme : Lexeme) : String :=
  if lexeme.line = 0 then ""
  else " at line " ++ toString lexeme.line ++ ", column " ++ toString lexeme.column

@[simp] theorem isEnd_endOfStream : endOfStream.isEnd = true := rfl

theorem isEnd_iff (lexeme : Lexeme) : lexeme.isEnd = true ↔ lexeme.kind = endKind := by
  simp [isEnd]

end Lexeme

end GrammarCompiler
