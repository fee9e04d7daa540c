import GrammarCompiler.Text.Blank
import GrammarCompiler.Parse.Descent
import GrammarCompiler.Naja.Lexer
import GrammarCompiler.Naja.Assembly.Generators

/-!
Compilation of Naja: the source is trimmed, cut into lexemes, parsed and
turned into assembly. Nothing is generated unless the whole source parses.
-/

namespace GrammarCompiler.Naja

/-- Why a source does not compile. -/
inductive CompileError where
  | lex (error : LexError)
  /-- The lexemes form no program; the messages say where. -/
  | parse (diagnostics : List String)
  | generate (error : GenerateError)
  /-- The grammar itself is unusable; the innermost cause comes first. -/
  | grammar (causes : List String)
deriving DecidableEq, Repr, Inhabited

def LexError.message : LexError → String
  | .unexpected line column found =>
    "unexpected character '" ++ String.ofList (Text.escapeChar true found) ++ "' at line "
      ++ toString line ++ ", column " ++ toString column
  | .outOfRange line column literal =>
    "integer literal " ++ literal ++ " out of range at line " ++ toString line ++ ", column "
      ++ toString column

def CompileError.message : CompileError → String
  | .lex error => error.message
  | .parse diagnostics => "failed to parse:\n" ++ Diagnostic.joined diagnostics
  | .generate error => error.message
  | .grammar causes => "invalid grammar: " ++ ": ".intercalate causes.reverse

/-- The syntax tree of a stream of lexemes. The grammar has no left recursion, so that the
descent always comes to an end. -/
def parseStream (s : Stream) : Except CompileError Tree :=
  match grammar.parse s with
  | .success tree _ => .ok tree
  | .failure diagnostics _ => .error (.parse (diagnostics.map Diagnostic.message))
  | .diverged => .error (.parse [(Diagnostic.unexplained grammar.start).message])

/-- The syntax tree of a source text, without the white space around it. -/
def parse (source : String) : Except CompileError Tree :=
  match tokenize (Text.trim source) with
  | .error e => .error (.lex e)
  | .ok s => parseStream s

/-- The assembly of a syntax tree. -/
def assemble (tree : Tree) : Except CompileError String :=
  match (Assembly.generator grammar).generate tree with
  | .error e => .error (.generate e)
  | .ok code => .ok code

/-- The assembly of a source text. -/
def compile (source : String) : Except CompileError String :=
  match parse source with
  | .error e => .error e
  | .ok tree => assemble tree

end GrammarCompiler.Naja
