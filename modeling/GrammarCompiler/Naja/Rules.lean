import GrammarCompiler.Ebnf.Reader
import GrammarCompiler.Grammar.OfEbnf
import GrammarCompiler.Naja.Category

/-!
The grammar of Naja: a program is a single function that returns an integer
expression. `description` is the grammar in the EBNF notation, where quoted
names are categories of lexemes; `grammar` is what it denotes, spelled out so
that the parser need not read the notation first.
-/

namespace GrammarCompiler.Naja

/-! ### The kinds of nodes -/

def programKind : String := "program"
def functionKind : String := "function"
def statementKind : String := "statement"
def indentKind : String := "indent"
def expressionKind : String := "expression"
def additiveKind : String := "additive"
def termKind : String := "term"
def multiplicativeKind : String := "multiplicative"
def factorKind : String := "factor"
def unaryKind : String := "unary"

/-- The text of the grammar in the EBNF notation, cut where it would not fit on a line. -/
def descriptionPieces : List String :=
  ["(* Naja: a single function returning an integer expression.\n\n",
   "   Quoted names are lexeme categories, see `lexer::Category`. *)\n\n",
   "program = function ;\n\n",
   "function = \"Def\" , \"Identifier\" , \"ParenOpen\" , \"ParenClose\"",
   " , \"As\" , \"Int\" , \"Colon\" , \"NewLine\" , statement\n",
   "         | \"Def\" , \"Identifier\"",
   " , \"As\" , \"Int\" , \"Colon\" , \"NewLine\" , statement ;\n\n",
   "statement = indent , \"Return\" , expression ;\n\n",
   "indent = \"Indent\" | \"Tab\" ;\n\n",
   "expression = term , \x7b additive , term \x7d ;\n\n",
   "additive = \"Plus\" | \"Minus\" ;\n\n",
   "term = factor , \x7b multiplicative , factor \x7d ;\n\n",
   "multiplicative = \"Multiply\" | \"Divide\" ;\n\n",
   "factor = \"ParenOpen\" , expression , \"ParenClose\"\n",
   "       | unary\n",
   "       | \"IntLiteral\" ;\n\n",
   "unary = \"Minus\" , factor\n",
   "      | \"BitwiseComplement\" , factor\n",
   "      | \"Not\" , factor ;\n"]

/-- The grammar in the EBNF notation. -/
def description : List Char := descriptionPieces.flatMap String.toList

/-- The terminal of a category. -/
def lexemeOf (c : Category) : Symbol := .terminal c.name

def grammar : Grammar where
  start := programKind
  entries :=
    [(programKind, [.sequence [.nonTerminal functionKind]]),
     (functionKind,
      [.sequence
        [lexemeOf .defWord, lexemeOf .identifier, lexemeOf .parenOpen, lexemeOf .parenClose,
         lexemeOf .asWord, lexemeOf .intWord, lexemeOf .colon, lexemeOf .newLine,
         .nonTerminal statementKind],
       .sequence
        [lexemeOf .defWord, lexemeOf .identifier, lexemeOf .asWord, lexemeOf .intWord,
         lexemeOf .colon, lexemeOf .newLine, .nonTerminal statementKind]]),
     (statementKind,
      [.sequence [.nonTerminal indentKind, lexemeOf .returnWord, .nonTerminal expressionKind]]),
     (indentKind, [.sequence [lexemeOf .indent], .sequence [lexemeOf .tab]]),
     (expressionKind,
      [.sequence
        [.nonTerminal termKind,
         .repetition [.nonTerminal additiveKind, .nonTerminal termKind]]]),
     (additiveKind, [.sequence [lexemeOf .plus], .sequence [lexemeOf .minus]]),
     (termKind,
      [.sequence
        [.nonTerminal factorKind,
         .repetition [.nonTerminal multiplicativeKind, .nonTerminal factorKind]]]),
     (multiplicativeKind, [.sequence [lexemeOf .multiply], .sequence [lexemeOf .divide]]),
     (factorKind,
      [.sequence [lexemeOf .parenOpen, .nonTerminal expressionKind, lexemeOf .parenClose],
       .sequence [.nonTerminal unaryKind],
       .sequence [lexemeOf .intLiteral]]),
     (unaryKind,
      [.sequence [lexemeOf .minus, .nonTerminal factorKind],
       .sequence [lexemeOf .bitwiseComplement, .nonTerminal factorKind],
       .sequence [lexemeOf .notWord, .nonTerminal factorKind]])]
  distinct := by decide

theorem check_grammar : grammar.check = .ok () := rfl

/-- What the description denotes. -/
def described : Option Grammar :=
  match Ebnf.Grammar.parseChars description with
  | .error _ => none
  | .ok source => (Grammar.ofEbnf source programKind).toOption

/-- The description denotes the grammar. -/
theorem described_eq : described = some grammar := by decide +kernel

end GrammarCompiler.Naja
