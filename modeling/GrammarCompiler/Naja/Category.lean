/-!
The categories of lexemes of the Naja language. The grammar refers to them by
name.
-/

namespace GrammarCompiler.Naja

inductive Category where
  | defWord
  | asWord
  | intWord
  | returnWord
  | notWord
  | identifier
  | intLiteral
  | parenOpen
  | parenClose
  | colon
  | plus
  | minus
  | multiply
  | divide
  | bitwiseComplement
  | newLine
  | tab
  /-- Four spaces at the start of a line. -/
  | indent
  | space
deriving DecidableEq, Repr, Inhabited

namespace Category

/-- All categories, in the order of their declaration. -/
def all : List Category :=
  [.defWord, .asWord, .intWord, .returnWord, .notWord, .identifier, .intLiteral, .parenOpen,
   .parenClose, .colon, .plus, .minus, .multiply, .divide, .bitwiseComplement, .newLine, .tab,
   .indent, .space]

/-- The name by which the grammar refers to a category. -/
def name : Category → String
  | .defWord => "Def"
  | .asWord => "As"
  | .intWord => "Int"
  | .returnWord => "Return"
  | .notWord => "Not"
  | .identifier => "Identifier"
  | .intLiteral => "IntLiteral"
  | .parenOpen => "ParenOpen"
  | .parenClose => "ParenClose"
  | .colon => "Colon"
  | .plus => "Plus"
  | .minus => "Minus"
  | .multiply => "Multiply"
  | .divide => "Divide"
  | .bitwiseComplement => "BitwiseComplement"
  | .newLine => "NewLine"
  | .tab => "Tab"
  | .indent => "Indent"
  | .space => "Space"

def ofName? (name : String) : Option Category := all.find? fun c => c.name = name

/-- Whether the parser passes over lexemes of the category. -/
def isInsignificant (c : Category) : Bool := c = .space

/-- The category of a word: that of a keyword, or an identifier. -/
def ofWord (word : String) : Category :=
  match word with
  | "def" => .defWord
  | "as" => .asWord
  | "int" => .intWord
  | "return" => .returnWord
  | "not" => .notWord
  | _ => .identifier

/-- The category of a lexeme that consists of one mark of punctuation. -/
def ofPunctuation? (c : Char) : Option Category :=
  match c with
  | '(' => some .parenOpen
  | ')' => some .parenClose
  | ':' => some .colon
  | '+' => some .plus
  | '-' => some .minus
  | '*' => some .multiply
  | '/' => some .divide
  | '~' => some .bitwiseComplement
  | _ => none

theorem ofName?_name (c : Category) : ofName? c.name = some c := by cases c <;> decide

theorem eq_of_name_eq {c d : Category} (h : c.name = d.name) : c = d := by
  have hc := ofName?_name c
  rw [h, ofName?_name] at hc
  exact (Option.some.inj hc).symm

theorem name_eq_iff {c d : Category} : c.name = d.name ↔ c = d := ⟨eq_of_name_eq, congrArg name⟩

end Category

end GrammarCompiler.Naja
