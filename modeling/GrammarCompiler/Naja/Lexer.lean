import GrammarCompiler.Lexeme.Stream
import GrammarCompiler.Naja.Category

/-!
From source text to lexemes. Every lexeme is as long as its category allows,
and every character of the source belongs to a lexeme, blanks and line ends
included. Four spaces are an indent only where nothing but indents and tabs
stands in front of them on their line; elsewhere they are four spaces.
-/

namespace GrammarCompiler.Naja

/-- Why a source text has no lexemes. Lines and columns count from one. -/
inductive LexError where
  /-- No lexeme starts with the character. -/
  | unexpected (line column : Nat) (found : Char)
  /-- A number that does not fit into 32 bits. -/
  | outOfRange (line column : Nat) (literal : String)
deriving DecidableEq, Repr, Inhabited

/-- The largest number that a literal may denote. -/
def maxLiteral : Nat := 4294967295

/-- The number that decimal digits denote. -/
def decimalValue (digits : List Char) : Nat :=
  digits.foldl (fun value c => value * 10 + (c.toNat - '0'.toNat)) 0

/-- A further character of a word: an ASCII letter or digit or an underscore. -/
def isWordPart (c : Char) : Bool := c.isAlphanum || c == '_'

/-- A lexeme at the start of a text, and the text behind it. -/
structure Scanned where
  category : Category
  text : List Char
  rest : List Char
deriving DecidableEq, Repr

/-- The lexeme at the start of the text, indents aside. -/
def scanPlain? : List Char → Option Scanned
  | [] => none
  | '\r' :: '\n' :: rest => some ⟨.newLine, ['\r', '\n'], rest⟩
  | c :: rest =>
    if c = '\n' then some ⟨.newLine, [c], rest⟩
    else if c = '\t' then some ⟨.tab, [c], rest⟩
    else if c = ' ' then some ⟨.space, [c], rest⟩
    else
      match Category.ofPunctuation? c with
      | some category => some ⟨category, [c], rest⟩
      | none =>
        if c.isDigit then
          some ⟨.intLiteral, c :: rest.takeWhile Char.isDigit, rest.dropWhile Char.isDigit⟩
        else if c.isAlpha then
          let word := c :: rest.takeWhile isWordPart
          some ⟨.ofWord (String.ofList word), word, rest.dropWhile isWordPart⟩
        else none

/-- The lexeme at the start of the text, which may be an indent at the start of a line. -/
def scan? (lineStart : Bool) (text : List Char) : Option Scanned :=
  match lineStart, text with
  | true, ' ' :: ' ' :: ' ' :: ' ' :: rest => some ⟨.indent, [' ', ' ', ' ', ' '], rest⟩
  | _, _ => scanPlain? text

/-- A place in the source, and whether only indents and tabs stand in front of it on its
line. -/
structure Place where
  line : Nat
  column : Nat
  lineStart : Bool
deriving DecidableEq, Repr

/-- The start of a source. -/
def Place.first : Place := ⟨1, 1, true⟩

/-- The place behind a lexeme. -/
def Place.behind (p : Place) (category : Category) (text : List Char) : Place :=
  match category with
  | .newLine => ⟨p.line + 1, 1, true⟩
  | .indent | .tab => ⟨p.line, p.column + text.length, p.lineStart⟩
  | _ => ⟨p.line, p.column + text.length, false⟩

def Scanned.lexeme (piece : Scanned) (p : Place) : Lexeme where
  kind := piece.category.name
  text := String.ofList piece.text
  line := p.line
  column := p.column

/-- Whether a piece is a number out of range. -/
def Scanned.isOutOfRange (piece : Scanned) : Bool :=
  piece.category = .intLiteral && maxLiteral < decimalValue piece.text

/-- The lexemes of a text that starts at place `p`, at most `count` of them. -/
def lexemesFrom : Nat → Place → List Char → Except LexError (List Lexeme)
  | _, _, [] => .ok []
  | 0, _, _ :: _ => .ok []
  | count + 1, p, c :: text =>
    match scan? p.lineStart (c :: text) with
    | none => .error (.unexpected p.line p.column c)
    | some piece =>
      if piece.isOutOfRange then .error (.outOfRange p.line p.column (String.ofList piece.text))
      else
        match lexemesFrom count (p.behind piece.category piece.text) piece.rest with
        | .error e => .error e
        | .ok lexemes => .ok (piece.lexeme p :: lexemes)

/-- The lexemes of a source text. No lexeme is empty, so there are at most as many as
characters. -/
def lexemes (source : List Char) : Except LexError (List Lexeme) :=
  lexemesFrom source.length .first source

/-- The names of the categories that the parser passes over. -/
def insignificantKinds : List String :=
  (Category.all.filter Category.isInsignificant).map Category.name

/-- The stream of the lexemes of a source text. -/
def tokenize (source : String) : Except LexError Stream :=
  match lexemes source.toList with
  | .error e => .error e
  | .ok ls => .ok ((Stream.ofLexemes ls).skipping insignificantKinds)

end GrammarCompiler.Naja
