import GrammarCompiler.Naja.Lexer

/-!
The lexical rules of Naja, as a relation between source texts and their
segmentations. Each segment is judged by its own text and by what follows it;
of what stands in front of it on its line only one thing matters, namely
whether it is all indents and tabs.
-/

namespace GrammarCompiler.Naja

/-- A category and the text of a lexeme. -/
abbrev Segment := Category × List Char

/-- The next character of the text is not in the class. -/
def EndsBefore (isPart : Char → Bool) (rest : List Char) : Prop :=
  ∀ c ∈ rest.head?, isPart c = false

def fourSpaces : List Char := [' ', ' ', ' ', ' ']

/-- The words that are no identifiers. -/
def keywords : List (String × Category) :=
  [("def", .defWord), ("as", .asWord), ("int", .intWord), ("return", .returnWord),
   ("not", .notWord)]

/-- A word that is exactly a keyword is that keyword, and any other is an identifier. -/
def wordCategory (word : String) : Category := (keywords.lookup word).getD .identifier

/-- The marks of punctuation. -/
def marks : List (Char × Category) :=
  [('(', .parenOpen), (')', .parenClose), (':', .colon), ('+', .plus), ('-', .minus),
   ('*', .multiply), ('/', .divide), ('~', .bitwiseComplement)]

/-- The segment may stand at the front of `rest`, where `lineStart` says whether all in front of
it on its line is indents and tabs. -/
inductive Lexical : Bool → Segment → List Char → Prop where
  | lineFeed {lineStart : Bool} {rest : List Char} : Lexical lineStart (.newLine, ['\n']) rest
  | carriageReturn {lineStart : Bool} {rest : List Char} :
    Lexical lineStart (.newLine, ['\r', '\n']) rest
  | tab {lineStart : Bool} {rest : List Char} : Lexical lineStart (.tab, ['\t']) rest
  | indent {rest : List Char} : Lexical true (.indent, fourSpaces) rest
  | space {lineStart : Bool} {rest : List Char} :
    (lineStart = true → ¬ fourSpaces <+: ' ' :: rest) → Lexical lineStart (.space, [' ']) rest
  | punctuation {lineStart : Bool} {c : Char} {category : Category} {rest : List Char} :
    (c, category) ∈ marks → Lexical lineStart (category, [c]) rest
  | intLiteral {lineStart : Bool} {digits rest : List Char} :
    digits ≠ [] → (∀ c ∈ digits, c.isDigit = true) → EndsBefore Char.isDigit rest →
      decimalValue digits < UInt32.size → Lexical lineStart (.intLiteral, digits) rest
  | word {lineStart : Bool} {c : Char} {cs rest : List Char} :
    c.isAlpha = true → (∀ d ∈ cs, isWordPart d = true) → EndsBefore isWordPart rest →
      Lexical lineStart (wordCategory (String.ofList (c :: cs)), c :: cs) rest

/-- The text of segments one behind the other. -/
def segmentsText (segments : List Segment) : List Char := segments.flatMap Prod.snd

/-- What stands behind the last line break of a list. -/
def lastLine {α : Type} (isBreak : α → Bool) (before : List α) : List α :=
  (before.reverse.takeWhile fun a => !isBreak a).reverse

/-- Whether all segments on the last line are indents and tabs. -/
def atLineStart (before : List Segment) : Bool :=
  (lastLine (fun segment => segment.1 = .newLine) before).all fun segment =>
    segment.1 = .indent || segment.1 = .tab

/-- The segments make up the source, and each is lexical where it stands. -/
structure Segmentation (source : List Char) (segments : List Segment) : Prop where
  text_eq : segmentsText segments = source
  lexical : ∀ before segment after, segments = before ++ segment :: after →
    Lexical (atLineStart before) segment (segmentsText after)

end GrammarCompiler.Naja
