import GrammarCompiler.Ebnf.Basic

/-!
Reading the notation. A reader takes a text and gives what it has read
together with the rest of the text, or nothing.

Layout, which is blanks and comments, may stand in front of every token and at
the end. A list of alternatives or of items is as long as possible: it ends in
front of a separator (and the layout before it) that no further item follows,
and leaves the separator to whatever comes next. So a body can fail to be read
in one way only, namely by lacking a factor at its very start, and that is
where its failure is reported.

Bodies nest by braces. The readers for lists and factors take the reader for
what stands between braces as an argument, and `readExprAt` ties the knot: its
first argument bounds the nesting, and no text is nested deeper than it is
long.
-/

namespace GrammarCompiler.Ebnf

/-! ### Layout and tokens -/

/-- The text behind the first end of a comment. -/
def afterComment? : List Char → Option (List Char)
  | [] => none
  | '*' :: ')' :: rest => some rest
  | _ :: rest => afterComment? rest

/-- Drops at most `steps` blanks and comments. A comment that is not closed is no layout. -/
def skipLayoutUpTo : Nat → List Char → List Char
  | 0, text => text
  | _ + 1, [] => []
  | steps + 1, c :: rest =>
    if isBlank c then skipLayoutUpTo steps rest
    else
      match c :: rest with
      | '(' :: '*' :: body =>
        match afterComment? body with
        | some behind => skipLayoutUpTo steps behind
        | none => c :: rest
      | _ => c :: rest

def skipLayout (text : List Char) : List Char := skipLayoutUpTo text.length text

/-- The text behind the given character, which may have layout in front of it. -/
def readMark (mark : Char) (text : List Char) : Option (List Char) :=
  match skipLayout text with
  | [] => none
  | c :: rest => if c = mark then some rest else none

/-- The name at the start of the text, as long as possible. -/
def readName : List Char → Option (String × List Char)
  | [] => none
  | c :: rest =>
    if isNameStart c then
      some (String.ofList (c :: rest.takeWhile isNamePart), rest.dropWhile isNamePart)
    else none

/-- The text up to the first `quote`, and the text behind it. -/
def splitAtQuote (quote : Char) : List Char → Option (List Char × List Char)
  | [] => none
  | c :: rest =>
    if c = quote then some ([], rest)
    else (splitAtQuote quote rest).map fun (inside, behind) => (c :: inside, behind)

/-- The terminal at the start of the text, which stands between two equal quotes. -/
def readTerminal : List Char → Option (String × List Char)
  | [] => none
  | c :: rest =>
    if c = doubleQuote || c = singleQuote then
      (splitAtQuote c rest).map fun (inside, behind) => (String.ofList inside, behind)
    else none

/-! ### Bodies -/

abbrev Reader (α : Type) := List Char → Option (α × List Char)

/-- At most `rounds` further items, each behind a separator. -/
def readRest {α : Type} (separator : Char) (item : Reader α) : Nat → List Char → List α × List Char
  | 0, text => ([], text)
  | rounds + 1, text =>
    match (readMark separator text).bind item with
    | none => ([], text)
    | some (x, rest) =>
      let (xs, last) := readRest separator item rounds rest
      (x :: xs, last)

/-- One or more items with the separator between them. -/
def readList {α : Type} (separator : Char) (item : Reader α) : Reader (List α) := fun text =>
  match item text with
  | none => none
  | some (x, rest) =>
    let (xs, last) := readRest separator item rest.length rest
    some (x :: xs, last)

/-- A repetition at the start of the text, with `inner` for what is repeated. -/
def readRepetition (inner : Reader Expr) : Reader Expr
  | [] => none
  | c :: rest =>
    if c = openBrace then
      match inner rest with
      | none => none
      | some (body, behind) =>
        (readMark closeBrace behind).map fun last => (.repetition body, last)
    else none

/-- A repetition, terminal or name at the start of the text. -/
def readFactorHere (inner : Reader Expr) : Reader Expr := fun text =>
  match readRepetition inner text with
  | some found => some found
  | none =>
    match readTerminal text with
    | some (t, rest) => some (.terminal t, rest)
    | none => (readName text).map fun (name, rest) => (.reference name, rest)

/-- A factor, which may have layout in front of it. -/
def readFactor (inner : Reader Expr) : Reader Expr := fun text =>
  readFactorHere inner (skipLayout text)

def readConcatenation (inner : Reader Expr) : Reader Expr := fun text =>
  (readList ',' (readFactor inner) text).map fun (items, rest) => (.ofSequence items, rest)

def readAlternation (inner : Reader Expr) : Reader Expr := fun text =>
  (readList '|' (readConcatenation inner) text).map fun (items, rest) =>
    (.ofAlternatives items, rest)

/-- A body whose braces nest less than `depth` deep. -/
def readExprAt : Nat → Reader Expr
  | 0 => fun _ => none
  | depth + 1 => readAlternation (readExprAt depth)

def readExpr : Reader Expr := fun text => readExprAt (text.length + 1) text

/-! ### Failures -/

/-- What was missing where reading stopped. -/
inductive Expected where
  /-- A token of the production or body. -/
  | token
  /-- The end of the text. -/
  | endOfText
deriving DecidableEq, Repr, Inhabited

/-- Why a text was refused: what was missing, and the text from there on. -/
structure Failure where
  expected : Expected
  rest : List Char
deriving DecidableEq, Repr, Inhabited

/-- How many characters of the rest a message shows. -/
def excerptLength : Nat := 24

/-- The name of what was missing in a message. -/
def Expected.word : Expected → String
  | .token => "Tag"
  | .endOfText => "Eof"

def failureMessage (reason : String) : String := "failed to parse ebnf: " ++ reason

def Failure.reason (f : Failure) : String :=
  f.expected.word ++ " near '" ++ String.ofList (f.rest.take excerptLength) ++ "'"

def Failure.message (f : Failure) : String := failureMessage f.reason

/-! ### Productions, grammars and whole texts -/

/-- A production, which may have layout in front of it. -/
def readProduction (text : List Char) : Except Failure (Production × List Char) :=
  match readName (skipLayout text) with
  | none => .error ⟨.token, skipLayout text⟩
  | some (name, afterName) =>
    match readMark '=' afterName with
    | none => .error ⟨.token, skipLayout afterName⟩
    | some afterEquals =>
      match readExpr afterEquals with
      | none => .error ⟨.token, skipLayout afterEquals⟩
      | some (body, afterBody) =>
        match readMark ';' afterBody with
        | none => .error ⟨.token, skipLayout afterBody⟩
        | some rest => .ok (⟨name, body⟩, rest)

/-- Productions as long as one can be read, at most `rounds` of them. -/
def readProductions : Nat → List Char → List Production × List Char
  | 0, text => ([], text)
  | rounds + 1, text =>
    match readProduction text with
    | .error _ => ([], text)
    | .ok (p, rest) =>
      let (ps, last) := readProductions rounds rest
      (p :: ps, last)

/-- Accepts what was read if only layout is left. -/
def finish {α : Type} (value : α) (rest : List Char) : Except Failure α :=
  match skipLayout rest with
  | [] => .ok value
  | c :: left => .error ⟨.endOfText, c :: left⟩

def Expr.parseChars (text : List Char) : Except Failure Expr :=
  match readExpr text with
  | none => .error ⟨.token, skipLayout text⟩
  | some (e, rest) => finish e rest

/-- The body that the whole text denotes. -/
def Expr.parse (text : String) : Except Failure Expr := Expr.parseChars text.toList

def Production.parseChars (text : List Char) : Except Failure Production :=
  match readProduction text with
  | .error f => .error f
  | .ok (p, rest) => finish p rest

/-- The production that the whole text denotes. -/
def Production.parse (text : String) : Except Failure Production :=
  Production.parseChars text.toList

def Grammar.parseChars (text : List Char) : Except Failure Grammar :=
  let (productions, rest) := readProductions text.length text
  finish ⟨productions⟩ rest

/-- The grammar that the whole text denotes. -/
def Grammar.parse (text : String) : Except Failure Grammar := Grammar.parseChars text.toList

end GrammarCompiler.Ebnf
