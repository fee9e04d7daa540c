import GrammarCompiler.Ebnf.Basic

/-!
The texts of the notation, as a relation between values and texts. It says
which texts denote a value and leaves all freedom of writing: layout in front
of every token, comments, and the choice of the quote.
-/

namespace GrammarCompiler.Ebnf

/-- No end of a comment comes before the end of `body` followed by `*)`. -/
def CommentBody (body : List Char) : Prop :=
  ∀ before after, body ++ ['*'] ≠ before ++ '*' :: ')' :: after

inductive Layout : List Char → Prop where
  | nil : Layout []
  | blank {c : Char} {rest : List Char} : isBlank c = true → Layout rest → Layout (c :: rest)
  | comment {body rest : List Char} :
    CommentBody body → Layout rest → Layout ('(' :: '*' :: (body ++ '*' :: ')' :: rest))

/-- The characters of a name. -/
inductive NameText : List Char → Prop where
  | intro {c : Char} {cs : List Char} :
    isNameStart c = true → (∀ d ∈ cs, isNamePart d = true) → NameText (c :: cs)

mutual
/-- A factor, without layout in front. -/
inductive FactorText : Expr → List Char → Prop where
  | reference {cs : List Char} : NameText cs → FactorText (.reference (String.ofList cs)) cs
  | terminal {quote : Char} {cs : List Char} :
    quote = doubleQuote ∨ quote = singleQuote → quote ∉ cs →
      FactorText (.terminal (String.ofList cs)) (quote :: (cs ++ [quote]))
  | repetition {es : List Expr} {text layout : List Char} :
    AlternationText es text → Layout layout →
      FactorText (.repetition (.ofAlternatives es)) (openBrace :: (text ++ layout ++ [closeBrace]))

/-- Factors with commas between them. -/
inductive ConcatenationText : List Expr → List Char → Prop where
  | last {e : Expr} {layout text : List Char} :
    Layout layout → FactorText e text → ConcatenationText [e] (layout ++ text)
  | cons {e : Expr} {es : List Expr} {layout text gap rest : List Char} :
    Layout layout → FactorText e text → Layout gap → ConcatenationText es rest →
      ConcatenationText (e :: es) (layout ++ text ++ gap ++ ',' :: rest)

/-- Concatenations with bars between them. -/
inductive AlternationText : List Expr → List Char → Prop where
  | last {es : List Expr} {text : List Char} :
    ConcatenationText es text → AlternationText [.ofSequence es] text
  | cons {es : List Expr} {others : List Expr} {text gap rest : List Char} :
    ConcatenationText es text → Layout gap → AlternationText others rest →
      AlternationText (.ofSequence es :: others) (text ++ gap ++ '|' :: rest)
end

inductive ExprText : Expr → List Char → Prop where
  | intro {es : List Expr} {text : List Char} :
    AlternationText es text → ExprText (.ofAlternatives es) text

/-- A production: name, equals sign, body and semicolon. -/
inductive ProductionText : Production → List Char → Prop where
  | intro {name layout gap : List Char} {body : Expr} {text last : List Char} :
    Layout layout → NameText name → Layout gap → ExprText body text → Layout last →
      ProductionText ⟨String.ofList name, body⟩
        (layout ++ name ++ gap ++ '=' :: (text ++ last ++ [';']))

/-- Productions one behind the other, and layout at the end. -/
inductive ProductionsText : List Production → List Char → Prop where
  | nil {layout : List Char} : Layout layout → ProductionsText [] layout
  | cons {p : Production} {ps : List Production} {text rest : List Char} :
    ProductionText p text → ProductionsText ps rest → ProductionsText (p :: ps) (text ++ rest)

/-- A body, and layout at the end. -/
def Expr.DenotedBy (e : Expr) (text : List Char) : Prop :=
  ∃ front last, ExprText e front ∧ Layout last ∧ text = front ++ last

/-- A production, and layout at the end. -/
def Production.DenotedBy (p : Production) (text : List Char) : Prop :=
  ∃ front last, ProductionText p front ∧ Layout last ∧ text = front ++ last

def Grammar.DenotedBy (g : Grammar) (text : List Char) : Prop :=
  ProductionsText g.productions text

end GrammarCompiler.Ebnf
