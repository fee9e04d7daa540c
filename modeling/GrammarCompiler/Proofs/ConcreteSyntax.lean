import GrammarCompiler.Grammar.Derivation
import GrammarCompiler.Naja.Rules

/-!
The concrete syntax of Naja as a type. A phrase is what the grammar derives
from one of the symbols of expressions, and a list of rounds is what it derives
from one of its two repetitions; both keep the lexemes that they are made of.
The levels of addition and of multiplication are one construction at two
levels, and a level knows its operators and what its operands are.

The grammar itself says all this with names. Here the names are gone, so that
statements about all programs are inductions on phrases. `Phrase.derivation`
leads back to the grammar.
-/

namespace GrammarCompiler.Naja

/-! ### Parts of expressions -/

/-- The two levels of binary operators. -/
inductive Level where
  | additive
  | multiplicative
deriving DecidableEq, Repr

/-- The symbols of expressions: operands with the operators of a level between them, factors, and
factors with a sign. -/
inductive Part where
  | operands (level : Level)
  | factor
  | unary
deriving DecidableEq, Repr

/-- What stands between the operators of a level. -/
def Level.operand : Level → Part
  | .additive => .operands .multiplicative
  | .multiplicative => .factor

def Level.signs : Level → List Category
  | .additive => [.plus, .minus]
  | .multiplicative => [.multiply, .divide]

/-- The signs in front of a factor. -/
def unarySigns : List Category := [.minus, .bitwiseComplement, .notWord]

def Level.kind : Level → String
  | .additive => expressionKind
  | .multiplicative => termKind

def Level.signKind : Level → String
  | .additive => additiveKind
  | .multiplicative => multiplicativeKind

def Part.kind : Part → String
  | .operands level => level.kind
  | .factor => factorKind
  | .unary => unaryKind

/-- A round of a level: an operator and an operand. -/
def Level.body (level : Level) : List Symbol :=
  [.nonTerminal level.signKind, .nonTerminal level.operand.kind]

def Level.rule (level : Level) : Rule :=
  .sequence [.nonTerminal level.operand.kind, .repetition level.body]

/-! ### Phrases -/

/-- A lexeme of one of the given categories. -/
structure LexemeOf (categories : List Category) where
  category : Category
  mem : category ∈ categories
  lexeme : Lexeme
  kind_eq : lexeme.kind = category.name

mutual
/-- What a symbol of expressions can be. -/
inductive Phrase : Part → Type where
  | operands {level : Level} (first : Phrase level.operand) (rounds : Rounds level) :
    Phrase (.operands level)
  | parens (opening : LexemeOf [.parenOpen]) (inner : Phrase (.operands .additive))
    (closing : LexemeOf [.parenClose]) : Phrase .factor
  | signed (unary : Phrase .unary) : Phrase .factor
  | literal (digits : LexemeOf [.intLiteral]) : Phrase .factor
  | unary (sign : LexemeOf unarySigns) (operand : Phrase .factor) : Phrase .unary

/-- Operators with an operand behind each. -/
inductive Rounds : Level → Type where
  | stop {level : Level} : Rounds level
  | round {level : Level} (sign : LexemeOf level.signs) (operand : Phrase level.operand)
    (rest : Rounds level) : Rounds level
end

/-- Induction on rounds that leaves the phrases in them alone. -/
@[elab_as_elim] theorem Rounds.induct {level : Level} {motive : Rounds level → Prop}
    (stop : motive .stop)
    (round : ∀ sign operand rest, motive rest → motive (.round sign operand rest)) :
    ∀ r : Rounds level, motive r
  | .stop => stop
  | .round sign operand rest => round sign operand rest (rest.induct stop round)

/-- The derivation of a symbol that stands for one lexeme of several categories. -/
def LexemeOf.choice {categories : List Category} (l : LexemeOf categories) (kind : String) :
    Derivation :=
  .nonTerminal kind (.sequence [lexemeOf l.category]) [[.terminal l.lexeme]]

mutual
def Phrase.derivation : {part : Part} → Phrase part → Derivation
  | _, @Phrase.operands level first rounds =>
    .nonTerminal level.kind level.rule
      [[first.derivation, .repetition level.body rounds.derivations]]
  | _, .parens opening inner closing =>
    .nonTerminal factorKind
      (.sequence [lexemeOf .parenOpen, .nonTerminal expressionKind, lexemeOf .parenClose])
      [[.terminal opening.lexeme, inner.derivation, .terminal closing.lexeme]]
  | _, .signed unary =>
    .nonTerminal factorKind (.sequence [.nonTerminal unaryKind]) [[unary.derivation]]
  | _, .literal digits => digits.choice factorKind
  | _, .unary sign operand =>
    .nonTerminal unaryKind (.sequence [lexemeOf sign.category, .nonTerminal factorKind])
      [[.terminal sign.lexeme, operand.derivation]]

def Rounds.derivations : {level : Level} → Rounds level → List (List Derivation)
  | _, .stop => []
  | _, @Rounds.round level sign operand rest =>
    [sign.choice level.signKind, operand.derivation] :: rest.derivations
end

def Phrase.lexemes {part : Part} (p : Phrase part) : List Lexeme := p.derivation.lexemes

def Rounds.lexemes {level : Level} (p : Rounds level) : List Lexeme :=
  Derivation.roundsLexemes p.derivations

section

variable {level : Level}

@[simp] theorem Phrase.lexemes_operands (first : Phrase level.operand) (rounds : Rounds level) :
    (Phrase.operands first rounds).lexemes = first.lexemes ++ rounds.lexemes := by
  simp [Phrase.lexemes, Rounds.lexemes, derivation]

@[simp] theorem Phrase.lexemes_parens (opening : LexemeOf [.parenOpen])
    (inner : Phrase (.operands .additive)) (closing : LexemeOf [.parenClose]) :
    (Phrase.parens opening inner closing).lexemes =
      opening.lexeme :: (inner.lexemes ++ [closing.lexeme]) := by
  simp [Phrase.lexemes, derivation]

@[simp] theorem Phrase.lexemes_signed (unary : Phrase .unary) :
    (Phrase.signed unary).lexemes = unary.lexemes := by
  simp [Phrase.lexemes, derivation]

@[simp] theorem Phrase.lexemes_literal (digits : LexemeOf [.intLiteral]) :
    (Phrase.literal digits).lexemes = [digits.lexeme] := by
  simp [Phrase.lexemes, derivation, LexemeOf.choice]

@[simp] theorem Phrase.lexemes_unary (sign : LexemeOf unarySigns) (operand : Phrase .factor) :
    (Phrase.unary sign operand).lexemes = sign.lexeme :: operand.lexemes := by
  simp [Phrase.lexemes, derivation]

@[simp] theorem Rounds.lexemes_stop : (Rounds.stop : Rounds level).lexemes = [] := by
  simp [Rounds.lexemes, derivations]

@[simp] theorem Rounds.lexemes_round (sign : LexemeOf level.signs)
    (operand : Phrase level.operand) (rest : Rounds level) :
    (Rounds.round sign operand rest).lexemes =
      sign.lexeme :: (operand.lexemes ++ rest.lexemes) := by
  simp [Phrase.lexemes, Rounds.lexemes, derivations, LexemeOf.choice]

end

/-- A round of a phrase has a node. -/
theorem Rounds.roundsTrees_ne_nil {level : Level} (p : Rounds level)
    (h : Derivation.roundsTrees p.derivations = []) : p.derivations = [] := by
  cases p with
  | stop => rw [derivations]
  | round sign operand more => simp [derivations, LexemeOf.choice] at h

/-! ### Lexemes and their categories -/

namespace LexemeOf

variable {categories others : List Category}

theorem kind_eq_of_singleton {c : Category} (l : LexemeOf [c]) : l.lexeme.kind = c.name := by
  rw [l.kind_eq, List.mem_singleton.1 l.mem]

theorem kind_ne (l : LexemeOf categories) {c : Category} (h : c ∉ categories) :
    l.lexeme.kind ≠ c.name := by
  intro he
  rw [l.kind_eq] at he
  exact h (Category.eq_of_name_eq he ▸ l.mem)

theorem lexeme_ne (l : LexemeOf categories) (m : LexemeOf others)
    (h : ∀ c ∈ others, c ∉ categories) : l.lexeme ≠ m.lexeme := by
  intro he
  refine l.kind_ne (h m.category m.mem) ?_
  rw [he, m.kind_eq]

theorem head_kind_ne (l : LexemeOf categories) (h : ∀ c ∈ others, c ∉ categories)
    (rest : List Lexeme) : ∀ l' ∈ (l.lexeme :: rest).head?, ∀ c ∈ others, l'.kind ≠ c.name := by
  intro l' hl' c hc
  obtain rfl : l.lexeme = l' := by simpa using hl'
  exact l.kind_ne (h c hc)

/-- The lexeme settles the category. -/
theorem ext {l m : LexemeOf categories} (h : l.lexeme = m.lexeme) : l = m := by
  obtain ⟨c, hc, lexeme, hl⟩ := l
  obtain ⟨d, hd, lexeme', hm⟩ := m
  subst h
  obtain rfl := Category.eq_of_name_eq (hl.symm.trans hm)
  rfl

end LexemeOf

/-! ### Unambiguity

A phrase can be told from what follows it, as long as what follows does not go
on with an operator of its own level or of a level below. -/

/-- The operators that would continue a phrase. -/
def Part.extensions : Part → List Category
  | .operands .additive => [.plus, .minus, .multiply, .divide]
  | .operands .multiplicative => [.multiply, .divide]
  | .factor | .unary => []

/-- What follows does not continue a phrase. -/
def Part.Closed (part : Part) (rest : List Lexeme) : Prop :=
  ∀ l ∈ rest.head?, ∀ c ∈ part.extensions, l.kind ≠ c.name

theorem Part.closed_nil (part : Part) : part.Closed [] := by
  intro l hl
  cases hl

theorem Part.closed_cons {part : Part} {categories : List Category} (l : LexemeOf categories)
    (h : ∀ c ∈ part.extensions, c ∉ categories) (rest : List Lexeme) :
    part.Closed (l.lexeme :: rest) :=
  l.head_kind_ne h rest

theorem Level.mem_extensions {level : Level} {c : Category} (h : c ∈ level.signs) :
    c ∈ (Part.operands level).extensions := by
  cases level with
  | additive =>
      rcases List.mem_cons.1 h with rfl | h
      · decide
      · obtain rfl := List.mem_singleton.1 h
        decide
  | multiplicative => exact h

theorem Level.closed_operand {level : Level} {rest : List Lexeme}
    (h : (Part.operands level).Closed rest) : level.operand.Closed rest := by
  intro l hl c hc
  refine h l hl c ?_
  cases level with
  | additive =>
      simp only [operand, Part.extensions] at hc ⊢
      exact List.mem_cons_of_mem _ (List.mem_cons_of_mem _ hc)
  | multiplicative => simp [operand, Part.extensions] at hc

/-- Behind an operand comes an operator of the level, or what follows the level. -/
theorem Rounds.closed_operand {level : Level} (p : Rounds level) {rest : List Lexeme}
    (h : (Part.operands level).Closed rest) : level.operand.Closed (p.lexemes ++ rest) := by
  cases p with
  | stop => simpa using Level.closed_operand h
  | round sign operand more =>
      rw [lexemes_round, List.cons_append]
      refine Part.closed_cons sign ?_ _
      cases level <;> decide

mutual
theorem Phrase.unique {part : Part} (p q : Phrase part) {rest rest' : List Lexeme}
    (h : p.lexemes ++ rest = q.lexemes ++ rest') (hrest : part.Closed rest)
    (hrest' : part.Closed rest') : p = q ∧ rest = rest' := by
  match p, q with
  | .operands first rounds, .operands first' rounds' =>
      have hfirst : first.lexemes ++ (rounds.lexemes ++ rest) =
          first'.lexemes ++ (rounds'.lexemes ++ rest') := by simpa using h
      obtain ⟨rfl, hrounds⟩ := first.unique first' hfirst (rounds.closed_operand hrest)
        (rounds'.closed_operand hrest')
      obtain ⟨rfl, rfl⟩ := rounds.unique rounds' hrounds hrest hrest'
      exact ⟨rfl, rfl⟩
  | .parens opening inner closing, .parens opening' inner' closing' =>
      obtain ⟨ho, hinner⟩ : opening.lexeme = opening'.lexeme ∧
          inner.lexemes ++ closing.lexeme :: rest =
            inner'.lexemes ++ closing'.lexeme :: rest' := by simpa using h
      obtain ⟨rfl, hclosing⟩ := inner.unique inner' hinner
        (Part.closed_cons closing (by decide) rest) (Part.closed_cons closing' (by decide) rest')
      obtain ⟨hc, rfl⟩ := List.cons.inj hclosing
      rw [LexemeOf.ext ho, LexemeOf.ext hc]
      exact ⟨rfl, rfl⟩
  | .signed unary, .signed unary' =>
      have hunary : unary.lexemes ++ rest = unary'.lexemes ++ rest' := by simpa using h
      obtain ⟨rfl, rfl⟩ := unary.unique unary' hunary hrest hrest'
      exact ⟨rfl, rfl⟩
  | .literal digits, .literal digits' =>
      obtain ⟨hd, rfl⟩ : digits.lexeme = digits'.lexeme ∧ rest = rest' := by simpa using h
      rw [LexemeOf.ext hd]
      exact ⟨rfl, rfl⟩
  | .unary sign operand, .unary sign' operand' =>
      obtain ⟨hs, hoperand⟩ : sign.lexeme = sign'.lexeme ∧
          operand.lexemes ++ rest = operand'.lexemes ++ rest' := by simpa using h
      obtain ⟨rfl, rfl⟩ := operand.unique operand' hoperand hrest hrest'
      rw [LexemeOf.ext hs]
      exact ⟨rfl, rfl⟩
  -- The first lexeme tells the kinds of factors apart.
  | .parens opening _ _, .signed (.unary sign _) =>
      exact absurd (List.cons.inj (by simpa using h)).1 (opening.lexeme_ne sign (by decide))
  | .parens opening _ _, .literal digits =>
      exact absurd (List.cons.inj (by simpa using h)).1 (opening.lexeme_ne digits (by decide))
  | .signed (.unary sign _), .parens opening _ _ =>
      exact absurd (List.cons.inj (by simpa using h)).1 (sign.lexeme_ne opening (by decide))
  | .signed (.unary sign _), .literal digits =>
      exact absurd (List.cons.inj (by simpa using h)).1 (sign.lexeme_ne digits (by decide))
  | .literal digits, .parens opening _ _ =>
      exact absurd (List.cons.inj (by simpa using h)).1 (digits.lexeme_ne opening (by decide))
  | .literal digits, .signed (.unary sign _) =>
      exact absurd (List.cons.inj (by simpa using h)).1 (digits.lexeme_ne sign (by decide))
termination_by structural p

theorem Rounds.unique {level : Level} (p q : Rounds level) {rest rest' : List Lexeme}
    (h : p.lexemes ++ rest = q.lexemes ++ rest') (hrest : (Part.operands level).Closed rest)
    (hrest' : (Part.operands level).Closed rest') : p = q ∧ rest = rest' := by
  match p, q with
  | .stop, .stop => exact ⟨rfl, by simpa using h⟩
  | .stop, .round sign operand more =>
      refine absurd sign.kind_eq (hrest sign.lexeme ?_ _ (Level.mem_extensions sign.mem))
      simpa using congrArg List.head? h
  | .round sign operand more, .stop =>
      refine absurd sign.kind_eq (hrest' sign.lexeme ?_ _ (Level.mem_extensions sign.mem))
      simpa using congrArg List.head? h.symm
  | .round sign operand more, .round sign' operand' more' =>
      obtain ⟨hs, hoperand⟩ : sign.lexeme = sign'.lexeme ∧
          operand.lexemes ++ (more.lexemes ++ rest) =
            operand'.lexemes ++ (more'.lexemes ++ rest') := by simpa using h
      obtain ⟨rfl, hmore⟩ := operand.unique operand' hoperand (more.closed_operand hrest)
        (more'.closed_operand hrest')
      obtain ⟨rfl, rfl⟩ := more.unique more' hmore hrest hrest'
      rw [LexemeOf.ext hs]
      exact ⟨rfl, rfl⟩
termination_by structural p
end

/-! ### Programs -/

/-- The categories of the heading of a function, up to the end of its line; the parentheses behind
the name may be left out. -/
def headings : List (List Category) :=
  [[.defWord, .identifier, .parenOpen, .parenClose, .asWord, .intWord, .colon, .newLine],
   [.defWord, .identifier, .asWord, .intWord, .colon, .newLine]]

/-- A program: the heading of its function, and its statement on a line of its own. -/
structure ProgramPhrase where
  categories : List Category
  mem : categories ∈ headings
  heading : List Lexeme
  kinds_eq : heading.map Lexeme.kind = categories.map Category.name
  indent : LexemeOf [.indent, .tab]
  returnWord : LexemeOf [.returnWord]
  result : Phrase (.operands .additive)

namespace ProgramPhrase

def statement (p : ProgramPhrase) : Derivation :=
  .nonTerminal statementKind
    (.sequence [.nonTerminal indentKind, lexemeOf .returnWord, .nonTerminal expressionKind])
    [[p.indent.choice indentKind, .terminal p.returnWord.lexeme, p.result.derivation]]

def function (p : ProgramPhrase) : Derivation :=
  .nonTerminal functionKind
    (.sequence (p.categories.map lexemeOf ++ [.nonTerminal statementKind]))
    [p.heading.map .terminal ++ [p.statement]]

def derivation (p : ProgramPhrase) : Derivation :=
  .nonTerminal programKind (.sequence [.nonTerminal functionKind]) [[p.function]]

def lexemes (p : ProgramPhrase) : List Lexeme := p.derivation.lexemes

theorem lexemes_eq (p : ProgramPhrase) :
    p.lexemes = p.heading ++ p.indent.lexeme :: p.returnWord.lexeme :: p.result.lexemes := by
  simp [lexemes, derivation, function, statement, Derivation.partsLexemes_terminals, LexemeOf.choice,
    Phrase.lexemes]

theorem length_heading (p : ProgramPhrase) : p.heading.length = p.categories.length := by
  simpa using congrArg List.length p.kinds_eq

theorem third_lt_length : ∀ cs ∈ headings, 2 < cs.length := by decide

theorem eq_of_third : ∀ cs ∈ headings, ∀ ds ∈ headings,
    (cs.map Category.name)[2]? = (ds.map Category.name)[2]? → cs = ds := by decide

theorem kind_third (p : ProgramPhrase) :
    (p.lexemes.map Lexeme.kind)[2]? = (p.categories.map Category.name)[2]? := by
  have hlen : 2 < (p.categories.map Category.name).length := by
    rw [List.length_map]
    exact third_lt_length p.categories p.mem
  rw [p.lexemes_eq, List.map_append, p.kinds_eq, List.getElem?_append_left hlen]

/-- The lexeme behind the name tells the two headings apart, and then nothing is left to choose. -/
theorem unique {p q : ProgramPhrase} (h : p.lexemes = q.lexemes) : p = q := by
  have hcategories : p.categories = q.categories := by
    refine eq_of_third _ p.mem _ q.mem ?_
    rw [← p.kind_third, ← q.kind_third, h]
  have hlen : p.heading.length = q.heading.length := by
    rw [p.length_heading, q.length_heading, hcategories]
  rw [p.lexemes_eq, q.lexemes_eq] at h
  obtain ⟨hheading, h⟩ := List.append_inj h hlen
  obtain ⟨hindent, h⟩ := List.cons.inj h
  obtain ⟨hreturn, h⟩ := List.cons.inj h
  have hresult : p.result = q.result := by
    refine (p.result.unique q.result ?_ (Part.closed_nil _) (Part.closed_nil _)).1
    rw [h]
  cases p
  cases q
  simp only [mk.injEq]
  exact ⟨hcategories, hheading, LexemeOf.ext hindent, LexemeOf.ext hreturn, hresult⟩

end ProgramPhrase

end GrammarCompiler.Naja
