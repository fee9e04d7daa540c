import GrammarCompiler.Naja.Expression
import GrammarCompiler.Proofs.ConcreteSyntax
import GrammarCompiler.Proofs.Derivation

/-!
The trees of phrases, and the expressions that they denote. A phrase denotes
an expression by recursion on the phrase; the rounds of a level are applied to
what stands in front of them. Reading the tree of a phrase gives the same
expression, so that what a tree denotes can be reasoned about without looking
into the tree.
-/

namespace GrammarCompiler.Naja

open GrammarCompiler.Derivation

/-! ### Operators -/

theorem Level.isSome_ofCategory? (level : Level) :
    ∀ c ∈ level.signs, (BinaryOp.ofCategory? c).isSome = true := by
  cases level <;> decide

theorem isSome_ofCategory?_unary : ∀ c ∈ unarySigns, (UnaryOp.ofCategory? c).isSome = true := by
  decide

/-- The operator that a sign between operands stands for. -/
def LexemeOf.binaryOp {level : Level} (sign : LexemeOf level.signs) : BinaryOp :=
  (BinaryOp.ofCategory? sign.category).get (level.isSome_ofCategory? _ sign.mem)

/-- The operator that a sign in front of a factor stands for. -/
def LexemeOf.unaryOp (sign : LexemeOf unarySigns) : UnaryOp :=
  (UnaryOp.ofCategory? sign.category).get (isSome_ofCategory?_unary _ sign.mem)

theorem LexemeOf.ofCategory?_binaryOp {level : Level} (sign : LexemeOf level.signs) :
    BinaryOp.ofCategory? sign.category = some sign.binaryOp := by
  rw [binaryOp, Option.some_get]

theorem LexemeOf.ofCategory?_unaryOp (sign : LexemeOf unarySigns) :
    UnaryOp.ofCategory? sign.category = some sign.unaryOp := by
  rw [unaryOp, Option.some_get]

theorem LexemeOf.ofName?_kind {categories : List Category} (l : LexemeOf categories) :
    Category.ofName? (Tree.ofLexeme l.lexeme).kind = some l.category := by
  rw [Tree.kind_ofLexeme, l.kind_eq, Category.ofName?_name]

/-! ### Trees -/

/-- The node of an operator of a level. -/
def LexemeOf.node {categories : List Category} (l : LexemeOf categories) (kind : String) : Tree :=
  .ofSymbol kind [.ofLexeme l.lexeme]

mutual
def Phrase.tree : {part : Part} → Phrase part → Tree
  | _, @Phrase.operands level first rounds =>
    .ofSymbol level.kind (first.tree ::
      Descent.fragment repetitionKind (Symbol.renderRepetition level.body) rounds.trees)
  | _, .parens opening inner closing =>
    .ofSymbol factorKind [.ofLexeme opening.lexeme, inner.tree, .ofLexeme closing.lexeme]
  | _, .signed unary => .ofSymbol factorKind [unary.tree]
  | _, .literal digits => digits.node factorKind
  | _, .unary sign operand => .ofSymbol unaryKind [.ofLexeme sign.lexeme, operand.tree]

/-- The trees of the operators and operands of rounds, in turn. -/
def Rounds.trees : {level : Level} → Rounds level → List Tree
  | _, .stop => []
  | _, @Rounds.round level sign operand rest =>
    sign.node level.signKind :: operand.tree :: rest.trees
end

@[simp] theorem Phrase.kind_tree {part : Part} (p : Phrase part) : p.tree.kind = part.kind := by
  cases p <;> rw [tree] <;> rfl

mutual
theorem Phrase.trees_derivation {part : Part} (p : Phrase part) :
    p.derivation.trees = [p.tree] := by
  match p with
  | .operands first rounds =>
      rw [Phrase.derivation, Phrase.tree, ← rounds.roundsTrees_derivations,
        fragment_roundsTrees rounds.roundsTrees_ne_nil, Derivation.trees, roundsTrees, roundsTrees,
        partsTrees, partsTrees, partsTrees, first.trees_derivation, List.append_nil,
        List.append_nil]
      rfl
  | .parens opening inner closing =>
      simp [Phrase.derivation, Phrase.tree, inner.trees_derivation]
  | .signed unary => simp [Phrase.derivation, Phrase.tree, unary.trees_derivation]
  | .literal digits => simp [Phrase.derivation, Phrase.tree, LexemeOf.choice, LexemeOf.node]
  | .unary sign operand => simp [Phrase.derivation, Phrase.tree, operand.trees_derivation]
termination_by structural p

theorem Rounds.roundsTrees_derivations {level : Level} (r : Rounds level) :
    roundsTrees r.derivations = r.trees := by
  match r with
  | .stop => rw [Rounds.derivations, Rounds.trees, roundsTrees]
  | .round sign operand rest =>
      simp [Rounds.derivations, Rounds.trees, LexemeOf.choice, LexemeOf.node,
        operand.trees_derivation, rest.roundsTrees_derivations]
termination_by structural r
end

/-! ### Expressions -/

mutual
def Phrase.expression : {part : Part} → Phrase part → Expression
  | _, .operands first rounds => rounds.applyTo first.expression
  | _, .parens _ inner _ => inner.expression
  | _, .signed unary => unary.expression
  | _, .literal digits => .literal digits.lexeme.text
  | _, .unary sign operand => .unary sign.unaryOp operand.expression

/-- The operators of rounds, applied from left to right. -/
def Rounds.applyTo : {level : Level} → Rounds level → Expression → Expression
  | _, .stop, left => left
  | _, .round sign operand rest, left =>
    rest.applyTo (.binary sign.binaryOp left operand.expression)
end

theorem BinaryOp.ofNode?_node {level : Level} (sign : LexemeOf level.signs) (kind : String) :
    BinaryOp.ofNode? (sign.node kind) = some sign.binaryOp := by
  rw [LexemeOf.node, BinaryOp.ofNode?]
  simp only [Tree.children_ofSymbol, sign.ofName?_kind, Option.bind_some, sign.ofCategory?_binaryOp]

theorem UnaryOp.ofLeaf?_sign (sign : LexemeOf unarySigns) :
    UnaryOp.ofLeaf? (.ofLexeme sign.lexeme) = some sign.unaryOp := by
  rw [UnaryOp.ofLeaf?, sign.ofName?_kind, Option.bind_some, sign.ofCategory?_unaryOp]

theorem Expression.ofTail?_fragment (left : Expression) (text : String) (trees : List Tree) :
    Expression.ofTail? left (Descent.fragment repetitionKind text trees) =
      Expression.ofRounds? left trees := by
  cases trees <;> rfl

mutual
theorem Phrase.ofTree?_tree {part : Part} (p : Phrase part) :
    Expression.ofTree? p.tree = some p.expression := by
  match p with
  | @Phrase.operands level first rounds =>
      have hkind : level.kind = expressionKind ∨ level.kind = termKind := by
        cases level <;> decide
      rw [Phrase.tree, Phrase.expression, Tree.ofSymbol, Expression.ofTree?, if_pos hkind,
        Expression.ofOperands?, first.ofTree?_tree, Option.bind_some,
        Expression.ofTail?_fragment, rounds.ofRounds?_trees]
  | .parens opening inner closing =>
      rw [Phrase.tree, Phrase.expression, ← inner.ofTree?_tree]
      rfl
  | .signed unary =>
      -- A factor with one child is a literal or a unary expression, and the kind tells which.
      have hkind : unary.tree.kind ≠ Category.intLiteral.name := by
        rw [unary.kind_tree]
        decide
      rw [Phrase.tree, Phrase.expression]
      change Expression.ofFactor? [unary.tree] = _
      rw [Expression.ofFactor?, if_neg hkind, unary.ofTree?_tree]
  | .literal digits =>
      rw [Phrase.tree, Phrase.expression]
      change Expression.ofFactor? [.ofLexeme digits.lexeme] = _
      rw [Expression.ofFactor?, Tree.kind_ofLexeme, if_pos digits.kind_eq_of_singleton,
        Tree.text_ofLexeme]
  | .unary sign operand =>
      rw [Phrase.tree, Phrase.expression]
      change Expression.ofUnary? [.ofLexeme sign.lexeme, operand.tree] = _
      rw [Expression.ofUnary?, UnaryOp.ofLeaf?_sign, Option.bind_some, operand.ofTree?_tree,
        Option.map_some]
termination_by structural p

theorem Rounds.ofRounds?_trees {level : Level} (r : Rounds level) (left : Expression) :
    Expression.ofRounds? left r.trees = some (r.applyTo left) := by
  match r with
  | .stop => rw [Rounds.trees, Rounds.applyTo, Expression.ofRounds?]
  | .round sign operand rest =>
      rw [Rounds.trees, Rounds.applyTo, Expression.ofRounds?, BinaryOp.ofNode?_node,
        Option.bind_some, Expression.ofRound?, operand.ofTree?_tree, Option.bind_some,
        rest.ofRounds?_trees]
termination_by structural r
end

/-! ### Literals -/

/-- The literals of an expression, from left to right. -/
def Expression.literals : Expression → List String
  | .literal digits => [digits]
  | .unary _ operand => operand.literals
  | .binary _ left right => left.literals ++ right.literals

/-- The texts of the literals among lexemes. -/
def literalTexts (ls : List Lexeme) : List String :=
  (ls.filter fun l => l.kind = Category.intLiteral.name).map Lexeme.text

@[simp] theorem literalTexts_nil : literalTexts [] = [] := rfl

@[simp] theorem literalTexts_append (ls ms : List Lexeme) :
    literalTexts (ls ++ ms) = literalTexts ls ++ literalTexts ms := by
  simp [literalTexts]

theorem literalTexts_cons {categories : List Category} (l : LexemeOf categories)
    (h : Category.intLiteral ∉ categories) (ls : List Lexeme) :
    literalTexts (l.lexeme :: ls) = literalTexts ls := by
  simp [literalTexts, l.kind_ne h]

mutual
/-- No literal of a phrase gets lost, and they keep their order. -/
theorem Phrase.literals_expression {part : Part} (p : Phrase part) :
    p.expression.literals = literalTexts p.lexemes := by
  match p with
  | .operands first rounds =>
      rw [Phrase.expression, rounds.literals_applyTo, first.literals_expression,
        Phrase.lexemes_operands, literalTexts_append]
  | .parens opening inner closing =>
      rw [Phrase.expression, inner.literals_expression, Phrase.lexemes_parens,
        literalTexts_cons opening (by decide), literalTexts_append,
        literalTexts_cons closing (by decide), literalTexts_nil, List.append_nil]
  | .signed unary =>
      rw [Phrase.expression, unary.literals_expression, Phrase.lexemes_signed]
  | .literal digits =>
      rw [Phrase.expression, Phrase.lexemes_literal]
      simp [Expression.literals, literalTexts, digits.kind_eq_of_singleton]
  | .unary sign operand =>
      rw [Phrase.expression, Expression.literals, operand.literals_expression,
        Phrase.lexemes_unary, literalTexts_cons sign (by decide)]
termination_by structural p

theorem Rounds.literals_applyTo {level : Level} (r : Rounds level) (left : Expression) :
    (r.applyTo left).literals = left.literals ++ literalTexts r.lexemes := by
  match r with
  | .stop => rw [Rounds.applyTo, Rounds.lexemes_stop, literalTexts_nil, List.append_nil]
  | @Rounds.round level sign operand rest =>
      have hsign : Category.intLiteral ∉ level.signs := by cases level <;> decide
      rw [Rounds.applyTo, rest.literals_applyTo, Expression.literals, operand.literals_expression,
        Rounds.lexemes_round, literalTexts_cons sign hsign, literalTexts_append, List.append_assoc]
termination_by structural r
end

theorem Phrase.exists_lexeme_of_mem_literals {part : Part} (p : Phrase part) {digits : String}
    (h : digits ∈ p.expression.literals) :
    ∃ l ∈ p.lexemes, l.kind = Category.intLiteral.name ∧ l.text = digits := by
  rw [p.literals_expression, literalTexts] at h
  obtain ⟨l, hl, htext⟩ := List.mem_map.1 h
  obtain ⟨hmem, hkind⟩ := List.mem_filter.1 hl
  exact ⟨l, hmem, of_decide_eq_true hkind, htext⟩

/-! ### Programs -/

namespace ProgramPhrase

def statementTree (p : ProgramPhrase) : Tree :=
  .ofSymbol statementKind
    [p.indent.node indentKind, .ofLexeme p.returnWord.lexeme, p.result.tree]

def functionTree (p : ProgramPhrase) : Tree :=
  .ofSymbol functionKind (p.heading.map .ofLexeme ++ [p.statementTree])

def tree (p : ProgramPhrase) : Tree := .ofSymbol programKind [p.functionTree]

theorem trees_derivation (p : ProgramPhrase) : p.derivation.trees = [p.tree] := by
  simp [derivation, function, statement, tree, functionTree, statementTree, LexemeOf.choice,
    LexemeOf.node, partsTrees_terminals, p.result.trees_derivation]

/-- The name of the function, which stands behind the first word. -/
def name (p : ProgramPhrase) : String := (p.heading.getD 1 default).text

def program (p : ProgramPhrase) : Program where
  name := p.name
  result := p.result.expression

theorem exists_heading (p : ProgramPhrase) :
    ∃ word name rest, p.heading = word :: name :: rest ∧ word.kind = Category.defWord.name ∧
      name.kind = Category.identifier.name := by
  have hcategories : ∃ cs, p.categories = .defWord :: .identifier :: cs := by
    rcases List.mem_cons.1 p.mem with hc | hmem
    · exact ⟨_, hc⟩
    · exact ⟨_, List.mem_singleton.1 hmem⟩
  obtain ⟨cs, hcs⟩ := hcategories
  have hkinds := p.kinds_eq
  rw [hcs, List.map_cons, List.map_cons] at hkinds
  obtain ⟨word, ls, hheading, hword, hls⟩ := List.map_eq_cons_iff.1 hkinds
  obtain ⟨name, rest, rfl, hname, -⟩ := List.map_eq_cons_iff.1 hls
  exact ⟨word, name, rest, hheading, hword, hname⟩

/-- The name of the function is the text of an identifier. -/
theorem exists_identifier (p : ProgramPhrase) :
    ∃ l ∈ p.lexemes, l.kind = Category.identifier.name ∧ l.text = p.program.name := by
  obtain ⟨word, name, rest, hheading, -, hkind⟩ := p.exists_heading
  refine ⟨name, ?_, hkind, ?_⟩
  · simp [p.lexemes_eq, hheading]
  · simp [program, ProgramPhrase.name, hheading]

theorem exists_category (p : ProgramPhrase) {l : Lexeme} (hl : l ∈ p.heading) :
    ∃ c : Category, l.kind = c.name := by
  have hkind := List.mem_map_of_mem (f := Lexeme.kind) hl
  rw [p.kinds_eq] at hkind
  obtain ⟨c, -, hc⟩ := List.mem_map.1 hkind
  exact ⟨c, hc.symm⟩

theorem name_ne_statementKind (c : Category) : c.name ≠ statementKind := by
  cases c <;> decide

theorem child?_identifier (p : ProgramPhrase) :
    (p.functionTree.child? Category.identifier.name).map Tree.text = some p.name := by
  obtain ⟨word, name, rest, hheading, hword, hname⟩ := p.exists_heading
  have hne : word.kind ≠ Category.identifier.name := by
    rw [hword]
    decide
  simp [Tree.child?, functionTree, ProgramPhrase.name, hheading, hne, hname]

theorem child?_statement (p : ProgramPhrase) :
    p.functionTree.child? statementKind = some p.statementTree := by
  have hheading : (p.heading.map Tree.ofLexeme).find? (·.kind = statementKind) = none := by
    rw [List.find?_eq_none]
    intro t ht hkind
    obtain ⟨l, hl, rfl⟩ := List.mem_map.1 ht
    obtain ⟨c, hc⟩ := p.exists_category hl
    exact name_ne_statementKind c (hc.symm.trans (of_decide_eq_true hkind))
  rw [Tree.child?, functionTree, Tree.children_ofSymbol, List.find?_append, hheading]
  rfl

theorem child?_expression (p : ProgramPhrase) :
    p.statementTree.child? expressionKind = some p.result.tree := by
  have hindent : indentKind ≠ expressionKind := by decide
  have hword : p.returnWord.lexeme.kind ≠ expressionKind := by
    rw [p.returnWord.kind_eq_of_singleton]
    decide
  have hresult : p.result.tree.kind = expressionKind := p.result.kind_tree
  simp [Tree.child?, statementTree, LexemeOf.node, hindent, hword, hresult]

theorem ofTree?_tree (p : ProgramPhrase) : Program.ofTree? p.tree = some p.program := by
  obtain ⟨name, hname, htext⟩ := Option.map_eq_some_iff.1 p.child?_identifier
  have hfunction : p.tree.child? functionKind = some p.functionTree := rfl
  simp [Program.ofTree?, hfunction, hname, p.child?_statement, p.child?_expression,
    p.result.ofTree?_tree, program, htext]

end ProgramPhrase

end GrammarCompiler.Naja
