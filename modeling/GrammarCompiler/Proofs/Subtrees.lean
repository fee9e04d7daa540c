import GrammarCompiler.Proofs.Generation
import GrammarCompiler.Proofs.Yield

/-!
The generators on any part of a program. Generation is a walk over the whole
tree, and a node has its turn with a buffer that its ancestors have left, with
slots of theirs behind its own. What the node does there is the same for every
such buffer: it turns the first open slot into the code of its expression and
touches nothing else; and without an open slot it stops.

Phrases have this property, so what is left is that every node of an
expression in the tree of a program is the tree of a phrase. The other nodes,
leaves and operators among them, are told apart by their kinds.
-/

namespace GrammarCompiler.Naja

open Assembly Text

/-! ### Nodes of expressions -/

theorem Category.name_ne_kind (c : Category) (part : Part) : c.name ≠ part.kind := by
  rcases part with ⟨⟨⟩⟩ | _ | _ <;> cases c <;> decide

/-- If the node has the kind of a part of expressions, then it is the tree of a phrase that is
made of the given lexemes. -/
def Phrased (ls : List Lexeme) (t : Tree) : Prop :=
  (∃ part : Part, t.kind = part.kind) →
    ∃ (part : Part) (q : Phrase part), q.tree = t ∧ ∀ l ∈ q.lexemes, l ∈ ls

/-- All nodes of the trees are phrased. -/
def PhrasedForest (ls : List Lexeme) (ts : List Tree) : Prop :=
  ∀ t ∈ Tree.forestPreorder ts, Phrased ls t

section

variable {ls ms : List Lexeme} {t : Tree} {ts us : List Tree}

theorem phrased_of_kind_ne (h : ∀ part : Part, t.kind ≠ part.kind) : Phrased ls t := by
  rintro ⟨part, hpart⟩
  exact absurd hpart (h part)

theorem PhrasedForest.mono (h : PhrasedForest ls ts) (hsub : ∀ l ∈ ls, l ∈ ms) :
    PhrasedForest ms ts := by
  intro t ht hkind
  obtain ⟨part, q, htree, hq⟩ := h t ht hkind
  exact ⟨part, q, htree, fun l hl => hsub l (hq l hl)⟩

theorem phrasedForest_nil : PhrasedForest ls [] := fun _ ht => absurd ht List.not_mem_nil

theorem phrasedForest_append :
    PhrasedForest ls (ts ++ us) ↔ PhrasedForest ls ts ∧ PhrasedForest ls us := by
  rw [PhrasedForest, Tree.forestPreorder_append]
  exact List.forall_mem_append

theorem phrasedForest_cons :
    PhrasedForest ls (t :: ts) ↔ PhrasedForest ls [t] ∧ PhrasedForest ls ts := by
  rw [← phrasedForest_append, List.singleton_append]

theorem phrasedForest_node {kind text : String} :
    PhrasedForest ls [.node kind text ts] ↔
      Phrased ls (.node kind text ts) ∧ PhrasedForest ls ts := by
  simp [PhrasedForest, Tree.forestPreorder, Tree.preorder]

theorem phrasedForest_lexeme {l : Lexeme} (h : ∃ c : Category, l.kind = c.name) :
    PhrasedForest ls [.ofLexeme l] := by
  obtain ⟨c, hc⟩ := h
  refine phrasedForest_node.2 ⟨phrased_of_kind_ne fun part => ?_, phrasedForest_nil⟩
  rw [Tree.kind_node, hc]
  exact c.name_ne_kind part

theorem phrasedForest_lexemes {heading : List Lexeme}
    (h : ∀ l ∈ heading, ∃ c : Category, l.kind = c.name) :
    PhrasedForest ls (heading.map .ofLexeme) := by
  induction heading with
  | nil => exact phrasedForest_nil
  | cons l heading ih =>
      obtain ⟨hl, hheading⟩ := List.forall_mem_cons.1 h
      exact phrasedForest_cons.2 ⟨phrasedForest_lexeme hl, ih hheading⟩

theorem LexemeOf.phrasedForest {categories : List Category} (l : LexemeOf categories) :
    PhrasedForest ls [.ofLexeme l.lexeme] :=
  phrasedForest_lexeme ⟨l.category, l.kind_eq⟩

theorem LexemeOf.phrasedForest_node {categories : List Category} (l : LexemeOf categories)
    {kind : String} (h : ∀ part : Part, kind ≠ part.kind) : PhrasedForest ls [l.node kind] :=
  Naja.phrasedForest_node.2 ⟨phrased_of_kind_ne h, l.phrasedForest⟩

/-- The node of a repetition is no part of an expression. -/
theorem phrasedForest_fragment {text : String} (h : PhrasedForest ls ts) :
    PhrasedForest ls (Descent.fragment repetitionKind text ts) := by
  have hkind : ∀ part : Part, repetitionKind ≠ part.kind := by
    rintro (⟨⟨⟩⟩ | _ | _) <;> decide
  rw [Descent.fragment]
  split
  · exact phrasedForest_nil
  · exact phrasedForest_node.2 ⟨phrased_of_kind_ne hkind, h⟩

/-- The tree of a phrase is phrased if the trees below it are. -/
theorem Phrase.phrasedForest_of_children {part : Part} (p : Phrase part)
    (h : PhrasedForest p.lexemes p.tree.children) : PhrasedForest p.lexemes [p.tree] := by
  have hself : Phrased p.lexemes p.tree := fun _ => ⟨part, p, rfl, fun _ hl => hl⟩
  generalize p.tree = t at h hself
  obtain ⟨kind, text, children⟩ := t
  exact phrasedForest_node.2 ⟨hself, h⟩

end

mutual
theorem Phrase.phrasedForest {part : Part} (p : Phrase part) :
    PhrasedForest p.lexemes [p.tree] := by
  refine p.phrasedForest_of_children ?_
  match p with
  | .operands first rounds =>
      have hfirst := first.phrasedForest.mono fun l hl => List.mem_append_left rounds.lexemes hl
      have hrounds := rounds.phrasedForest.mono fun l hl => List.mem_append_right first.lexemes hl
      rw [Phrase.lexemes_operands, Phrase.tree]
      exact phrasedForest_cons.2 ⟨hfirst, phrasedForest_fragment hrounds⟩
  | .parens opening inner closing =>
      have hinner : PhrasedForest (Phrase.parens opening inner closing).lexemes [inner.tree] :=
        inner.phrasedForest.mono fun l hl => by simp [hl]
      rw [Phrase.tree]
      exact phrasedForest_cons.2 ⟨opening.phrasedForest,
        phrasedForest_cons.2 ⟨hinner, closing.phrasedForest⟩⟩
  | .signed unary =>
      rw [Phrase.lexemes_signed, Phrase.tree]
      exact unary.phrasedForest
  | .literal digits =>
      rw [Phrase.tree]
      exact digits.phrasedForest
  | .unary sign operand =>
      have hoperand := operand.phrasedForest.mono fun l hl => List.mem_cons_of_mem sign.lexeme hl
      rw [Phrase.lexemes_unary, Phrase.tree]
      exact phrasedForest_cons.2 ⟨sign.phrasedForest, hoperand⟩
termination_by structural p

theorem Rounds.phrasedForest {level : Level} (r : Rounds level) :
    PhrasedForest r.lexemes r.trees := by
  match r with
  | .stop =>
      rw [Rounds.trees]
      exact phrasedForest_nil
  | @Rounds.round level sign operand rest =>
      have hsign : ∀ part : Part, level.signKind ≠ part.kind := by
        rintro (⟨⟨⟩⟩ | _ | _) <;> cases level <;> decide
      have hoperand : PhrasedForest (Rounds.round sign operand rest).lexemes [operand.tree] :=
        operand.phrasedForest.mono fun l hl => by simp [hl]
      have hrest : PhrasedForest (Rounds.round sign operand rest).lexemes rest.trees :=
        rest.phrasedForest.mono fun l hl => by simp [hl]
      rw [Rounds.trees]
      exact phrasedForest_cons.2 ⟨sign.phrasedForest_node hsign,
        phrasedForest_cons.2 ⟨hoperand, hrest⟩⟩
termination_by structural r
end

theorem ProgramPhrase.phrasedForest (p : ProgramPhrase) : PhrasedForest p.lexemes [p.tree] := by
  have hkind : ∀ kind ∈ [programKind, functionKind, statementKind, indentKind],
      ∀ part : Part, kind ≠ part.kind := by
    intro kind hkind part
    rcases part with ⟨⟨⟩⟩ | _ | _ <;> revert kind <;> decide
  have hheading : PhrasedForest p.lexemes (p.heading.map .ofLexeme) :=
    phrasedForest_lexemes fun l hl => p.exists_category hl
  have hresult : PhrasedForest p.lexemes [p.result.tree] :=
    p.result.phrasedForest.mono fun l hl => by simp [p.lexemes_eq, hl]
  have hstatement : PhrasedForest p.lexemes [p.statementTree] :=
    phrasedForest_node.2 ⟨phrased_of_kind_ne (hkind _ (by simp)),
      phrasedForest_cons.2 ⟨p.indent.phrasedForest_node (hkind _ (by simp)),
        phrasedForest_cons.2 ⟨p.returnWord.phrasedForest, hresult⟩⟩⟩
  have hfunction : PhrasedForest p.lexemes [p.functionTree] :=
    phrasedForest_node.2 ⟨phrased_of_kind_ne (hkind _ (by simp)),
      phrasedForest_append.2 ⟨hheading, hstatement⟩⟩
  exact phrasedForest_node.2 ⟨phrased_of_kind_ne (hkind _ (by simp)), hfunction⟩

/-- A node of an expression in the tree of a program is the tree of a phrase of that program. -/
theorem exists_phrase_of_mem_preorder {source : String} {tree : Tree}
    (h : parse source = .ok tree) {t : Tree} (ht : t ∈ tree.preorder) {part : Part}
    (hkind : t.kind = part.kind) :
    ∃ (part : Part) (q : Phrase part), q.tree = t ∧ PlainLexemes q.lexemes := by
  obtain ⟨p, rfl, hlexical⟩ := exists_tree_of_parse h
  have hmem : t ∈ Tree.forestPreorder [p.tree] := by simpa [Tree.forestPreorder] using ht
  obtain ⟨part, q, htree, hq⟩ := p.phrasedForest t hmem ⟨part, hkind⟩
  exact ⟨part, q, htree, fun l hl => plainLexemes_of_isLexical hlexical l (hq l hl)⟩

/-! ### Without an open slot -/

/-- Whatever the phrase is, some part of it looks for a slot before anything is edited. -/
theorem Phrase.stops {part : Part} (p : Phrase part) {out : Buffer} (hout : ¬ openSlot <:+: out) :
    (generator grammar).dispatch p.tree out =
      .error (.noSlot Slot.expression.placeholder) := by
  match p with
  | .operands first rounds =>
      rw [dispatch_operands, andThen_eq_error (fillFirst_eq_error hout _)]
  | .parens opening inner closing => rw [dispatch_parens, inner.stops hout]
  | .signed operand => rw [dispatch_signed, operand.stops hout]
  | .literal digits => rw [dispatch_literal, fillFirst_eq_error hout]
  | .unary sign operand => rw [dispatch_unary, andThen_eq_error (fillFirst_eq_error hout _)]
termination_by structural p

/-! ### The generators on parts of a program -/

/-- Every expression, term, factor and unary node of the tree of a source denotes an expression
and turns the first open slot into the code of that expression, which has no slot; the text in
front of the slot and behind it stays, and without an open slot the node stops. -/
theorem subtree_fills_first_open_slot (source : String) (tree t : Tree)
    (hparse : parse source = .ok tree) (ht : t ∈ tree.preorder)
    (hkind : t.kind ∈ [expressionKind, termKind, factorKind, unaryKind]) :
    ∃ e, Expression.ofTree? t = some e ∧
      (∀ slot : Slot, ¬ slot.placeholder.toList <:+: e.code) ∧
      (∀ pre post, ¬ openSlot <:+: pre →
        (generator grammar).dispatch t (pre ++ (openSlot ++ post)) =
          .ok (pre ++ (e.code ++ post))) ∧
      ∀ out, ¬ openSlot <:+: out →
        (generator grammar).dispatch t out = .error (.noSlot Slot.expression.placeholder) := by
  have hpart : ∃ part : Part, t.kind = part.kind := by
    simp only [List.mem_cons, List.not_mem_nil, or_false] at hkind
    rcases hkind with h | h | h | h
    · exact ⟨.operands .additive, h⟩
    · exact ⟨.operands .multiplicative, h⟩
    · exact ⟨.factor, h⟩
    · exact ⟨.unary, h⟩
  obtain ⟨part, hpart⟩ := hpart
  obtain ⟨_, q, rfl, hplain⟩ := exists_phrase_of_mem_preorder hparse ht hpart
  have hcode := q.plain_code hplain
  exact ⟨q.expression, q.ofTree?_tree, fun slot => slot.not_placeholder_infix_of_plain hcode,
    fun pre post hpre => q.fills hplain pre post hpre, fun out hout => q.stops hout⟩

/-- The node of the product in the source with a difference and a product. -/
def productTree : Tree :=
  .ofSymbol termKind
    [.ofSymbol factorKind [.node "IntLiteral" "2" []],
     .node repetitionKind "\x7b multiplicative , factor \x7d"
      [.ofSymbol multiplicativeKind [.node "Multiply" "*" []],
       .ofSymbol factorKind [.node "IntLiteral" "3" []]]]

/-- Of two open slots, the product fills the first one. -/
theorem product_fills_first_of_two_slots :
    parse differenceSource = .ok differenceTree ∧ productTree ∈ differenceTree.preorder ∧
    (generator grammar).dispatch productTree (openSlot ++ ('\n' :: openSlot)) =
      .ok ((Expression.binary .multiply (.literal "2") (.literal "3")).code ++
        ('\n' :: openSlot)) := by
  have hmem : productTree ∈ differenceTree.preorder := by decide +kernel
  obtain ⟨e, he, -, hfills, -⟩ := subtree_fills_first_open_slot differenceSource differenceTree
    productTree parse_differenceSource hmem (by decide)
  have hexpression : Expression.ofTree? productTree =
      some (.binary .multiply (.literal "2") (.literal "3")) := by decide +kernel
  obtain rfl := Option.some.inj (he.symm.trans hexpression)
  exact ⟨parse_differenceSource, hmem, hfills [] ('\n' :: openSlot) (by decide)⟩

end GrammarCompiler.Naja
