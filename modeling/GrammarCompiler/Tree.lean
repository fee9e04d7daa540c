import GrammarCompiler.Lexeme

/-!
Syntax trees. A leaf is a matched lexeme and bears its category and text; an
inner node bears the name of the symbol that produced it. Nothing but the
children tells the two apart, so that trees can also be built by hand.
-/

namespace GrammarCompiler

inductive Tree where
  | node (kind text : String) (children : List Tree)
deriving Repr, Inhabited

namespace Tree

mutual
/-- Equality of trees is decided node by node. -/
def decEq : (a b : Tree) → Decidable (a = b)
  | .node k t cs, .node k' t' cs' =>
    if hk : k = k' then
      if ht : t = t' then
        match decEqForest cs cs' with
        | isTrue hc => isTrue (by rw [hk, ht, hc])
        | isFalse hc => isFalse fun h => hc (by injection h)
      else isFalse fun h => ht (by injection h)
    else isFalse fun h => hk (by injection h)

def decEqForest : (as bs : List Tree) → Decidable (as = bs)
  | [], [] => isTrue rfl
  | [], _ :: _ => isFalse nofun
  | _ :: _, [] => isFalse nofun
  | a :: as, b :: bs =>
    match decEq a b with
    | isTrue ha =>
      match decEqForest as bs with
      | isTrue hs => isTrue (by rw [ha, hs])
      | isFalse hs => isFalse fun h => hs (by injection h)
    | isFalse ha => isFalse fun h => ha (by injection h)
end

instance : DecidableEq Tree := decEq

/-- An inner node, which is labelled with its own kind. -/
def ofSymbol (kind : String) (children : List Tree) : Tree := .node kind kind children

/-- The leaf of a matched lexeme. -/
def ofLexeme (lexeme : Lexeme) : Tree := .node lexeme.kind lexeme.text []

def kind : Tree → String
  | .node k _ _ => k

def text : Tree → String
  | .node _ t _ => t

def children : Tree → List Tree
  | .node _ _ cs => cs

def isLeaf (t : Tree) : Bool := t.children.isEmpty

def push : Tree → Tree → Tree
  | .node k t cs, child => .node k t (cs ++ [child])

/-- The first child of the given kind. -/
def child? (t : Tree) (kind : String) : Option Tree := t.children.find? (·.kind = kind)

def hasChild (t : Tree) (kind : String) : Bool := (t.child? kind).isSome

mutual
def size : Tree → Nat
  | .node _ _ cs => forestSize cs + 1

/-- The number of nodes of a list of trees. -/
def forestSize : List Tree → Nat
  | [] => 0
  | t :: ts => t.size + forestSize ts
end

mutual
/-- The nodes of the tree, each in front of the nodes of its children. -/
def preorder : Tree → List Tree
  | .node k t cs => .node k t cs :: forestPreorder cs

/-- The nodes of a list of trees, tree by tree. -/
def forestPreorder : List Tree → List Tree
  | [] => []
  | t :: ts => t.preorder ++ forestPreorder ts
end

/-- Induction over a list of trees: on the children of its first tree, and on the other trees. -/
@[elab_as_elim] theorem forest_induct {motive : List Tree → Prop} (nil : motive [])
    (node : ∀ k t cs ts, motive cs → motive ts → motive (.node k t cs :: ts)) :
    ∀ ts, motive ts
  | [] => nil
  | .node k t cs :: ts => node k t cs ts (forest_induct nil node cs) (forest_induct nil node ts)
termination_by ts => forestSize ts
decreasing_by all_goals simp only [forestSize, size]; omega

theorem forestPreorder_append (ts us : List Tree) :
    forestPreorder (ts ++ us) = forestPreorder ts ++ forestPreorder us := by
  induction ts with
  | nil => rfl
  | cons t ts ih =>
      show t.preorder ++ forestPreorder (ts ++ us) = _
      rw [ih, ← List.append_assoc]
      rfl

@[simp] theorem kind_node (k t : String) (cs : List Tree) : (node k t cs).kind = k := rfl

@[simp] theorem text_node (k t : String) (cs : List Tree) : (node k t cs).text = t := rfl

@[simp] theorem children_node (k t : String) (cs : List Tree) : (node k t cs).children = cs := rfl

@[simp] theorem kind_ofLexeme (l : Lexeme) : (ofLexeme l).kind = l.kind := rfl

@[simp] theorem text_ofLexeme (l : Lexeme) : (ofLexeme l).text = l.text := rfl

@[simp] theorem kind_ofSymbol (k : String) (cs : List Tree) : (ofSymbol k cs).kind = k := rfl

@[simp] theorem children_ofSymbol (k : String) (cs : List Tree) :
    (ofSymbol k cs).children = cs := rfl

end Tree

end GrammarCompiler
