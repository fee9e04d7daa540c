import GrammarCompiler.Tree

/-!
Walking over a tree with an explicit stack of the subtrees that are still to
be visited. A step takes the topmost subtree, hands out its root and puts its
children on the stack, the first one on top. The searches of this module are
searches along the walk, so that the order in which nodes are met is settled
in one place.
-/

namespace GrammarCompiler

/-- A walk under way: the subtrees still to be visited, the next one first. -/
structure Walk where
  pending : List Tree
deriving Repr

namespace Walk

/-- A walk over the tree that has not visited any node yet. -/
def start (t : Tree) : Walk where
  pending := [t]

def next? (w : Walk) : Option (Tree × Walk) :=
  match w.pending with
  | [] => none
  | t :: rest => some (t, ⟨t.children ++ rest⟩)

/-- The number of nodes that the walk will still visit. -/
def remaining (w : Walk) : Nat := Tree.forestSize w.pending

/-- The nodes visited by the next `steps` steps. -/
def take : Nat → Walk → List Tree
  | 0, _ => []
  | steps + 1, w =>
    match w.next? with
    | none => []
    | some (t, w') => t :: take steps w'

/-- The nodes that the walk will visit. -/
def nodes (w : Walk) : List Tree := w.take w.remaining

end Walk

namespace Tree

/-- The nodes of the tree in the order of the walk. -/
def nodes (t : Tree) : List Tree := (Walk.start t).nodes

/-- The first node of the given kind, the root included. -/
def find? (t : Tree) (kind : String) : Option Tree := t.nodes.find? (·.kind = kind)

def findAll (t : Tree) (kind : String) : List Tree := t.nodes.filter (·.kind = kind)

def leaves (t : Tree) : List Tree := t.nodes.filter isLeaf

end Tree

end GrammarCompiler
