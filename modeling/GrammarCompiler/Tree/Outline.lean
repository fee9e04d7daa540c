import GrammarCompiler.Tree
import GrammarCompiler.Text.Blank

/-!
Outlines of trees. Every node is a line, indented by one tab for each level
above it; a node whose text says more than its kind shows the text too.
-/

namespace GrammarCompiler.Tree

/-- What an outline shows of a node. -/
def label (t : Tree) : String :=
  if t.kind = t.text then t.kind else t.kind ++ "<" ++ Text.trim t.text ++ ">"

/-- The line of an outline for a label at some depth. -/
def outlineLine (depth : Nat) (label : String) : List Char :=
  List.replicate depth '\t' ++ label.toList ++ ['\n']

mutual
/-- The lines of the tree, with its root at the given depth. -/
def outlineAt (depth : Nat) : Tree → List Char
  | .node k t cs => outlineLine depth (label (.node k t cs)) ++ forestOutlineAt (depth + 1) cs

def forestOutlineAt (depth : Nat) : List Tree → List Char
  | [] => []
  | t :: ts => t.outlineAt depth ++ forestOutlineAt depth ts
end

/-- The indented listing of the tree, one line a node. -/
def outline (t : Tree) : String := String.ofList (t.outlineAt 0)

mutual
/-- The shape of the tree with nothing but the label at each node. -/
def skeleton : Tree → Tree
  | .node k t cs => .ofSymbol (label (.node k t cs)) (forestSkeleton cs)

def forestSkeleton : List Tree → List Tree
  | [] => []
  | t :: ts => t.skeleton :: forestSkeleton ts
end

mutual
/-- The nodes in pre-order, each with its depth below the root, which is at `depth`. -/
def levels (depth : Nat) : Tree → List (Nat × Tree)
  | .node k t cs => (depth, .node k t cs) :: forestLevels (depth + 1) cs

def forestLevels (depth : Nat) : List Tree → List (Nat × Tree)
  | [] => []
  | t :: ts => t.levels depth ++ forestLevels depth ts
end

end GrammarCompiler.Tree
