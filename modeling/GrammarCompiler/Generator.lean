import GrammarCompiler.Tree
import GrammarCompiler.Tree.Outline
import GrammarCompiler.Text.Slot
import GrammarCompiler.Grammar.Basic

/-!
Code generation by filling slots. Every kind of node has at most one
generator. A generator edits the text generated so far: it may append to it,
fill slots that its ancestors left open, and hand the text on to its children.
Nodes without a generator are passed over, together with everything below
them; the leaves are read by the generator of their parent.

A generator cannot look at other parts of the tree or run generators on nodes
of its choice. What it gets is the node and one operation, which runs the
generators of the node's children behind the first few; so generation always
ends.
-/

namespace GrammarCompiler

/-- The text generated so far. -/
abbrev Buffer := List Char

/-- What stops a generator: the tree does not have the shape that the generator expects. -/
inductive GeneratorFault where
  | noSlot (placeholder : String)
  | unnamedFunction (node : Tree)
  | operatorWithoutChildren (node : Tree)
  | unknownOperator (kind : String)
  | notBinary (category : String)
  | notUnary (category : String)
deriving DecidableEq, Repr, Inhabited

def GeneratorFault.message : GeneratorFault → String
  | .noSlot placeholder => "no `" ++ placeholder ++ "` placeholder left to fill"
  | .unnamedFunction node => "function without a name: " ++ node.outline
  | .operatorWithoutChildren node => "operator node without children: " ++ node.outline
  | .unknownOperator kind => "unknown operator `" ++ kind ++ "`"
  | .notBinary category => "`" ++ category ++ "` is not a binary operator"
  | .notUnary category => "`" ++ category ++ "` is not a unary operator"

/-- Why no code was generated. -/
inductive GenerateError where
  /-- The root of the tree is no non-terminal of the grammar. -/
  | unknownRoot (kind : String)
  /-- A generator was stopped. -/
  | stopped (fault : GeneratorFault)
deriving DecidableEq, Repr, Inhabited

def GenerateError.message : GenerateError → String
  | .unknownRoot kind =>
    "unable to generate code, `" ++ kind ++ "` is not a non-terminal of the grammar"
  | .stopped fault => fault.message

/-- An edit of the buffer that may be stopped. -/
abbrev Edit := Buffer → Except GeneratorFault Buffer

namespace Edit

def append (text : String) : Edit := fun out => .ok (out ++ text.toList)

/-- Fills every slot of the placeholder, if there are any. -/
def fillAll (placeholder value : String) : Edit := fun out =>
  .ok (Text.fillAll placeholder.toList value.toList out)

/-- Fills the first slot of the placeholder. -/
def fillFirst (placeholder value : String) : Edit := fun out =>
  match Text.fillFirst? placeholder.toList value.toList out with
  | some filled => .ok filled
  | none => .error (.noSlot placeholder)

/-- One edit, then another. -/
def andThen (first second : Edit) : Edit := fun out =>
  match first out with
  | .ok out' => second out'
  | .error fault => .error fault

end Edit

/-- What a kind of node does to the buffer. The second argument runs the generators of the
node's children, without the given number of them in front. -/
abbrev NodeGenerator := Tree → (Nat → Edit) → Edit

/-- Generators by kind of node. -/
structure Generator where
  grammar : Grammar
  table : List (String × NodeGenerator)

namespace Generator

/-- A generator that passes over every node. -/
def empty (grammar : Grammar) : Generator where
  grammar := grammar
  table := []

/-- Gives a kind its generator, in place of the one it had. -/
def register (g : Generator) (kind : String) (generator : NodeGenerator) : Generator :=
  { g with table := (kind, generator) :: g.table }

def generator? (g : Generator) (kind : String) : Option NodeGenerator := g.table.lookup kind

mutual
/-- Runs the generator of a node. -/
def dispatch (g : Generator) : Tree → Edit
  | .node kind text children, out =>
    match g.generator? kind with
    | none => .ok out
    | some generator =>
      generator (.node kind text children) (fun skip out' => dispatchFrom g skip children out') out

/-- Runs the generators of the nodes in order, without the first `skip`. -/
def dispatchFrom (g : Generator) : Nat → List Tree → Edit
  | _, [], out => .ok out
  | 0, t :: ts, out =>
    match dispatch g t out with
    | .ok out' => dispatchFrom g 0 ts out'
    | .error fault => .error fault
  | skip + 1, _ :: ts, out => dispatchFrom g skip ts out
end

/-- Runs the generators of the children of a node in order, without the first `skip`. -/
def applyToChildren (g : Generator) (node : Tree) (skip : Nat) : Edit :=
  dispatchFrom g skip node.children

/-- The code for a whole tree. -/
def generate (g : Generator) (root : Tree) : Except GenerateError String :=
  if g.grammar.isNonTerminal root.kind then
    match g.dispatch root [] with
    | .ok out => .ok (String.ofList out)
    | .error fault => .error (.stopped fault)
  else .error (.unknownRoot root.kind)

end Generator

end GrammarCompiler
