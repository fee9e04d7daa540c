import GrammarCompiler.Generator
import GrammarCompiler.Naja.Rules
import GrammarCompiler.Naja.Assembly.Template

/-!
The generators for the nodes of Naja. Every node of an expression owns one
expression slot, which it fills with its own code, and leaves its value in
`eax`. A binary operator keeps the left operand on the stack while the right
one is computed.

Generation goes depth first and every subtree fills the slots that it opens,
so the first open slot always belongs to the node whose turn it is.
-/

namespace GrammarCompiler.Naja.Assembly

/-- What the label of a function starts with, which keeps it apart from the labels of the
frame. -/
def labelHead : String := "fn_"

/-- The instructions of a binary operator, with the operands in `eax` and `ecx`. -/
def binaryInstructions? : Category → Option (List Instruction)
  | .plus => some [.add]
  | .minus => some [.subtract]
  | .multiply => some [.multiply]
  | .divide => some [.extendSign, .divide]
  | _ => none

/-- The instructions of a unary operator, with the operand in `eax`. -/
def unaryInstructions? : Category → Option (List Instruction)
  | .minus => some [.negate]
  | .bitwiseComplement => some [.complement]
  | .notWord => some [.compareZero, .load "0", .setIfZero]
  | _ => none

/-- The category of the leaf in front of an operator node. -/
def operatorCategory (node : Tree) : Except GeneratorFault Category :=
  match node.children with
  | [] => .error (.operatorWithoutChildren node)
  | leaf :: _ =>
    match Category.ofName? leaf.kind with
    | some category => .ok category
    | none => .error (.unknownOperator leaf.kind)

/-- The lines that apply a binary operator: the left operand is saved, the right one computed
in a slot of its own. -/
def operatorLines (op : Tree) : Except GeneratorFault (List String) :=
  match operatorCategory op with
  | .error fault => .error fault
  | .ok category =>
    match binaryInstructions? category with
    | none => .error (.notBinary category.name)
    | some instructions =>
      .ok ([Instruction.push.text, Slot.expression.placeholder, Instruction.copy.text,
            Instruction.pop.text] ++ instructions.map Instruction.text)

/-- The lines for operators one behind the other. -/
def operatorsLines : List Tree → Except GeneratorFault (List String)
  | [] => .ok []
  | op :: ops =>
    match operatorLines op with
    | .error fault => .error fault
    | .ok lines =>
      match operatorsLines ops with
      | .error fault => .error fault
      | .ok rest => .ok (lines ++ rest)

/-- The operators of a list of operators and operands. -/
def operators (node : Tree) : List Tree :=
  match node.child? repetitionKind with
  | none => []
  | some rounds =>
    rounds.children.filter fun c => c.kind = additiveKind ∨ c.kind = multiplicativeKind

def programGenerator : NodeGenerator := fun _ children out =>
  children 0 (out ++ programTemplate)

def functionGenerator : NodeGenerator := fun node children out =>
  match node.child? Category.identifier.name with
  | none => .error (.unnamedFunction node)
  | some name =>
    Edit.andThen (.fillAll Slot.functionName.placeholder (labelHead ++ name.text)) (children 0) out

def statementGenerator : NodeGenerator := fun node children out =>
  if node.hasChild Category.returnWord.name then
    Edit.andThen
      (.fillAll Slot.functionBody.placeholder
        (joinLines [Slot.expression.placeholder, Instruction.ret.text]))
      (children 0) out
  else children 0 out

/-- An operand, followed by operators with an operand each, evaluated from left to right. -/
def binaryGenerator : NodeGenerator := fun node children out =>
  match operatorsLines (operators node) with
  | .error fault => .error fault
  | .ok lines =>
    Edit.andThen
      (.fillFirst Slot.expression.placeholder (joinLines (Slot.expression.placeholder :: lines)))
      (children 0) out

/-- The rounds of a repetition speak for themselves. -/
def repetitionGenerator : NodeGenerator := fun _ children out => children 0 out

def factorGenerator : NodeGenerator := fun node children out =>
  match node.child? Category.intLiteral.name with
  | some literal =>
    Edit.fillFirst Slot.expression.placeholder (Instruction.load literal.text).text out
  | none => children 0 out

/-- An operator in front of its operand, which is computed first. -/
def unaryGenerator : NodeGenerator := fun node children out =>
  match operatorCategory node with
  | .error fault => .error fault
  | .ok category =>
    match unaryInstructions? category with
    | none => .error (.notUnary category.name)
    | some instructions =>
      Edit.andThen
        (.fillFirst Slot.expression.placeholder
          (joinLines (Slot.expression.placeholder :: instructions.map Instruction.text)))
        (children 1) out

/-- The generators for all kinds of nodes of Naja. -/
def generator (g : Grammar) : Generator where
  grammar := g
  table :=
    [(programKind, programGenerator),
     (functionKind, functionGenerator),
     (statementKind, statementGenerator),
     (expressionKind, binaryGenerator),
     (termKind, binaryGenerator),
     (repetitionKind, repetitionGenerator),
     (factorKind, factorGenerator),
     (unaryKind, unaryGenerator)]

end GrammarCompiler.Naja.Assembly
