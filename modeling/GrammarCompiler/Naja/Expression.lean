import GrammarCompiler.Tree
import GrammarCompiler.Naja.Lexer
import GrammarCompiler.Naja.Rules

/-!
Expressions of Naja without the traces of how they were written: operators
with their operands, and nothing of parentheses or of the levels of the
grammar. A syntax tree that the grammar admits denotes one expression; a list
of operators and operands is read from left to right.

The value of an expression is a word of 32 bits. Arithmetic wraps, division is
signed and rounds toward zero, and it faults on a divisor of zero and on the
one quotient that does not fit.
-/

namespace GrammarCompiler.Naja

inductive UnaryOp where
  | negate
  | complement
  | not
deriving DecidableEq, Repr, Inhabited

inductive BinaryOp where
  | add
  | subtract
  | multiply
  | divide
deriving DecidableEq, Repr, Inhabited

inductive Expression where
  | literal (digits : String)
  | unary (op : UnaryOp) (operand : Expression)
  | binary (op : BinaryOp) (left right : Expression)
deriving DecidableEq, Repr, Inhabited

/-! ### From syntax trees -/

def UnaryOp.ofCategory? : Category → Option UnaryOp
  | .minus => some .negate
  | .bitwiseComplement => some .complement
  | .notWord => some .not
  | _ => none

def BinaryOp.ofCategory? : Category → Option BinaryOp
  | .plus => some .add
  | .minus => some .subtract
  | .multiply => some .multiply
  | .divide => some .divide
  | _ => none

/-- The unary operator of a leaf. -/
def UnaryOp.ofLeaf? (leaf : Tree) : Option UnaryOp :=
  (Category.ofName? leaf.kind).bind UnaryOp.ofCategory?

/-- The binary operator of a node, which is named by its only child. -/
def BinaryOp.ofNode? (node : Tree) : Option BinaryOp :=
  match node.children with
  | [leaf] => (Category.ofName? leaf.kind).bind BinaryOp.ofCategory?
  | _ => none

namespace Expression

mutual
/-- The expression that a node denotes. -/
def ofTree? : Tree → Option Expression
  | .node kind _ children =>
    if kind = expressionKind ∨ kind = termKind then ofOperands? children
    else if kind = factorKind then ofFactor? children
    else if kind = unaryKind then ofUnary? children
    else none

/-- An operand, and maybe a node with the rounds of operator and operand behind it. -/
def ofOperands? : List Tree → Option Expression
  | [] => none
  | first :: rest => (ofTree? first).bind fun left => ofTail? left rest

def ofTail? (left : Expression) : List Tree → Option Expression
  | [] => some left
  | .node _ _ rounds :: _ => ofRounds? left rounds

/-- Operators and operands in turn, applied from left to right. -/
def ofRounds? (left : Expression) : List Tree → Option Expression
  | [] => some left
  | op :: rest => (BinaryOp.ofNode? op).bind fun o => ofRound? left o rest

def ofRound? (left : Expression) (op : BinaryOp) : List Tree → Option Expression
  | [] => none
  | operand :: rest => (ofTree? operand).bind fun right => ofRounds? (.binary op left right) rest

/-- A literal, a unary expression, or an expression in parentheses. -/
def ofFactor? : List Tree → Option Expression
  | [] => none
  | [only] =>
    if only.kind = Category.intLiteral.name then some (.literal only.text) else ofTree? only
  | _ :: inner :: _ => ofTree? inner

/-- An operator in front of its operand. -/
def ofUnary? : List Tree → Option Expression
  | [op, operand] =>
    (UnaryOp.ofLeaf? op).bind fun o => (ofTree? operand).map fun e => .unary o e
  | _ => none
end

end Expression

/-- A program: the name of its function, and the expression that the function returns. -/
structure Program where
  name : String
  result : Expression
deriving DecidableEq, Repr, Inhabited

/-- The program that a syntax tree denotes. -/
def Program.ofTree? (t : Tree) : Option Program := do
  let function ← t.child? functionKind
  let name ← function.child? Category.identifier.name
  let statement ← function.child? statementKind
  let result ← Expression.ofTree? (← statement.child? expressionKind)
  return { name := name.text, result }

/-! ### Values -/

/-- A word of the machine. -/
abbrev Word := BitVec 32

def UnaryOp.apply : UnaryOp → Word → Word
  | .negate, x => -x
  | .complement, x => ~~~x
  | .not, x => if x = 0 then 1 else 0

/-- The least signed number that fits into a word. -/
def Word.signedLeast : Int := -2147483648

/-- The greatest signed number that fits into a word. -/
def Word.signedGreatest : Int := 2147483647

/-- The result of a binary operator; `none` is a fault. -/
def BinaryOp.result? : BinaryOp → Word → Word → Option Word
  | .add, x, y => some (x + y)
  | .subtract, x, y => some (x - y)
  | .multiply, x, y => some (x * y)
  | .divide, x, y =>
    if y = 0 ∨ (x.toInt = Word.signedLeast ∧ y.toInt = -1) then none else some (x.sdiv y)

/-- The word that a literal denotes. -/
def Word.ofLiteral (digits : String) : Word := BitVec.ofNat 32 (decimalValue digits.toList)

/-- The value of an expression; `none` is a fault. -/
def Expression.value? : Expression → Option Word
  | .literal digits => some (Word.ofLiteral digits)
  | .unary op operand => operand.value?.map op.apply
  | .binary op left right => left.value?.bind fun x => right.value?.bind fun y => op.result? x y

end GrammarCompiler.Naja
