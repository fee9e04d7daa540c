import GrammarCompiler.Naja.Expression
import GrammarCompiler.Naja.Assembly.Template
import GrammarCompiler.Naja.Assembly.Generators

/-!
The code of a program by recursion on its expression, without slots. This is
what filling the slots of the frame amounts to.
-/

namespace GrammarCompiler.Naja

open Assembly (Instruction Stretch Slot)

def UnaryOp.instructions : UnaryOp → List Instruction
  | .negate => [.negate]
  | .complement => [.complement]
  | .not => [.compareZero, .load "0", .setIfZero]

def BinaryOp.instructions : BinaryOp → List Instruction
  | .add => [.add]
  | .subtract => [.subtract]
  | .multiply => [.multiply]
  | .divide => [.extendSign, .divide]

/-- The instructions that leave the value of an expression in `eax`. -/
def Expression.instructions : Expression → List Instruction
  | .literal digits => [.load digits]
  | .unary op operand => operand.instructions ++ op.instructions
  | .binary op left right =>
    left.instructions ++ [.push] ++ right.instructions ++ [.copy, .pop] ++ op.instructions

namespace Program

def instructions (p : Program) : List Instruction := p.result.instructions ++ [.ret]

def label (p : Program) : String := Assembly.labelHead ++ p.name

def body (p : Program) : String := Assembly.joinLines (p.instructions.map Instruction.text)

/-- What a stretch of the frame becomes. -/
def fill (p : Program) : Stretch → List Char
  | .fixed text => text.toList
  | .slot .functionName => p.label.toList
  | .slot .functionBody => p.body.toList
  | .slot .expression => []

def assembly (p : Program) : String := String.ofList (Assembly.programFrame.flatMap p.fill)

end Program

end GrammarCompiler.Naja
