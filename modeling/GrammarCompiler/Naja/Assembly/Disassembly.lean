import GrammarCompiler.Text.Lines
import GrammarCompiler.Text.Slot
import GrammarCompiler.Naja.Assembly.Instruction

/-!
Reading instructions back from the text of a program. The body of a function
goes from the line of its label to the next blank line, one instruction a
line.
-/

namespace GrammarCompiler.Naja.Assembly

/-- The instructions without an operand of their own. -/
def fixedInstructions : List Instruction :=
  [.push, .pop, .copy, .add, .subtract, .multiply, .extendSign, .divide, .negate, .complement,
   .compareZero, .setIfZero, .ret]

/-- The instruction of a line without the blanks in front of it. -/
def Instruction.ofText? (line : List Char) : Option Instruction :=
  match fixedInstructions.find? fun i => i.text.toList = line with
  | some i => some i
  | none =>
    match Text.dropLeading? "mov eax, ".toList line with
    | none => none
    | some digits =>
      if digits ≠ [] ∧ digits.all Char.isDigit then some (.load (String.ofList digits)) else none

def labelLine (label : String) : List Char := label.toList ++ [':']

/-- The lines of the body of the function with the given label. -/
def bodyLines (label : String) (text : List Char) : List (List Char) :=
  (((Text.lines text).dropWhile fun line => line ≠ labelLine label).drop 1).takeWhile
    fun line => line ≠ []

/-- The instructions of the function with the given label; `none` if a line of its body is no
instruction. -/
def functionBody? (label : String) (assembly : String) : Option (List Instruction) :=
  (bodyLines label assembly.toList).mapM fun line =>
    Instruction.ofText? (line.dropWhile fun c => c = ' ')

end GrammarCompiler.Naja.Assembly
