/-!
The instructions of 32-bit x86 that compiled expressions use, with their text
for the flat assembler. A value is computed in `eax`; `ecx` holds the right
operand of a binary operator.
-/

namespace GrammarCompiler.Naja.Assembly

inductive Instruction where
  /-- `eax` becomes the number that the decimal literal denotes. -/
  | load (literal : String)
  /-- `eax` goes onto the stack. -/
  | push
  /-- `eax` comes from the stack. -/
  | pop
  /-- `ecx` becomes `eax`. -/
  | copy
  /-- `eax` becomes `eax + ecx`. -/
  | add
  /-- `eax` becomes `eax - ecx`. -/
  | subtract
  /-- `eax` becomes the low half of `eax * ecx`. -/
  | multiply
  /-- `edx` becomes the sign of `eax`. -/
  | extendSign
  /-- `eax` becomes the quotient of `edx:eax` by `ecx`, and `edx` the remainder. -/
  | divide
  /-- `eax` becomes `-eax`. -/
  | negate
  /-- The bits of `eax` are flipped. -/
  | complement
  /-- The zero flag says whether `eax` is zero. -/
  | compareZero
  /-- The low byte of `eax` becomes the zero flag. -/
  | setIfZero
  /-- The function returns. -/
  | ret
deriving DecidableEq, Repr, Inhabited

def Instruction.text : Instruction → String
  | .load literal => "mov eax, " ++ literal
  | .push => "push eax"
  | .pop => "pop eax"
  | .copy => "mov ecx, eax"
  | .add => "add eax, ecx"
  | .subtract => "sub eax, ecx"
  | .multiply => "imul eax, ecx"
  | .extendSign => "cdq"
  | .divide => "idiv ecx"
  | .negate => "neg eax"
  | .complement => "not eax"
  | .compareZero => "cmp eax, 0"
  | .setIfZero => "sete al"
  | .ret => "ret"

end GrammarCompiler.Naja.Assembly
