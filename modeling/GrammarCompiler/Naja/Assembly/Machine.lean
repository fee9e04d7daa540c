import GrammarCompiler.Naja.Expression
import GrammarCompiler.Naja.Assembly.Instruction

/-!
The machine on which compiled functions run: three registers, the zero flag
and a stack of words. Instructions mean what they mean on 32-bit x86. The
zero flag behind a multiplication or a division is undefined there; here it is
whatever `flag` makes of the machine in front of the instruction, and nothing
is known about `flag`.
-/

namespace GrammarCompiler.Naja.Assembly

structure Machine where
  eax : Word
  ecx : Word
  edx : Word
  zero : Bool
  /-- The words on the stack, the topmost first. -/
  stack : List Word
deriving DecidableEq, Repr, Inhabited

namespace Machine

/-- Puts the result of an operation that sets the zero flag into `eax`. -/
def setResult (m : Machine) (x : Word) : Machine := { m with eax := x, zero := x = 0 }

/-- Puts the sign of `eax` into `edx`. -/
def extendSign (m : Machine) : Machine := { m with edx := if m.eax.msb then -1 else 0 }

@[simp] theorem eax_extendSign (m : Machine) : m.extendSign.eax = m.eax := rfl

@[simp] theorem ecx_extendSign (m : Machine) : m.extendSign.ecx = m.ecx := rfl

@[simp] theorem stack_extendSign (m : Machine) : m.extendSign.stack = m.stack := rfl

/-- The signed number in `edx:eax`. -/
def dividend (m : Machine) : Int := (m.edx ++ m.eax).toInt

/-- Signed division of `edx:eax` by `ecx`, toward zero; `none` if there is no quotient or it does
not fit. -/
def divide? (m : Machine) : Option Machine :=
  let quotient := m.dividend.tdiv m.ecx.toInt
  if m.ecx = 0 ∨ quotient < Word.signedLeast ∨ Word.signedGreatest < quotient then none
  else
    some { m with
      eax := BitVec.ofInt 32 quotient
      edx := BitVec.ofInt 32 (m.dividend.tmod m.ecx.toInt) }

/-- The effect of an instruction; `none` is a fault. -/
def step? (flag : Machine → Bool) (m : Machine) : Instruction → Option Machine
  | .load literal => some { m with eax := Word.ofLiteral literal }
  | .push => some { m with stack := m.eax :: m.stack }
  | .pop =>
    match m.stack with
    | [] => none
    | x :: rest => some { m with eax := x, stack := rest }
  | .copy => some { m with ecx := m.eax }
  | .add => some (m.setResult (m.eax + m.ecx))
  | .subtract => some (m.setResult (m.eax - m.ecx))
  | .multiply => some { m with eax := m.eax * m.ecx, zero := flag m }
  | .extendSign => some m.extendSign
  | .divide => m.divide?.map fun m' => { m' with zero := flag m }
  | .negate => some (m.setResult (-m.eax))
  | .complement => some { m with eax := ~~~m.eax }
  | .compareZero => some { m with zero := m.eax = 0 }
  | .setIfZero =>
    some { m with eax := (m.eax &&& 0xFFFFFF00#32) ||| (if m.zero then 1 else 0) }
  | .ret => some m

/-- How a run of instructions ends. -/
inductive Halt where
  /-- The function returned. -/
  | returned (machine : Machine)
  | fault
  /-- There was no instruction left. -/
  | ranOff (machine : Machine)
deriving DecidableEq, Repr, Inhabited

/-- Runs instructions up to a return. -/
def run (flag : Machine → Bool) (m : Machine) : List Instruction → Halt
  | [] => .ranOff m
  | .ret :: _ => .returned m
  | i :: rest =>
    match m.step? flag i with
    | none => .fault
    | some m' => run flag m' rest

end Machine

end GrammarCompiler.Naja.Assembly
