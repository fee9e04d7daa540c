import GrammarCompiler.Naja.Assembly.Listing
import GrammarCompiler.Naja.Assembly.Machine

/-!
The instructions of an expression compute its value. The statement is about
code with anything behind it: the code either faults, whatever follows, or
goes on with what follows, and then the value is in `eax` and the stack is as
it was. Nothing is said about the other registers and the flag, because the
code of an operand may change them all; that is why the left operand of a
binary operator goes onto the stack.
-/

namespace GrammarCompiler.Naja

open Assembly

/-! ### Signed division -/

namespace Word

/-- The sign of `eax` in `edx` makes the dividend the signed number in `eax`. -/
theorem toInt_append_sign (x : Word) :
    ((if x.msb then (-1 : Word) else 0) ++ x).toInt = x.toInt := by
  rw [BitVec.toInt_append, BitVec.toInt_eq_msb_cond x]
  cases x.msb with
  | true =>
      change (2 ^ 32 : Int) * (-1) + x.toNat = x.toNat - 2 ^ 32
      omega
  | false =>
      change (2 ^ 32 : Int) * 0 + x.toNat = x.toNat
      omega

theorem signed_bounds (x : Word) : signedLeast ≤ x.toInt ∧ x.toInt ≤ signedGreatest := by
  have hle := BitVec.le_toInt x
  have hlt := @BitVec.toInt_lt 32 x
  rw [signedLeast, signedGreatest]
  omega

/-- The one quotient of signed numbers that does not fit. -/
theorem tdiv_out_of_range_iff {x y : Word} (hy : y ≠ 0) :
    (x.toInt.tdiv y.toInt < signedLeast ∨ signedGreatest < x.toInt.tdiv y.toInt) ↔
      x.toInt = signedLeast ∧ y.toInt = -1 := by
  have hx := x.signed_bounds
  have hzero : y.toInt ≠ 0 := fun h => hy (BitVec.eq_of_toInt_eq (by simpa using h))
  have habs : (x.toInt.tdiv y.toInt).natAbs = x.toInt.natAbs / y.toInt.natAbs :=
    Int.natAbs_tdiv x.toInt y.toInt
  have hdiv := Nat.mul_div_le x.toInt.natAbs y.toInt.natAbs
  rw [← habs] at hdiv
  rw [signedLeast, signedGreatest] at *
  constructor
  · intro h
    -- The divisor is one or minus one, or the quotient would be smaller than it is.
    have hquotient : 2147483648 ≤ (x.toInt.tdiv y.toInt).natAbs := by omega
    have hmul := Nat.mul_le_mul_left y.toInt.natAbs hquotient
    have hone : y.toInt.natAbs = 1 := by omega
    have hleast : x.toInt = -2147483648 := by omega
    have hne : y.toInt ≠ 1 := by
      intro he
      rw [he, Int.tdiv_one] at h
      omega
    omega
  · rintro ⟨hleast, hone⟩
    rw [hleast, hone]
    decide

theorem ofInt_tdiv (x y : Word) : BitVec.ofInt 32 (x.toInt.tdiv y.toInt) = x.sdiv y := by
  refine BitVec.eq_of_toInt_eq ?_
  rw [BitVec.toInt_ofInt, BitVec.toInt_sdiv]

end Word

/-! ### Stretches of code -/

/-- From `m`, the code faults, or it goes on behind itself with the value in `eax` and with the
given stack. -/
def Computes (flag : Machine → Bool) (m : Machine) (code : List Instruction) (stack : List Word) :
    Option Word → Prop
  | none => ∀ more, m.run flag (code ++ more) = .fault
  | some x => ∃ m' : Machine, m'.eax = x ∧ m'.stack = stack ∧
      ∀ more, m.run flag (code ++ more) = m'.run flag more

section

variable {flag : Machine → Bool}

theorem run_cons {m m' : Machine} {i : Instruction} (hne : i ≠ .ret)
    (h : m.step? flag i = some m') (more : List Instruction) :
    m.run flag (i :: more) = m'.run flag more := by
  rw [Machine.run, h]
  exact hne

theorem Computes.step {m m' : Machine} {i : Instruction} {code : List Instruction}
    {stack : List Word} {value? : Option Word} (hne : i ≠ .ret) (h : m.step? flag i = some m')
    (hcode : Computes flag m' code stack value?) : Computes flag m (i :: code) stack value? := by
  cases value? with
  | none =>
      intro more
      rw [List.cons_append, run_cons hne h, hcode]
  | some x =>
      obtain ⟨m'', heax, hstack, hrun⟩ := hcode
      refine ⟨m'', heax, hstack, fun more => ?_⟩
      rw [List.cons_append, run_cons hne h, hrun]

/-- What follows may use the value and the stack, and nothing else. -/
theorem Computes.andThen {m : Machine} {code code' : List Instruction} {stack stack' : List Word}
    {value? : Option Word} {next : Word → Option Word}
    (hcode : Computes flag m code stack value?)
    (hnext : ∀ m' x, m'.eax = x → m'.stack = stack → Computes flag m' code' stack' (next x)) :
    Computes flag m (code ++ code') stack' (value?.bind next) := by
  cases value? with
  | none =>
      intro more
      rw [List.append_assoc, hcode]
  | some x =>
      obtain ⟨m', heax, hstack, hrun⟩ := hcode
      have hcode' := hnext m' x heax hstack
      rw [Option.bind_some]
      cases hx : next x with
      | none =>
          rw [hx] at hcode'
          intro more
          rw [List.append_assoc, hrun, hcode']
      | some y =>
          rw [hx] at hcode'
          obtain ⟨m'', heax', hstack', hrun'⟩ := hcode'
          refine ⟨m'', heax', hstack', fun more => ?_⟩
          rw [List.append_assoc, hrun, hrun']

end

/-! ### Operators -/

section

variable (flag : Machine → Bool)

theorem UnaryOp.computes (op : UnaryOp) (m : Machine) :
    Computes flag m op.instructions m.stack (some (op.apply m.eax)) := by
  cases op with
  | negate => exact ⟨m.setResult (-m.eax), rfl, rfl, fun _ => rfl⟩
  | complement => exact ⟨{ m with eax := ~~~m.eax }, rfl, rfl, fun _ => rfl⟩
  | not =>
      -- Loading zero leaves the flag of the comparison alone.
      refine ⟨{ m with
        eax := (Word.ofLiteral "0" &&& 0xFFFFFF00#32) ||| (if decide (m.eax = 0) then 1 else 0)
        zero := decide (m.eax = 0) }, ?_, rfl, fun _ => rfl⟩
      have hzero : Word.ofLiteral "0" = 0 := by decide
      simp [apply, hzero]

/-- With the sign in `edx`, the machine divides as the operator does. -/
theorem divide?_extendSign (m : Machine) :
    m.extendSign.divide? = (BinaryOp.divide.result? m.eax m.ecx).map fun x =>
      { m with eax := x, edx := BitVec.ofInt 32 (m.eax.toInt.tmod m.ecx.toInt) } := by
  have hdividend : m.extendSign.dividend = m.eax.toInt := Word.toInt_append_sign m.eax
  have hfault : (m.ecx = 0 ∨ m.eax.toInt.tdiv m.ecx.toInt < Word.signedLeast ∨
      Word.signedGreatest < m.eax.toInt.tdiv m.ecx.toInt) ↔
      (m.ecx = 0 ∨ (m.eax.toInt = Word.signedLeast ∧ m.ecx.toInt = -1)) := by
    by_cases hzero : m.ecx = 0
    · exact iff_of_true (.inl hzero) (.inl hzero)
    · rw [Word.tdiv_out_of_range_iff hzero]
  simp only [Machine.divide?, BinaryOp.result?, hdividend, Machine.ecx_extendSign, hfault,
    Word.ofInt_tdiv]
  split <;> rfl

theorem run_divide (m : Machine) (more : List Instruction) :
    m.run flag (.divide :: more) =
      match m.divide? with
      | none => .fault
      | some m' => Machine.run flag { m' with zero := flag m } more := by
  rw [Machine.run, Machine.step?]
  · cases m.divide? <;> rfl
  · nofun

theorem BinaryOp.computes_divide (m : Machine) :
    Computes flag m BinaryOp.divide.instructions m.stack
      (BinaryOp.divide.result? m.eax m.ecx) := by
  have hrun : ∀ more, m.run flag (BinaryOp.divide.instructions ++ more) =
      m.extendSign.run flag (.divide :: more) := fun _ => rfl
  cases hx : BinaryOp.divide.result? m.eax m.ecx with
  | none =>
      intro more
      rw [hrun, run_divide, divide?_extendSign, hx]
      rfl
  | some x =>
      refine ⟨{ m with
        eax := x
        edx := BitVec.ofInt 32 (m.eax.toInt.tmod m.ecx.toInt)
        zero := flag m.extendSign }, rfl, rfl, fun more => ?_⟩
      rw [hrun, run_divide, divide?_extendSign, hx]
      rfl

theorem BinaryOp.computes (op : BinaryOp) (m : Machine) :
    Computes flag m op.instructions m.stack (op.result? m.eax m.ecx) := by
  cases op with
  | add => exact ⟨m.setResult (m.eax + m.ecx), rfl, rfl, fun _ => rfl⟩
  | subtract => exact ⟨m.setResult (m.eax - m.ecx), rfl, rfl, fun _ => rfl⟩
  | multiply => exact ⟨{ m with eax := m.eax * m.ecx, zero := flag m }, rfl, rfl, fun _ => rfl⟩
  | divide => exact computes_divide flag m

/-! ### Expressions -/

/-- The operands are on top of the stack and in `eax`. -/
theorem BinaryOp.computes_saved (op : BinaryOp) (m : Machine) {x y : Word} {stack : List Word}
    (heax : m.eax = y) (hstack : m.stack = x :: stack) :
    Computes flag m ([.copy, .pop] ++ op.instructions) stack (op.result? x y) := by
  have hpop : Machine.step? flag { m with ecx := y } .pop =
      some { m with eax := x, ecx := y, stack := stack } := by
    simp only [Machine.step?, hstack]
  have hcopy : m.step? flag .copy = some { m with ecx := y } := by
    rw [Machine.step?, heax]
  exact .step nofun hcopy (.step nofun hpop (op.computes flag _))

theorem Expression.computes (e : Expression) (m : Machine) :
    Computes flag m e.instructions m.stack e.value? := by
  induction e generalizing m with
  | literal digits => exact ⟨{ m with eax := Word.ofLiteral digits }, rfl, rfl, fun _ => rfl⟩
  | unary op operand ih =>
      rw [instructions, value?, Option.map_eq_bind]
      refine (ih m).andThen fun m' x heax hstack => ?_
      rw [← heax, ← hstack]
      exact op.computes flag m'
  | binary op left right ihleft ihright =>
      rw [instructions, value?, List.append_assoc, List.append_assoc, List.append_assoc]
      refine (ihleft m).andThen fun m₁ x hx hstack₁ => ?_
      -- The right operand runs on the stack with the left one on top.
      refine .step nofun rfl ((ihright _).andThen fun m₂ y hy hstack₂ => ?_)
      refine op.computes_saved flag m₂ hy ?_
      rw [hstack₂, hx, hstack₁]

end

end GrammarCompiler.Naja
