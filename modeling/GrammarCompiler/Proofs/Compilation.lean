import GrammarCompiler.Naja.Assembly.Disassembly
import GrammarCompiler.Proofs.Execution
import GrammarCompiler.Proofs.Generation

/-!
Compiled functions compute the value of their expression. What runs is what
the text of the program says: the lines of the function are found by its label
and read back as instructions. That they are the instructions of the listing
takes three facts: no other line of the frame is the line of the label, no
instruction spans lines or is blank, and the text of an instruction tells the
instruction.
-/

namespace GrammarCompiler.Naja

open Assembly

namespace Assembly

/-! ### Instructions and their texts -/

/-- A literal of the instruction is written with digits. -/
def Instruction.IsProper : Instruction → Prop
  | .load literal => literal.toList ≠ [] ∧ ∀ c ∈ literal.toList, c.isDigit = true
  | _ => True

theorem Instruction.toList_load (literal : String) :
    (Instruction.load literal).text.toList = "mov eax, ".toList ++ literal.toList := by
  rw [Instruction.text, String.toList_append]

theorem Instruction.ofText?_fixed :
    ∀ i ∈ fixedInstructions, Instruction.ofText? i.text.toList = some i := by
  decide

theorem dropLeading?_fixed : ∀ i ∈ fixedInstructions,
    Text.dropLeading? "mov eax, ".toList i.text.toList = none := by
  decide

theorem Instruction.ofText?_load {literal : String}
    (h : (Instruction.load literal).IsProper) :
    Instruction.ofText? (Instruction.load literal).text.toList = some (.load literal) := by
  have hfixed : (fixedInstructions.find? fun i =>
      i.text.toList = "mov eax, ".toList ++ literal.toList) = none := by
    rw [List.find?_eq_none]
    intro i hi he
    have hdrop := dropLeading?_fixed i hi
    rw [of_decide_eq_true he, Text.dropLeading?_append] at hdrop
    cases hdrop
  have hdigits : literal.toList ≠ [] ∧ literal.toList.all Char.isDigit = true :=
    ⟨h.1, List.all_eq_true.2 h.2⟩
  rw [toList_load, ofText?, hfixed]
  simp only [Text.dropLeading?_append, if_pos hdigits, String.ofList_toList]

theorem Instruction.ofText?_text {i : Instruction} (h : i.IsProper) :
    Instruction.ofText? i.text.toList = some i := by
  cases i with
  | load literal => exact ofText?_load h
  | _ => exact ofText?_fixed _ (by decide)

/-- An instruction stands on one line. -/
theorem Instruction.newline_not_mem_text {i : Instruction} (h : i.IsProper) :
    '\n' ∉ i.text.toList := by
  cases i with
  | load literal =>
      rw [toList_load, List.mem_append]
      rintro (hm | hm)
      · revert hm
        decide
      · exact absurd (h.2 _ hm) (by decide)
  | _ => decide

/-! ### The lines of a body -/

/-- The blanks in front of an instruction. -/
def indentation : List Char := "        ".toList

def indented (i : Instruction) : List Char := indentation ++ i.text.toList

theorem dropWhile_indented (i : Instruction) :
    (indented i).dropWhile (fun c => c = ' ') = i.text.toList := by
  have hblanks : indentation.all (fun c => c = ' ') = true := by decide
  rw [indented, List.dropWhile_append_of_pos (List.all_eq_true.1 hblanks)]
  cases i with
  | load literal =>
      rw [Instruction.toList_load]
      rfl
  | _ => rfl

theorem lines_indented {i : Instruction} (h : i.IsProper) (rest : List Char) :
    Text.lines (indented i ++ '\n' :: rest) = indented i :: Text.lines rest := by
  have hline : '\n' ∉ indented i := by
    rw [indented, List.mem_append]
    rintro (hm | hm)
    · revert hm
      decide
    · exact Instruction.newline_not_mem_text h hm
  rw [Text.lines_append, Text.lines_of_not_mem hline]
  rfl

/-- Instructions with a line break behind them, each on a line of its own. -/
theorem lines_following {i : Instruction} {code : List Instruction}
    (h : ∀ j ∈ i :: code, j.IsProper) (rest : List Char) :
    Text.lines (indented i ++ (following (code.map Instruction.text) ++ '\n' :: rest)) =
      (i :: code).map indented ++ Text.lines rest := by
  induction code generalizing i with
  | nil => exact lines_indented (h i (List.mem_cons_self ..)) rest
  | cons next code ih =>
      obtain ⟨hi, hcode⟩ := List.forall_mem_cons.1 h
      have hnext : following ((next :: code).map Instruction.text) ++ '\n' :: rest =
          '\n' :: (indented next ++ (following (code.map Instruction.text) ++ '\n' :: rest)) := by
        rw [List.map_cons, following_cons, List.append_assoc, List.append_assoc, indented,
          List.append_assoc]
        rfl
      rw [hnext, lines_indented hi, ih hcode]
      rfl

/-- The lines of a body with a line break behind it. -/
theorem lines_body {code : List Instruction} (hne : code ≠ []) (h : ∀ i ∈ code, i.IsProper)
    (rest : List Char) :
    Text.lines (indentation ++ ((joinLines (code.map Instruction.text)).toList ++ '\n' :: rest)) =
      code.map indented ++ Text.lines rest := by
  cases code with
  | nil => exact absurd rfl hne
  | cons i code =>
      rw [List.map_cons, toList_joinLines_cons, List.append_assoc, ← lines_following h, indented,
        List.append_assoc]

theorem mapM_ofText?_indented {code : List Instruction} (h : ∀ i ∈ code, i.IsProper) :
    (code.map indented).mapM (fun line =>
      Instruction.ofText? (line.dropWhile fun c => c = ' ')) = some code := by
  induction code with
  | nil => rfl
  | cons i code ih =>
      obtain ⟨hi, hcode⟩ := List.forall_mem_cons.1 h
      rw [List.map_cons, List.mapM_cons, dropWhile_indented, Instruction.ofText?_text hi, ih hcode]
      rfl

/-! ### The body in the frame -/

/-- In search of the label, the text is passed over. -/
def Passed (label : String) (text : List Char) : Prop :=
  ∀ rest, (Text.lines (text ++ rest)).dropWhile (fun line => line ≠ labelLine label) =
    (Text.lines rest).dropWhile fun line => line ≠ labelLine label

section

variable {label : String}

theorem Passed.append {front back : List Char} (hfront : Passed label front)
    (hback : Passed label back) : Passed label (front ++ back) := by
  intro rest
  rw [List.append_assoc, hfront, hback]

/-- Whole lines are passed over if the label is not among them. -/
theorem passed_lines {text : List Char} (h : ∀ line ∈ Text.lines text, line ≠ labelLine label) :
    Passed label (text ++ ['\n']) := by
  intro rest
  have hlines : ∀ line ∈ Text.lines text, decide (line ≠ labelLine label) = true :=
    fun line hline => decide_eq_true (h line hline)
  rw [List.append_assoc, List.singleton_append, Text.lines_append,
    List.dropWhile_append_of_pos hlines]

end

/-- Whether the stretch is whole lines, none of which begins as labels of functions do. -/
def Stretch.isUnlabeled : Stretch → Bool
  | .fixed text => text.toList.getLast? = some '\n' ∧
      (Text.lines text.toList.dropLast).all fun line => ¬ labelHead.toList <+: line
  | .slot _ => false

theorem passed_expand {p : Program} {frame : List Stretch}
    (h : ∀ stretch ∈ frame, stretch.isUnlabeled = true) (value : Slot → List Char) :
    Passed p.label (expand value frame) := by
  induction frame with
  | nil => exact fun _ => rfl
  | cons stretch frame ih =>
      obtain ⟨hstretch, hframe⟩ := List.forall_mem_cons.1 h
      cases stretch with
      | slot s => cases hstretch
      | fixed text =>
          obtain ⟨hlast, hlines⟩ := of_decide_eq_true hstretch
          obtain ⟨front, htext⟩ := List.getLast?_eq_some_iff.1 hlast
          rw [htext, List.dropLast_concat] at hlines
          have hline : ∀ line ∈ Text.lines front, line ≠ labelLine p.label := by
            rintro line hmem rfl
            have hhead := of_decide_eq_true (List.all_eq_true.1 hlines _ hmem)
            rw [labelLine, Program.label, String.toList_append, List.append_assoc] at hhead
            exact hhead (List.prefix_append ..)
          rw [expand_fixed, htext]
          exact (passed_lines hline).append (ih hframe)

end Assembly

/-! ### The function of a program -/

namespace Program

variable {p : Program}

theorem instructions_ne_nil (p : Program) : p.instructions ≠ [] := by
  simp [instructions]

theorem passed_call (hlabel : '\n' ∉ p.label.toList) :
    Passed p.label ("        call ".toList ++ p.label.toList ++ ['\n']) := by
  have hcall : '\n' ∉ "        call ".toList ++ p.label.toList := by
    rw [List.mem_append]
    exact not_or.2 ⟨by decide, hlabel⟩
  refine passed_lines ?_
  rw [Text.lines_of_not_mem hcall]
  -- A label does not begin with a blank.
  intro line hline he
  rw [List.mem_singleton.1 hline, labelLine, label, String.toList_append] at he
  exact absurd (List.head_eq_of_cons_eq he) (by decide)

/-- The lines of the frame in front of the call of the function. -/
def linesBeforeCall : List Stretch := programFrame.take 4

/-- The lines between the call of the function and its label. -/
def linesBehindCall : List Stretch := (programFrame.drop 7).take 2

/-- The lines behind the blank line that ends the function. -/
def linesBehindBody : List Stretch := programFrame.drop 14

theorem isUnlabeled_linesBeforeCall :
    ∀ stretch ∈ linesBeforeCall, stretch.isUnlabeled = true := by
  decide +kernel

theorem isUnlabeled_linesBehindCall :
    ∀ stretch ∈ linesBehindCall, stretch.isUnlabeled = true := by
  decide +kernel

theorem programFrame_lines :
    programFrame = linesBeforeCall ++ (.fixed "        call " :: .slot .functionName ::
      .fixed "\n" :: (linesBehindCall ++ (.slot .functionName :: .fixed ":\n" ::
        .fixed "        " :: .slot .functionBody :: .fixed "\n\n" :: linesBehindBody))) := rfl

/-- The assembly up to its label, the body, and what stands behind it. -/
theorem toList_assembly_eq (p : Program) :
    p.assembly.toList =
      expand p.values linesBeforeCall ++ ("        call ".toList ++ p.label.toList ++ ['\n'] ++
        (expand p.values linesBehindCall ++ (labelLine p.label ++ '\n' ::
          (indentation ++ (p.body.toList ++ '\n' ::
            '\n' :: expand p.values linesBehindBody))))) := by
  have hbreak : "\n".toList = ['\n'] := rfl
  have hlabel : ":\n".toList = [':', '\n'] := rfl
  have hblanks : "        ".toList = indentation := rfl
  have hend : "\n\n".toList = ['\n', '\n'] := rfl
  rw [toList_assembly, programFrame_lines]
  simp only [expand_append, expand_fixed, expand_slot, hbreak, hlabel, hend, labelLine, values,
    hblanks, List.append_assoc, List.cons_append, List.nil_append]

/-- The search for the label ends at the line in front of the body. It passes the call of the
function, although the label stands on that line too. -/
theorem dropWhile_lines_assembly (hlabel : '\n' ∉ p.label.toList) :
    (Text.lines p.assembly.toList).dropWhile (fun line => line ≠ labelLine p.label) =
      labelLine p.label :: Text.lines (indentation ++ (p.body.toList ++ '\n' ::
        '\n' :: expand p.values linesBehindBody)) := by
  have hline : '\n' ∉ labelLine p.label := by
    rw [labelLine, List.mem_append]
    exact not_or.2 ⟨hlabel, by decide⟩
  rw [toList_assembly_eq, passed_expand isUnlabeled_linesBeforeCall, passed_call hlabel,
    passed_expand isUnlabeled_linesBehindCall, Text.lines_append, Text.lines_of_not_mem hline,
    List.singleton_append, List.dropWhile_cons_of_neg (by simp)]

/-- The text of a program tells the instructions of its function. -/
theorem functionBody?_assembly (h : ∀ i ∈ p.instructions, i.IsProper)
    (hlabel : '\n' ∉ p.label.toList) :
    functionBody? p.label p.assembly = some p.instructions := by
  have hindented : ∀ line ∈ p.instructions.map indented, decide (line ≠ []) = true := by
    intro line hmem
    obtain ⟨i, -, rfl⟩ := List.mem_map.1 hmem
    rfl
  have hlines : bodyLines p.label p.assembly.toList = p.instructions.map indented := by
    rw [bodyLines, dropWhile_lines_assembly hlabel, List.drop_one, List.tail_cons, body,
      lines_body p.instructions_ne_nil h, List.takeWhile_append_of_pos hindented]
    exact List.append_nil _
  rw [functionBody?, hlines, mapM_ofText?_indented h]

end Program

/-! ### Literals and names of sources -/

theorem UnaryOp.isProper_instructions (op : UnaryOp) : ∀ i ∈ op.instructions, i.IsProper := by
  cases op <;> simp [instructions, Instruction.IsProper]

theorem BinaryOp.isProper_instructions (op : BinaryOp) : ∀ i ∈ op.instructions, i.IsProper := by
  cases op <;> simp [instructions, Instruction.IsProper]

theorem Expression.isProper_instructions {e : Expression}
    (h : ∀ digits ∈ e.literals, (Instruction.load digits).IsProper) :
    ∀ i ∈ e.instructions, i.IsProper := by
  induction e with
  | literal digits =>
      rw [instructions, List.forall_mem_singleton]
      exact h digits (List.mem_singleton.2 rfl)
  | unary op operand ih =>
      rw [instructions, List.forall_mem_append]
      exact ⟨ih h, op.isProper_instructions⟩
  | binary op left right ihleft ihright =>
      obtain ⟨hleft, hright⟩ := List.forall_mem_append.1 h
      have hpush : ∀ i ∈ [Instruction.push], i.IsProper := by simp [Instruction.IsProper]
      have hmove : ∀ i ∈ [Instruction.copy, .pop], i.IsProper := by simp [Instruction.IsProper]
      simp only [instructions, List.forall_mem_append]
      exact ⟨⟨⟨⟨ihleft hleft, hpush⟩, ihright hright⟩, hmove⟩, op.isProper_instructions⟩

namespace ProgramPhrase

theorem isProper_instructions (p : ProgramPhrase) (hp : ∀ l ∈ p.lexemes, IsLexical l) :
    ∀ i ∈ p.program.instructions, i.IsProper := by
  have hliterals : ∀ digits ∈ p.result.expression.literals,
      (Instruction.load digits).IsProper := by
    intro digits hdigits
    obtain ⟨l, hl, hkind, rfl⟩ := p.result.exists_lexeme_of_mem_literals hdigits
    exact (hp l (by simp [p.lexemes_eq, hl])).isDigit hkind
  have hret : ∀ i ∈ [Instruction.ret], i.IsProper := by simp [Instruction.IsProper]
  rw [Program.instructions, List.forall_mem_append]
  exact ⟨Expression.isProper_instructions hliterals, hret⟩

/-- Names of functions are words, so that labels stand on one line. -/
theorem newline_not_mem_label (p : ProgramPhrase) (hp : ∀ l ∈ p.lexemes, IsLexical l) :
    '\n' ∉ p.program.label.toList := by
  obtain ⟨l, hl, hkind, htext⟩ := p.exists_identifier
  have hname := (hp l hl).isWordPart hkind
  rw [Program.label, String.toList_append, List.mem_append, ← htext]
  rintro (hm | hm)
  · revert hm
    decide
  · exact absurd (hname _ hm) (by decide)

theorem functionBody?_assembly (p : ProgramPhrase) (hp : ∀ l ∈ p.lexemes, IsLexical l) :
    functionBody? p.program.label p.program.assembly = some p.program.instructions :=
  Program.functionBody?_assembly (p.isProper_instructions hp) (p.newline_not_mem_label hp)

end ProgramPhrase

/-! ### Compiled functions -/

/-- The function of a program faults if and only if the evaluation of its expression does.
Otherwise it returns the value in `eax`, with the stack that it was called with. -/
theorem Program.run_instructions (p : Program) (flag : Machine → Bool) (m : Machine) :
    (m.run flag p.instructions = .fault ↔ p.result.value? = none) ∧
      ∀ x, p.result.value? = some x →
        ∃ m', m.run flag p.instructions = .returned m' ∧ m'.eax = x ∧ m'.stack = m.stack := by
  have hcomputes := p.result.computes flag m
  rw [instructions]
  cases hvalue : p.result.value? with
  | none =>
      rw [hvalue] at hcomputes
      exact ⟨iff_of_true (hcomputes _) rfl, by simp⟩
  | some x =>
      rw [hvalue] at hcomputes
      obtain ⟨m', heax, hstack, hrun⟩ := hcomputes
      have hreturned : m.run flag (p.result.instructions ++ [.ret]) = .returned m' := hrun _
      rw [hreturned]
      refine ⟨by simp, ?_⟩
      rintro y ⟨⟩
      exact ⟨m', rfl, heax, hstack⟩

/-- Compilation preserves meaning. A source that parses compiles; the lines of its function read
back as instructions; and on every machine these fault if and only if the expression of the source
has no value, and otherwise return its value and leave the stack as it was. -/
theorem compiled_function_computes_value (source : String) (tree : Tree)
    (h : parse source = .ok tree) :
    ∃ p assembly code, Program.ofTree? tree = some p ∧ compile source = .ok assembly ∧
      functionBody? p.label assembly = some code ∧
      ∀ (flag : Machine → Bool) (m : Machine),
        (m.run flag code = .fault ↔ p.result.value? = none) ∧
          ∀ x, p.result.value? = some x →
            ∃ m', m.run flag code = .returned m' ∧ m'.eax = x ∧ m'.stack = m.stack := by
  obtain ⟨p, hlexical, hprogram, hcompile⟩ := exists_compiled_of_parse h
  exact ⟨p.program, p.program.assembly, p.program.instructions, hprogram, hcompile,
    p.functionBody?_assembly hlexical, p.program.run_instructions⟩

theorem differenceSource_returns_two :
    ∃ assembly code, compile differenceSource = .ok assembly ∧
      functionBody? "fn_f" assembly = some code ∧
      ∀ (flag : Machine → Bool) (m : Machine),
        ∃ m', m.run flag code = .returned m' ∧ m'.eax = 2 ∧ m'.stack = m.stack := by
  have hlabel : differenceProgram.label = "fn_f" := by decide
  have hvalue : differenceProgram.result.value? = some 2 := by decide
  obtain ⟨p, assembly, code, hprogram, hcompile, hbody, hrun⟩ :=
    compiled_function_computes_value differenceSource differenceTree parse_differenceSource
  obtain rfl := Option.some.inj (hprogram.symm.trans ofTree?_differenceTree)
  rw [hlabel] at hbody
  exact ⟨assembly, code, hcompile, hbody, fun flag m => (hrun flag m).2 2 hvalue⟩

end GrammarCompiler.Naja
