import GrammarCompiler.Naja.Assembly.Listing
import GrammarCompiler.Proofs.ContextFree
import GrammarCompiler.Proofs.Denotation
import GrammarCompiler.Proofs.Frame

/-!
Filling slots gives the listing of the program. The generators share one
buffer, and at any time slots of several nodes are open in it; the invariant
is that the slot of the node whose turn it is has no open slot in front of it.
Behind it there may be anything. A node replaces its slot by lines with slots
for its operands, and the operands take their turns from left to right, each
with nothing but finished code in front.

Finished code is plain: it has neither of the characters that mark a
placeholder.
-/

namespace GrammarCompiler.Naja

open Assembly Text

/-! ### The code of expressions -/

/-- The text of the instructions of an expression. -/
def Expression.code (e : Expression) : List Char :=
  (joinLines (e.instructions.map Instruction.text)).toList

theorem Expression.instructions_ne_nil (e : Expression) : e.instructions ≠ [] := by
  cases e with
  | literal digits => simp [instructions]
  | unary op operand =>
      have hop : op.instructions ≠ [] := by cases op <;> simp [UnaryOp.instructions]
      simp [instructions, hop]
  | binary op left right => simp [instructions]

theorem Expression.lines_ne_nil (e : Expression) : e.instructions.map Instruction.text ≠ [] := by
  simpa using e.instructions_ne_nil

theorem Expression.code_literal (digits : String) :
    (Expression.literal digits).code = (Instruction.load digits).text.toList := rfl

theorem Expression.code_unary (op : UnaryOp) (operand : Expression) :
    (Expression.unary op operand).code =
      operand.code ++ following (op.instructions.map Instruction.text) := by
  rw [code, instructions, List.map_append, toList_joinLines_append operand.lines_ne_nil]
  rfl

/-- The lines behind the right operand of a binary operator. -/
def BinaryOp.lines (op : BinaryOp) : List String :=
  [Instruction.copy.text, Instruction.pop.text] ++ op.instructions.map Instruction.text

theorem Expression.code_binary (op : BinaryOp) (left right : Expression) :
    (Expression.binary op left right).code =
      left.code ++ (following [Instruction.push.text] ++
        (nextLine.toList ++ (right.code ++ following op.lines))) := by
  rw [code, instructions, List.append_assoc, List.append_assoc, List.append_assoc,
    List.map_append, toList_joinLines_append left.lines_ne_nil, List.map_append, List.map_append,
    following_append, following_append, following_eq right.lines_ne_nil, List.append_assoc]
  rfl

/-- The code that rounds add to the code of what stands in front of them. -/
def Rounds.code {level : Level} : Rounds level → List Char
  | .stop => []
  | .round sign operand rest =>
    following [Instruction.push.text] ++ (nextLine.toList ++
      (operand.expression.code ++ (following sign.binaryOp.lines ++ rest.code)))

theorem Rounds.code_applyTo {level : Level} (r : Rounds level) (left : Expression) :
    (r.applyTo left).code = left.code ++ r.code := by
  induction r using Rounds.induct generalizing left with
  | stop => rw [applyTo, code, List.append_nil]
  | round sign operand rest ih =>
      rw [applyTo, ih, Expression.code_binary, code]
      simp only [List.append_assoc]

/-- The lines that rounds add, with a slot for each operand. -/
def Rounds.lines {level : Level} : Rounds level → List String
  | .stop => []
  | .round sign _ rest =>
    [Instruction.push.text, Slot.expression.placeholder] ++ sign.binaryOp.lines ++ rest.lines

/-! ### Finished code is plain -/

def PlainLexemes (ls : List Lexeme) : Prop := ∀ l ∈ ls, Plain l.text.toList

theorem UnaryOp.plain_lines (op : UnaryOp) :
    Plain (following (op.instructions.map Instruction.text)) := by
  cases op <;> decide

theorem BinaryOp.plain_lines (op : BinaryOp) : Plain (following op.lines) := by
  cases op <;> decide

theorem plain_nextLine : Plain nextLine.toList := by decide

theorem Expression.plain_code {e : Expression} (h : ∀ digits ∈ e.literals, Plain digits.toList) :
    Plain e.code := by
  induction e with
  | literal digits =>
      have hload : Plain "mov eax, ".toList := by decide
      have hdigits := h digits (List.mem_singleton.2 rfl)
      rw [code_literal, Instruction.text, String.toList_append, plain_append]
      exact ⟨hload, hdigits⟩
  | unary op operand ih =>
      rw [code_unary, plain_append]
      exact ⟨ih h, op.plain_lines⟩
  | binary op left right ihleft ihright =>
      obtain ⟨hleft, hright⟩ := List.forall_mem_append.1 h
      have hpush : Plain (following [Instruction.push.text]) := by decide
      simp only [code_binary, plain_append]
      exact ⟨ihleft hleft, hpush, plain_nextLine, ihright hright, op.plain_lines⟩

theorem Phrase.plain_code {part : Part} (p : Phrase part) (hp : PlainLexemes p.lexemes) :
    Plain p.expression.code := by
  refine Expression.plain_code fun digits hdigits => ?_
  obtain ⟨l, hl, -, rfl⟩ := p.exists_lexeme_of_mem_literals hdigits
  exact hp l hl

/-! ### The generators on phrases -/

theorem binaryInstructions?_eq (c : Category) :
    binaryInstructions? c = (BinaryOp.ofCategory? c).map BinaryOp.instructions := by
  cases c <;> rfl

theorem unaryInstructions?_eq (c : Category) :
    unaryInstructions? c = (UnaryOp.ofCategory? c).map UnaryOp.instructions := by
  cases c <;> rfl

theorem operatorLines_node {level : Level} (sign : LexemeOf level.signs) (kind : String) :
    operatorLines (sign.node kind) =
      .ok ([Instruction.push.text, Slot.expression.placeholder] ++ sign.binaryOp.lines) := by
  have hcategory : operatorCategory (sign.node kind) = .ok sign.category := by
    simp only [operatorCategory, LexemeOf.node, Tree.children_ofSymbol, sign.ofName?_kind]
  rw [operatorLines, hcategory]
  simp only [binaryInstructions?_eq, sign.ofCategory?_binaryOp, Option.map_some]
  rfl

theorem operatorsLines_rounds {level : Level} (r : Rounds level) :
    operatorsLines (r.trees.filter fun t =>
      t.kind = additiveKind ∨ t.kind = multiplicativeKind) = .ok r.lines := by
  induction r using Rounds.induct with
  | stop => rfl
  | round sign operand rest ih =>
      have hsign : level.signKind = additiveKind ∨ level.signKind = multiplicativeKind := by
        cases level <;> decide
      have hoperand : ¬ (operand.tree.kind = additiveKind ∨
          operand.tree.kind = multiplicativeKind) := by
        rw [operand.kind_tree]
        cases level <;> decide
      rw [Rounds.trees, Rounds.lines, List.filter_cons_of_pos, List.filter_cons_of_neg]
      · simp only [operatorsLines, operatorLines_node, ih]
      · simpa using hoperand
      · exact decide_eq_true hsign

theorem operators_operands {level : Level} (first : Phrase level.operand) (rounds : Rounds level) :
    operators (Phrase.operands first rounds).tree =
      rounds.trees.filter fun t => t.kind = additiveKind ∨ t.kind = multiplicativeKind := by
  have hkind : level.operand.kind ≠ repetitionKind := by
    cases level <;> decide
  have hchild : (Phrase.operands first rounds).tree.child? repetitionKind =
      (Descent.fragment repetitionKind (Symbol.renderRepetition level.body) rounds.trees).find?
        (·.kind = repetitionKind) := by
    rw [Phrase.tree, Tree.child?, Tree.children_ofSymbol, List.find?_cons_of_neg]
    simpa using hkind
  rw [operators, hchild]
  cases rounds with
  | stop => rfl
  | round sign operand rest => rfl

section

variable {out out' : Buffer}

theorem dispatch_ofSymbol {kind : String} {generate : NodeGenerator}
    (h : (generator grammar).generator? kind = some generate) (children : List Tree) :
    (generator grammar).dispatch (.ofSymbol kind children) out =
      generate (.ofSymbol kind children)
        (fun skip out' => (generator grammar).dispatchFrom skip children out') out := by
  rw [Tree.ofSymbol, Generator.dispatch, h]

/-- Nodes without a generator leave the buffer alone. -/
theorem dispatch_eq_ok {t : Tree} (h : (generator grammar).generator? t.kind = none) :
    (generator grammar).dispatch t out = .ok out := by
  obtain ⟨kind, text, children⟩ := t
  rw [Tree.kind_node] at h
  rw [Generator.dispatch, h]

theorem dispatchFrom_cons {t : Tree} (h : (generator grammar).dispatch t out = .ok out')
    (ts : List Tree) :
    (generator grammar).dispatchFrom 0 (t :: ts) out =
      (generator grammar).dispatchFrom 0 ts out' := by
  rw [Generator.dispatchFrom, h]

theorem generator?_name (c : Category) : (generator grammar).generator? c.name = none := by
  cases c <;> decide

theorem dispatch_lexeme {l : Lexeme} {c : Category} (h : l.kind = c.name) :
    (generator grammar).dispatch (.ofLexeme l) out = .ok out := by
  refine dispatch_eq_ok ?_
  rw [Tree.kind_ofLexeme, h]
  exact generator?_name c

theorem dispatchFrom_lexemes {ls : List Lexeme} (h : ∀ l ∈ ls, ∃ c : Category, l.kind = c.name)
    (ts : List Tree) :
    (generator grammar).dispatchFrom 0 (ls.map .ofLexeme ++ ts) out =
      (generator grammar).dispatchFrom 0 ts out := by
  induction ls with
  | nil => rfl
  | cons l ls ih =>
      obtain ⟨⟨c, hc⟩, hls⟩ := List.forall_mem_cons.1 h
      rw [List.map_cons, List.cons_append, dispatchFrom_cons (dispatch_lexeme hc), ih hls]

/-- The node of a repetition hands the buffer on to the rounds. -/
theorem dispatchFrom_fragment (text : String) (ts : List Tree) :
    (generator grammar).dispatchFrom 0 (Descent.fragment repetitionKind text ts) out =
      (generator grammar).dispatchFrom 0 ts out := by
  have hgenerator : (generator grammar).generator? repetitionKind = some repetitionGenerator := rfl
  cases ts with
  | nil => rfl
  | cons t ts =>
      rw [Descent.fragment, if_neg (by simp), Generator.dispatchFrom, Generator.dispatch,
        hgenerator]
      simp only [repetitionGenerator]
      cases (generator grammar).dispatchFrom 0 (t :: ts) out <;> rfl

theorem andThen_eq {first : Edit} (h : first out = .ok out') (second : Edit) :
    Edit.andThen first second out = second out' := by
  rw [Edit.andThen, h]

theorem andThen_eq_error {fault : GeneratorFault} {first : Edit} (h : first out = .error fault)
    (second : Edit) : Edit.andThen first second out = .error fault := by
  rw [Edit.andThen, h]

/-- A node that replaces its slot by lines, the first of which is a slot again. -/
theorem andThen_openSlot {pre post : List Char} (hpre : ¬ openSlot <:+: pre)
    (lines : List String) (second : Edit) :
    Edit.andThen (.fillFirst Slot.expression.placeholder
        (joinLines (Slot.expression.placeholder :: lines))) second (pre ++ (openSlot ++ post)) =
      second (pre ++ (openSlot ++ (following lines ++ post))) := by
  refine andThen_eq ?_ second
  rw [fillFirst_openSlot hpre, toList_joinLines_cons, List.append_assoc]
  rfl

theorem binaryGenerator_eq {node : Tree} {lines : List String}
    (h : operatorsLines (operators node) = .ok lines) (children : Nat → Edit) :
    binaryGenerator node children out =
      Edit.andThen (.fillFirst Slot.expression.placeholder
        (joinLines (Slot.expression.placeholder :: lines))) (children 0) out := by
  rw [binaryGenerator, h]

theorem factorGenerator_eq {node : Tree} (h : node.child? Category.intLiteral.name = none)
    (children : Nat → Edit) : factorGenerator node children out = children 0 out := by
  rw [factorGenerator, h]

theorem unaryGenerator_eq (sign : LexemeOf unarySigns) (operand : Tree) (children : Nat → Edit) :
    unaryGenerator (.ofSymbol unaryKind [.ofLexeme sign.lexeme, operand]) children out =
      Edit.andThen (.fillFirst Slot.expression.placeholder
        (joinLines (Slot.expression.placeholder ::
          sign.unaryOp.instructions.map Instruction.text))) (children 1) out := by
  have hcategory : operatorCategory (.ofSymbol unaryKind [.ofLexeme sign.lexeme, operand]) =
      .ok sign.category := by
    simp only [operatorCategory, Tree.children_ofSymbol, sign.ofName?_kind]
  rw [unaryGenerator, hcategory]
  simp only [unaryInstructions?_eq, sign.ofCategory?_unaryOp, Option.map_some]

theorem dispatchFrom_singleton (t : Tree) :
    (generator grammar).dispatchFrom 0 [t] out = (generator grammar).dispatch t out := by
  rw [Generator.dispatchFrom]
  cases (generator grammar).dispatch t out with
  | ok out' => simp only [Generator.dispatchFrom]
  | error fault => rfl

theorem dispatch_operands {level : Level} (first : Phrase level.operand) (rounds : Rounds level) :
    (generator grammar).dispatch (Phrase.operands first rounds).tree out =
      Edit.andThen (.fillFirst Slot.expression.placeholder
          (joinLines (Slot.expression.placeholder :: rounds.lines)))
        (.andThen ((generator grammar).dispatch first.tree)
          ((generator grammar).dispatchFrom 0 rounds.trees)) out := by
  have hgenerator : (generator grammar).generator? level.kind = some binaryGenerator := by
    cases level <;> rfl
  have hlines : operatorsLines (operators (Phrase.operands first rounds).tree) =
      .ok rounds.lines := by
    rw [operators_operands, operatorsLines_rounds]
  rw [Phrase.tree] at hlines ⊢
  rw [dispatch_ofSymbol hgenerator, binaryGenerator_eq hlines]
  congr 1
  funext out'
  rw [Edit.andThen, Generator.dispatchFrom]
  simp only [dispatchFrom_fragment]

/-- Parentheses leave no trace in the code. -/
theorem dispatch_parens (opening : LexemeOf [.parenOpen])
    (inner : Phrase (.operands .additive)) (closing : LexemeOf [.parenClose]) :
    (generator grammar).dispatch (Phrase.parens opening inner closing).tree out =
      (generator grammar).dispatch inner.tree out := by
  have hgenerator : (generator grammar).generator? factorKind = some factorGenerator := rfl
  have hchild : (Phrase.parens opening inner closing).tree.child? Category.intLiteral.name =
      none := by
    have hkind : (Part.operands .additive).kind ≠ Category.intLiteral.name := by decide
    simp [Phrase.tree, Tree.child?, opening.kind_ne, closing.kind_ne, hkind]
  rw [Phrase.tree] at hchild ⊢
  rw [dispatch_ofSymbol hgenerator, factorGenerator_eq hchild,
    dispatchFrom_cons (dispatch_lexeme opening.kind_eq), Generator.dispatchFrom]
  cases (generator grammar).dispatch inner.tree out with
  | ok out' => exact (dispatchFrom_singleton _).trans (dispatch_lexeme closing.kind_eq)
  | error fault => rfl

theorem dispatch_signed (unary : Phrase .unary) :
    (generator grammar).dispatch (Phrase.signed unary).tree out =
      (generator grammar).dispatch unary.tree out := by
  have hgenerator : (generator grammar).generator? factorKind = some factorGenerator := rfl
  have hchild : (Phrase.signed unary).tree.child? Category.intLiteral.name = none := by
    have hkind : Part.unary.kind ≠ Category.intLiteral.name := by decide
    simp [Phrase.tree, Tree.child?, hkind]
  rw [Phrase.tree] at hchild ⊢
  rw [dispatch_ofSymbol hgenerator, factorGenerator_eq hchild, dispatchFrom_singleton]

theorem dispatch_literal (digits : LexemeOf [.intLiteral]) :
    (generator grammar).dispatch (Phrase.literal digits).tree out =
      Edit.fillFirst Slot.expression.placeholder
        (Instruction.load digits.lexeme.text).text out := by
  have hgenerator : (generator grammar).generator? factorKind = some factorGenerator := rfl
  have hchild : (digits.node factorKind).child? Category.intLiteral.name =
      some (.ofLexeme digits.lexeme) := by
    simp [LexemeOf.node, Tree.child?, digits.kind_eq_of_singleton]
  rw [LexemeOf.node] at hchild
  rw [Phrase.tree, LexemeOf.node, dispatch_ofSymbol hgenerator, factorGenerator, hchild]
  rfl

theorem dispatch_unary (sign : LexemeOf unarySigns) (operand : Phrase .factor) :
    (generator grammar).dispatch (Phrase.unary sign operand).tree out =
      Edit.andThen (.fillFirst Slot.expression.placeholder
          (joinLines (Slot.expression.placeholder ::
            sign.unaryOp.instructions.map Instruction.text)))
        ((generator grammar).dispatch operand.tree) out := by
  have hgenerator : (generator grammar).generator? unaryKind = some unaryGenerator := rfl
  rw [Phrase.tree, dispatch_ofSymbol hgenerator, unaryGenerator_eq]
  congr 1
  funext out'
  rw [Generator.dispatchFrom, dispatchFrom_singleton]

end

mutual
theorem Phrase.fills {part : Part} (p : Phrase part) (hp : PlainLexemes p.lexemes)
    (pre post : List Char) (hpre : ¬ openSlot <:+: pre) :
    (generator grammar).dispatch p.tree (pre ++ (openSlot ++ post)) =
      .ok (pre ++ (p.expression.code ++ post)) := by
  match p with
  | .operands first rounds =>
      rw [Phrase.lexemes_operands] at hp
      obtain ⟨hfirst, hrounds⟩ := List.forall_mem_append.1 hp
      -- Behind the code of the first operand, the slot of the first round is the next one.
      have hcode := not_openSlot_infix_append hpre (first.plain_code hfirst)
      rw [dispatch_operands, andThen_openSlot hpre, andThen_eq (first.fills hfirst pre _ hpre),
        ← List.append_assoc, rounds.fills hrounds _ post hcode, Phrase.expression,
        Rounds.code_applyTo]
      simp only [List.append_assoc]
  | .parens opening inner closing =>
      rw [Phrase.lexemes_parens] at hp
      obtain ⟨hinner, -⟩ := List.forall_mem_append.1 (List.forall_mem_cons.1 hp).2
      rw [dispatch_parens, inner.fills hinner pre post hpre, Phrase.expression]
  | .signed unary =>
      rw [Phrase.lexemes_signed] at hp
      rw [dispatch_signed, unary.fills hp pre post hpre, Phrase.expression]
  | .literal digits =>
      rw [dispatch_literal, fillFirst_openSlot hpre, Phrase.expression, Expression.code_literal]
  | .unary sign operand =>
      rw [Phrase.lexemes_unary] at hp
      have hoperand := (List.forall_mem_cons.1 hp).2
      rw [dispatch_unary, andThen_openSlot hpre, operand.fills hoperand pre _ hpre,
        Phrase.expression, Expression.code_unary, List.append_assoc]
termination_by structural p

theorem Rounds.fills {level : Level} (r : Rounds level) (hr : PlainLexemes r.lexemes)
    (pre post : List Char) (hpre : ¬ openSlot <:+: pre) :
    (generator grammar).dispatchFrom 0 r.trees (pre ++ (following r.lines ++ post)) =
      .ok (pre ++ (r.code ++ post)) := by
  match r with
  | .stop =>
      rw [Rounds.trees, Rounds.lines, Rounds.code, Generator.dispatchFrom]
      rfl
  | .round sign operand rest =>
      rw [Rounds.lexemes_round] at hr
      obtain ⟨hoperand, hrest⟩ := List.forall_mem_append.1 (List.forall_mem_cons.1 hr).2
      have hsign : (generator grammar).generator? (sign.node level.signKind).kind = none := by
        cases level <;> rfl
      have hpush : ¬ openSlot <:+: pre ++ (following [Instruction.push.text] ++ nextLine.toList) :=
        not_openSlot_infix_append hpre (by decide)
      have hcode : ¬ openSlot <:+: pre ++ (following [Instruction.push.text] ++ nextLine.toList) ++
          (operand.expression.code ++ following sign.binaryOp.lines) :=
        not_openSlot_infix_append hpush
          (plain_append.2 ⟨operand.plain_code hoperand, sign.binaryOp.plain_lines⟩)
      -- The same text, cut at the slot of the operand before its turn and behind it.
      have hopen : pre ++ (following (Rounds.round sign operand rest).lines ++ post) =
          pre ++ (following [Instruction.push.text] ++ nextLine.toList) ++
            (openSlot ++ (following sign.binaryOp.lines ++ (following rest.lines ++ post))) := by
        simp [Rounds.lines, openSlot]
      have hshift : pre ++ (following [Instruction.push.text] ++ nextLine.toList) ++
          (operand.expression.code ++ (following sign.binaryOp.lines ++
            (following rest.lines ++ post))) =
          pre ++ (following [Instruction.push.text] ++ nextLine.toList) ++
            (operand.expression.code ++ following sign.binaryOp.lines) ++
            (following rest.lines ++ post) := by
        simp
      rw [Rounds.trees, dispatchFrom_cons (dispatch_eq_ok hsign), hopen,
        dispatchFrom_cons (operand.fills hoperand _ _ hpush), hshift,
        rest.fills hrest _ post hcode]
      simp [Rounds.code]
termination_by structural r
end

/-! ### Programs -/

theorem Program.toList_body (p : Program) :
    p.body.toList = p.result.code ++ following [Instruction.ret.text] := by
  rw [body, instructions, List.map_append, toList_joinLines_append p.result.lines_ne_nil]
  rfl

/-- What the slots of the frame become. -/
def Program.values (p : Program) : Slot → List Char
  | .functionName => p.label.toList
  | .functionBody => p.body.toList
  | .expression => []

theorem Program.toList_assembly (p : Program) :
    p.assembly.toList = expand p.values programFrame := by
  rw [assembly, String.toList_ofList]
  rfl

namespace ProgramPhrase

theorem plain_label (p : ProgramPhrase) (hp : PlainLexemes p.lexemes) :
    Plain p.program.label.toList := by
  obtain ⟨l, hl, -, htext⟩ := p.exists_identifier
  have hhead : Plain labelHead.toList := by decide
  rw [Program.label, String.toList_append, plain_append, ← htext]
  exact ⟨hhead, hp l hl⟩

theorem plain_result (p : ProgramPhrase) (hp : PlainLexemes p.lexemes) :
    PlainLexemes p.result.lexemes :=
  fun l hl => hp l (by simp [p.lexemes_eq, hl])

theorem plain_assembly (p : ProgramPhrase) (hp : PlainLexemes p.lexemes) :
    Plain (expand p.program.values programFrame) := by
  refine plain_expand isPlain_of_mem_programFrame fun s _ => ?_
  cases s with
  | functionName => exact p.plain_label hp
  | functionBody =>
      have hret : Plain (following [Instruction.ret.text]) := by decide
      rw [Program.values, Program.toList_body, plain_append]
      exact ⟨p.result.plain_code (p.plain_result hp), hret⟩
  | expression => exact fun c hc => absurd hc List.not_mem_nil

/-- The slots of the frame when the name of the function is filled in. -/
def named (p : ProgramPhrase) (s : Slot) : List Char :=
  if s = .functionName then p.program.label.toList else s.placeholder.toList

/-- The slots of the frame when the body is filled in too, with a slot for its expression. -/
def opened (p : ProgramPhrase) (s : Slot) : List Char :=
  if s = .functionBody then openSlot ++ following [Instruction.ret.text] else p.named s

theorem fillAll_functionName (p : ProgramPhrase) :
    fillAll Slot.functionName.placeholder.toList p.program.label.toList programTemplate =
      expand p.named programFrame :=
  fillAll_expand rfl (fun _ _ => .inr rfl) isPlain_of_mem_programFrame _

theorem fillAll_functionBody (p : ProgramPhrase) (hp : PlainLexemes p.lexemes) :
    fillAll Slot.functionBody.placeholder.toList (openSlot ++ following [Instruction.ret.text])
      (expand p.named programFrame) = expand p.opened programFrame := by
  refine fillAll_expand rfl (fun other hne => ?_) isPlain_of_mem_programFrame _
  cases other with
  | functionName => exact .inl (p.plain_label hp)
  | functionBody => exact absurd rfl hne
  | expression => exact .inr rfl

/-- The slot of the result has nothing but plain text in front. -/
theorem dispatch_result (p : ProgramPhrase) (hp : PlainLexemes p.lexemes) :
    (generator grammar).dispatch p.result.tree (expand p.opened programFrame) =
      .ok (expand p.program.values programFrame) := by
  have hvalues : ∀ s, .slot s ∈ frameFront ++ frameBack → p.opened s = p.program.values s := by
    intro s hs
    rw [eq_functionName_of_mem hs]
    rfl
  have hfront := expand_congr fun s hs => hvalues s (List.mem_append_left _ hs)
  have hback := expand_congr fun s hs => hvalues s (List.mem_append_right _ hs)
  have hplain := p.plain_assembly hp
  rw [expand_programFrame, plain_append] at hplain
  have hfills := p.result.fills (p.plain_result hp) (expand p.program.values frameFront)
    (following [Instruction.ret.text] ++ expand p.program.values frameBack)
    (not_openSlot_infix_of_plain hplain.1)
  have hopened : p.opened .functionBody = openSlot ++ following [Instruction.ret.text] := rfl
  have hbody : p.program.values .functionBody =
      p.result.expression.code ++ following [Instruction.ret.text] := p.program.toList_body
  rw [expand_programFrame, expand_programFrame, hfront, hback, hopened, hbody, List.append_assoc,
    List.append_assoc]
  exact hfills

theorem dispatch_statement (p : ProgramPhrase) (hp : PlainLexemes p.lexemes) :
    (generator grammar).dispatch p.statementTree (expand p.named programFrame) =
      .ok (expand p.program.values programFrame) := by
  have hgenerator : (generator grammar).generator? statementKind = some statementGenerator := rfl
  have hreturn : p.statementTree.hasChild Category.returnWord.name = true := by
    simp [Tree.hasChild, Tree.child?, statementTree, p.returnWord.kind_eq_of_singleton]
  have hfill : Edit.fillAll Slot.functionBody.placeholder
      (joinLines [Slot.expression.placeholder, Instruction.ret.text])
      (expand p.named programFrame) = .ok (expand p.opened programFrame) := by
    rw [Edit.fillAll, toList_joinLines_cons]
    exact congrArg Except.ok (p.fillAll_functionBody hp)
  have hindent : (generator grammar).generator? (p.indent.node indentKind).kind = none := rfl
  rw [statementTree] at hreturn ⊢
  rw [dispatch_ofSymbol hgenerator, statementGenerator, if_pos hreturn, andThen_eq hfill,
    dispatchFrom_cons (dispatch_eq_ok hindent),
    dispatchFrom_cons (dispatch_lexeme p.returnWord.kind_eq),
    dispatchFrom_cons (p.dispatch_result hp), Generator.dispatchFrom]

theorem dispatch_function (p : ProgramPhrase) (hp : PlainLexemes p.lexemes) :
    (generator grammar).dispatch p.functionTree programTemplate =
      .ok (expand p.program.values programFrame) := by
  have hgenerator : (generator grammar).generator? functionKind = some functionGenerator := rfl
  obtain ⟨leaf, hleaf, htext⟩ := Option.map_eq_some_iff.1 p.child?_identifier
  have hfill : Edit.fillAll Slot.functionName.placeholder (labelHead ++ leaf.text)
      programTemplate = .ok (expand p.named programFrame) := by
    rw [Edit.fillAll, htext]
    exact congrArg Except.ok p.fillAll_functionName
  rw [functionTree] at hleaf ⊢
  rw [dispatch_ofSymbol hgenerator, functionGenerator, hleaf]
  simp only
  rw [andThen_eq hfill, dispatchFrom_lexemes fun l hl => p.exists_category hl,
    dispatchFrom_cons (p.dispatch_statement hp), Generator.dispatchFrom]

theorem dispatch_tree (p : ProgramPhrase) (hp : PlainLexemes p.lexemes) :
    (generator grammar).dispatch p.tree [] = .ok (expand p.program.values programFrame) := by
  have hgenerator : (generator grammar).generator? programKind = some programGenerator := rfl
  rw [tree, dispatch_ofSymbol hgenerator, programGenerator, List.nil_append,
    dispatchFrom_cons (p.dispatch_function hp), Generator.dispatchFrom]

end ProgramPhrase

/-! ### Sources -/

theorem Lexical.plain {lineStart : Bool} {segment : Segment} {rest : List Char}
    (h : Lexical lineStart segment rest) : Plain segment.2 := by
  intro c hmem
  have hc := h.isLexemeChar c hmem
  constructor <;> (rintro rfl; revert hc; decide)

theorem plainLexemes_of_isLexical {ls : List Lexeme} (h : ∀ l ∈ ls, IsLexical l) :
    PlainLexemes ls := by
  intro l hl
  obtain ⟨lineStart, segment, rest, hlexical, -, htext⟩ := h l hl
  rw [htext]
  exact hlexical.plain

theorem assemble_tree (p : ProgramPhrase) (hp : PlainLexemes p.lexemes) :
    assemble p.tree = .ok p.program.assembly := by
  have hroot : (generator grammar).grammar.isNonTerminal p.tree.kind = true := rfl
  have hgenerate : (generator grammar).generate p.tree = .ok p.program.assembly := by
    rw [Generator.generate, if_pos hroot, p.dispatch_tree hp]
    rfl
  rw [assemble, hgenerate]

/-- The tree of a source that parses is that of a program made of lexemes of the language. -/
theorem exists_tree_of_parse {source : String} {tree : Tree} (h : parse source = .ok tree) :
    ∃ p : ProgramPhrase, p.tree = tree ∧ ∀ l ∈ p.lexemes, IsLexical l := by
  obtain ⟨p, htrees, hlexical⟩ := exists_programPhrase_of_parse h
  rw [p.trees_derivation] at htrees
  exact ⟨p, List.head_eq_of_cons_eq htrees, hlexical⟩

/-- A source that parses is a program of the language, and it compiles to the listing of that
program. -/
theorem exists_compiled_of_parse {source : String} {tree : Tree} (h : parse source = .ok tree) :
    ∃ p : ProgramPhrase, (∀ l ∈ p.lexemes, IsLexical l) ∧
      Program.ofTree? tree = some p.program ∧ compile source = .ok p.program.assembly := by
  obtain ⟨p, rfl, hlexical⟩ := exists_tree_of_parse h
  refine ⟨p, hlexical, p.ofTree?_tree, ?_⟩
  rw [compile, h]
  exact assemble_tree p (plainLexemes_of_isLexical hlexical)

/-- A source that parses compiles, and filling the slots of the frame gives the listing of the
program that its tree denotes, without an open slot. -/
theorem compile_eq_structural_translation (source : String) (tree : Tree)
    (h : parse source = .ok tree) :
    ∃ p, Program.ofTree? tree = some p ∧ compile source = .ok p.assembly ∧
      '\x7b' ∉ p.assembly.toList := by
  obtain ⟨p, hlexical, hprogram, hcompile⟩ := exists_compiled_of_parse h
  refine ⟨p.program, hprogram, hcompile, ?_⟩
  rw [p.program.toList_assembly]
  exact (p.plain_assembly (plainLexemes_of_isLexical hlexical)).not_mem_open

def differenceProgram : Program where
  name := "f"
  result := .binary .subtract (.literal "8") (.binary .multiply (.literal "2") (.literal "3"))

theorem ofTree?_differenceTree : Program.ofTree? differenceTree = some differenceProgram := by
  decide +kernel

theorem compile_differenceSource :
    compile differenceSource = .ok differenceProgram.assembly := by
  obtain ⟨p, hprogram, hcompile, -⟩ :=
    compile_eq_structural_translation differenceSource differenceTree parse_differenceSource
  obtain rfl := Option.some.inj (hprogram.symm.trans ofTree?_differenceTree)
  exact hcompile

end GrammarCompiler.Naja
