import GrammarCompiler.Ebnf.Canonical
import GrammarCompiler.Ebnf.Printer
import GrammarCompiler.Proofs.Notation

/-!
Printing and reading back. A text says more than printing keeps: its layout,
and which of the two quotes a terminal stands in. Layout carries no meaning,
but the quote does if the terminal contains the other one. So a value that was
read from a text is read back from its printed text if and only if it is
`Quotable`.

One direction is a rendering: the printed text of a canonical body is one of
the texts that denote it. The other direction counts single quotes. A text has
at least as many of them as what is printed for its value, because printing
adds none, and it has more if a terminal stands in single quotes; a terminal
that contains the double quote can stand in no other.
-/

namespace GrammarCompiler.Ebnf

/-! ### What a text denotes is canonical -/

theorem NameText.isName {cs : List Char} (h : NameText cs) : IsName (String.ofList cs) := by
  cases h with
  | @intro c cs hc hcs => exact ⟨c, cs, String.toList_ofList, hc, hcs⟩

namespace Expr

theorem IsFactor.not_isAlternation {e : Expr} (h : e.IsFactor) : ¬ e.IsAlternation := by
  intro halt
  cases e with
  | alternation items => exact h
  | _ => exact halt

theorem not_isAlternation_ofSequence {es : List Expr} (h : ∀ e ∈ es, e.IsFactor) :
    ¬ (ofSequence es).IsAlternation := by
  match es with
  | [e] => exact (h e (List.mem_singleton.2 rfl)).not_isAlternation
  | [] | e :: e' :: es => exact id

theorem canonical_ofSequence {es : List Expr} (hne : es ≠ [])
    (h : ∀ e ∈ es, e.IsFactor ∧ e.Canonical) :
    ¬ (ofSequence es).IsAlternation ∧ (ofSequence es).Canonical := by
  refine ⟨not_isAlternation_ofSequence fun e he => (h e he).1, ?_⟩
  match es with
  | [] => exact absurd rfl hne
  | [e] => exact (h e (List.mem_singleton.2 rfl)).2
  | e :: e' :: es => exact .concatenation (by simp) (fun d hd => (h d hd).1) fun d hd => (h d hd).2

theorem canonical_ofAlternatives {es : List Expr} (hne : es ≠ [])
    (h : ∀ e ∈ es, ¬ e.IsAlternation ∧ e.Canonical) : (ofAlternatives es).Canonical := by
  match es with
  | [] => exact absurd rfl hne
  | [e] => exact (h e (List.mem_singleton.2 rfl)).2
  | e :: e' :: es =>
      exact .alternation (by simp) (fun d hd => (h d hd).1) fun d hd => (h d hd).2

end Expr

mutual
theorem FactorText.canonical {e : Expr} {text : List Char} (h : FactorText e text)
    (hquotable : e.Quotable) : e.IsFactor ∧ e.Canonical := by
  match h with
  | .reference hname => exact ⟨trivial, .reference hname.isName⟩
  | .terminal _ _ => exact ⟨trivial, .terminal (Expr.quotable_terminal.1 hquotable)⟩
  | .repetition htext _ =>
      have hitems := Expr.quotable_ofAlternatives.1 (Expr.quotable_repetition.1 hquotable)
      obtain ⟨hne, hall⟩ := AlternationText.canonical htext hitems
      exact ⟨trivial, .repetition (Expr.canonical_ofAlternatives hne hall)⟩
termination_by structural h

theorem ConcatenationText.canonical {es : List Expr} {text : List Char}
    (h : ConcatenationText es text) (hquotable : ∀ e ∈ es, e.Quotable) :
    es ≠ [] ∧ ∀ e ∈ es, e.IsFactor ∧ e.Canonical := by
  match h with
  | .last _ htext =>
      have hfirst := FactorText.canonical htext (hquotable _ (List.mem_singleton.2 rfl))
      refine ⟨List.cons_ne_nil _ _, fun d hd => ?_⟩
      rw [List.mem_singleton.1 hd]
      exact hfirst
  | .cons _ htext _ hothers =>
      obtain ⟨hfirst, hquotable⟩ := List.forall_mem_cons.1 hquotable
      have hothers := (ConcatenationText.canonical hothers hquotable).2
      exact ⟨List.cons_ne_nil _ _,
        List.forall_mem_cons.2 ⟨FactorText.canonical htext hfirst, hothers⟩⟩
termination_by structural h

theorem AlternationText.canonical {es : List Expr} {text : List Char}
    (h : AlternationText es text) (hquotable : ∀ e ∈ es, e.Quotable) :
    es ≠ [] ∧ ∀ e ∈ es, ¬ e.IsAlternation ∧ e.Canonical := by
  match h with
  | .last htext =>
      have hitems := Expr.quotable_ofSequence.1 (hquotable _ (List.mem_singleton.2 rfl))
      obtain ⟨hne, hall⟩ := ConcatenationText.canonical htext hitems
      refine ⟨List.cons_ne_nil _ _, fun d hd => ?_⟩
      rw [List.mem_singleton.1 hd]
      exact Expr.canonical_ofSequence hne hall
  | .cons htext _ hmore =>
      obtain ⟨hfirst, hquotable⟩ := List.forall_mem_cons.1 hquotable
      obtain ⟨hne, hall⟩ := ConcatenationText.canonical htext (Expr.quotable_ofSequence.1 hfirst)
      have hmore := (AlternationText.canonical hmore hquotable).2
      exact ⟨List.cons_ne_nil _ _,
        List.forall_mem_cons.2 ⟨Expr.canonical_ofSequence hne hall, hmore⟩⟩
termination_by structural h
end

theorem Expr.Canonical.quotable {e : Expr} (h : e.Canonical) : e.Quotable := by
  induction h with
  | reference _ => exact Expr.quotable_reference _
  | terminal hquote => exact Expr.quotable_terminal.2 hquote
  | repetition _ ih => exact Expr.quotable_repetition.2 ih
  | alternation _ _ _ ih => exact Expr.quotable_items.2 ih
  | concatenation _ _ _ ih => exact Expr.quotable_items.2 ih

theorem ExprText.canonical {e : Expr} {text : List Char} (h : ExprText e text)
    (hquotable : e.Quotable) : e.Canonical := by
  cases h with
  | intro htext =>
      obtain ⟨hne, hall⟩ := htext.canonical (Expr.quotable_ofAlternatives.1 hquotable)
      exact Expr.canonical_ofAlternatives hne hall

/-! ### What is printed denotes what is canonical -/

theorem IsName.nameText {name : String} (h : IsName name) : NameText name.toList := by
  obtain ⟨c, cs, hname, hc, hcs⟩ := h
  rw [hname]
  exact .intro hc hcs

theorem layout_blank : Layout [' '] := .blank (by decide) .nil

theorem SequenceText.exprText {e : Expr} {text : List Char} (h : SequenceText e text) :
    ExprText e text := by
  obtain ⟨es, hes, rfl⟩ := h
  exact .intro (.last hes)

namespace Expr

/-- The printed text denotes the body, at each of the levels at which the body can stand. -/
structure Shown (e : Expr) : Prop where
  factor : e.IsFactor → FactorText e e.print
  sequence : ¬ e.IsAlternation → ∀ {layout}, Layout layout → SequenceText e (layout ++ e.print)
  whole : ∀ {layout}, Layout layout → ExprText e (layout ++ e.print)

theorem Shown.ofFactor {e : Expr} (h : FactorText e e.print) : e.Shown := by
  have hsequence : ∀ {layout}, Layout layout → SequenceText e (layout ++ e.print) :=
    fun hlayout => ⟨[e], .last hlayout h, rfl⟩
  exact ⟨fun _ => h, fun _ => hsequence, fun hlayout => (hsequence hlayout).exprText⟩

/-- Factors with commas between them. The layout is in front of the first factor, and a blank
plays its part for the others. -/
theorem concatenationText_printItems {e : Expr} {es : List Expr}
    (h : ∀ d ∈ e :: es, FactorText d d.print) {layout : List Char} (hlayout : Layout layout) :
    ConcatenationText (e :: es) (layout ++ printItems ',' (e :: es)) := by
  induction es generalizing e layout with
  | nil =>
      have hlast := ConcatenationText.last hlayout (h e (List.mem_singleton.2 rfl))
      simpa [printItems, printRest] using hlast
  | cons e' es ih =>
      obtain ⟨hfirst, hrest⟩ := List.forall_mem_cons.1 h
      have hcons := ConcatenationText.cons hlayout hfirst layout_blank (ih hrest layout_blank)
      simpa [printItems, printRest] using hcons

theorem alternationText_printItems {e : Expr} {es : List Expr}
    (h : ∀ d ∈ e :: es, ∀ {layout}, Layout layout → SequenceText d (layout ++ d.print))
    {layout : List Char} (hlayout : Layout layout) :
    AlternationText (e :: es) (layout ++ printItems '|' (e :: es)) := by
  induction es generalizing e layout with
  | nil =>
      obtain ⟨factors, hfactors, heq⟩ := h e (List.mem_singleton.2 rfl) hlayout
      have hlast := AlternationText.last hfactors
      rw [← heq] at hlast
      simpa [printItems, printRest] using hlast
  | cons e' es ih =>
      obtain ⟨hfirst, hrest⟩ := List.forall_mem_cons.1 h
      obtain ⟨factors, hfactors, heq⟩ := hfirst hlayout
      have hcons := AlternationText.cons hfactors layout_blank (ih hrest layout_blank)
      rw [← heq] at hcons
      simpa [printItems, printRest] using hcons

theorem Canonical.shown {e : Expr} (h : e.Canonical) : e.Shown := by
  induction h with
  | @reference name hname =>
      have htext := FactorText.reference hname.nameText
      rw [String.ofList_toList] at htext
      exact .ofFactor htext
  | @terminal text hquote =>
      have htext := FactorText.terminal (.inl rfl) hquote
      rw [String.ofList_toList] at htext
      exact .ofFactor htext
  | @repetition body _ ih =>
      obtain ⟨htext⟩ := ih.whole layout_blank
      have htext := FactorText.repetition htext layout_blank
      exact .ofFactor (by simpa [print] using htext)
  | @concatenation items hlength hfactors _ ih =>
      match items, hlength with
      | e :: e' :: es, _ =>
          have hitems : ∀ d ∈ e :: e' :: es, FactorText d d.print :=
            fun d hd => (ih d hd).factor (hfactors d hd)
          have hsequence : ∀ {layout}, Layout layout →
              SequenceText (.concatenation (e :: e' :: es))
                (layout ++ print (.concatenation (e :: e' :: es))) :=
            fun hlayout => ⟨e :: e' :: es, concatenationText_printItems hitems hlayout, rfl⟩
          exact ⟨False.elim, fun _ => hsequence, fun hlayout => (hsequence hlayout).exprText⟩
  | @alternation items hlength hnot _ ih =>
      match items, hlength with
      | e :: e' :: es, _ =>
          have hitems : ∀ d ∈ e :: e' :: es, ∀ {layout}, Layout layout →
              SequenceText d (layout ++ d.print) :=
            fun d hd => (ih d hd).sequence (hnot d hd)
          exact ⟨False.elim, fun halt => absurd trivial halt,
            fun hlayout => .intro (alternationText_printItems hitems hlayout)⟩

end Expr

theorem Expr.Canonical.exprText {e : Expr} (h : e.Canonical) : ExprText e e.print :=
  h.shown.whole .nil

/-! ### Counting single quotes -/

/-- The text has at least the single quotes of what is printed, and if it has no more of them then
`quotable` holds. -/
structure Outweighs (text printed : List Char) (quotable : Prop) : Prop where
  le : printed.count singleQuote ≤ text.count singleQuote
  eq : text.count singleQuote = printed.count singleQuote → quotable

namespace Outweighs

variable {text printed text' printed' : List Char} {quotable quotable' : Prop}

theorem mono (h : Outweighs text printed quotable) (himp : quotable → quotable') :
    Outweighs text printed quotable' :=
  ⟨h.le, fun heq => himp (h.eq heq)⟩

theorem append (h : Outweighs text printed quotable)
    (h' : Outweighs text' printed' quotable') :
    Outweighs (text ++ text') (printed ++ printed') (quotable ∧ quotable') := by
  have hle := h.le
  have hle' := h'.le
  refine ⟨?_, fun heq => ?_⟩
  · rw [List.count_append, List.count_append]
    omega
  · rw [List.count_append, List.count_append] at heq
    exact ⟨h.eq (by omega), h'.eq (by omega)⟩

/-- Layout and punctuation may stand around a text; the punctuation that is printed is no quote. -/
theorem around (h : Outweighs text printed quotable) (front back front' back' : List Char)
    (hfront : singleQuote ∉ front') (hback : singleQuote ∉ back') :
    Outweighs (front ++ text ++ back) (front' ++ printed ++ back') quotable := by
  have hle := h.le
  have hzero := List.count_eq_zero_of_not_mem hfront
  have hzero' := List.count_eq_zero_of_not_mem hback
  refine ⟨?_, fun heq => h.eq ?_⟩
  · simp only [List.count_append]
    omega
  · simp only [List.count_append] at heq
    omega

/-- What is printed has no more single quotes than a part of it. -/
theorem holds (h : Outweighs text printed quotable) {last : List Char}
    (heq : printed = text ++ last) : quotable := by
  have hle := h.le
  refine h.eq ?_
  rw [heq, List.count_append] at hle ⊢
  omega

end Outweighs

theorem outweighs_self {text : List Char} {quotable : Prop} (h : quotable) :
    Outweighs text text quotable :=
  ⟨Nat.le_refl _, fun _ => h⟩

/-- A terminal is printed in double quotes. A text without further single quotes has it in double
quotes too, so that it contains none. -/
theorem outweighs_terminal {quote : Char} (hquote : quote = doubleQuote ∨ quote = singleQuote)
    {cs : List Char} (hcs : quote ∉ cs) :
    Outweighs (quote :: (cs ++ [quote])) (printTerminal (String.ofList cs)) (doubleQuote ∉ cs) := by
  rw [printTerminal, String.toList_ofList]
  rcases hquote with rfl | rfl
  · exact outweighs_self hcs
  · have htext : (singleQuote :: (cs ++ [singleQuote])).count singleQuote =
        cs.count singleQuote + 2 := by simp
    have hprinted : (doubleQuote :: (cs ++ [doubleQuote])).count singleQuote =
        cs.count singleQuote := by simp [doubleQuote, singleQuote]
    exact ⟨by omega, fun heq => by omega⟩

theorem Expr.print_ofSequence (es : List Expr) : (ofSequence es).print = printItems ',' es := by
  match es with
  | [e] => simp [ofSequence, printItems, printRest]
  | [] | e :: e' :: es => rfl

theorem Expr.print_ofAlternatives (es : List Expr) :
    (ofAlternatives es).print = printItems '|' es := by
  match es with
  | [e] => simp [ofAlternatives, printItems, printRest]
  | [] | e :: e' :: es => rfl

theorem Expr.printItems_cons (separator : Char) (e : Expr) {es : List Expr} (h : es ≠ []) :
    printItems separator (e :: es) =
      e.print ++ ([' ', separator, ' '] ++ printItems separator es) := by
  cases es with
  | nil => exact absurd rfl h
  | cons e' es => rfl

/-- The text of a list outweighs its printed text if those of its first item and of the others
do. -/
theorem outweighs_cons {e : Expr} {es : List Expr} (hne : es ≠ []) {text rest gap : List Char}
    {separator : Char} (hseparator : separator ≠ singleQuote)
    (h : Outweighs text e.print e.Quotable)
    (hrest : Outweighs rest (Expr.printItems separator es) (∀ d ∈ es, d.Quotable)) :
    Outweighs (text ++ gap ++ separator :: rest) (Expr.printItems separator (e :: es))
      (∀ d ∈ e :: es, d.Quotable) := by
  have hblank : singleQuote ≠ ' ' := by decide
  have hmark : singleQuote ∉ [' ', separator, ' '] := by simp [hblank, hseparator.symm]
  have hall := h.append
    (hrest.around (gap ++ [separator]) [] [' ', separator, ' '] [] hmark List.not_mem_nil)
  rw [Expr.printItems_cons separator e hne]
  simpa [List.forall_mem_cons] using hall

theorem ConcatenationText.ne_nil {es : List Expr} {text : List Char}
    (h : ConcatenationText es text) : es ≠ [] := by
  cases h <;> exact List.cons_ne_nil _ _

theorem AlternationText.ne_nil {es : List Expr} {text : List Char}
    (h : AlternationText es text) : es ≠ [] := by
  cases h <;> exact List.cons_ne_nil _ _

mutual
theorem FactorText.outweighs {e : Expr} {text : List Char} (h : FactorText e text) :
    Outweighs text e.print e.Quotable := by
  match h with
  | @FactorText.reference cs _ =>
      rw [Expr.print, String.toList_ofList]
      exact outweighs_self (Expr.quotable_reference _)
  | .terminal hquote hcs =>
      rw [Expr.quotable_terminal, String.toList_ofList]
      exact outweighs_terminal hquote hcs
  | @FactorText.repetition es text layout htext _ =>
      have hbody := (AlternationText.outweighs htext).around [openBrace] (layout ++ [closeBrace])
        [openBrace, ' '] [' ', closeBrace] (by decide) (by decide)
      rw [Expr.quotable_repetition, Expr.quotable_ofAlternatives, Expr.print,
        Expr.print_ofAlternatives]
      simpa using hbody
termination_by structural h

theorem ConcatenationText.outweighs {es : List Expr} {text : List Char}
    (h : ConcatenationText es text) :
    Outweighs text (Expr.printItems ',' es) (∀ e ∈ es, e.Quotable) := by
  match h with
  | @ConcatenationText.last e layout text _ htext =>
      have hfirst := (FactorText.outweighs htext).around layout [] [] []
        List.not_mem_nil List.not_mem_nil
      simpa [Expr.printItems, Expr.printRest] using hfirst
  | @ConcatenationText.cons e es layout text gap rest _ htext _ hothers =>
      have hfirst := (FactorText.outweighs htext).around layout [] [] []
        List.not_mem_nil List.not_mem_nil
      rw [List.append_nil, List.append_nil, List.nil_append] at hfirst
      exact outweighs_cons hothers.ne_nil (by decide) hfirst (ConcatenationText.outweighs hothers)
termination_by structural h

theorem AlternationText.outweighs {es : List Expr} {text : List Char}
    (h : AlternationText es text) :
    Outweighs text (Expr.printItems '|' es) (∀ e ∈ es, e.Quotable) := by
  match h with
  | .last htext =>
      have hfirst := ConcatenationText.outweighs htext
      simpa [Expr.printItems, Expr.printRest, Expr.print_ofSequence] using hfirst
  | .cons htext _ hmore =>
      have hfirst := ConcatenationText.outweighs htext
      rw [← Expr.print_ofSequence, ← Expr.quotable_ofSequence] at hfirst
      exact outweighs_cons hmore.ne_nil (by decide) hfirst (AlternationText.outweighs hmore)
termination_by structural h
end

theorem ExprText.outweighs {e : Expr} {text : List Char} (h : ExprText e text) :
    Outweighs text e.print e.Quotable := by
  cases h with
  | intro htext =>
      rw [Expr.quotable_ofAlternatives, Expr.print_ofAlternatives]
      exact htext.outweighs

/-! ### Productions and grammars -/

theorem ProductionText.canonical {p : Production} {text : List Char} (h : ProductionText p text)
    (hquotable : p.body.Quotable) : p.Canonical := by
  cases h with
  | intro _ hname _ hbody _ => exact ⟨hname.isName, hbody.canonical hquotable⟩

theorem Production.Canonical.productionText {p : Production} (h : p.Canonical)
    {layout : List Char} (hlayout : Layout layout) : ProductionText p (layout ++ p.print) := by
  obtain ⟨name, body⟩ := p
  obtain ⟨hname, hbody⟩ := h
  have htext := ProductionText.intro hlayout hname.nameText layout_blank
    (hbody.shown.whole layout_blank) layout_blank
  rw [String.ofList_toList] at htext
  simpa [Production.print] using htext

theorem ProductionText.outweighs {p : Production} {text : List Char} (h : ProductionText p text) :
    Outweighs text p.print p.body.Quotable := by
  cases h with
  | @intro name layout gap body text last _ _ _ hbody _ =>
      have hname : Outweighs (layout ++ name ++ []) ([] ++ name ++ []) True :=
        (outweighs_self trivial).around layout [] [] [] List.not_mem_nil List.not_mem_nil
      have hrest := hbody.outweighs.around (gap ++ ['=']) (last ++ [';']) [' ', '=', ' '] [' ', ';']
        (by decide) (by decide)
      have hall := (hname.append hrest).mono And.right
      simpa [Production.print] using hall

theorem ProductionsText.canonical {ps : List Production} {text : List Char}
    (h : ProductionsText ps text) (hquotable : ∀ p ∈ ps, p.body.Quotable) :
    ∀ p ∈ ps, p.Canonical := by
  induction h with
  | nil => exact fun p hp => absurd hp List.not_mem_nil
  | cons hp _ ih =>
      obtain ⟨hfirst, hrest⟩ := List.forall_mem_cons.1 hquotable
      exact List.forall_mem_cons.2 ⟨hp.canonical hfirst, ih hrest⟩

/-- The end of a line is layout in front of the next production. -/
theorem productionsText_print {ps : List Production} (h : ∀ p ∈ ps, p.Canonical)
    {layout : List Char} (hlayout : Layout layout) :
    ProductionsText ps (layout ++ ps.flatMap fun p => p.print ++ ['\n']) := by
  have hline : Layout ['\n'] := .blank (by decide) .nil
  induction ps generalizing layout with
  | nil => exact .nil (by simpa using hlayout)
  | cons p ps ih =>
      obtain ⟨hfirst, hrest⟩ := List.forall_mem_cons.1 h
      have hcons := ProductionsText.cons (hfirst.productionText hlayout) (ih hrest hline)
      simpa using hcons

theorem ProductionsText.outweighs {ps : List Production} {text : List Char}
    (h : ProductionsText ps text) :
    Outweighs text (ps.flatMap fun p => p.print ++ ['\n']) (∀ p ∈ ps, p.body.Quotable) := by
  induction h with
  | nil => exact ⟨by simp, fun _ => by simp⟩
  | cons hp _ ih =>
      have hfirst := hp.outweighs.around [] [] [] ['\n'] List.not_mem_nil (by decide)
      simpa using hfirst.append ih

/-! ### Reading back -/

theorem Layout.closes {layout : List Char} (h : Layout layout) : Closes layout := by
  have hnone : ∀ mark, readMark mark layout = none := by
    intro mark
    rw [readMark, layout_iff_skipLayout.1 h]
  have hapart : Apart (layout ++ []) := h.apart fun c hc => by cases hc
  rw [List.append_nil] at hapart
  exact ⟨hapart, hnone ',', hnone '|'⟩

theorem Expr.parseChars_eq_ok_iff {text : List Char} {e : Expr} :
    Expr.parseChars text = .ok e ↔ e.DenotedBy text := by
  rw [Expr.parseChars]
  constructor
  · intro h
    split at h
    · cases h
    · next e' rest hread =>
      obtain ⟨hrest, rfl⟩ := finish_eq_ok_iff.1 h
      obtain ⟨front, hfront, rfl⟩ := readExpr_sound hread
      exact ⟨front, rest, hfront, hrest, rfl⟩
  · rintro ⟨front, last, hfront, hlast, rfl⟩
    rw [hfront.read hlast.closes]
    exact finish_eq_ok_iff.2 ⟨hlast, rfl⟩

theorem Production.parseChars_eq_ok_iff {text : List Char} {p : Production} :
    Production.parseChars text = .ok p ↔ p.DenotedBy text := by
  rw [Production.parseChars]
  constructor
  · intro h
    split at h
    · cases h
    · next p' rest hread =>
      obtain ⟨hrest, rfl⟩ := finish_eq_ok_iff.1 h
      obtain ⟨front, hfront, rfl⟩ := exists_of_readProduction hread
      exact ⟨front, rest, hfront, hrest, rfl⟩
  · rintro ⟨front, last, hfront, hlast, rfl⟩
    rw [hfront.read last]
    exact finish_eq_ok_iff.2 ⟨hlast, rfl⟩

/-- A body is denoted by its printed text if and only if it is canonical. -/
theorem Expr.denotedBy_print_iff {e : Expr} : e.DenotedBy e.print ↔ e.Canonical := by
  constructor
  · rintro ⟨front, last, hfront, -, htext⟩
    exact hfront.canonical (hfront.outweighs.holds htext)
  · intro h
    exact ⟨e.print, [], h.exprText, .nil, (List.append_nil _).symm⟩

theorem Production.denotedBy_print_iff {p : Production} : p.DenotedBy p.print ↔ p.Canonical := by
  constructor
  · rintro ⟨front, last, hfront, -, htext⟩
    exact hfront.canonical (hfront.outweighs.holds htext)
  · intro h
    exact ⟨p.print, [], h.productionText .nil, .nil, (List.append_nil _).symm⟩

theorem Grammar.denotedBy_print_iff {g : Grammar} : g.DenotedBy g.print ↔ g.Canonical := by
  constructor
  · intro h
    exact ProductionsText.canonical h ((ProductionsText.outweighs h).eq rfl)
  · intro h
    exact productionsText_print h .nil

/-- A body is read back from its printed text if and only if it is canonical, also one that no text
denotes: what is printed for it may be a text of the notation, but never one of this body. -/
theorem Expr.parse_render_eq_self_iff (e : Expr) : Expr.parse e.render = .ok e ↔ e.Canonical := by
  rw [Expr.parse, Expr.render, String.toList_ofList, Expr.parseChars_eq_ok_iff]
  exact Expr.denotedBy_print_iff

/-- What was read from a text is read back from its printed text if and only if no terminal of it
contains the double quote. -/
theorem parse_render_iff_quotable (text : String) :
    (∀ g, Grammar.parse text = .ok g → (Grammar.parse g.render = .ok g ↔ g.Quotable)) ∧
    (∀ p, Production.parse text = .ok p →
      (Production.parse p.render = .ok p ↔ p.body.Quotable)) ∧
    ∀ e, Expr.parse text = .ok e → (Expr.parse e.render = .ok e ↔ e.Quotable) := by
  refine ⟨fun g h => ?_, fun p h => ?_, fun e h => ?_⟩
  · have hdenoted : g.DenotedBy text.toList := Grammar.parseChars_eq_ok_iff.1 h
    rw [Grammar.parse, Grammar.render, String.toList_ofList, Grammar.parseChars_eq_ok_iff,
      Grammar.denotedBy_print_iff]
    exact ⟨fun hc p hp => (hc p hp).2.quotable, ProductionsText.canonical hdenoted⟩
  · obtain ⟨front, last, hfront, -, -⟩ := Production.parseChars_eq_ok_iff.1 h
    rw [Production.parse, Production.render, String.toList_ofList,
      Production.parseChars_eq_ok_iff, Production.denotedBy_print_iff]
    exact ⟨fun hc => hc.2.quotable, hfront.canonical⟩
  · obtain ⟨front, last, hfront, -, -⟩ := Expr.parseChars_eq_ok_iff.1 h
    rw [Expr.parse, Expr.render, String.toList_ofList, Expr.parseChars_eq_ok_iff,
      Expr.denotedBy_print_iff]
    exact ⟨Expr.Canonical.quotable, hfront.canonical⟩

/-- Terminals that hold a comment mark, the single quote, the end of a line, and nothing. -/
def oddText : String := "a =(**)\x7b '(*' , \"it's\" |b\x7d , '\n' ; b= '' ;"

theorem oddText_read_back :
    ∃ g, Grammar.parse oddText = .ok g ∧ Grammar.parse g.render = .ok g := by
  have hquotable : ((Grammar.parse oddText).toOption.any fun g => g.Quotable) = true := by
    decide +kernel
  cases hparse : Grammar.parse oddText with
  | error e =>
      rw [hparse] at hquotable
      cases hquotable
  | ok g =>
      rw [hparse] at hquotable
      have hback := (parse_render_iff_quotable oddText).1 g hparse
      exact ⟨g, rfl, hback.2 (of_decide_eq_true hquotable)⟩

/-- A terminal in single quotes that holds the double quote. -/
def quoteText : String := "a = 'x\"y' ;"

/-- The grammar is read, but it is not read back. -/
theorem quoteText_not_read_back :
    ∃ g, Grammar.parse quoteText = .ok g ∧ Grammar.parse g.render ≠ .ok g := by
  have hlost : ((Grammar.parse quoteText).toOption.any fun g =>
      (Grammar.parse g.render).toOption ≠ some g) = true := by decide +kernel
  cases hparse : Grammar.parse quoteText with
  | error e =>
      rw [hparse] at hlost
      cases hlost
  | ok g =>
      rw [hparse] at hlost
      refine ⟨g, rfl, fun hback => of_decide_eq_true hlost ?_⟩
      rw [hback]
      rfl

end GrammarCompiler.Ebnf
