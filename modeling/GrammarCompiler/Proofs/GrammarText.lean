import GrammarCompiler.Grammar.OfEbnf
import GrammarCompiler.Grammar.Printer
import GrammarCompiler.Proofs.Checking
import GrammarCompiler.Proofs.Printing

/-!
The text of a grammar describes the grammar. A grammar prints as a grammar of
the notation would, and that grammar of the notation can be named: `toEbnf`
puts every symbol, rule and entry into the form that its text has. So there
are two halves to join. The text is read as `toEbnf`, because `toEbnf` prints
the same text and is canonical; and `toEbnf` describes the grammar that it was
made from, because lowering undoes it symbol by symbol.

A list of one item is the item itself in the notation, and the lowering reads
an item as a list of one; this is why single items need no case of their own
below.
-/

namespace GrammarCompiler

open Ebnf (Expr)

/-! ### Grammars in the notation -/

namespace Symbol

mutual
/-- The symbol as a factor of the notation. -/
def expr : Symbol → Expr
  | .terminal kind => .terminal kind
  | .nonTerminal name => .reference name
  | .repetition body => .repetition (.ofSequence (exprs body))

def exprs : List Symbol → List Expr
  | [] => []
  | x :: xs => x.expr :: exprs xs
end

end Symbol

/-- The rule as an alternative of the notation. -/
def Rule.expr : Rule → Expr
  | .sequence symbols => .ofSequence (Symbol.exprs symbols)
  | .repetition body => (Symbol.repetition body).expr

namespace Grammar

/-- The production of one non-terminal. -/
def production (entry : String × List Rule) : Ebnf.Production :=
  ⟨entry.1, .ofAlternatives (entry.2.map Rule.expr)⟩

def toEbnf (g : Grammar) : Ebnf.Grammar := ⟨g.entries.map production⟩

end Grammar

/-! ### It prints the same text -/

namespace Symbol

mutual
theorem print_expr (x : Symbol) : x.expr.print = x.print := by
  match x with
  | .terminal kind => rfl
  | .nonTerminal name => rfl
  | .repetition body =>
      rw [expr, Expr.print, Expr.print_ofSequence, printItems_exprs body]
      rfl
termination_by structural x

theorem printItems_exprs (xs : List Symbol) :
    Expr.printItems ',' (exprs xs) = printSequence xs := by
  match xs with
  | [] => rfl
  | x :: xs =>
      rw [exprs, Expr.printItems, print_expr x, printRest_exprs xs]
      rfl
termination_by structural xs

theorem printRest_exprs (xs : List Symbol) : Expr.printRest ',' (exprs xs) = printRest xs := by
  match xs with
  | [] => rfl
  | x :: xs =>
      rw [exprs, Expr.printRest, print_expr x, printRest_exprs xs]
      rfl
termination_by structural xs
end

end Symbol

namespace Rule

theorem print_expr (rule : Rule) : rule.expr.print = rule.print := by
  cases rule with
  | sequence symbols => rw [expr, Expr.print_ofSequence, Symbol.printItems_exprs]; rfl
  | repetition body => exact Symbol.print_expr _

theorem printRest_map_expr (rules : List Rule) :
    Expr.printRest '|' (rules.map expr) = printRest rules := by
  induction rules with
  | nil => rfl
  | cons rule rules ih => rw [List.map_cons, Expr.printRest, print_expr, ih]; rfl

theorem printItems_map_expr (rules : List Rule) :
    Expr.printItems '|' (rules.map expr) = printAlternatives rules := by
  cases rules with
  | nil => rfl
  | cons rule rules => rw [List.map_cons, Expr.printItems, print_expr, printRest_map_expr]; rfl

end Rule

namespace Grammar

theorem print_toEbnf (g : Grammar) : g.toEbnf.print = g.print := by
  rw [Ebnf.Grammar.print, toEbnf, List.flatMap_map, print]
  refine congrArg (List.flatMap · g.entries) (funext fun entry => ?_)
  rw [Ebnf.Production.print, production, Expr.print_ofAlternatives, Rule.printItems_map_expr]
  simp [printEntry]

/-! ### It is canonical -/

/-- Whatever the grammar mentions can be written in the notation. -/
structure Writable (g : Grammar) : Prop where
  body_ne_nil : ∀ body, g.Mentions (.repetition body) → body ≠ []
  isName : ∀ name, g.Mentions (.nonTerminal name) → Ebnf.IsName name
  unquoted : ∀ kind, g.Mentions (.terminal kind) → Ebnf.doubleQuote ∉ kind.toList

end Grammar

namespace Symbol

theorem exprs_ne_nil {xs : List Symbol} (h : xs ≠ []) : exprs xs ≠ [] := by
  cases xs with
  | nil => exact absurd rfl h
  | cons x xs => exact List.cons_ne_nil _ _

variable {g : Grammar}

mutual
theorem canonical_expr (hg : g.Writable) (x : Symbol) (hx : g.Covers [x]) :
    x.expr.IsFactor ∧ x.expr.Canonical := by
  match x with
  | .terminal kind => exact ⟨trivial, .terminal (hg.unquoted kind hx.mentions)⟩
  | .nonTerminal name => exact ⟨trivial, .reference (hg.isName name hx.mentions)⟩
  | .repetition body =>
      have hne := exprs_ne_nil (hg.body_ne_nil body hx.mentions)
      have hbody := Expr.canonical_ofSequence hne (canonical_exprs hg body hx.inside)
      exact ⟨trivial, .repetition hbody.2⟩
termination_by structural x

theorem canonical_exprs (hg : g.Writable) (xs : List Symbol) (hxs : g.Covers xs) :
    ∀ e ∈ exprs xs, e.IsFactor ∧ e.Canonical := by
  match xs with
  | [] => exact fun e he => absurd he List.not_mem_nil
  | x :: xs =>
      exact List.forall_mem_cons.2 ⟨canonical_expr hg x hxs.head, canonical_exprs hg xs hxs.tail⟩
termination_by structural xs
end

end Symbol

theorem Rule.canonical_expr {g : Grammar} (hg : g.Writable) {rule : Rule}
    (hne : rule.symbols ≠ []) (hrule : g.Covers rule.symbols) :
    ¬ rule.expr.IsAlternation ∧ rule.expr.Canonical := by
  have hsymbols := Expr.canonical_ofSequence (Symbol.exprs_ne_nil hne)
    (Symbol.canonical_exprs hg rule.symbols hrule)
  cases rule with
  | sequence symbols => exact hsymbols
  | repetition body => exact ⟨id, .repetition hsymbols.2⟩

namespace Grammar

variable {g : Grammar}

theorem canonical_toEbnf (hwell : g.WellFormed) (hg : g.Writable)
    (hnames : ∀ name ∈ g.nonTerminals, Ebnf.IsName name) : g.toEbnf.Canonical := by
  intro p hp
  obtain ⟨⟨name, rules⟩, hentry, rfl⟩ := List.mem_map.1 hp
  have hrules := rules?_of_mem hentry
  refine ⟨hnames name (List.mem_map.2 ⟨_, hentry, rfl⟩), Expr.canonical_ofAlternatives ?_ ?_⟩
  · intro hnil
    obtain rfl : rules = [] := List.map_eq_nil_iff.1 hnil
    exact hwell.rules_ne_nil name hrules
  · intro e he
    obtain ⟨rule, hmem, rfl⟩ := List.mem_map.1 he
    have hrule : g.HasRule name rule := ⟨rules, hrules, hmem⟩
    exact Rule.canonical_expr hg (hwell.symbols_ne_nil name rule hrule) hrule.covers

/-! ### Lowering undoes it -/

theorem symbolsOfItem_ofSequence (owner : String) (es : List Expr) :
    symbolsOfItem owner (.ofSequence es) = symbolsOfItems owner es := by
  match es with
  | [e] =>
      rw [Expr.ofSequence, symbolsOfItems]
      cases symbolsOfItem owner e <;> simp [symbolsOfItems]
  | [] | e :: e' :: es => rfl

theorem symbolsOfItem_repetition {owner : String} {body : Expr} (halt : ¬ body.IsAlternation)
    {symbols : List Symbol} (hbody : symbolsOfItem owner body = .ok symbols) :
    symbolsOfItem owner (.repetition body) = .ok [.repetition symbols] := by
  rw [symbolsOfItem, hbody]
  rintro items rfl
  exact halt trivial

theorem isFactor_of_mem_exprs {xs : List Symbol} {e : Expr} (h : e ∈ Symbol.exprs xs) :
    e.IsFactor := by
  induction xs with
  | nil => exact absurd h List.not_mem_nil
  | cons x xs ih =>
      rcases List.mem_cons.1 h with rfl | h
      · cases x <;> trivial
      · exact ih h

mutual
theorem symbolsOfItem_expr (owner : String) (x : Symbol) :
    symbolsOfItem owner x.expr = .ok [x] := by
  match x with
  | .terminal kind => rfl
  | .nonTerminal name => rfl
  | .repetition body =>
      refine symbolsOfItem_repetition
        (Expr.not_isAlternation_ofSequence fun e => isFactor_of_mem_exprs) ?_
      rw [symbolsOfItem_ofSequence, symbolsOfItems_exprs owner body]
termination_by structural x

theorem symbolsOfItems_exprs (owner : String) (xs : List Symbol) :
    symbolsOfItems owner (Symbol.exprs xs) = .ok xs := by
  match xs with
  | [] => rfl
  | x :: xs =>
      rw [Symbol.exprs, symbolsOfItems, symbolsOfItem_expr owner x, symbolsOfItems_exprs owner xs]
      rfl
termination_by structural xs
end

theorem rulesOfAlternatives_map_expr (owner : String) {rules : List Rule}
    (h : ∀ rule ∈ rules, ∃ symbols, rule = .sequence symbols) :
    rulesOfAlternatives owner (rules.map Rule.expr) = .ok rules := by
  induction rules with
  | nil => rfl
  | cons rule rules ih =>
      obtain ⟨⟨symbols, rfl⟩, hrules⟩ := List.forall_mem_cons.1 h
      rw [List.map_cons, rulesOfAlternatives, Rule.expr, symbolsOfItem_ofSequence,
        symbolsOfItems_exprs, ih hrules]

theorem alternatives_ofAlternatives {es : List Expr} (h : ∀ e ∈ es, ¬ e.IsAlternation) :
    (Expr.ofAlternatives es).alternatives = es := by
  match es with
  | [] | e :: e' :: es => rfl
  | [e] =>
      have halt := h e (List.mem_singleton.2 rfl)
      cases e with
      | alternation items => exact absurd trivial halt
      | _ => rfl

/-- The alternatives of a production are the rules that it was made from. -/
theorem rulesOfAlternatives_production {name : String} {rules : List Rule}
    (h : ∀ rule ∈ rules, ∃ symbols, rule = .sequence symbols) :
    rulesOfAlternatives name (production (name, rules)).body.alternatives = .ok rules := by
  have halternatives : (production (name, rules)).body.alternatives = rules.map Rule.expr := by
    refine alternatives_ofAlternatives fun e he => ?_
    obtain ⟨rule, hmem, rfl⟩ := List.mem_map.1 he
    obtain ⟨symbols, rfl⟩ := h rule hmem
    exact Expr.not_isAlternation_ofSequence fun e => isFactor_of_mem_exprs
  rw [halternatives]
  exact rulesOfAlternatives_map_expr name h

theorem defineAll_cons {p : Ebnf.Production} {rules : List Rule}
    (h : rulesOfAlternatives p.name p.body.alternatives = .ok rules) (ps : List Ebnf.Production) :
    defineAll g (p :: ps) = defineAll (g.define p.name rules) ps := by
  rw [defineAll, h]

theorem extend_of_not_mem {name : String} {rules : List Rule}
    {entries : List (String × List Rule)} (h : name ∉ entries.map Prod.fst) :
    extend name rules entries = entries ++ [(name, rules)] := by
  induction entries with
  | nil => rfl
  | cons entry entries ih =>
      obtain ⟨hne, hrest⟩ := not_or.1 (mt List.mem_cons.2 h)
      rw [extend, if_neg (Ne.symm hne), ih hrest]
      rfl

/-- Productions of names that are new become entries at the end, one by one. -/
theorem defineAll_productions {g : Grammar} {entries : List (String × List Rule)}
    (hdistinct : ((g.entries ++ entries).map Prod.fst).Nodup)
    (h : ∀ entry ∈ entries, ∀ rule ∈ entry.2, ∃ symbols, rule = .sequence symbols) :
    ∃ g', defineAll g (entries.map production) = .ok g' ∧ g'.start = g.start ∧
      g'.entries = g.entries ++ entries := by
  induction entries generalizing g with
  | nil => exact ⟨g, rfl, rfl, (List.append_nil _).symm⟩
  | cons entry entries ih =>
      obtain ⟨name, rules⟩ := entry
      obtain ⟨hrules, hrest⟩ := List.forall_mem_cons.1 h
      have hnew : name ∉ g.entries.map Prod.fst := by
        intro hmem
        rw [List.map_append, List.map_cons] at hdistinct
        exact (List.nodup_append.1 hdistinct).2.2 name hmem name (List.mem_cons_self ..) rfl
      have hentries : (g.define name rules).entries = g.entries ++ [(name, rules)] :=
        extend_of_not_mem hnew
      have hdistinct' : (((g.define name rules).entries ++ entries).map Prod.fst).Nodup := by
        rw [hentries]
        simpa using hdistinct
      obtain ⟨g', hdefine, hstart, hg'⟩ := ih hdistinct' hrest
      refine ⟨g', ?_, hstart, ?_⟩
      · rw [List.map_cons, defineAll_cons (rulesOfAlternatives_production hrules)]
        exact hdefine
      · rw [hg', hentries, List.append_assoc]
        rfl

theorem ofEbnf_toEbnf (hcheck : g.check = .ok ())
    (h : ∀ name rule, g.HasRule name rule → ∃ symbols, rule = .sequence symbols) :
    ofEbnf g.toEbnf g.start = .ok g := by
  have hentries : ∀ entry ∈ g.entries, ∀ rule ∈ entry.2, ∃ symbols, rule = .sequence symbols :=
    fun entry hentry rule hrule => h entry.1 rule ⟨entry.2, rules?_of_mem hentry, hrule⟩
  obtain ⟨g', hdefine, hstart, hg'⟩ :=
    defineAll_productions (g := empty g.start) g.distinct hentries
  obtain rfl : g' = g := by
    cases g
    cases g'
    cases hstart
    cases hg'
    rfl
  rw [ofEbnf, toEbnf, hdefine]
  dsimp only
  rw [hcheck]

/-- The text of a grammar that passes its check, has sequences only and can be written in the
notation is read, and what is read describes the same grammar. -/
theorem text_describes_grammar (g : Grammar) (hcheck : g.check = .ok ())
    (hsequences : ∀ name rule, g.HasRule name rule → ∃ symbols, rule = .sequence symbols)
    (hnames : ∀ name ∈ g.nonTerminals, Ebnf.IsName name)
    (hkinds : ∀ kind, g.Mentions (.terminal kind) → Ebnf.doubleQuote ∉ kind.toList) :
    ∃ source, Ebnf.Grammar.parse g.render = .ok source ∧
      ∃ g', ofEbnf source g.start = .ok g' ∧ g'.start = g.start ∧
        g'.nonTerminals = g.nonTerminals ∧ ∀ name, g'.rules? name = g.rules? name := by
  have hwell := wellFormed_of_check hcheck
  have hwritable : g.Writable := by
    refine ⟨fun body hx => hwell.admits hx, fun name hx => ?_, hkinds⟩
    exact hnames name (mem_nonTerminals (hwell.admits hx))
  have hread : Ebnf.Grammar.parse g.render = .ok g.toEbnf := by
    rw [Ebnf.Grammar.parse, render, String.toList_ofList, ← print_toEbnf,
      Ebnf.Grammar.parseChars_eq_ok_iff, Ebnf.Grammar.denotedBy_print_iff]
    exact canonical_toEbnf hwell hwritable hnames
  exact ⟨g.toEbnf, hread, g, ofEbnf_toEbnf hcheck hsequences, rfl, rfl, fun _ => rfl⟩

/-- Repetitions three deep, alternatives from two definitions, and terminals that look like parts
of the notation. -/
def nestedItems : Grammar :=
  (((empty "list").define "list"
      [.sequence [.terminal "(*",
        .repetition [.nonTerminal "_item", .repetition [.repetition [.terminal "it's"]]]]]).define
      "_item" [.sequence [.terminal ""]]).define
    "_item" [.sequence [.nonTerminal "list", .terminal ";"]]

theorem nestedItems_text_describes :
    nestedItems.check = .ok () ∧
    ∃ source, Ebnf.Grammar.parse nestedItems.render = .ok source ∧
      ∃ g', ofEbnf source "list" = .ok g' ∧ g'.start = "list" ∧
        g'.nonTerminals = ["list", "_item"] ∧
        ∀ name, g'.rules? name = nestedItems.rules? name := by
  have hrules : ∀ {name rule}, nestedItems.HasRule name rule →
      rule ∈ nestedItems.entries.flatMap Prod.snd := by
    intro name rule hrule
    obtain ⟨rules, hentry, hmem⟩ := exists_mem_entries hrule
    exact List.mem_flatMap.2 ⟨_, hentry, hmem⟩
  have hall : ∀ rule ∈ nestedItems.entries.flatMap Prod.snd,
      (∃ symbols, rule = .sequence symbols) ∧
        ∀ kind, Symbol.Occurs (.terminal kind) rule.symbols → Ebnf.doubleQuote ∉ kind.toList := by
    refine List.forall_mem_cons.2 ⟨⟨⟨_, rfl⟩, fun kind ho => ?_⟩, List.forall_mem_cons.2
      ⟨⟨⟨_, rfl⟩, fun kind ho => ?_⟩, List.forall_mem_singleton.2 ⟨⟨_, rfl⟩, fun kind ho => ?_⟩⟩⟩
    · obtain rfl | rfl : kind = "(*" ∨ kind = "it's" := by
        simpa [Rule.symbols, Symbol.occursIn, Symbol.isPartOf] using Symbol.occursIn_of_occurs ho
      · decide
      · decide
    · obtain rfl : kind = "" := by
        simpa [Rule.symbols, Symbol.occursIn, Symbol.isPartOf] using Symbol.occursIn_of_occurs ho
      decide
    · obtain rfl : kind = ";" := by
        simpa [Rule.symbols, Symbol.occursIn, Symbol.isPartOf] using Symbol.occursIn_of_occurs ho
      decide
  refine ⟨rfl, text_describes_grammar nestedItems rfl (fun name rule h => (hall _ (hrules h)).1)
    (by decide) ?_⟩
  rintro kind ⟨name, rule, hrule, ho⟩
  exact (hall _ (hrules hrule)).2 kind ho

end Grammar

end GrammarCompiler
