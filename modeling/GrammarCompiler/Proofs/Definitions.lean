import GrammarCompiler.Proofs.Checking

/-!
The check is exact on grammars that are built by definitions. A name can be
defined several times, its alternatives add up, and a reference may come
before the definition that it refers to. So no single definition is well
formed or ill formed, and what counts is what all of them come to.

The registry is looked through once: under a name it has the rules that the
definitions of the name give to it, in order. After that the check, which
walks through entries, and the definitions, which are a plain list, can be
compared condition by condition.
-/

namespace GrammarCompiler.Grammar

open GrammarCompiler.Symbol (Occurs)

variable {g : Grammar} {definitions : List (String × List Rule)}

/-! ### Any grammar -/

theorem check_of_wellFormed (h : g.WellFormed) : g.check = .ok () := by
  refine check_eq_ok_iff.2 ⟨h.start_single, ?_⟩
  rintro ⟨name, rules⟩ hentry
  have hrules : g.rules? name = some rules := rules?_of_mem hentry
  refine ⟨?_, fun rule hrule => ?_⟩
  · rintro rfl
    exact h.rules_ne_nil name hrules
  · have hhas : g.HasRule name rule := ⟨rules, hrules, hrule⟩
    exact ⟨h.symbols_ne_nil name rule hhas, fun x ho => h.admits ⟨name, rule, hhas, ho⟩⟩

theorem check_eq_ok_iff_wellFormed : g.check = .ok () ↔ g.WellFormed :=
  ⟨wellFormed_of_check, check_of_wellFormed⟩

/-! ### Grammars built by definitions -/

/-- The grammar that definitions build, one behind the other. -/
def ofDefinitions (start : String) (definitions : List (String × List Rule)) : Grammar :=
  definitions.foldl (fun g d => g.define d.1 d.2) (empty start)

/-- The rules that the definitions of a name give to it, in order. -/
def rulesFrom (definitions : List (String × List Rule)) (name : String) : List Rule :=
  (definitions.filter fun d => d.1 = name).flatMap Prod.snd

theorem mem_rulesFrom {name : String} {rule : Rule} :
    rule ∈ rulesFrom definitions name ↔ ∃ d ∈ definitions, d.1 = name ∧ rule ∈ d.2 := by
  simp [rulesFrom, and_assoc]

theorem rulesFrom_cons (d : String × List Rule) (name : String) :
    rulesFrom (d :: definitions) name =
      if d.1 = name then d.2 ++ rulesFrom definitions name else rulesFrom definitions name := by
  by_cases h : d.1 = name <;> simp [rulesFrom, h]

theorem rulesFrom_of_not_mem {name : String} (h : name ∉ definitions.map Prod.fst) :
    rulesFrom definitions name = [] := by
  refine List.eq_nil_iff_forall_not_mem.2 fun rule hrule => ?_
  obtain ⟨d, hd, rfl, -⟩ := mem_rulesFrom.1 hrule
  exact h (List.mem_map_of_mem hd)

theorem lookup_extend (name other : String) (rules : List Rule)
    (entries : List (String × List Rule)) :
    (extend name rules entries).lookup other =
      if other = name then some ((entries.lookup name).getD [] ++ rules)
      else entries.lookup other := by
  induction entries with
  | nil =>
      rw [extend, List.lookup_cons, List.lookup_nil]
      split <;> simp_all
  | cons entry rest ih =>
      obtain ⟨n, rs⟩ := entry
      by_cases hn : n = name
      · subst hn
        rw [extend, if_pos rfl, List.lookup_cons_self]
        by_cases ho : other = n
        · rw [if_pos ho, ho, List.lookup_cons_self]
          rfl
        · have hother : (other == n) = false := by simpa using ho
          rw [if_neg ho, List.lookup_cons, List.lookup_cons, hother]
      · have hname : (name == n) = false := by simpa using Ne.symm hn
        rw [extend, if_neg hn, List.lookup_cons, List.lookup_cons, List.lookup_cons, ih, hname]
        by_cases ho : other = n
        · subst ho
          simp [hn]
        · have hother : (other == n) = false := by simpa using ho
          rw [hother]

theorem rules?_define (g : Grammar) (name other : String) (rules : List Rule) :
    (g.define name rules).rules? other =
      if other = name then some ((g.rules? name).getD [] ++ rules) else g.rules? other :=
  lookup_extend name other rules g.entries

/-- What a name has already stays in front of what definitions add to it. -/
theorem rules?_foldl_define (g : Grammar) (definitions : List (String × List Rule))
    (name : String) :
    (definitions.foldl (fun g d => g.define d.1 d.2) g).rules? name =
      if name ∈ definitions.map Prod.fst then
        some ((g.rules? name).getD [] ++ rulesFrom definitions name)
      else g.rules? name := by
  induction definitions generalizing g with
  | nil => simp
  | cons d definitions ih =>
      rw [List.foldl_cons, ih, rules?_define, rulesFrom_cons, List.map_cons]
      by_cases hd : name = d.1
      · subst hd
        by_cases hlater : d.1 ∈ definitions.map Prod.fst
        · simp [hlater]
        · simp [hlater, rulesFrom_of_not_mem hlater]
      · simp only [hd, Ne.symm hd, if_false, List.mem_cons, false_or]

theorem rules?_ofDefinitions (start : String) (definitions : List (String × List Rule))
    (name : String) :
    (ofDefinitions start definitions).rules? name =
      if name ∈ definitions.map Prod.fst then some (rulesFrom definitions name) else none := by
  rw [ofDefinitions, rules?_foldl_define]
  rfl

theorem start_ofDefinitions (start : String) (definitions : List (String × List Rule)) :
    (ofDefinitions start definitions).start = start := by
  have hfold : ∀ g : Grammar, (definitions.foldl (fun g d => g.define d.1 d.2) g).start =
      g.start := by
    induction definitions with
    | nil => exact fun g => rfl
    | cons d definitions ih => exact fun g => ih (g.define d.1 d.2)
  exact hfold (empty start)

theorem isNonTerminal_ofDefinitions {start name : String} :
    (ofDefinitions start definitions).isNonTerminal name = true ↔
      name ∈ definitions.map Prod.fst := by
  rw [isNonTerminal, rules?_ofDefinitions]
  split <;> simp_all

theorem hasRule_ofDefinitions {start name : String} {rule : Rule} :
    (ofDefinitions start definitions).HasRule name rule ↔
      ∃ d ∈ definitions, d.1 = name ∧ rule ∈ d.2 := by
  rw [← mem_rulesFrom, HasRule, rules?_ofDefinitions]
  by_cases h : name ∈ definitions.map Prod.fst
  · simp [h]
  · simp [h, rulesFrom_of_not_mem h]

theorem rules?_ofDefinitions_eq_singleton {start name : String} {rule : Rule} :
    (ofDefinitions start definitions).rules? name = some [rule] ↔
      rulesFrom definitions name = [rule] := by
  rw [rules?_ofDefinitions]
  by_cases h : name ∈ definitions.map Prod.fst
  · simp [h]
  · simp [h, rulesFrom_of_not_mem h]

theorem rules?_ofDefinitions_eq_nil {start name : String} :
    (ofDefinitions start definitions).rules? name = some [] ↔
      name ∈ definitions.map Prod.fst ∧ rulesFrom definitions name = [] := by
  rw [rules?_ofDefinitions]
  by_cases h : name ∈ definitions.map Prod.fst <;> simp [h]

/-! ### Definitions that make up a grammar -/

/-- What definitions must come to together, said of the definitions alone. -/
structure WellDefined (start : String) (definitions : List (String × List Rule)) : Prop where
  /-- The start symbol gets exactly one rule. -/
  start_single : ∃ rule, rulesFrom definitions start = [rule]
  /-- Every name that is defined gets a rule, if not by this definition then by another one. -/
  rules_ne_nil : ∀ name ∈ definitions.map Prod.fst, rulesFrom definitions name ≠ []
  /-- Every rule has a symbol. -/
  symbols_ne_nil : ∀ d ∈ definitions, ∀ rule ∈ d.2, rule.symbols ≠ []
  /-- Every repetition has a symbol, at any depth. -/
  body_ne_nil : ∀ d ∈ definitions, ∀ rule ∈ d.2, ∀ body,
    Occurs (.repetition body) rule.symbols → body ≠ []
  /-- Every non-terminal that occurs is defined, at any depth. -/
  defined : ∀ d ∈ definitions, ∀ rule ∈ d.2, ∀ name,
    Occurs (.nonTerminal name) rule.symbols → name ∈ definitions.map Prod.fst

theorem wellFormed_ofDefinitions_iff (start : String) (definitions : List (String × List Rule)) :
    (ofDefinitions start definitions).WellFormed ↔ WellDefined start definitions := by
  constructor
  · intro h
    have hstart := h.start_single
    rw [start_ofDefinitions] at hstart
    have hhas : ∀ d ∈ definitions, ∀ rule ∈ d.2,
        (ofDefinitions start definitions).HasRule d.1 rule :=
      fun d hd rule hrule => hasRule_ofDefinitions.2 ⟨d, hd, rfl, hrule⟩
    refine ⟨?_, fun name hname hnil => ?_, fun d hd rule hrule => ?_,
      fun d hd rule hrule body ho => ?_, fun d hd rule hrule name ho => ?_⟩
    · exact hstart.imp fun rule => rules?_ofDefinitions_eq_singleton.1
    · exact h.rules_ne_nil name (rules?_ofDefinitions_eq_nil.2 ⟨hname, hnil⟩)
    · exact h.symbols_ne_nil _ _ (hhas d hd rule hrule)
    · exact h.body_ne_nil _ _ body (hhas d hd rule hrule) ho
    · exact isNonTerminal_ofDefinitions.1 (h.defined _ _ name (hhas d hd rule hrule) ho)
  · intro h
    refine ⟨?_, fun name hnil => ?_, fun name rule hr => ?_, fun name rule body hr ho => ?_,
      fun name rule other hr ho => ?_⟩
    · rw [start_ofDefinitions]
      exact h.start_single.imp fun rule => rules?_ofDefinitions_eq_singleton.2
    · obtain ⟨hname, hrules⟩ := rules?_ofDefinitions_eq_nil.1 hnil
      exact h.rules_ne_nil name hname hrules
    · obtain ⟨d, hd, -, hrule⟩ := hasRule_ofDefinitions.1 hr
      exact h.symbols_ne_nil d hd rule hrule
    · obtain ⟨d, hd, -, hrule⟩ := hasRule_ofDefinitions.1 hr
      exact h.body_ne_nil d hd rule hrule body ho
    · obtain ⟨d, hd, -, hrule⟩ := hasRule_ofDefinitions.1 hr
      exact isNonTerminal_ofDefinitions.2 (h.defined d hd rule hrule other ho)

/-- A grammar passes its check if and only if it is well formed, and whether it is can be told
from its definitions: the start symbol gets one rule from all of them together, every name gets at
least one, no rule and no repetition is empty, and no reference is left open, however deep it
stands and wherever its definition comes. -/
theorem check_decides_wellFormedness (start : String) (definitions : List (String × List Rule)) :
    ((ofDefinitions start definitions).check = .ok () ↔
      (ofDefinitions start definitions).WellFormed) ∧
    ((ofDefinitions start definitions).check = .ok () ↔ WellDefined start definitions) := by
  refine ⟨check_eq_ok_iff_wellFormed, ?_⟩
  rw [check_eq_ok_iff_wellFormed]
  exact wellFormed_ofDefinitions_iff start definitions

/-- A name without a rule is mended by a later definition, behind the rule that refers to it from
within two repetitions. -/
example : (ofDefinitions "list"
    [("item", []),
     ("list", [.sequence [.terminal "Open", .repetition [.repetition [.nonTerminal "item"]]]]),
     ("item", [.repetition [.terminal "Word"]])]).check = .ok () :=
  rfl

end GrammarCompiler.Grammar
