import GrammarCompiler.Grammar.Check
import GrammarCompiler.Grammar.WellFormed

/-!
What the check of a grammar establishes. The check walks through the rules and
into their repetitions and stops at the first defect. If it finds none, then
every symbol that occurs anywhere is admissible, and so are the rules of every
name that can be looked up.
-/

namespace GrammarCompiler

namespace Symbol

variable {x y : Symbol} {ys body : List Symbol} {P : Symbol → Prop}

theorem not_occurs_nil : ¬ Occurs x [] := by
  rintro (hm | ⟨hm, -⟩)
  · exact List.not_mem_nil hm
  · exact List.not_mem_nil hm

theorem occurs_cons : Occurs x (y :: ys) ↔ Occurs x [y] ∨ Occurs x ys := by
  refine ⟨fun h => ?_, fun h => h.elim Occurs.head Occurs.weaken⟩
  cases h with
  | here hm =>
      rcases List.mem_cons.1 hm with rfl | hm
      · exact .inl (.here (List.mem_singleton.2 rfl))
      · exact .inr (.here hm)
  | inside hm ho =>
      rcases List.mem_cons.1 hm with rfl | hm
      · exact .inl ho.body
      · exact .inr (.inside hm ho)

theorem occurs_repetition :
    Occurs x [.repetition body] ↔ x = .repetition body ∨ Occurs x body := by
  refine ⟨fun h => ?_, ?_⟩
  · cases h with
    | here hm => exact .inl (List.mem_singleton.1 hm)
    | inside hm ho =>
        obtain rfl := repetition.inj (List.mem_singleton.1 hm)
        exact .inr ho
  · rintro (rfl | ho)
    · exact .here (List.mem_singleton.2 rfl)
    · exact ho.body

/-- Nothing stands inside a symbol that is no repetition. -/
theorem occurs_flat (h : ∀ body, y ≠ .repetition body) : Occurs x [y] ↔ x = y := by
  refine ⟨fun ho => ?_, fun heq => .here (List.mem_singleton.2 heq)⟩
  cases ho with
  | here hm => exact List.mem_singleton.1 hm
  | inside hm _ => exact absurd (List.mem_singleton.1 hm).symm (h _)

theorem forall_occurs_cons :
    (∀ x, Occurs x (y :: ys) → P x) ↔ (∀ x, Occurs x [y] → P x) ∧ ∀ x, Occurs x ys → P x := by
  constructor
  · intro h
    exact ⟨fun x ho => h x ho.head, fun x ho => h x ho.weaken⟩
  · rintro ⟨hy, hys⟩ x ho
    exact (occurs_cons.1 ho).elim (hy x) (hys x)

theorem forall_occurs_repetition :
    (∀ x, Occurs x [.repetition body] → P x) ↔ P (.repetition body) ∧ ∀ x, Occurs x body → P x := by
  simp only [occurs_repetition, or_imp, forall_and, forall_eq]

end Symbol

namespace Grammar

open GrammarCompiler.Symbol (Occurs)

/-- The symbol is no defect: a non-terminal is defined, and a repetition has symbols. What stands
inside a repetition is not looked at. -/
def Admits (g : Grammar) : Symbol → Prop
  | .terminal _ => True
  | .nonTerminal name => g.isNonTerminal name = true
  | .repetition body => body ≠ []

variable {g : Grammar}

mutual
theorem checkSymbol_eq_ok_iff (owner : String) {x : Symbol} :
    checkSymbol g owner x = .ok () ↔ ∀ y, Occurs y [x] → g.Admits y := by
  match x with
  | .terminal kind => simp [checkSymbol, Symbol.occurs_flat, Admits]
  | .nonTerminal name => simp [checkSymbol, Symbol.occurs_flat, Admits]
  | .repetition body =>
      rw [Symbol.forall_occurs_repetition, ← checkSymbols_eq_ok_iff owner]
      cases body <;> simp [checkSymbol, Admits]
termination_by structural x

theorem checkSymbols_eq_ok_iff (owner : String) {xs : List Symbol} :
    checkSymbols g owner xs = .ok () ↔ ∀ y, Occurs y xs → g.Admits y := by
  match xs with
  | [] => simp [checkSymbols, Symbol.not_occurs_nil]
  | x :: xs =>
      rw [Symbol.forall_occurs_cons, ← checkSymbol_eq_ok_iff owner,
        ← checkSymbols_eq_ok_iff owner, checkSymbols]
      split <;> simp_all
termination_by structural xs
end

theorem checkRules_eq_ok_iff (owner : String) {rules : List Rule} :
    checkRules g owner rules = .ok () ↔
      ∀ rule ∈ rules, rule.symbols ≠ [] ∧ ∀ y, Occurs y rule.symbols → g.Admits y := by
  induction rules with
  | nil => simp [checkRules]
  | cons rule rules ih =>
      rw [List.forall_mem_cons, ← ih, ← checkSymbols_eq_ok_iff owner, checkRules]
      by_cases hempty : rule.symbols = []
      · simp [hempty]
      · cases hcheck : checkSymbols g owner rule.symbols <;> simp [hempty]

theorem checkEntries_eq_ok_iff {entries : List (String × List Rule)} :
    checkEntries g entries = .ok () ↔ ∀ entry ∈ entries, entry.2 ≠ [] ∧
      ∀ rule ∈ entry.2, rule.symbols ≠ [] ∧ ∀ y, Occurs y rule.symbols → g.Admits y := by
  induction entries with
  | nil => simp [checkEntries]
  | cons entry entries ih =>
      obtain ⟨name, rules⟩ := entry
      rw [List.forall_mem_cons, ← ih, ← checkRules_eq_ok_iff name, checkEntries]
      by_cases hempty : rules = []
      · simp [hempty]
      · cases hcheck : checkRules g name rules <;> simp [hempty]

theorem check_eq_ok_iff :
    g.check = .ok () ↔ (∃ rule, g.rules? g.start = some [rule]) ∧ ∀ entry ∈ g.entries,
      entry.2 ≠ [] ∧ ∀ rule ∈ entry.2, rule.symbols ≠ [] ∧
        ∀ y, Occurs y rule.symbols → g.Admits y := by
  rw [← checkEntries_eq_ok_iff, check]
  simp only [← startRule_eq_ok_iff]
  cases g.startRule <;> simp

/-- The rules of an entry are looked up under its name, because no other entry has it. -/
theorem rules?_of_mem {name : String} {rules : List Rule} (h : (name, rules) ∈ g.entries) :
    g.rules? name = some rules := by
  obtain ⟨before, after, he⟩ := List.append_of_mem h
  have hdistinct := g.distinct
  rw [he, List.map_append, List.map_cons] at hdistinct
  refine List.lookup_eq_some_iff.2 ⟨before, after, he, fun entry hentry => ?_⟩
  have hne := (List.nodup_append.1 hdistinct).2.2 entry.1 (List.mem_map_of_mem hentry) name
    (List.mem_cons_self ..)
  simpa using hne.symm

/-- Whatever stands in a rule of a grammar that passes its check is no defect. -/
theorem wellFormed_of_check (h : g.check = .ok ()) : g.WellFormed := by
  obtain ⟨hstart, hentries⟩ := check_eq_ok_iff.1 h
  have hrule : ∀ name rule, g.HasRule name rule →
      rule.symbols ≠ [] ∧ ∀ y, Occurs y rule.symbols → g.Admits y := by
    intro name rule hrule
    obtain ⟨rules, hentry, hmem⟩ := exists_mem_entries hrule
    exact (hentries _ hentry).2 rule hmem
  refine ⟨hstart, fun name hnil => ?_, fun name rule hr => (hrule name rule hr).1,
    fun name rule body hr ho => (hrule name rule hr).2 _ ho,
    fun name rule other hr ho => (hrule name rule hr).2 _ ho⟩
  obtain ⟨before, after, he, -⟩ := List.lookup_eq_some_iff.1 hnil
  exact (hentries (name, []) (by simp [he])).1 rfl

theorem WellFormed.admits (h : g.WellFormed) {x : Symbol} (hx : g.Mentions x) : g.Admits x := by
  obtain ⟨name, rule, hrule, ho⟩ := hx
  cases x with
  | terminal kind => trivial
  | nonTerminal other => exact h.defined name rule other hrule ho
  | repetition body => exact h.body_ne_nil name rule body hrule ho

end Grammar

end GrammarCompiler
