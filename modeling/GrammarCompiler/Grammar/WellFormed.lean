import GrammarCompiler.Grammar.Basic

/-!
What a grammar must satisfy to be parsed with, said of the grammar as a whole
and without an order in which its defects would be found.
-/

namespace GrammarCompiler

/-- The symbol stands somewhere in the sequence, possibly inside repetitions. -/
inductive Symbol.Occurs (x : Symbol) : List Symbol → Prop where
  | here {xs : List Symbol} : x ∈ xs → Symbol.Occurs x xs
  | inside {xs body : List Symbol} :
    .repetition body ∈ xs → Symbol.Occurs x body → Symbol.Occurs x xs

namespace Symbol

mutual
/-- Whether `x` is the symbol or stands inside it. -/
def isPartOf (x : Symbol) : Symbol → Bool
  | .terminal kind => x = .terminal kind
  | .nonTerminal name => x = .nonTerminal name
  | .repetition body => x = .repetition body || occursIn x body

/-- Whether `x` stands somewhere in the sequence. -/
def occursIn (x : Symbol) : List Symbol → Bool
  | [] => false
  | y :: ys => isPartOf x y || occursIn x ys
end

theorem Occurs.weaken {x y : Symbol} {xs : List Symbol} (h : Occurs x xs) :
    Occurs x (y :: xs) := by
  cases h with
  | here hm => exact .here (List.mem_cons_of_mem _ hm)
  | inside hm h => exact .inside (List.mem_cons_of_mem _ hm) h

theorem Occurs.head {x y : Symbol} {ys : List Symbol} (h : Occurs x [y]) : Occurs x (y :: ys) := by
  cases h with
  | here hm => exact .here (List.mem_cons.2 (.inl (List.mem_singleton.1 hm)))
  | inside hm h => exact .inside (List.mem_cons.2 (.inl (List.mem_singleton.1 hm))) h

theorem Occurs.body {x : Symbol} {body : List Symbol} (h : Occurs x body) :
    Occurs x [.repetition body] :=
  .inside (List.mem_singleton.2 rfl) h

mutual
theorem occurs_of_isPartOf {x y : Symbol} {ys : List Symbol} (h : isPartOf x y = true) :
    Occurs x (y :: ys) := by
  match y with
  | .terminal kind =>
    obtain rfl : x = .terminal kind := by simpa [isPartOf] using h
    exact .here (List.mem_cons_self ..)
  | .nonTerminal name =>
    obtain rfl : x = .nonTerminal name := by simpa [isPartOf] using h
    exact .here (List.mem_cons_self ..)
  | .repetition body =>
    obtain rfl | h : x = .repetition body ∨ occursIn x body = true := by
      simpa [isPartOf] using h
    · exact .here (List.mem_cons_self ..)
    · exact .inside (List.mem_cons_self ..) (occurs_of_occursIn h)
termination_by structural y

theorem occurs_of_occursIn {x : Symbol} {xs : List Symbol} (h : occursIn x xs = true) :
    Occurs x xs := by
  match xs with
  | [] => simp [occursIn] at h
  | y :: ys =>
    obtain h | h : isPartOf x y = true ∨ occursIn x ys = true := by simpa [occursIn] using h
    · exact occurs_of_isPartOf h
    · exact (occurs_of_occursIn h).weaken
termination_by structural xs
end

theorem isPartOf_self (x : Symbol) : isPartOf x x = true := by cases x <;> simp [isPartOf]

theorem occursIn_of_mem {x y : Symbol} {xs : List Symbol} (hm : y ∈ xs)
    (h : isPartOf x y = true) : occursIn x xs = true := by
  induction xs with
  | nil => cases hm
  | cons z zs ih =>
    rcases List.mem_cons.1 hm with rfl | hm
    · simp [occursIn, h]
    · simp [occursIn, ih hm]

theorem occursIn_of_occurs {x : Symbol} {xs : List Symbol} (h : Occurs x xs) :
    occursIn x xs = true := by
  induction h with
  | here hm => exact occursIn_of_mem hm (isPartOf_self x)
  | inside hm _ ih => exact occursIn_of_mem hm (by simp [isPartOf, ih])

/-- Whether a symbol occurs can be decided by looking through the sequence. -/
instance (x : Symbol) (xs : List Symbol) : Decidable (Occurs x xs) :=
  decidable_of_iff (occursIn x xs = true) ⟨occurs_of_occursIn, occursIn_of_occurs⟩

end Symbol

namespace Grammar

/-- The rule is one of the alternatives of a non-terminal. -/
def HasRule (g : Grammar) (name : String) (rule : Rule) : Prop :=
  ∃ rules, g.rules? name = some rules ∧ rule ∈ rules

/-- The rules of a grammar are those of its entries. -/
theorem exists_mem_entries {g : Grammar} {name : String} {rule : Rule} (h : g.HasRule name rule) :
    ∃ rules, (name, rules) ∈ g.entries ∧ rule ∈ rules := by
  obtain ⟨rules, hrules, hmem⟩ := h
  obtain ⟨before, after, he, -⟩ := List.lookup_eq_some_iff.1 hrules
  exact ⟨rules, by simp [he], hmem⟩

theorem mem_nonTerminals {g : Grammar} {name : String} (h : g.isNonTerminal name = true) :
    name ∈ g.nonTerminals := by
  obtain ⟨rules, hrules⟩ := Option.isSome_iff_exists.1 h
  obtain ⟨before, after, he, -⟩ := List.lookup_eq_some_iff.1 hrules
  simp [nonTerminals, he]

/-- The symbol stands somewhere in the grammar. -/
def Mentions (g : Grammar) (x : Symbol) : Prop :=
  ∃ name rule, g.HasRule name rule ∧ Symbol.Occurs x rule.symbols

/-- Whatever stands in the sequence stands in the grammar. This is what a descent keeps about the
sequences that it works on. -/
def Covers (g : Grammar) (symbols : List Symbol) : Prop :=
  ∀ x, Symbol.Occurs x symbols → g.Mentions x

theorem HasRule.covers {g : Grammar} {name : String} {rule : Rule} (h : g.HasRule name rule) :
    g.Covers rule.symbols :=
  fun _ ho => ⟨name, rule, h, ho⟩

namespace Covers

variable {g : Grammar} {x : Symbol} {xs body : List Symbol}

theorem head (h : g.Covers (x :: xs)) : g.Covers [x] := fun y ho => h y ho.head

theorem tail (h : g.Covers (x :: xs)) : g.Covers xs := fun y ho => h y ho.weaken

theorem inside (h : g.Covers [.repetition body]) : g.Covers body := fun y ho => h y ho.body

theorem mentions (h : g.Covers [x]) : g.Mentions x := h x (.here (List.mem_singleton.2 rfl))

end Covers

structure WellFormed (g : Grammar) : Prop where
  /-- The start symbol has exactly one rule. -/
  start_single : ∃ rule, g.rules? g.start = some [rule]
  /-- Every non-terminal has a rule. -/
  rules_ne_nil : ∀ name, g.rules? name ≠ some []
  /-- Every rule has a symbol. -/
  symbols_ne_nil : ∀ name rule, g.HasRule name rule → rule.symbols ≠ []
  /-- Every repetition has a symbol. -/
  body_ne_nil : ∀ name rule body, g.HasRule name rule →
    Symbol.Occurs (.repetition body) rule.symbols → body ≠ []
  /-- Every non-terminal that occurs is defined. -/
  defined : ∀ name rule other, g.HasRule name rule →
    Symbol.Occurs (.nonTerminal other) rule.symbols → g.isNonTerminal other = true

end Grammar

end GrammarCompiler
