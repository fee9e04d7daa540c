import GrammarCompiler.Ebnf.Basic

/-!
The bodies that the notation can show. Without parentheses a list cannot stand
directly in a list of the same kind, an alternation cannot stand in a
concatenation, and a list of fewer than two items does not look like a list.
Printing knows one quote only, so that what is printed also depends on the
terminals: none may contain that quote.
-/

namespace GrammarCompiler.Ebnf

/-- A name that can be written without quotes. -/
def IsName (name : String) : Prop :=
  ∃ c cs, name.toList = c :: cs ∧ isNameStart c = true ∧ ∀ d ∈ cs, isNamePart d = true

instance (name : String) : Decidable (IsName name) :=
  match h : name.toList with
  | [] => isFalse fun ⟨_, _, hname, _⟩ => by simp [h] at hname
  | c :: cs =>
    if hc : isNameStart c = true ∧ cs.all isNamePart = true then
      isTrue ⟨c, cs, h, hc.1, List.all_eq_true.1 hc.2⟩
    else isFalse fun ⟨c', cs', hname, hc'⟩ => hc (by simp_all)

namespace Expr

/-- Neither an alternation nor a concatenation. -/
def IsFactor : Expr → Prop
  | .reference _ | .terminal _ | .repetition _ => True
  | .alternation _ | .concatenation _ => False

def IsAlternation : Expr → Prop
  | .alternation _ => True
  | _ => False

/-- The notation can show the body. -/
inductive Canonical : Expr → Prop where
  | reference {name : String} : IsName name → Canonical (.reference name)
  | terminal {text : String} : doubleQuote ∉ text.toList → Canonical (.terminal text)
  | repetition {body : Expr} : Canonical body → Canonical (.repetition body)
  | alternation {items : List Expr} :
    2 ≤ items.length → (∀ e ∈ items, ¬ e.IsAlternation) → (∀ e ∈ items, Canonical e) →
      Canonical (.alternation items)
  | concatenation {items : List Expr} :
    2 ≤ items.length → (∀ e ∈ items, e.IsFactor) → (∀ e ∈ items, Canonical e) →
      Canonical (.concatenation items)

mutual
/-- The terminals of a body, from left to right. -/
def terminals : Expr → List String
  | .reference _ => []
  | .terminal text => [text]
  | .repetition body => body.terminals
  | .alternation items => terminalsOf items
  | .concatenation items => terminalsOf items

def terminalsOf : List Expr → List String
  | [] => []
  | e :: es => e.terminals ++ terminalsOf es
end

/-- Every terminal can stand between the quotes in which terminals are printed. -/
def Quotable (e : Expr) : Prop := ∀ text ∈ e.terminals, doubleQuote ∉ text.toList

instance (e : Expr) : Decidable e.Quotable :=
  inferInstanceAs (Decidable (∀ text ∈ e.terminals, doubleQuote ∉ text.toList))

theorem quotable_items {es : List Expr} :
    (∀ text ∈ terminalsOf es, doubleQuote ∉ text.toList) ↔ ∀ e ∈ es, e.Quotable := by
  induction es with
  | nil => simp [terminalsOf]
  | cons e es ih => simp [terminalsOf, or_imp, forall_and, ih, Quotable]

@[simp] theorem quotable_reference (name : String) : (reference name).Quotable := by
  simp [Quotable, terminals]

@[simp] theorem quotable_terminal {text : String} :
    (terminal text).Quotable ↔ doubleQuote ∉ text.toList := by
  simp [Quotable, terminals]

@[simp] theorem quotable_repetition {body : Expr} :
    (repetition body).Quotable ↔ body.Quotable := by
  simp [Quotable, terminals]

@[simp] theorem quotable_ofSequence {es : List Expr} :
    (ofSequence es).Quotable ↔ ∀ e ∈ es, e.Quotable := by
  match es with
  | [e] => simp [ofSequence]
  | [] | e :: e' :: es => exact quotable_items

@[simp] theorem quotable_ofAlternatives {es : List Expr} :
    (ofAlternatives es).Quotable ↔ ∀ e ∈ es, e.Quotable := by
  match es with
  | [e] => simp [ofAlternatives]
  | [] | e :: e' :: es => exact quotable_items

end Expr

def Production.Canonical (p : Production) : Prop := IsName p.name ∧ p.body.Canonical

def Grammar.Canonical (g : Grammar) : Prop := ∀ p ∈ g.productions, p.Canonical

/-- Every terminal of the grammar can stand between the quotes in which terminals are printed. -/
def Grammar.Quotable (g : Grammar) : Prop := ∀ p ∈ g.productions, p.body.Quotable

instance (g : Grammar) : Decidable g.Quotable :=
  inferInstanceAs (Decidable (∀ p ∈ g.productions, p.body.Quotable))

end GrammarCompiler.Ebnf
