import GrammarCompiler.Ebnf.Basic
import GrammarCompiler.Grammar.Basic

/-!
The flat sequence of symbols that an alternative denotes, for every body and
without errors: concatenations are spliced in at every level, and what an
alternation would contribute is left out. Beside it, the bodies for which
nothing is left out.

From this the grammar that productions describe is read off as a whole, name
by name and without an order in which the productions would be taken up.
-/

namespace GrammarCompiler.Ebnf

namespace Expr

mutual
/-- The symbols of a body that is read as a sequence. -/
def flatten : Expr → List Symbol
  | .reference name => [.nonTerminal name]
  | .terminal kind => [.terminal kind]
  | .repetition body => [.repetition body.flatten]
  | .concatenation items => flattenAll items
  | .alternation _ => []

def flattenAll : List Expr → List Symbol
  | [] => []
  | e :: es => e.flatten ++ flattenAll es
end

/-- No alternation stands anywhere in the body. -/
inductive AlternationFree : Expr → Prop where
  | reference (name : String) : AlternationFree (.reference name)
  | terminal (kind : String) : AlternationFree (.terminal kind)
  | repetition {body : Expr} : AlternationFree body → AlternationFree (.repetition body)
  | concatenation {items : List Expr} :
    (∀ e ∈ items, AlternationFree e) → AlternationFree (.concatenation items)

@[simp] theorem alternationFree_repetition {body : Expr} :
    (repetition body).AlternationFree ↔ body.AlternationFree := by
  refine ⟨fun h => ?_, .repetition⟩
  cases h with
  | repetition hbody => exact hbody

@[simp] theorem alternationFree_concatenation {items : List Expr} :
    (concatenation items).AlternationFree ↔ ∀ e ∈ items, e.AlternationFree := by
  refine ⟨fun h => ?_, .concatenation⟩
  cases h with
  | concatenation hitems => exact hitems

@[simp] theorem not_alternationFree_alternation (items : List Expr) :
    ¬ (alternation items).AlternationFree := nofun

end Expr

/-- One sequence for each alternative of the body. -/
def Production.rules (p : Production) : List Rule :=
  p.body.alternatives.map fun e => .sequence e.flatten

namespace Grammar

/-- Every alternation of the grammar is the whole body of a production. -/
def ChoiceOnTop (g : Grammar) : Prop :=
  ∀ p ∈ g.productions, ∀ e ∈ p.body.alternatives, e.AlternationFree

/-- The names of the productions, in the order of their first occurrence. -/
def names (g : Grammar) : List String := (g.productions.map Production.name).eraseDups

/-- The rules of all productions of a name, in the order of the productions. -/
def rulesOf (g : Grammar) (name : String) : List Rule :=
  (g.productions.filter fun p => p.name = name).flatMap Production.rules

theorem nodup_eraseDups (names : List String) : names.eraseDups.Nodup := by
  induction hn : names.length using Nat.strongRecOn generalizing names with
  | ind n ih =>
      cases names with
      | nil => simp
      | cons name names =>
          have hless := List.length_filter_le (fun other => !other == name) names
          rw [List.length_cons] at hn
          rw [List.eraseDups_cons, List.nodup_cons]
          exact ⟨by simp, ih _ (by omega) _ rfl⟩

theorem nodup_names (g : Grammar) : g.names.Nodup := nodup_eraseDups _

/-- The grammar that the productions describe, if nothing is left out. -/
def lowered (g : Grammar) (start : String) : GrammarCompiler.Grammar where
  start := start
  entries := g.names.map fun name => (name, g.rulesOf name)
  distinct := by simpa [Function.comp_def] using g.nodup_names

@[simp] theorem nonTerminals_lowered (g : Grammar) (start : String) :
    (g.lowered start).nonTerminals = g.names := by
  simp [lowered, GrammarCompiler.Grammar.nonTerminals, Function.comp_def]

theorem lookup_map_mk {α : Type} (f : String → α) (names : List String) (name : String) :
    (names.map fun n => (n, f n)).lookup name = if name ∈ names then some (f name) else none := by
  induction names with
  | nil => rfl
  | cons other names ih =>
      by_cases h : name = other
      · simp [h]
      · have hne : (name == other) = false := by simpa using h
        simp [List.lookup_cons, h, hne, ih]

theorem rules?_lowered (g : Grammar) (start name : String) :
    (g.lowered start).rules? name = if name ∈ g.names then some (g.rulesOf name) else none :=
  lookup_map_mk g.rulesOf g.names name

end Grammar

end GrammarCompiler.Ebnf
