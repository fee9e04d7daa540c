import GrammarCompiler.Grammar.Basic

/-!
Checking that a grammar can be handed to the parser. The check stops at the
first defect: the start symbol first, then the entries in order, and in each
entry its rules and their symbols from left to right, repetitions included.
-/

namespace GrammarCompiler

/-- What is wrong with a grammar. -/
inductive GrammarError where
  | startUndefined (start : String)
  | startNotSingle (start : String) (found : Nat)
  | noRules (name : String)
  | emptyRule (name : String)
  | undefinedReference (owner name : String)
  | emptyRepetition (owner : String)
  | alternationInRepetition (owner : String)
  | nestedAlternation (owner : String)
deriving DecidableEq, Repr, Inhabited

namespace GrammarError

/-- A name as it is quoted in messages. -/
def quote (name : String) : String := "`" ++ name ++ "`"

def message : GrammarError → String
  | .startUndefined start => "start symbol " ++ quote start ++ " is not defined"
  | .startNotSingle start found =>
    "start symbol " ++ quote start ++ " must have exactly one rule, found " ++ toString found
  | .noRules name => quote name ++ " has no rules"
  | .emptyRule name => quote name ++ " has an empty rule"
  | .undefinedReference owner name =>
    quote owner ++ " refers to undefined non-terminal " ++ quote name
  | .emptyRepetition owner => quote owner ++ " has a repetition without sub-symbols"
  | .alternationInRepetition owner =>
    quote owner ++ ": alternation inside a repetition, move it into its own rule"
  | .nestedAlternation owner => quote owner ++ ": nested alternation, move it into its own rule"

end GrammarError

namespace Grammar

mutual
/-- The first defect of a symbol in a rule of `owner`. -/
def checkSymbol (g : Grammar) (owner : String) : Symbol → Except GrammarError Unit
  | .terminal _ => .ok ()
  | .nonTerminal name =>
    if g.isNonTerminal name then .ok () else .error (.undefinedReference owner name)
  | .repetition body =>
    if body.isEmpty then .error (.emptyRepetition owner) else checkSymbols g owner body

/-- The first defect of a sequence of symbols in a rule of `owner`. -/
def checkSymbols (g : Grammar) (owner : String) : List Symbol → Except GrammarError Unit
  | [] => .ok ()
  | x :: xs =>
    match checkSymbol g owner x with
    | .error e => .error e
    | .ok () => checkSymbols g owner xs
end

/-- The first defect of the rules of `owner`. -/
def checkRules (g : Grammar) (owner : String) : List Rule → Except GrammarError Unit
  | [] => .ok ()
  | rule :: rest =>
    if rule.symbols.isEmpty then .error (.emptyRule owner)
    else
      match checkSymbols g owner rule.symbols with
      | .error e => .error e
      | .ok () => checkRules g owner rest

/-- The first defect of the given entries. -/
def checkEntries (g : Grammar) : List (String × List Rule) → Except GrammarError Unit
  | [] => .ok ()
  | (name, rules) :: rest =>
    if rules.isEmpty then .error (.noRules name)
    else
      match checkRules g name rules with
      | .error e => .error e
      | .ok () => checkEntries g rest

/-- The rule of the start symbol, which must be its only one. -/
def startRule (g : Grammar) : Except GrammarError Rule :=
  match g.rules? g.start with
  | none => .error (.startUndefined g.start)
  | some [rule] => .ok rule
  | some rules => .error (.startNotSingle g.start rules.length)

theorem startRule_eq_ok_iff {g : Grammar} {rule : Rule} :
    g.startRule = .ok rule ↔ g.rules? g.start = some [rule] := by
  rw [startRule]
  split <;> simp_all

/-- Accepts a grammar that the parser can work with. -/
def check (g : Grammar) : Except GrammarError Unit :=
  match g.startRule with
  | .error e => .error e
  | .ok _ => checkEntries g g.entries

end Grammar

end GrammarCompiler
