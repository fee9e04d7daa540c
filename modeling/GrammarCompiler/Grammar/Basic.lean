/-!
Grammars as the parser uses them: an ordered registry of non-terminals with
their alternatives. Terminals name categories of lexemes, non-terminals name
entries of the registry, and a repetition stands for any number of rounds of a
fixed sequence.

The registry is a list of entries in the order of first definition, because
that order is what a grammar prints and checks. A name has one entry: `define`
adds alternatives to an entry that is already there, and the type keeps the
proof that no name is there twice.
-/

namespace GrammarCompiler

/-- The kind of the node under which the rounds of a repetition are collected. -/
def repetitionKind : String := "<kleene-star>"

inductive Symbol where
  /-- One lexeme of the named category. -/
  | terminal (kind : String)
  /-- Any of the alternatives of the named non-terminal. -/
  | nonTerminal (name : String)
  /-- The sequence, any number of times. -/
  | repetition (body : List Symbol)
deriving Repr, Inhabited

namespace Symbol

mutual
/-- Equality of symbols is decided part by part. -/
def decEq : (a b : Symbol) → Decidable (a = b)
  | .terminal m, .terminal n =>
    if h : m = n then isTrue (by rw [h]) else isFalse fun e => h (by injection e)
  | .nonTerminal m, .nonTerminal n =>
    if h : m = n then isTrue (by rw [h]) else isFalse fun e => h (by injection e)
  | .repetition as, .repetition bs =>
    match decEqList as bs with
    | isTrue h => isTrue (by rw [h])
    | isFalse h => isFalse fun e => h (by injection e)
  | .terminal _, .nonTerminal _ | .terminal _, .repetition _ | .nonTerminal _, .terminal _
  | .nonTerminal _, .repetition _ | .repetition _, .terminal _
  | .repetition _, .nonTerminal _ => isFalse nofun

def decEqList : (as bs : List Symbol) → Decidable (as = bs)
  | [], [] => isTrue rfl
  | [], _ :: _ => isFalse nofun
  | _ :: _, [] => isFalse nofun
  | a :: as, b :: bs =>
    match decEq a b with
    | isTrue ha =>
      match decEqList as bs with
      | isTrue hs => isTrue (by rw [ha, hs])
      | isFalse hs => isFalse fun h => hs (by injection h)
    | isFalse ha => isFalse fun h => ha (by injection h)
end

instance : DecidableEq Symbol := decEq

/-- The name of a symbol; all repetitions share one. -/
def name : Symbol → String
  | .terminal kind => kind
  | .nonTerminal name => name
  | .repetition _ => repetitionKind

end Symbol

/-- One alternative of a non-terminal. -/
inductive Rule where
  /-- All symbols in order. -/
  | sequence (symbols : List Symbol)
  /-- The symbols in order, any number of times. -/
  | repetition (body : List Symbol)
deriving DecidableEq, Repr, Inhabited

/-- The symbols that a rule is made of. -/
def Rule.symbols : Rule → List Symbol
  | .sequence symbols => symbols
  | .repetition body => body

/-- The only alternative of a repetition symbol. -/
def Symbol.repetitionRules (body : List Symbol) : List Rule := [.repetition body]

namespace Grammar

/-- Adds alternatives to the entry of `name`, or a new entry at the end. -/
def extend (name : String) (rules : List Rule) :
    List (String × List Rule) → List (String × List Rule)
  | [] => [(name, rules)]
  | (n, rs) :: rest =>
    if n = name then (n, rs ++ rules) :: rest else (n, rs) :: extend name rules rest

theorem mem_map_fst_extend {name other : String} {rules : List Rule}
    {entries : List (String × List Rule)} :
    other ∈ (extend name rules entries).map Prod.fst ↔
      other ∈ entries.map Prod.fst ∨ other = name := by
  induction entries with
  | nil => simp [extend]
  | cons entry rest ih =>
    by_cases h : entry.1 = name
    · simp only [extend, h, if_true, List.map_cons, List.mem_cons]
      constructor
      · exact Or.inl
      · rintro (hm | hm)
        · exact hm
        · exact Or.inl hm
    · simp only [extend, h, if_false, List.map_cons, List.mem_cons, ih, or_assoc]

theorem nodup_map_fst_extend {name : String} {rules : List Rule}
    {entries : List (String × List Rule)} (h : (entries.map Prod.fst).Nodup) :
    ((extend name rules entries).map Prod.fst).Nodup := by
  induction entries with
  | nil => simp [extend]
  | cons entry rest ih =>
    obtain ⟨hfresh, hrest⟩ := List.nodup_cons.1 h
    by_cases hn : entry.1 = name
    · simpa only [extend, hn, if_true, List.map_cons] using h
    · simp only [extend, hn, if_false, List.map_cons]
      refine List.nodup_cons.2 ⟨fun hm => ?_, ih hrest⟩
      rcases mem_map_fst_extend.1 hm with hm | hm
      · exact hfresh hm
      · exact hn hm

end Grammar

structure Grammar where
  start : String
  /-- The non-terminals with their alternatives, in the order of first definition. -/
  entries : List (String × List Rule)
  /-- No non-terminal has two entries. -/
  distinct : (entries.map Prod.fst).Nodup
deriving DecidableEq, Repr

namespace Grammar

/-- A grammar that defines nothing yet. -/
def empty (start : String) : Grammar := ⟨start, [], List.nodup_nil⟩

instance : Inhabited Grammar := ⟨empty ""⟩

/-- Registers alternatives for a non-terminal, behind those that it already has. -/
def define (g : Grammar) (name : String) (rules : List Rule) : Grammar :=
  ⟨g.start, extend name rules g.entries, nodup_map_fst_extend g.distinct⟩

/-- The alternatives of a non-terminal, in the order in which they are tried. -/
def rules? (g : Grammar) (name : String) : Option (List Rule) := g.entries.lookup name

def isNonTerminal (g : Grammar) (name : String) : Bool := (g.rules? name).isSome

/-- The non-terminals in the order of their first definition. -/
def nonTerminals (g : Grammar) : List String := g.entries.map Prod.fst

@[simp] theorem start_define (g : Grammar) (name : String) (rules : List Rule) :
    (g.define name rules).start = g.start := rfl

@[simp] theorem entries_define (g : Grammar) (name : String) (rules : List Rule) :
    (g.define name rules).entries = extend name rules g.entries := rfl

end Grammar

end GrammarCompiler
