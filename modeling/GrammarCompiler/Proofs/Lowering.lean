import GrammarCompiler.Grammar.Flattening
import GrammarCompiler.Proofs.GrammarText

/-!
Lowering is exact. It goes through the productions one behind the other and
stops at the first alternation that it cannot keep; what it gives is compared
with the grammar that can be read off the productions as a whole.

Up to a single alternative there is nothing but the recursion of bodies: an
alternative is lowered if and only if it holds no alternation, and then to its
flat sequence. The registry needs a step and a run. Taking up one more
production makes the grammar of the productions so far into the grammar of
these and the new one, whether its name is new or not; so behind the last
production the registry is the grammar of all of them.
-/

namespace GrammarCompiler

open Ebnf (Expr)

/-! ### Outcomes -/

/-- The outcome is the value if the condition holds, and an error if it does not. -/
def Gives {α : Type} (condition : Prop) (value : α) (outcome : Except GrammarError α) : Prop :=
  ∀ x, outcome = .ok x ↔ condition ∧ value = x

namespace Gives

variable {α β : Type} {p q : Prop} {a : α} {b : β} {outcome : Except GrammarError α}

theorem ok : Gives True a (.ok a) := by simp [Gives]

theorem error {e : GrammarError} (h : ¬ p) : Gives p a (.error e) := by simp [Gives, h]

theorem of_iff (h : Gives p a outcome) (hiff : p ↔ q) : Gives q a outcome := by
  rw [← propext hiff]
  exact h

/-- The first error ends the whole. -/
theorem bind (h : Gives p a outcome) {next : α → Except GrammarError β}
    (hnext : Gives q b (next a)) : Gives (p ∧ q) b (outcome >>= next) := by
  cases outcome with
  | error e => exact .error fun hpq => nomatch (h a).2 ⟨hpq.1, rfl⟩
  | ok x =>
      obtain ⟨hp, rfl⟩ := (h x).1 rfl
      exact hnext.of_iff (by simp [hp])

theorem map (h : Gives p a outcome) (f : α → β) : Gives p (f a) (f <$> outcome) := by
  cases outcome with
  | error e => exact .error fun hp => nomatch (h a).2 ⟨hp, rfl⟩
  | ok x =>
      obtain ⟨hp, rfl⟩ := (h x).1 rfl
      exact ok.of_iff (iff_of_true trivial hp)

end Gives

namespace Grammar

/-! ### One alternative -/

theorem symbolsOfItem_repetition_eq {body : Expr} (halt : ¬ body.IsAlternation) (owner : String) :
    symbolsOfItem owner (.repetition body) =
      (fun symbols => [.repetition symbols]) <$> symbolsOfItem owner body := by
  rw [symbolsOfItem]
  · cases symbolsOfItem owner body <;> rfl
  · rintro items rfl
    exact halt trivial

theorem symbolsOfItems_cons_eq (owner : String) (e : Expr) (es : List Expr) :
    symbolsOfItems owner (e :: es) =
      symbolsOfItem owner e >>= fun symbols => (symbols ++ ·) <$> symbolsOfItems owner es := by
  rw [symbolsOfItems]
  cases symbolsOfItem owner e with
  | error err => rfl
  | ok symbols => cases symbolsOfItems owner es <;> rfl

theorem rulesOfAlternatives_cons_eq (owner : String) (e : Expr) (es : List Expr) :
    rulesOfAlternatives owner (e :: es) =
      symbolsOfItem owner e >>= fun symbols =>
        (.sequence symbols :: ·) <$> rulesOfAlternatives owner es := by
  rw [rulesOfAlternatives]
  cases symbolsOfItem owner e with
  | error err => rfl
  | ok symbols => cases rulesOfAlternatives owner es <;> rfl

mutual
theorem gives_symbolsOfItem (owner : String) (e : Expr) :
    Gives e.AlternationFree e.flatten (symbolsOfItem owner e) := by
  match e with
  | .reference name => exact Gives.ok.of_iff (iff_of_true trivial (.reference name))
  | .terminal kind => exact Gives.ok.of_iff (iff_of_true trivial (.terminal kind))
  | .alternation items => exact .error (Expr.not_alternationFree_alternation items)
  | .concatenation items =>
      exact (gives_symbolsOfItems owner items).of_iff Expr.alternationFree_concatenation.symm
  | .repetition body =>
      -- An alternation as the body has an error of its own.
      by_cases halt : body.IsAlternation
      · cases body with
        | alternation items => exact .error (by simp)
        | _ => exact halt.elim
      · rw [symbolsOfItem_repetition_eq halt, Expr.flatten]
        exact ((gives_symbolsOfItem owner body).map _).of_iff Expr.alternationFree_repetition.symm
termination_by structural e

theorem gives_symbolsOfItems (owner : String) (es : List Expr) :
    Gives (∀ e ∈ es, e.AlternationFree) (Expr.flattenAll es) (symbolsOfItems owner es) := by
  match es with
  | [] => exact Gives.ok.of_iff (by simp)
  | e :: es =>
      rw [symbolsOfItems_cons_eq, Expr.flattenAll]
      exact ((gives_symbolsOfItem owner e).bind ((gives_symbolsOfItems owner es).map _)).of_iff
        List.forall_mem_cons.symm
termination_by structural es
end

theorem gives_rulesOfAlternatives (owner : String) (es : List Expr) :
    Gives (∀ e ∈ es, e.AlternationFree) (es.map fun e => .sequence e.flatten)
      (rulesOfAlternatives owner es) := by
  induction es with
  | nil => exact Gives.ok.of_iff (by simp)
  | cons e es ih =>
      rw [rulesOfAlternatives_cons_eq, List.map_cons]
      exact ((gives_symbolsOfItem owner e).bind (ih.map _)).of_iff List.forall_mem_cons.symm

/-! ### The registry -/

theorem eraseDups_concat (names : List String) (name : String) :
    (names ++ [name]).eraseDups =
      if name ∈ names then names.eraseDups else names.eraseDups ++ [name] := by
  rw [List.eraseDups_append]
  by_cases h : name ∈ names
  · simp [List.removeAll, h]
  · simp [List.removeAll, h, List.eraseDups_cons]

/-- Alternatives for a name that is there already go behind those that it has. -/
theorem extend_of_mem {names : List String} (hnames : names.Nodup) {name : String}
    (h : name ∈ names) (rulesOf : String → List Rule) (rules : List Rule) :
    extend name rules (names.map fun n => (n, rulesOf n)) =
      names.map fun n => (n, if n = name then rulesOf n ++ rules else rulesOf n) := by
  induction names with
  | nil => exact absurd h List.not_mem_nil
  | cons other names ih =>
      obtain ⟨hother, hnames⟩ := List.nodup_cons.1 hnames
      by_cases heq : other = name
      · subst heq
        have hrest : ∀ n ∈ names, n ≠ other := fun n hn heq => hother (heq ▸ hn)
        simp only [extend, List.map_cons, if_true]
        refine congrArg (List.cons _) (List.map_congr_left fun n hn => ?_)
        rw [if_neg (hrest n hn)]
      · have hmem := (List.mem_cons.1 h).resolve_left (Ne.symm heq)
        simp [extend, heq, ih hnames hmem]

theorem rulesOf_concat (ps : List Ebnf.Production) (p : Ebnf.Production) (name : String) :
    Ebnf.Grammar.rulesOf ⟨ps ++ [p]⟩ name =
      if name = p.name then Ebnf.Grammar.rulesOf ⟨ps⟩ name ++ p.rules
      else Ebnf.Grammar.rulesOf ⟨ps⟩ name := by
  by_cases h : name = p.name
  · simp [Ebnf.Grammar.rulesOf, h]
  · simp [Ebnf.Grammar.rulesOf, h, Ne.symm h]

theorem rulesOf_of_not_mem {ps : List Ebnf.Production} {name : String}
    (h : name ∉ ps.map Ebnf.Production.name) : Ebnf.Grammar.rulesOf ⟨ps⟩ name = [] := by
  have hnone : ps.filter (fun p => p.name = name) = [] := by
    refine List.filter_eq_nil_iff.2 fun p hp hname => h ?_
    exact List.mem_map.2 ⟨p, hp, of_decide_eq_true hname⟩
  rw [Ebnf.Grammar.rulesOf, hnone]
  rfl

/-- One more production is one more definition. -/
theorem entries_lowered_concat (ps : List Ebnf.Production) (p : Ebnf.Production)
    (start : String) :
    (Ebnf.Grammar.lowered ⟨ps ++ [p]⟩ start).entries =
      extend p.name p.rules (Ebnf.Grammar.lowered ⟨ps⟩ start).entries := by
  have hnames := Ebnf.Grammar.nodup_names ⟨ps⟩
  simp only [Ebnf.Grammar.lowered, Ebnf.Grammar.names, rulesOf_concat, List.map_append,
    List.map_cons, List.map_nil, eraseDups_concat] at hnames ⊢
  by_cases h : p.name ∈ ps.map Ebnf.Production.name
  · rw [if_pos h, extend_of_mem hnames (List.mem_eraseDups.2 h)]
  · have hnew : p.name ∉ (ps.map Ebnf.Production.name).eraseDups := mt List.mem_eraseDups.1 h
    have hold : ∀ n ∈ (ps.map Ebnf.Production.name).eraseDups, n ≠ p.name :=
      fun n hn heq => hnew (heq ▸ hn)
    rw [if_neg h, extend_of_not_mem (by simpa [Function.comp_def] using hnew), List.map_append]
    congr 1
    · exact List.map_congr_left fun n hn => by rw [if_neg (hold n hn)]
    · simp [rulesOf_of_not_mem h]

theorem ext_entries {g g' : Grammar} (hstart : g.start = g'.start)
    (hentries : g.entries = g'.entries) : g = g' := by
  cases g
  cases g'
  cases hstart
  cases hentries
  rfl

/-- One more production is one more definition. -/
theorem lowered_concat (ps : List Ebnf.Production) (p : Ebnf.Production) (start : String) :
    Ebnf.Grammar.lowered ⟨ps ++ [p]⟩ start =
      (Ebnf.Grammar.lowered ⟨ps⟩ start).define p.name p.rules :=
  ext_entries rfl (entries_lowered_concat ps p start)

/-! ### All productions -/

theorem defineAll_cons_eq (g : Grammar) (p : Ebnf.Production) (ps : List Ebnf.Production) :
    defineAll g (p :: ps) = rulesOfAlternatives p.name p.body.alternatives >>= fun rules =>
      defineAll (g.define p.name rules) ps := by
  rw [defineAll]
  cases rulesOfAlternatives p.name p.body.alternatives <;> rfl

/-- The invariant is that the registry is the grammar of the productions so far. -/
theorem gives_defineAll (done ps : List Ebnf.Production) (start : String) :
    Gives (∀ p ∈ ps, ∀ e ∈ p.body.alternatives, e.AlternationFree)
      (Ebnf.Grammar.lowered ⟨done ++ ps⟩ start)
      (defineAll (Ebnf.Grammar.lowered ⟨done⟩ start) ps) := by
  induction ps generalizing done with
  | nil =>
      rw [List.append_nil]
      exact Gives.ok.of_iff (by simp)
  | cons p ps ih =>
      have hrest := ih (done ++ [p])
      rw [lowered_concat, List.append_assoc] at hrest
      rw [defineAll_cons_eq]
      exact ((gives_rulesOfAlternatives p.name p.body.alternatives).bind hrest).of_iff
        (by rw [List.forall_mem_cons])

theorem ofEbnf_eq (source : Ebnf.Grammar) (start : String) :
    ofEbnf source start =
      defineAll (empty start) source.productions >>= fun g => (fun _ => g) <$> g.check := by
  rw [ofEbnf]
  cases defineAll (empty start) source.productions with
  | error e => rfl
  | ok g =>
      change _ = (fun _ => g) <$> g.check
      dsimp only
      cases g.check <;> rfl

theorem gives_ofEbnf (source : Ebnf.Grammar) (start : String) :
    Gives (source.ChoiceOnTop ∧ (source.lowered start).check = .ok ()) (source.lowered start)
      (ofEbnf source start) := by
  have hcheck : Gives ((source.lowered start).check = .ok ()) () (source.lowered start).check := by
    simp [Gives]
  rw [ofEbnf_eq]
  exact (gives_defineAll [] source.productions start).bind (hcheck.map _)

/-- Productions can be lowered if and only if every alternation is the whole body of a production
and the grammar that they describe passes its check. The non-terminals are then the names of the
productions in the order of first occurrence, and the rules of a non-terminal are the flat
sequences of the alternatives of its productions, in order. -/
theorem ofEbnf_describes_productions (source : Ebnf.Grammar) (start : String) :
    ((∃ g, ofEbnf source start = .ok g) ↔
      source.ChoiceOnTop ∧ (source.lowered start).check = .ok ()) ∧
    ∀ g, ofEbnf source start = .ok g →
      g.start = start ∧
      g.nonTerminals = (source.productions.map fun p => p.name).eraseDups ∧
      ∀ name, g.rules? name =
        if name ∈ source.productions.map fun p => p.name then
          some ((source.productions.filter fun p => p.name = name).flatMap fun p =>
            p.body.alternatives.map fun e => .sequence e.flatten)
        else none := by
  have hgives := gives_ofEbnf source start
  constructor
  · constructor
    · rintro ⟨g, hg⟩
      exact ((hgives g).1 hg).1
    · intro h
      exact ⟨_, (hgives _).2 ⟨h, rfl⟩⟩
  · intro g hg
    obtain ⟨-, rfl⟩ := (hgives g).1 hg
    refine ⟨rfl, source.nonTerminals_lowered start, fun name => ?_⟩
    rw [source.rules?_lowered]
    simp only [Ebnf.Grammar.names, List.mem_eraseDups]
    rfl

/-- Concatenations three deep and an empty one, and a name with three productions, the first of
which has no alternative. -/
def layeredSource : Ebnf.Grammar where
  productions :=
    [⟨"item", .alternation []⟩,
     ⟨"list", .concatenation
        [.concatenation [.terminal "Open", .concatenation [.reference "item"]],
         .repetition (.concatenation [.concatenation [], .concatenation [.terminal "Comma"]])]⟩,
     ⟨"item", .alternation [.reference "list", .repetition (.terminal "Word")]⟩,
     ⟨"item", .concatenation [.terminal "Word"]⟩]

theorem layeredSource_lowered :
    (layeredSource.ChoiceOnTop ∧ (layeredSource.lowered "list").check = .ok ()) ∧
    ∃ g, ofEbnf layeredSource "list" = .ok g ∧ g.start = "list" ∧
      g.nonTerminals = ["item", "list"] ∧
      g.rules? "item" = some [.sequence [.nonTerminal "list"],
        .sequence [.repetition [.terminal "Word"]], .sequence [.terminal "Word"]] ∧
      g.rules? "list" = some [.sequence
        [.terminal "Open", .nonTerminal "item", .repetition [.terminal "Comma"]]] := by
  have hlowered : ofEbnf layeredSource "list" = .ok (layeredSource.lowered "list") := rfl
  obtain ⟨hiff, hall⟩ := ofEbnf_describes_productions layeredSource "list"
  obtain ⟨hstart, hnames, hrules⟩ := hall _ hlowered
  refine ⟨hiff.1 ⟨_, hlowered⟩, _, hlowered, hstart, hnames.trans (by decide), ?_, ?_⟩
  · exact (hrules "item").trans (by decide)
  · exact (hrules "list").trans (by decide)

end Grammar

end GrammarCompiler
