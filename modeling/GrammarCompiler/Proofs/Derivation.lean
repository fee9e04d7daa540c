import GrammarCompiler.Parse.OrderedChoice
import GrammarCompiler.Grammar.Derivation

/-!
Ordered choice and derivations, for every grammar. What ordered choice
consumes it derives: it commits itself to alternatives and rounds, but to some
that the grammar has. The converse is false in general, and where it holds it
is a property of the grammar at hand.

A derivation looks at nothing but the categories of its lexemes, so that other
lexemes of the same categories have a derivation too. Its tree shows the texts
besides, and not where the lexemes stand.
-/

namespace GrammarCompiler

namespace Derivation

theorem lexemes_eq_nil_of_trees {d : Derivation} (h : d.trees = []) : d.lexemes = [] := by
  match d with
  | .terminal l => simp [trees] at h
  | .nonTerminal name rule rounds => simp [trees] at h
  | .repetition body [] => simp [lexemes, roundsLexemes]
  | .repetition body (round :: rounds) => simp [trees] at h

theorem partsLexemes_eq_nil_of_partsTrees {ds : List Derivation} (h : partsTrees ds = []) :
    partsLexemes ds = [] := by
  induction ds with
  | nil => rfl
  | cons d ds ih =>
      obtain ⟨hd, hds⟩ : d.trees = [] ∧ partsTrees ds = [] := by simpa [partsTrees] using h
      simp [partsLexemes, lexemes_eq_nil_of_trees hd, ih hds]

theorem trees_repetition (body : List Symbol) (rounds : List (List Derivation)) :
    (repetition body rounds).trees =
      if rounds = [] then []
      else [.node repetitionKind (Symbol.renderRepetition body) (roundsTrees rounds)] := by
  cases rounds <;> rfl

/-- The node of a repetition is left out exactly if there are no rounds, as long as every round
has a node. -/
theorem fragment_roundsTrees {body : List Symbol} {rounds : List (List Derivation)}
    (h : roundsTrees rounds = [] → rounds = []) :
    Descent.fragment repetitionKind (Symbol.renderRepetition body) (roundsTrees rounds) =
      (repetition body rounds).trees := by
  cases rounds with
  | nil => rfl
  | cons round rounds =>
      have hne : roundsTrees (round :: rounds) ≠ [] := fun he => by cases h he
      rw [Descent.fragment, if_neg (fun hf => hne hf.2)]
      rfl

end Derivation

namespace Grammar

open GrammarCompiler.Derivation

variable {g : Grammar}

/-! ### From ordered choice to derivations -/

/-- What holds of a verdict that is a success. -/
def Verdict.Gives (P : List Tree → List Lexeme → Prop) : Verdict → Prop
  | none => True
  | some (ts, rest) => P ts rest

theorem Verdict.Gives.imp {P Q : List Tree → List Lexeme → Prop} {v : Verdict} (h : v.Gives P)
    (himp : ∀ ts rest, P ts rest → Q ts rest) : v.Gives Q := by
  match v with
  | none => trivial
  | some (ts, rest) => exact himp ts rest h

mutual
theorem SymbolRuns.derives {x : Symbol} {ls : List Lexeme} {v : Verdict}
    (h : SymbolRuns g x ls v) : v.Gives fun ts rest =>
      ∃ d, DerivesSymbol g x d ∧ d.trees = ts ∧ d.lexemes ++ rest = ls := by
  match h with
  | .hit hk =>
      exact ⟨_, .terminal hk, rfl, rfl⟩
  | .chosen hrules hc =>
      obtain ⟨rule, hmem, rounds, hd, hts, hls⟩ := ChoiceRuns.derives hc
      exact ⟨_, .nonTerminal ⟨_, hrules, hmem⟩ hd, by rw [trees, hts], hls⟩
  | .rounds hr =>
      obtain ⟨rounds, hd, hts, hls, hnil⟩ := RoundsRun.derives hr
      exact ⟨_, .repetition hd, by rw [← hts, fragment_roundsTrees hnil], hls⟩
  | .miss _ | .atEnd | .undefined _ | .refused _ _ => trivial
termination_by structural h

theorem SequenceRuns.derives {xs : List Symbol} {ls : List Lexeme} {v : Verdict}
    (h : SequenceRuns g xs ls v) : v.Gives fun ts rest =>
      ∃ ds, DerivesSequence g xs ds ∧ partsTrees ds = ts ∧ partsLexemes ds ++ rest = ls := by
  match h with
  | .nil =>
      exact ⟨[], .nil, rfl, rfl⟩
  | .cons hx hxs =>
      obtain ⟨d, hd, hts, hls⟩ := SymbolRuns.derives hx
      obtain ⟨ds, hds, hus, hms⟩ := SequenceRuns.derives hxs
      refine ⟨d :: ds, .cons hd hds, ?_, ?_⟩
      · rw [partsTrees, hts, hus]
      · rw [partsLexemes, List.append_assoc, hms, hls]
  | .fails _ | .failsLater _ _ => trivial
termination_by structural h

theorem RoundsRun.derives {body : List Symbol} {ls rest : List Lexeme} {ts : List Tree}
    (h : RoundsRun g body ls ts rest) :
    ∃ rounds, DerivesRounds g body rounds ∧ roundsTrees rounds = ts ∧
      roundsLexemes rounds ++ rest = ls ∧ (roundsTrees rounds = [] → rounds = []) := by
  match h with
  | .fails _ => exact ⟨[], .none, rfl, rfl, fun _ => rfl⟩
  | .standsStill _ => exact ⟨[], .none, rfl, rfl, fun _ => rfl⟩
  | .round hb hne hr =>
      obtain ⟨ds, hds, hts, hls⟩ := SequenceRuns.derives hb
      obtain ⟨rounds, hrounds, hus, hms, -⟩ := RoundsRun.derives hr
      refine ⟨ds :: rounds, .round hds hrounds, ?_, ?_, ?_⟩
      · rw [roundsTrees, hts, hus]
      · rw [roundsLexemes, List.append_assoc, hms, hls]
      · intro he
        -- The round passed a lexeme, so it has a leaf.
        have hnil : partsTrees ds = [] := by
          rw [roundsTrees, List.append_eq_nil_iff] at he
          exact he.1
        rw [partsLexemes_eq_nil_of_partsTrees hnil] at hls
        exact absurd hls hne
termination_by structural h

theorem RuleRuns.derives {rule : Rule} {ls : List Lexeme} {v : Verdict}
    (h : RuleRuns g rule ls v) : v.Gives fun ts rest =>
      ∃ rounds, DerivesRule g rule rounds ∧ roundsTrees rounds = ts ∧
        roundsLexemes rounds ++ rest = ls := by
  match h with
  | .sequence hs =>
      refine (SequenceRuns.derives hs).imp fun ts rest => ?_
      rintro ⟨ds, hds, hts, hls⟩
      refine ⟨[ds], .sequence hds, ?_, ?_⟩
      · rw [roundsTrees, roundsTrees, List.append_nil, hts]
      · rw [roundsLexemes, roundsLexemes, List.append_nil, hls]
  | .repetition hr =>
      obtain ⟨rounds, hd, hts, hls, -⟩ := RoundsRun.derives hr
      exact ⟨rounds, .repetition hd, hts, hls⟩
termination_by structural h

theorem ChoiceRuns.derives {rules : List Rule} {ls : List Lexeme} {v : Verdict}
    (h : ChoiceRuns g rules ls v) : v.Gives fun ts rest =>
      ∃ rule ∈ rules, ∃ rounds, DerivesRule g rule rounds ∧ roundsTrees rounds = ts ∧
        roundsLexemes rounds ++ rest = ls := by
  match h with
  | .first hr =>
      obtain ⟨rounds, hd, hts, hls⟩ := RuleRuns.derives hr
      exact ⟨_, List.mem_cons_self .., rounds, hd, hts, hls⟩
  | .later _ hc =>
      refine (ChoiceRuns.derives hc).imp fun ts rest => ?_
      rintro ⟨rule, hmem, hd⟩
      exact ⟨rule, List.mem_cons_of_mem _ hmem, hd⟩
  | .nil => trivial
termination_by structural h
end

/-- What ordered choice accepts has a derivation with the same tree. -/
theorem Accepts.exists_derivation {ls : List Lexeme} {tree : Tree} (h : g.Accepts ls tree) :
    ∃ d, g.Derives d ∧ d.lexemes = ls ∧ d.trees = [tree] := by
  obtain ⟨rule, ts, hrule, hrun, rfl⟩ := h
  obtain ⟨rounds, hd, hts, hls⟩ := RuleRuns.derives hrun
  refine ⟨.nonTerminal g.start rule rounds, ?_, ?_, ?_⟩
  · exact .nonTerminal ⟨[rule], hrule, List.mem_singleton.2 rfl⟩ hd
  · rw [lexemes, ← hls, List.append_nil]
  · rw [trees, hts]

/-! ### Other lexemes of the same categories

The grammar only looks at categories, and a tree only keeps categories and
texts. -/

/-- Texts can be compared piece by piece where the categories have been. -/
theorem map_text_of_append {ls ls' ms ms' : List Lexeme}
    (hkinds : ls.map Lexeme.kind = ls'.map Lexeme.kind)
    (h : (ls ++ ms).map Lexeme.text = (ls' ++ ms').map Lexeme.text) :
    ls.map Lexeme.text = ls'.map Lexeme.text ∧ ms.map Lexeme.text = ms'.map Lexeme.text := by
  rw [List.map_append, List.map_append] at h
  exact List.append_inj h (by simpa using congrArg List.length hkinds)

mutual
theorem DerivesSymbol.respell {x : Symbol} {d : Derivation} (h : DerivesSymbol g x d)
    (ls : List Lexeme) (hls : ls.map Lexeme.kind = d.lexemes.map Lexeme.kind) :
    ∃ d', DerivesSymbol g x d' ∧ d'.lexemes = ls ∧
      (ls.map Lexeme.text = d.lexemes.map Lexeme.text → d'.trees = d.trees) := by
  match h with
  | .terminal hk =>
      obtain ⟨l, rfl, hl⟩ : ∃ l, ls = [l] ∧ l.kind = _ := by
        simpa [List.map_eq_singleton_iff] using hls
      refine ⟨.terminal l, .terminal (hl.trans hk), rfl, fun htext => ?_⟩
      have hsame : l.text = _ := List.head_eq_of_cons_eq htext
      rw [trees, trees, Tree.ofLexeme, Tree.ofLexeme, hl, hsame]
  | .nonTerminal hrule hd =>
      obtain ⟨rounds, hrounds, rfl, htrees⟩ := DerivesRule.respell hd ls hls
      refine ⟨_, .nonTerminal hrule hrounds, rfl, fun htext => ?_⟩
      rw [trees, trees, htrees htext]
  | .repetition hd =>
      obtain ⟨rounds, hrounds, rfl, hnone, htrees⟩ := DerivesRounds.respell hd ls hls
      refine ⟨_, .repetition hrounds, rfl, fun htext => ?_⟩
      simp only [trees_repetition, hnone, htrees htext]
termination_by structural h

theorem DerivesSequence.respell {xs : List Symbol} {ds : List Derivation}
    (h : DerivesSequence g xs ds) (ls : List Lexeme)
    (hls : ls.map Lexeme.kind = (partsLexemes ds).map Lexeme.kind) :
    ∃ ds', DerivesSequence g xs ds' ∧ partsLexemes ds' = ls ∧
      (ls.map Lexeme.text = (partsLexemes ds).map Lexeme.text →
        partsTrees ds' = partsTrees ds) := by
  match h with
  | .nil => exact ⟨[], .nil, by simpa using hls.symm, fun _ => rfl⟩
  | .cons hx hxs =>
      rw [partsLexemes, List.map_append] at hls
      obtain ⟨first, more, rfl, hfirst, hmore⟩ := List.map_eq_append_iff.1 hls
      obtain ⟨d, hd, rfl, htree⟩ := DerivesSymbol.respell hx first hfirst
      obtain ⟨ds, hds, rfl, htrees⟩ := DerivesSequence.respell hxs more hmore
      refine ⟨d :: ds, .cons hd hds, rfl, fun htext => ?_⟩
      obtain ⟨htext, htexts⟩ := map_text_of_append hfirst htext
      rw [partsTrees, partsTrees, htree htext, htrees htexts]
termination_by structural h

theorem DerivesRounds.respell {body : List Symbol} {rounds : List (List Derivation)}
    (h : DerivesRounds g body rounds) (ls : List Lexeme)
    (hls : ls.map Lexeme.kind = (roundsLexemes rounds).map Lexeme.kind) :
    ∃ rounds', DerivesRounds g body rounds' ∧ roundsLexemes rounds' = ls ∧
      (rounds' = [] ↔ rounds = []) ∧
      (ls.map Lexeme.text = (roundsLexemes rounds).map Lexeme.text →
        roundsTrees rounds' = roundsTrees rounds) := by
  match h with
  | .none => exact ⟨[], .none, by simpa using hls.symm, Iff.rfl, fun _ => rfl⟩
  | .round hb hr =>
      rw [roundsLexemes, List.map_append] at hls
      obtain ⟨first, more, rfl, hfirst, hmore⟩ := List.map_eq_append_iff.1 hls
      obtain ⟨ds, hds, rfl, htree⟩ := DerivesSequence.respell hb first hfirst
      obtain ⟨rounds, hrounds, rfl, -, htrees⟩ := DerivesRounds.respell hr more hmore
      refine ⟨ds :: rounds, .round hds hrounds, rfl, by simp, fun htext => ?_⟩
      obtain ⟨htext, htexts⟩ := map_text_of_append hfirst htext
      rw [roundsTrees, roundsTrees, htree htext, htrees htexts]
termination_by structural h

theorem DerivesRule.respell {rule : Rule} {rounds : List (List Derivation)}
    (h : DerivesRule g rule rounds) (ls : List Lexeme)
    (hls : ls.map Lexeme.kind = (roundsLexemes rounds).map Lexeme.kind) :
    ∃ rounds', DerivesRule g rule rounds' ∧ roundsLexemes rounds' = ls ∧
      (ls.map Lexeme.text = (roundsLexemes rounds).map Lexeme.text →
        roundsTrees rounds' = roundsTrees rounds) := by
  match h with
  | .sequence hs =>
      obtain ⟨ds, hds, rfl, htrees⟩ := DerivesSequence.respell hs ls (by simpa using hls)
      refine ⟨[ds], .sequence hds, by simp, fun htext => ?_⟩
      simpa using htrees (by simpa using htext)
  | .repetition hr =>
      obtain ⟨rounds, hrounds, rfl, -, htrees⟩ := DerivesRounds.respell hr ls hls
      exact ⟨rounds, .repetition hrounds, rfl, htrees⟩
termination_by structural h
end

/-- There is a derivation of the same shape over any lexemes of the same categories. -/
theorem DerivesSymbol.relabel {x : Symbol} {d : Derivation} (h : DerivesSymbol g x d)
    (ls : List Lexeme) (hls : ls.map Lexeme.kind = d.lexemes.map Lexeme.kind) :
    ∃ d', DerivesSymbol g x d' ∧ d'.lexemes = ls := by
  obtain ⟨d', hd', hlexemes, -⟩ := h.respell ls hls
  exact ⟨d', hd', hlexemes⟩

end Grammar

end GrammarCompiler
