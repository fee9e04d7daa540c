import Mathlib.Data.Finset.Card
import Mathlib.Logic.Relation
import GrammarCompiler.Proofs.ContextFree
import GrammarCompiler.Proofs.DepthBound

/-!
Parsing without left recursion. The descent ends if some rank falls along left
calls, and a grammar without left recursion has one: the number of
non-terminals that can be reached by left calls. A left call of a defined
non-terminal reaches that non-terminal, and the non-terminal does not reach
itself, so the number falls; and no non-terminal reaches all of them, so that
the number is below that of the entries.
-/

namespace GrammarCompiler

namespace Grammar

variable {g : Grammar}

theorem isNonTerminal_of_leftCalls {caller callee : String} (h : LeftCalls g caller callee) :
    g.isNonTerminal caller = true := by
  obtain ⟨rule, ⟨rules, hrules, -⟩, -⟩ := h
  simp [isNonTerminal, hrules]

/-! ### The non-terminals within reach -/

open Classical in
/-- The non-terminals that can be entered where `name` stands. -/
noncomputable def reached (g : Grammar) (name : String) : Finset String :=
  g.nonTerminals.toFinset.filter fun other => Relation.TransGen (LeftCalls g) name other

theorem mem_reached {name other : String} :
    other ∈ g.reached name ↔
      other ∈ g.nonTerminals ∧ Relation.TransGen (LeftCalls g) name other := by
  simp [reached]

theorem reached_ssubset {caller callee : String} (hcallee : ¬ g.LeftRecursive callee)
    (hcall : LeftCalls g caller callee) (hdefined : g.isNonTerminal callee = true) :
    g.reached callee ⊂ g.reached caller := by
  refine Finset.ssubset_iff_subset_ne.2 ⟨?_, ?_⟩
  · intro other hother
    obtain ⟨hmem, hreach⟩ := mem_reached.1 hother
    exact mem_reached.2 ⟨hmem, .head hcall hreach⟩
  · intro heq
    have hself : callee ∈ g.reached caller :=
      mem_reached.2 ⟨mem_nonTerminals hdefined, .single hcall⟩
    rw [← heq] at hself
    exact hcallee (mem_reached.1 hself).2

theorem card_reached_lt {name : String} (hname : ¬ g.LeftRecursive name)
    (hdefined : g.isNonTerminal name = true) : (g.reached name).card < g.entries.length := by
  have hss : g.reached name ⊂ g.nonTerminals.toFinset := by
    refine Finset.ssubset_iff_subset_ne.2
      ⟨fun other hother => List.mem_toFinset.2 (mem_reached.1 hother).1, ?_⟩
    intro heq
    have hself : name ∈ g.nonTerminals.toFinset := List.mem_toFinset.2 (mem_nonTerminals hdefined)
    rw [← heq] at hself
    exact hname (mem_reached.1 hself).2
  calc (g.reached name).card < g.nonTerminals.toFinset.card := Finset.card_lt_card hss
    _ ≤ g.nonTerminals.length := List.toFinset_card_le _
    _ = g.entries.length := List.length_map _

theorem ranks_of_not_leftRecursive (h : ∀ name, ¬ g.LeftRecursive name) :
    g.Ranks (fun name => (g.reached name).card) g.entries.length where
  falls _ callee hcall hdefined := Finset.card_lt_card (reached_ssubset (h callee) hcall hdefined)
  lt_bound name hdefined := card_reached_lt (h name) hdefined

/-! ### Ranks exclude left recursion -/

theorem Ranks.lt_of_transGen {rank : String → Nat} {bound : Nat} (hrank : g.Ranks rank bound)
    {caller callee : String} (h : Relation.TransGen (LeftCalls g) caller callee)
    (hdefined : g.isNonTerminal callee = true) : rank callee < rank caller := by
  induction h with
  | single hcall => exact hrank.falls _ _ hcall hdefined
  | tail _ hcall ih =>
      -- Whoever calls has a rule, so that the rank falls along the calls before as well.
      have hbefore := ih (isNonTerminal_of_leftCalls hcall)
      exact Nat.lt_trans (hrank.falls _ _ hcall hdefined) hbefore

theorem Ranks.not_leftRecursive {rank : String → Nat} {bound : Nat} (hrank : g.Ranks rank bound)
    (name : String) : ¬ g.LeftRecursive name := by
  intro hrec
  obtain ⟨_, hcall, -⟩ := Relation.TransGen.head'_iff.1 hrec
  exact Nat.lt_irrefl _ (hrank.lt_of_transGen hrec (isNonTerminal_of_leftCalls hcall))

end Grammar

open Grammar

/-- Without left recursion every parse comes to an end, and the grammar of Naja has no left
recursion, so that the parse of whatever the lexer makes of a source comes to an end. The bound on
the descent has no part in this: with any other bound the parse has the same outcome, or is cut
because the bound is less. -/
theorem parse_returns_of_not_leftRecursive :
    (∀ (g : Grammar) (s : Stream), (∀ name, ¬ g.LeftRecursive name) →
      Lexeme.endKind ∉ s.skipped →
      (g.parse s).Returns ∧
        ∀ levels, g.depthBound s ≤ levels → g.parseAt levels s = g.parse s) ∧
    (∀ (g : Grammar) (s : Stream) (levels : Nat), (g.parseAt levels s).Returns →
      g.parseAt levels s = g.parse s) ∧
    (∀ name, ¬ Naja.grammar.LeftRecursive name) ∧
    ∀ source s, Naja.tokenize (Text.trim source) = .ok s → (Naja.grammar.parse s).Returns := by
  have hreturns : ∀ (g : Grammar) (s : Stream), (∀ name, ¬ g.LeftRecursive name) →
      Lexeme.endKind ∉ s.skipped → (g.parse s).Returns := fun g s hleft hkept =>
    parse_returns (ranks_of_not_leftRecursive hleft) (Stream.isInsignificant_endOfStream hkept)
  have hnaja := Naja.ranks_grammar.not_leftRecursive
  refine ⟨fun g s hleft hkept => ⟨hreturns g s hleft hkept, fun levels hle => ?_⟩,
    fun _ _ _ => parseAt_eq_parse_of_returns, hnaja, ?_⟩
  · exact (parseAt_eq_of_le hle (hreturns g s hleft hkept)).symm
  · intro source s htokens
    exact hreturns _ _ hnaja (Naja.tidy_of_tokenize htokens).sentinel_kept

/-- Words with gaps around them. Gaps are rounds of rounds that may match nothing, the end of the
stream is asked for over and over, and `text` comes back to itself behind a word. -/
def gappedText : Grammar :=
  (((empty "text").define "text"
      [.sequence
        [.nonTerminal "gaps", .repetition [.terminal Lexeme.endKind], .nonTerminal "rest"]]).define
    "gaps" [.repetition [.repetition [.terminal "Blank"]]]).define
    "rest" [.sequence [.terminal "Word", .nonTerminal "text"],
      .sequence [.repetition [.nonTerminal "gaps", .repetition [.terminal Lexeme.endKind]]]]

/-- Two words with a lexeme of the sentinel's category between them, from the first word on. -/
def gappedWords : Stream where
  lexemes :=
    [⟨"Blank", " ", 1, 1⟩, ⟨"Word", "a", 1, 2⟩, ⟨"None", "", 1, 3⟩, ⟨"Word", "b", 1, 4⟩,
     ⟨"Blank", " ", 1, 5⟩]
  cursor := 1

theorem gappedText_not_leftRecursive (name : String) : ¬ gappedText.LeftRecursive name := by
  have hranks : gappedText.Ranks (fun n => if n = "text" then 2 else if n = "rest" then 1 else 0)
      3 := by
    refine ranks_of_entries (by decide) fun name => ?_
    split
    · omega
    · split <;> omega
  exact hranks.not_leftRecursive name

theorem gappedText_parse_returns :
    (gappedText.parse gappedWords).Returns ∧
      gappedText.parseAt 1000 gappedWords = gappedText.parse gappedWords ∧
      gappedText.parseAt 6 gappedWords = gappedText.parse gappedWords ∧
      (Naja.grammar.parse
        ((Stream.ofLexemes Naja.differenceLexemes).skipping ["Space"])).Returns := by
  obtain ⟨hfree, hbounds, -, hsources⟩ := parse_returns_of_not_leftRecursive
  obtain ⟨hreturns, hlevels⟩ :=
    hfree gappedText gappedWords gappedText_not_leftRecursive (by decide)
  exact ⟨hreturns, hlevels 1000 (by decide), hbounds gappedText gappedWords 6 (by decide +kernel),
    hsources Naja.differenceSource _ (Naja.eq_ok_of_toOption (by decide +kernel))⟩

end GrammarCompiler
