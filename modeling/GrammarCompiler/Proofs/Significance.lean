import GrammarCompiler.Proofs.OrderedChoice
import GrammarCompiler.Proofs.Simulation

/-!
What a parse depends on. Streams with the same significant lexemes ahead are
alike to every reader of significant lexemes, although their cursors count
different things and move by different steps. A grammar that never asks for
the sentinel keeps them alike: each terminal that matches takes one lexeme
from both. So the two parses follow each other, and neither what is
insignificant nor what lies behind the cursor has any part in the answer.

The sentinel has to be excluded twice. A terminal that asks for it matches at
the end of a stream and moves the cursor past the insignificant lexemes there,
which one stream may have and the other may not; and a stream that passes over
the sentinel is searched without end.
-/

namespace GrammarCompiler

/-- The streams show the same significant lexemes, and the search for one comes to an end. -/
structure Stream.Alike (s₁ s₂ : Stream) : Prop where
  significant : s₁.significant = s₂.significant
  kept₁ : s₁.isInsignificant .endOfStream = false
  kept₂ : s₂.isInsignificant .endOfStream = false

namespace Stream

variable {s₁ s₂ : Stream}

theorem Alike.symm (h : s₁.Alike s₂) : s₂.Alike s₁ := ⟨h.significant.symm, h.kept₂, h.kept₁⟩

theorem Alike.rewind (h : s₁.Alike s₂) {m n : Nat}
    (hahead : (s₁.rewind m).significant = (s₂.rewind n).significant) :
    (s₁.rewind m).Alike (s₂.rewind n) :=
  ⟨hahead, h.kept₁, h.kept₂⟩

theorem Alike.peekSignificant (h : s₁.Alike s₂) : s₁.peekSignificant = s₂.peekSignificant := by
  rw [peekSignificant_eq, peekSignificant_eq, h.significant]

/-- A search that comes to an end finds something significant, or the sentinel. -/
theorem not_isInsignificant_next {s : Stream} (h : s.isInsignificant .endOfStream = false) :
    ¬ s.isInsignificant s.nextSignificant.1 = true := by
  intro hfound
  rw [isInsignificant_endOfStream_of_next hfound] at h
  cases h

end Stream

namespace Descent

/-- A terminal other than the sentinel takes the same lexeme from both streams, or is refused the
same lexeme by both. -/
theorem matchTerminal_alike {s₁ s₂ : Stream} (h : s₁.Alike s₂) {kind : String}
    (hk : kind ≠ Lexeme.endKind) (rule : String) :
    (matchTerminal rule kind s₁).Follows Stream.Alike s₁ s₂ (matchTerminal rule kind s₂) := by
  rw [matchTerminal_eq, matchTerminal_eq, if_neg (Stream.not_isInsignificant_next h.kept₁),
    if_neg (Stream.not_isInsignificant_next h.kept₂)]
  cases hs₁ : s₁.significant with
  | nil =>
      have hs₂ : s₂.significant = [] := h.significant.symm.trans hs₁
      have hend : Lexeme.endOfStream.kind ≠ kind := hk.symm
      rw [Stream.nextSignificant_of_nil hs₁, Stream.nextSignificant_of_nil hs₂, if_neg hend,
        if_neg hend]
      refine .failure (h.rewind ?_)
      rw [Stream.significant_behind_ahead, Stream.significant_behind_ahead]
  | cons l rest =>
      have hs₂ : s₂.significant = l :: rest := h.significant.symm.trans hs₁
      obtain ⟨n₁, -, hread₁, hrest₁⟩ := Stream.nextSignificant_of_cons hs₁
      obtain ⟨n₂, -, hread₂, hrest₂⟩ := Stream.nextSignificant_of_cons hs₂
      have halike := h.rewind (hrest₁.trans hrest₂.symm)
      rw [hread₁, hread₂]
      dsimp only
      split
      · refine .success halike (iff_of_false ?_ ?_)
        · simp only [Stream.cursor_rewind]
          omega
        · simp only [Stream.cursor_rewind]
          omega
      · exact .failure halike

end Descent

namespace Grammar

variable {g : Grammar} {s₁ s₂ : Stream}

theorem SentinelFree.kind_ne (h : g.SentinelFree) {kind : String}
    (hkind : g.Mentions (.terminal kind)) : kind ≠ Lexeme.endKind := by
  rintro rfl
  obtain ⟨name, rule, hrule, ho⟩ := hkind
  exact h name rule hrule ho

theorem simulation_alike (hterm : g.SentinelFree) : Descent.Simulation g Stream.Alike where
  peek h := h.peekSignificant
  read h hkind rule := Descent.matchTerminal_alike h (hterm.kind_ne hkind) rule

/-- Each of two alike streams follows the other, so that neither parse is lost alone. -/
theorem parseAt_result?_eq_of_alike (hterm : g.SentinelFree) (h : s₁.Alike s₂) (levels : Nat) :
    (g.parseAt levels s₁).result? = (g.parseAt levels s₂).result? := by
  have hsim := simulation_alike hterm
  have hres := descend_follows hsim (Nat.le_refl levels)
  have hforth := parseAt_follows hsim hres h
  have hback := parseAt_follows hsim hres h.symm
  by_cases hret₁ : (g.parseAt levels s₁).Returns
  · exact hforth.result?_eq hret₁
  · by_cases hret₂ : (g.parseAt levels s₂).Returns
    · exact (hback.result?_eq hret₂).symm
    · rw [Decidable.not_not.1 hret₁, Decidable.not_not.1 hret₂]

/-- The bound that `parse` chooses counts the significant lexemes only. -/
theorem depthBound_eq_of_alike (h : s₁.Alike s₂) : g.depthBound s₁ = g.depthBound s₂ := by
  rw [depthBound, depthBound, h.significant]

theorem parse_result?_eq_of_alike (hterm : g.SentinelFree) (h : s₁.Alike s₂) :
    (g.parse s₁).result? = (g.parse s₂).result? := by
  rw [parse, parse, depthBound_eq_of_alike h]
  exact parseAt_result?_eq_of_alike hterm h _

end Grammar

theorem Outcome.returns_iff_result? {α : Type} {o : Outcome α} :
    o.Returns ↔ o.result? ≠ none := by
  cases o <;> simp [Outcome.Returns, Outcome.result?]

namespace Stream

theorem ahead_append (skipped : List String) (behind ahead : List Lexeme) :
    (Stream.mk (behind ++ ahead) skipped behind.length).ahead = ahead := by
  simp [Stream.ahead]

/-- Insignificant lexemes do not show, nor does what lies behind the cursor. -/
theorem significant_insert {skipped : List String} {gap : List Lexeme}
    (hgap : ∀ l ∈ gap, l.kind ∈ skipped) (behind behind' front back : List Lexeme) :
    (Stream.mk (behind ++ (front ++ gap ++ back)) skipped behind.length).significant =
      (Stream.mk (behind' ++ (front ++ back)) skipped behind'.length).significant := by
  have hnone : (gap.filter fun l => !skipped.contains l.kind) = [] := by
    rw [List.filter_eq_nil_iff]
    intro l hl
    simp [hgap l hl]
  rw [significant, significant, ahead_append, ahead_append]
  simp only [isInsignificant, List.filter_append, hnone, List.append_nil]

end Stream

namespace Grammar

/-- Two streams with the same significant lexemes ahead are parsed alike, at every bound on the
descent: both parses return or neither does, and they give the same tree or the same diagnostics.
So it does not matter what insignificant lexemes stand between those ahead, nor what lies behind
the cursor. -/
theorem parse_depends_on_significant_lexemes (g : Grammar) (hterm : g.SentinelFree) :
    (∀ s₁ s₂ : Stream, Lexeme.endKind ∉ s₁.skipped → Lexeme.endKind ∉ s₂.skipped →
      s₁.significant = s₂.significant →
      ((g.parse s₁).Returns ↔ (g.parse s₂).Returns) ∧
      (g.parse s₁).result? = (g.parse s₂).result? ∧
      ∀ levels, (g.parseAt levels s₁).result? = (g.parseAt levels s₂).result?) ∧
    ∀ (skipped : List String) (behind behind' front gap back : List Lexeme),
      Lexeme.endKind ∉ skipped → (∀ l ∈ gap, l.kind ∈ skipped) →
      (g.parse ⟨behind ++ (front ++ gap ++ back), skipped, behind.length⟩).result? =
        (g.parse ⟨behind' ++ (front ++ back), skipped, behind'.length⟩).result? := by
  constructor
  · intro s₁ s₂ hkept₁ hkept₂ hs
    have halike : s₁.Alike s₂ := ⟨hs, Stream.isInsignificant_endOfStream hkept₁,
      Stream.isInsignificant_endOfStream hkept₂⟩
    have hresult := parse_result?_eq_of_alike hterm halike
    refine ⟨?_, hresult, parseAt_result?_eq_of_alike hterm halike⟩
    rw [Outcome.returns_iff_result?, Outcome.returns_iff_result?, hresult]
  · intro skipped behind behind' front gap back hkept hgap
    refine parse_result?_eq_of_alike hterm ⟨Stream.significant_insert hgap _ _ _ _, ?_, ?_⟩
    · exact Stream.isInsignificant_endOfStream hkept
    · exact Stream.isInsignificant_endOfStream hkept

/-- The items of `twoItems` without blanks, behind lexemes of another text, in a stream that skips
another category. -/
def bareItems : Stream where
  lexemes :=
    [⟨"Mark", "?", 9, 1⟩, ⟨"Comma", ",", 9, 2⟩, ⟨"Word", "a", 1, 1⟩, ⟨"Comma", ",", 1, 3⟩,
     ⟨"Comma", ",", 1, 4⟩, ⟨"Word", "b", 1, 5⟩, ⟨"Mark", "!", 1, 6⟩]
  skipped := ["Remark"]
  cursor := 2

theorem itemList_parse_bareItems :
    twoItems.significant = bareItems.significant ∧
      (itemList.parse twoItems).result? = some (.ok twoItemsTree) ∧
      (itemList.parse twoItems).result? = (itemList.parse bareItems).result? := by
  have hs : twoItems.significant = bareItems.significant := by decide
  have hparse := parse_depends_on_significant_lexemes itemList
    (sentinelFree_of_entries (by decide))
  exact ⟨hs, rfl, (hparse.1 twoItems bareItems (by decide) (by decide) hs).2.1⟩

end Grammar

end GrammarCompiler
