import Mathlib.Data.Finset.Card
import Mathlib.Data.Finset.Prod
import Mathlib.Order.Monotone.Basic
import GrammarCompiler.Proofs.Simulation

/-!
The bound of `parse` on the descent decides nothing: a run that comes to an
end at any bound comes to the same end at this one.

What a run meets are non-terminals at places, and there are finitely many of
both, because a reader of significant lexemes stops only where it starts,
behind each of them, and at the end of the stream. More levels let more of
these pairs come to an end. But a level is made from the level below, so that
once a level adds no pair, no later one does, and there are at most as many
levels that add one as there are pairs.
-/

namespace GrammarCompiler

namespace Stream

/-! ### Where a reader can stop -/

/-- The stream behind its next significant lexeme. -/
def afterNext (s : Stream) : Stream := s.nextSignificant.2

/-- At the end of the stream a reader stays. -/
theorem afterNext_afterNext {s : Stream} (h : s.significant = []) :
    s.afterNext.afterNext = s.afterNext := by
  have hnext : s.afterNext = s.rewind (s.cursor + s.ahead.length) := by
    rw [afterNext, nextSignificant_of_nil h]
  rw [hnext, afterNext, nextSignificant_of_nil (significant_behind_ahead s), ahead_behind_ahead]
  rfl

/-- As many reads as there are significant lexemes, and one more, get to the end. -/
theorem iterate_afterNext_succ {s : Stream} {n : Nat} (h : s.significant.length = n) :
    afterNext^[n + 2] s = afterNext^[n + 1] s := by
  induction n generalizing s with
  | zero => exact afterNext_afterNext (List.eq_nil_of_length_eq_zero h)
  | succ n ih =>
      obtain ⟨l, rest, hs⟩ := List.exists_cons_of_length_eq_add_one h
      obtain ⟨m, -, hread, hrest⟩ := nextSignificant_of_cons hs
      have hlength : s.afterNext.significant.length = n := by
        rw [afterNext, hread, hrest]
        simpa [hs] using h
      exact ih hlength

/-- The streams that a reader of `s` can leave behind. -/
def stops (s : Stream) : Finset Stream :=
  (Finset.range (s.significant.length + 2)).image fun n => afterNext^[n] s

theorem self_mem_stops (s : Stream) : s ∈ s.stops :=
  Finset.mem_image.2 ⟨0, Finset.mem_range.2 (Nat.succ_pos _), rfl⟩

theorem afterNext_mem_stops {s t : Stream} (h : t ∈ s.stops) : t.afterNext ∈ s.stops := by
  obtain ⟨n, hn, rfl⟩ := Finset.mem_image.1 h
  have hlt := Finset.mem_range.1 hn
  rw [← Function.iterate_succ_apply' afterNext n s]
  by_cases hend : n = s.significant.length + 1
  · have hstay : afterNext^[n + 1] s = afterNext^[n] s := by
      rw [hend]
      exact iterate_afterNext_succ rfl
    rw [hstay]
    exact h
  · exact Finset.mem_image.2 ⟨n + 1, Finset.mem_range.2 (by omega), rfl⟩

theorem card_stops_le (s : Stream) : s.stops.card ≤ s.significant.length + 2 :=
  Finset.card_image_le.trans_eq (Finset.card_range _)

/-- Two runs stand at the same stop of `s`. -/
def SameStop (s t₁ t₂ : Stream) : Prop := t₁ = t₂ ∧ t₁ ∈ s.stops

end Stream

namespace Grammar

variable {g : Grammar} {s : Stream} {levels levels' : Nat}

theorem simulation_sameStop (g : Grammar) (s : Stream) : Descent.Simulation g s.SameStop where
  peek h := by rw [h.1]
  read := by
    rintro t _ kind ⟨rfl, ht⟩ - rule
    have hnext := Stream.afterNext_mem_stops ht
    rw [Descent.matchTerminal_eq]
    split
    · exact .diverged
    · split
      · exact .success ⟨rfl, hnext⟩ Iff.rfl
      · exact .failure ⟨rfl, hnext⟩

/-! ### The calls that come to an end -/

/-- The non-terminals, with the stops of `s`, that are matched or refused within the levels. -/
def settled (g : Grammar) (s : Stream) (levels : Nat) : Finset (String × Stream) :=
  (g.nonTerminals.toFinset ×ˢ s.stops).filter fun call =>
    (g.descend levels call.1 call.2).Returns

theorem mem_settled {call : String × Stream} :
    call ∈ g.settled s levels ↔ (call.1 ∈ g.nonTerminals ∧ call.2 ∈ s.stops) ∧
      (g.descend levels call.1 call.2).Returns := by
  simp [settled]

theorem settled_mono : Monotone (g.settled s) := by
  intro levels levels' hle call hcall
  obtain ⟨hmem, hret⟩ := mem_settled.1 hcall
  have hfollows := (descend_follows (simulation_eq g) hle).follows call.1 (rfl : call.2 = call.2)
  exact mem_settled.2 ⟨hmem, hfollows.returns hret⟩

theorem card_settled_le (g : Grammar) (s : Stream) (levels : Nat) :
    (g.settled s levels).card ≤ g.depthBound s := by
  have hnames : g.nonTerminals.toFinset.card ≤ g.entries.length :=
    (List.toFinset_card_le _).trans_eq (List.length_map _)
  calc (g.settled s levels).card
    _ ≤ (g.nonTerminals.toFinset ×ˢ s.stops).card := Finset.card_filter_le _ _
    _ = g.nonTerminals.toFinset.card * s.stops.card := Finset.card_product _ _
    _ ≤ g.depthBound s := Nat.mul_le_mul hnames s.card_stops_le

/-- Where more levels settle no more calls, they give no more answers. -/
theorem descend_follows_of_settled_eq (hle : levels ≤ levels')
    (h : g.settled s levels = g.settled s levels') :
    Descent.Resolver.Follows g s.SameStop (g.descend levels') (g.descend levels) where
  steady₁ := descend_steady g levels'
  steady₂ := descend_steady g levels
  follows := by
    rintro name t _ ⟨rfl, ht⟩
    by_cases hret : (g.descend levels' name t).Returns
    · have hret' : (g.descend levels name t).Returns := by
        by_cases hname : g.isNonTerminal name = true
        · have hcall : (name, t) ∈ g.settled s levels' :=
            mem_settled.2 ⟨⟨mem_nonTerminals hname, ht⟩, hret⟩
          rw [← h] at hcall
          exact (mem_settled.1 hcall).2
        · exact descend_returns_of_undefined hname levels t
      have heq : g.descend levels name t = g.descend levels' name t :=
        ((descend_follows (simulation_eq g) hle).follows name rfl).eq_of_returns hret'
      rw [heq]
      exact (descend_follows (simulation_sameStop g s) (Nat.le_refl levels')).follows name ⟨rfl, ht⟩
    · rw [Decidable.not_not.1 hret]
      exact .diverged

/-- A level that settles no new call is the last one that could. -/
theorem settled_succ_eq (h : g.settled s levels = g.settled s (levels + 1)) :
    g.settled s (levels + 1) = g.settled s (levels + 2) := by
  have hback := descend_succ_follows (simulation_sameStop g s)
    (descend_follows_of_settled_eq (Nat.le_succ levels) h)
  refine Finset.Subset.antisymm (settled_mono (Nat.le_succ _)) fun call hcall => ?_
  obtain ⟨hmem, hret⟩ := mem_settled.1 hcall
  exact mem_settled.2 ⟨hmem, (hback.follows call.1 ⟨rfl, hmem.2⟩).returns hret⟩

theorem settled_depthBound_eq (hle : g.depthBound s ≤ levels) :
    g.settled s (g.depthBound s) = g.settled s levels := by
  have hmono : Monotone fun n => (g.settled s n).card := fun _ _ h =>
    Finset.card_le_card (settled_mono h)
  have hstable : ∀ n, (g.settled s n).card = (g.settled s (n + 1)).card →
      (g.settled s (n + 1)).card = (g.settled s (n + 2)).card := by
    intro n hn
    have hsame := Finset.eq_of_subset_of_card_le (settled_mono (Nat.le_succ n)) hn.ge
    rw [settled_succ_eq hsame]
  have hcard := Nat.stabilises_of_monotone hmono (card_settled_le g s) hstable hle
  exact Finset.eq_of_subset_of_card_le (settled_mono hle) hcard.le

/-- A parse that comes to an end at any bound is the parse. -/
theorem parseAt_eq_parse_of_returns (hret : (g.parseAt levels s).Returns) :
    g.parseAt levels s = g.parse s := by
  rcases Nat.le_total levels (g.depthBound s) with hle | hle
  · exact parseAt_eq_of_le hle hret
  · have hres := descend_follows_of_settled_eq hle (settled_depthBound_eq hle)
    have hfollows := parseAt_follows (simulation_sameStop g s) hres ⟨rfl, s.self_mem_stops⟩
    exact (parseAt_eq_of_le hle (hfollows.returns hret)).symm

end Grammar

end GrammarCompiler
