import GrammarCompiler.Proofs.Termination

/-!
Two descents side by side. A relation between streams that is kept by reading
a lexeme, and under which lookahead shows the same, is kept by everything that
the descent does: as long as the first run comes to an end, the second one
gives the same trees or the same diagnostics and leaves a related stream.

Cursors of related streams need not be equal, and the descent looks at its
cursor in one place only, where it asks whether a round of a repetition has
moved it. So next to the relation the two runs keep step: the cursor of one
has moved if and only if that of the other has.

The run that follows may have more levels than the one that leads. With the
equality of streams for the relation this says that the bound on the levels
does not matter where it is not reached.
-/

namespace GrammarCompiler

/-- The outcome of an attempt whose success comes behind that of another one. -/
def Outcome.prepended (ts : List Tree) : Outcome (List Tree) → Outcome (List Tree)
  | .success more s => .success (ts ++ more) s
  | other => other

/-- Whatever the first attempt answers on `s₁`, the second one answers on `s₂`. -/
inductive Outcome.Follows {α : Type} (rel : Stream → Stream → Prop) (s₁ s₂ : Stream) :
    Outcome α → Outcome α → Prop where
  | diverged {o : Outcome α} : Follows rel s₁ s₂ .diverged o
  | failure {ds : List Diagnostic} {t₁ t₂ : Stream} :
    rel t₁ t₂ → Follows rel s₁ s₂ (.failure ds t₁) (.failure ds t₂)
  | success {value : α} {t₁ t₂ : Stream} :
    rel t₁ t₂ → (t₁.cursor = s₁.cursor ↔ t₂.cursor = s₂.cursor) →
      Follows rel s₁ s₂ (.success value t₁) (.success value t₂)

namespace Outcome.Follows

variable {α : Type} {rel : Stream → Stream → Prop} {s₁ s₂ t₁ t₂ : Stream}

/-- If neither run gets lost, both have the same result. -/
theorem result?_eq {o₁ o₂ : Outcome α} (h : o₁.Follows rel s₁ s₂ o₂) (hret : o₁.Returns) :
    o₁.result? = o₂.result? := by
  cases h with
  | diverged => exact absurd rfl hret
  | failure => rfl
  | success => rfl

theorem returns {o₁ o₂ : Outcome α} (h : o₁.Follows rel s₁ s₂ o₂) (hret : o₁.Returns) :
    o₂.Returns := by
  cases h with
  | diverged => exact absurd rfl hret
  | failure => exact nofun
  | success => exact nofun

theorem eq_of_returns {o₁ o₂ : Outcome α} (h : o₁.Follows Eq s₁ s₂ o₂) (hret : o₁.Returns) :
    o₁ = o₂ := by
  cases h with
  | diverged => exact absurd rfl hret
  | failure heq => rw [heq]
  | success heq => rw [heq]

theorem of_failure {ds : List Diagnostic} {o : Outcome α}
    (h : (Outcome.failure ds t₁).Follows rel s₁ s₂ o) : ∃ t₂, o = .failure ds t₂ ∧ rel t₁ t₂ := by
  cases h with
  | failure hrel => exact ⟨_, rfl, hrel⟩

theorem of_success {value : α} {o : Outcome α}
    (h : (Outcome.success value t₁).Follows rel s₁ s₂ o) :
    ∃ t₂, o = .success value t₂ ∧ rel t₁ t₂ ∧
      (t₁.cursor = s₁.cursor ↔ t₂.cursor = s₂.cursor) := by
  cases h with
  | success hrel hc => exact ⟨_, rfl, hrel, hc⟩

/-- Two steps keep step if each of them does, because no step goes back. -/
theorem keepsStep {u₁ u₂ : Stream} (hm₁ : s₁.Moves t₁) (hm₁' : t₁.Moves u₁) (hm₂ : s₂.Moves t₂)
    (hm₂' : t₂.Moves u₂) (hc : t₁.cursor = s₁.cursor ↔ t₂.cursor = s₂.cursor)
    (hc' : u₁.cursor = t₁.cursor ↔ u₂.cursor = t₂.cursor) :
    u₁.cursor = s₁.cursor ↔ u₂.cursor = s₂.cursor := by
  constructor
  · intro h
    have hstay := hm₁.cursor_eq hm₁' h
    have hstay' : u₂.cursor = t₂.cursor := hc'.1 (h.trans hstay.symm)
    exact hstay'.trans (hc.1 hstay)
  · intro h
    have hstay := hm₂.cursor_eq hm₂' h
    have hstay' : u₁.cursor = t₁.cursor := hc'.2 (h.trans hstay.symm)
    exact hstay'.trans (hc.2 hstay)

/-- Both runs put the same trees in front of what they match next. -/
theorem prepend {still : Prop} {o₁ o₂ : Outcome (List Tree)} (ts : List Tree)
    (hc : t₁.cursor = s₁.cursor ↔ t₂.cursor = s₂.cursor)
    (hm₁ : s₁.Moves t₁) (hm₂ : s₂.Moves t₂) (ho₁ : o₁.Settles still True t₁)
    (ho₂ : o₂.Settles still True t₂) (h : o₁.Follows rel t₁ t₂ o₂) :
    (o₁.prepended ts).Follows rel s₁ s₂ (o₂.prepended ts) := by
  cases h with
  | diverged => exact .diverged
  | failure hrel => exact .failure hrel
  | success hrel hc' => exact .success hrel (keepsStep hm₁ ho₁.1 hm₂ ho₂.1 hc hc')

end Outcome.Follows

namespace Descent

/-- Reading keeps the relation, for the terminals of the grammar, and lookahead respects it. -/
structure Simulation (g : Grammar) (rel : Stream → Stream → Prop) : Prop where
  peek : ∀ {s₁ s₂}, rel s₁ s₂ → s₁.peekSignificant = s₂.peekSignificant
  read : ∀ {s₁ s₂ kind}, rel s₁ s₂ → g.Mentions (.terminal kind) → ∀ rule,
    (matchTerminal rule kind s₁).Follows rel s₁ s₂ (matchTerminal rule kind s₂)

/-- The second resolver follows the first one, and neither moves the cursor for nothing. -/
structure Resolver.Follows (g : Grammar) (rel : Stream → Stream → Prop)
    (resolve₁ resolve₂ : Resolver) : Prop where
  steady₁ : resolve₁.Steady g
  steady₂ : resolve₂.Steady g
  follows : ∀ name {s₁ s₂}, rel s₁ s₂ →
    (resolve₁ name s₁).Follows rel s₁ s₂ (resolve₂ name s₂)

variable {g : Grammar} {rel : Stream → Stream → Prop} {resolve₁ resolve₂ : Resolver}
  {s₁ s₂ : Stream}

theorem rewound_follows {still : Prop} {o₁ o₂ : Outcome (List Tree)} (hrel : rel s₁ s₂)
    (ho₁ : o₁.Settles still True s₁) (ho₂ : o₂.Settles still True s₂)
    (h : o₁.Follows rel s₁ s₂ o₂) :
    (o₁.rewound s₁.cursor).Follows rel s₁ s₂ (o₂.rewound s₂.cursor) := by
  cases h with
  | diverged => exact .diverged
  | success hrel' hc => exact .success hrel' hc
  | @failure ds t₁ t₂ _ =>
      have hback₁ : t₁.rewind s₁.cursor = s₁ := by
        rw [show t₁ = s₁.rewind t₁.cursor from ho₁]
        rfl
      have hback₂ : t₂.rewind s₂.cursor = s₂ := by
        rw [show t₂ = s₂.rewind t₂.cursor from ho₂]
        rfl
      refine .failure ?_
      rw [hback₁, hback₂]
      exact hrel

/-- The rounds of two repetitions. The induction is on the bound of the first; what is ahead of
each stream is less after every round that counts, so that neither bound is reached. -/
theorem rounds_follows (hres : Resolver.Follows g rel resolve₁ resolve₂) {label : String}
    {body : List Symbol}
    (hbody : ∀ {s₁ s₂}, rel s₁ s₂ → (matchSymbols resolve₁ label body s₁).Follows rel s₁ s₂
      (matchSymbols resolve₂ label body s₂))
    (bound₁ bound₂ : Nat) (hrel : rel s₁ s₂) (hbound₁ : s₁.ahead.length < bound₁)
    (hbound₂ : s₂.ahead.length < bound₂) :
    (rounds (matchSequence resolve₁ label body) bound₁ s₁).Follows rel s₁ s₂
      (rounds (matchSequence resolve₂ label body) bound₂ s₂) := by
  induction bound₁ generalizing bound₂ s₁ s₂ with
  | zero => omega
  | succ bound₁ ih =>
      -- The bounds may differ: each exceeds what its own run has ahead, and neither is reached.
      obtain ⟨bound₂, rfl⟩ : ∃ n, bound₂ = n + 1 := ⟨bound₂ - 1, by omega⟩
      have hall₁ := matchSymbols_settles hres.steady₁ label body s₁ .trivially
      have hall₂ := matchSymbols_settles hres.steady₂ label body s₂ .trivially
      have hround : (matchSequence resolve₁ label body s₁).Follows rel s₁ s₂
          (matchSequence resolve₂ label body s₂) := rewound_follows hrel hall₁ hall₂ (hbody hrel)
      have hround₁ : (matchSequence resolve₁ label body s₁).Settles _ True s₁ :=
        rewound_settles hall₁
      have hround₂ : (matchSequence resolve₂ label body s₂).Settles _ True s₂ :=
        rewound_settles hall₂
      rw [rounds, rounds]
      cases ho₁ : matchSequence resolve₁ label body s₁ with
      | diverged => exact .diverged
      | failure ds t₁ =>
          rw [ho₁] at hround
          obtain ⟨t₂, ho₂, -⟩ := hround.of_failure
          rw [ho₂]
          obtain rfl := eq_of_matchSequence_failed hall₁ ho₁
          obtain rfl := eq_of_matchSequence_failed hall₂ ho₂
          exact .success hrel (iff_of_true rfl rfl)
      | success ts t₁ =>
          rw [ho₁] at hround hround₁
          obtain ⟨t₂, ho₂, hrel', hc⟩ := hround.of_success
          rw [ho₂] at hround₂
          rw [ho₂]
          dsimp only
          -- Either both rounds stood still, and both repetitions end, or both moved on.
          by_cases hstay : t₁.cursor = s₁.cursor
          · rw [if_pos hstay, if_pos (hc.1 hstay)]
            exact .success hrel' hc
          · rw [if_neg hstay, if_neg fun h => hstay (hc.2 h)]
            have hless₁ := hround₁.1.ahead.less hstay
            have hless₂ := hround₂.1.ahead.less fun h => hstay (hc.2 h)
            have hless₁' : t₁.ahead.length < bound₁ := by omega
            have hless₂' : t₂.ahead.length < bound₂ := by omega
            exact .prepend ts hc hround₁.1 hround₂.1
              (rounds_settles (matchSymbols_settles hres.steady₁ label body) bound₁ t₁ hless₁'
                .trivially)
              (rounds_settles (matchSymbols_settles hres.steady₂ label body) bound₂ t₂ hless₂'
                .trivially)
              (ih bound₂ hrel' hless₁' hless₂')

theorem matchRepetition_follows (hres : Resolver.Follows g rel resolve₁ resolve₂)
    {body : List Symbol}
    (hbody : ∀ {s₁ s₂}, rel s₁ s₂ →
      (matchSymbols resolve₁ (Symbol.renderRepetition body) body s₁).Follows rel s₁ s₂
        (matchSymbols resolve₂ (Symbol.renderRepetition body) body s₂))
    (hrel : rel s₁ s₂) :
    (matchRepetition resolve₁ body s₁).Follows rel s₁ s₂ (matchRepetition resolve₂ body s₂) :=
  rounds_follows hres hbody _ _ hrel (Nat.lt_succ_self _) (Nat.lt_succ_self _)

mutual
theorem matchSymbol_follows (hsim : Simulation g rel)
    (hres : Resolver.Follows g rel resolve₁ resolve₂) (rule : String) (x : Symbol)
    (hx : g.Covers [x]) {s₁ s₂ : Stream} (hrel : rel s₁ s₂) :
    (matchSymbol resolve₁ rule x s₁).Follows rel s₁ s₂ (matchSymbol resolve₂ rule x s₂) := by
  match x with
  | .terminal kind =>
      rw [matchSymbol, matchSymbol]
      exact hsim.read hrel hx.mentions rule
  | .nonTerminal name =>
      rw [matchSymbol, matchSymbol]
      exact hres.follows name hrel
  | .repetition body =>
      have hrep := matchRepetition_follows hres
        (fun h => matchSymbols_follows hsim hres _ body hx.inside h) hrel
      rw [matchSymbol_repetition, matchSymbol_repetition]
      cases ho₁ : matchRepetition resolve₁ body s₁ with
      | diverged => exact .diverged
      | failure ds t₁ => exact absurd ho₁ (rounds_ne_failure _ _ _ _ _)
      | success ts t₁ =>
          rw [ho₁] at hrep
          obtain ⟨t₂, ho₂, hrel', hc⟩ := hrep.of_success
          rw [ho₂]
          exact .success hrel' hc
termination_by structural x

theorem matchSymbols_follows (hsim : Simulation g rel)
    (hres : Resolver.Follows g rel resolve₁ resolve₂) (rule : String) (xs : List Symbol)
    (hxs : g.Covers xs) {s₁ s₂ : Stream} (hrel : rel s₁ s₂) :
    (matchSymbols resolve₁ rule xs s₁).Follows rel s₁ s₂ (matchSymbols resolve₂ rule xs s₂) := by
  match xs with
  | [] =>
      rw [matchSymbols, matchSymbols]
      exact .success hrel (iff_of_true rfl rfl)
  | x :: xs =>
      have hx := matchSymbol_follows hsim hres rule x hxs.head hrel
      have hx₁ := matchSymbol_settles hres.steady₁ rule x s₁ .trivially
      have hx₂ := matchSymbol_settles hres.steady₂ rule x s₂ .trivially
      rw [matchSymbols, matchSymbols]
      cases ho₁ : matchSymbol resolve₁ rule x s₁ with
      | diverged => exact .diverged
      | failure ds t₁ =>
          rw [ho₁] at hx
          obtain ⟨t₂, ho₂, hrel'⟩ := hx.of_failure
          rw [ho₂]
          exact .failure hrel'
      | success ts t₁ =>
          rw [ho₁] at hx hx₁
          obtain ⟨t₂, ho₂, hrel', hc⟩ := hx.of_success
          rw [ho₂] at hx₂
          rw [ho₂]
          exact .prepend ts hc hx₁.1 hx₂.1
            (matchSymbols_settles hres.steady₁ rule xs t₁ .trivially)
            (matchSymbols_settles hres.steady₂ rule xs t₂ .trivially)
            (matchSymbols_follows hsim hres rule xs hxs.tail hrel')
termination_by structural xs
end

theorem matchRule_follows (hsim : Simulation g rel)
    (hres : Resolver.Follows g rel resolve₁ resolve₂) (name : String) {rule : Rule}
    (hrule : g.Covers rule.symbols) (hrel : rel s₁ s₂) :
    (matchRule resolve₁ name rule s₁).Follows rel s₁ s₂ (matchRule resolve₂ name rule s₂) := by
  cases rule with
  | sequence symbols =>
      exact rewound_follows hrel (matchSymbols_settles hres.steady₁ name symbols s₁ .trivially)
        (matchSymbols_settles hres.steady₂ name symbols s₂ .trivially)
        (matchSymbols_follows hsim hres name symbols hrule hrel)
  | repetition body =>
      exact matchRepetition_follows hres (matchSymbols_follows hsim hres _ body hrule) hrel

theorem exhausted_eq (hsim : Simulation g rel) (hrel : rel s₁ s₂) (name : String)
    (alternatives : Nat) (last : List Diagnostic) :
    exhausted s₁ name alternatives last = exhausted s₂ name alternatives last := by
  rw [exhausted, exhausted, hsim.peek hrel]

/-- The alternatives that are left are tried by both runs where the first one was tried. -/
theorem matchFirst_follows (hsim : Simulation g rel)
    (hres : Resolver.Follows g rel resolve₁ resolve₂) (name : String) (alternatives : Nat)
    (hrel : rel s₁ s₂) (left : List Rule) (hleft : ∀ rule ∈ left, g.Covers rule.symbols)
    (last : List Diagnostic) :
    (matchFirst resolve₁ name alternatives left last s₁).Follows rel s₁ s₂
      (matchFirst resolve₂ name alternatives left last s₂) := by
  induction left generalizing last with
  | nil =>
      rw [matchFirst, matchFirst, exhausted_eq hsim hrel]
      exact .failure hrel
  | cons rule left ih =>
      have hfirst := matchRule_follows hsim hres name (hleft rule (List.mem_cons_self ..)) hrel
      rw [matchFirst, matchFirst]
      cases ho₁ : matchRule resolve₁ name rule s₁ with
      | diverged => exact .diverged
      | success ts t₁ =>
          rw [ho₁] at hfirst
          obtain ⟨t₂, ho₂, hrel', hc⟩ := hfirst.of_success
          rw [ho₂]
          exact .success hrel' hc
      | failure ds t₁ =>
          rw [ho₁] at hfirst
          obtain ⟨t₂, ho₂, -⟩ := hfirst.of_failure
          rw [ho₂]
          obtain rfl := eq_of_matchRule_failed hres.steady₁ ho₁
          obtain rfl := eq_of_matchRule_failed hres.steady₂ ho₂
          exact ih (fun r hr => hleft r (List.mem_cons_of_mem _ hr)) ds

end Descent

namespace Grammar

variable {g : Grammar} {rel : Stream → Stream → Prop} {s₁ s₂ : Stream}

/-- One level more on both sides. -/
theorem descend_succ_follows (hsim : Descent.Simulation g rel) {levels₁ levels₂ : Nat}
    (hres : Descent.Resolver.Follows g rel (g.descend levels₁) (g.descend levels₂)) :
    Descent.Resolver.Follows g rel (g.descend (levels₁ + 1)) (g.descend (levels₂ + 1)) where
  steady₁ := descend_steady g (levels₁ + 1)
  steady₂ := descend_steady g (levels₂ + 1)
  follows := by
    intro name s₁ s₂ hrel
    rw [descend, descend]
    cases hrules : g.rules? name with
    | none => exact .failure hrel
    | some rules =>
        exact Descent.matchFirst_follows hsim hres name _ hrel rules
          (fun rule hr => HasRule.covers ⟨rules, hrules, hr⟩) []

/-- A descent is followed by every descent on a related stream that is not cut earlier. -/
theorem descend_follows (hsim : Descent.Simulation g rel) {levels₁ levels₂ : Nat}
    (hle : levels₁ ≤ levels₂) :
    Descent.Resolver.Follows g rel (g.descend levels₁) (g.descend levels₂) := by
  induction levels₁ generalizing levels₂ with
  | zero =>
      refine ⟨descend_steady g 0, descend_steady g levels₂, fun name s₁ s₂ hrel => ?_⟩
      cases hrules : g.rules? name with
      | none => cases levels₂ <;> simpa only [descend, hrules] using .failure hrel
      | some rules =>
          rw [descend, hrules]
          exact .diverged
  | succ levels₁ ih =>
      obtain ⟨levels₂, rfl⟩ : ∃ n, levels₂ = n + 1 := ⟨levels₂ - 1, by omega⟩
      exact descend_succ_follows hsim (ih (Nat.le_of_succ_le_succ hle))

theorem complete_follows (hsim : Descent.Simulation g rel) {t₁ t₂ : Stream} (hrel : rel t₁ t₂)
    (hc : t₁.cursor = s₁.cursor ↔ t₂.cursor = s₂.cursor) (ts : List Tree) :
    (g.complete ts t₁).Follows rel s₁ s₂ (g.complete ts t₂) := by
  rw [complete, complete, hsim.peek hrel]
  split
  · exact .success hrel hc
  · exact .failure hrel

/-- If the descent is followed, the parse is. -/
theorem parseAt_follows (hsim : Descent.Simulation g rel) {levels₁ levels₂ : Nat}
    (hres : Descent.Resolver.Follows g rel (g.descend levels₁) (g.descend levels₂))
    (hrel : rel s₁ s₂) :
    (g.parseAt levels₁ s₁).Follows rel s₁ s₂ (g.parseAt levels₂ s₂) := by
  rw [parseAt, parseAt]
  cases hstart : g.startRule with
  | error e => exact .failure hrel
  | ok rule =>
      have hrule : g.HasRule g.start rule :=
        ⟨[rule], startRule_eq_ok_iff.1 hstart, List.mem_singleton.2 rfl⟩
      have hmatch := Descent.matchRule_follows hsim hres g.start hrule.covers hrel
      dsimp only
      cases ho₁ : Descent.matchRule (g.descend levels₁) g.start rule s₁ with
      | diverged => exact .diverged
      | failure ds t₁ =>
          rw [ho₁] at hmatch
          obtain ⟨t₂, ho₂, hrel'⟩ := hmatch.of_failure
          rw [ho₂]
          cases ds with
          | nil => exact .failure hrel'
          | cons d ds => exact .failure hrel'
      | success ts t₁ =>
          rw [ho₁] at hmatch
          obtain ⟨t₂, ho₂, hrel', hc⟩ := hmatch.of_success
          rw [ho₂]
          exact complete_follows hsim hrel' hc ts

/-! ### More levels -/

theorem simulation_eq (g : Grammar) : Descent.Simulation g Eq where
  peek h := by rw [h]
  read := by
    rintro s _ kind rfl - rule
    cases Descent.matchTerminal rule kind s with
    | diverged => exact .diverged
    | failure ds t => exact .failure rfl
    | success ts t => exact .success rfl Iff.rfl

/-- The bound on the descent does not matter where it is not reached. -/
theorem parseAt_eq_of_le {levels₁ levels₂ : Nat} (hle : levels₁ ≤ levels₂) {s : Stream}
    (hret : (g.parseAt levels₁ s).Returns) : g.parseAt levels₁ s = g.parseAt levels₂ s :=
  have hsim := simulation_eq g
  (parseAt_follows hsim (descend_follows hsim hle) rfl).eq_of_returns hret

end Grammar

end GrammarCompiler
