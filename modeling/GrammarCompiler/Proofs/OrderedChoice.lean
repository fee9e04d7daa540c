import GrammarCompiler.Parse.OrderedChoice
import GrammarCompiler.Grammar.WellFormed
import GrammarCompiler.Proofs.Reading

/-!
The descent does what ordered choice with greedy repetition says. Two halves
make up the argument. Ordered choice gives every symbol at most one verdict on
a list of lexemes, although the judgement that something fails occurs in its
own rules. And every attempt of the descent that comes to an end has a verdict
of ordered choice: its success leaves a stream whose significant lexemes are
what the symbol leaves, and its failure is a failure there too. Together they
say that a verdict of ordered choice is what the descent must have answered.

The bound on the descent plays no part: whatever level an attempt is cut at,
an attempt that was not cut is right.
-/

namespace GrammarCompiler

namespace Grammar

variable {g : Grammar}

/-! ### Ordered choice has one verdict -/

mutual
theorem SymbolRuns.unique {x : Symbol} {ls : List Lexeme} {v w : Verdict}
    (h : SymbolRuns g x ls v) (h' : SymbolRuns g x ls w) : v = w := by
  match h with
  | .hit hk =>
      cases h' with
      | hit => rfl
      | miss hk' => exact absurd hk hk'
  | .miss hk =>
      cases h' with
      | hit hk' => exact absurd hk' hk
      | miss => rfl
  | .atEnd =>
      cases h'
      rfl
  | .undefined hn =>
      cases h' with
      | undefined => rfl
      | refused hn' hc => rfl
      | chosen hn' hc => simp [hn] at hn'
  | .refused hn hc =>
      cases h' with
      | undefined => rfl
      | refused => rfl
      | chosen hn' hc' =>
          rw [Option.some.inj (hn'.symm.trans hn)] at hc'
          cases ChoiceRuns.unique hc hc'
  | .chosen hn hc =>
      cases h' with
      | undefined hn' => simp [hn] at hn'
      | refused hn' hc' =>
          rw [Option.some.inj (hn'.symm.trans hn)] at hc'
          cases ChoiceRuns.unique hc hc'
      | chosen hn' hc' =>
          rw [Option.some.inj (hn'.symm.trans hn)] at hc'
          cases ChoiceRuns.unique hc hc'
          rfl
  | .rounds hr =>
      cases h' with
      | rounds hr' =>
          obtain ⟨rfl, rfl⟩ := RoundsRun.unique hr hr'
          rfl
termination_by structural h

theorem SequenceRuns.unique {xs : List Symbol} {ls : List Lexeme} {v w : Verdict}
    (h : SequenceRuns g xs ls v) (h' : SequenceRuns g xs ls w) : v = w := by
  match h with
  | .nil =>
      cases h'
      rfl
  | .fails hx =>
      cases h' with
      | fails => rfl
      | failsLater => rfl
      | cons hx' => cases SymbolRuns.unique hx hx'
  | .failsLater hx hxs =>
      cases h' with
      | fails => rfl
      | failsLater => rfl
      | cons hx' hxs' =>
          cases SymbolRuns.unique hx hx'
          cases SequenceRuns.unique hxs hxs'
  | .cons hx hxs =>
      cases h' with
      | fails hx' => cases SymbolRuns.unique hx hx'
      | failsLater hx' hxs' =>
          cases SymbolRuns.unique hx hx'
          cases SequenceRuns.unique hxs hxs'
      | cons hx' hxs' =>
          cases SymbolRuns.unique hx hx'
          cases SequenceRuns.unique hxs hxs'
          rfl
termination_by structural h

theorem RoundsRun.unique {body : List Symbol} {ls rest rest' : List Lexeme} {ts ts' : List Tree}
    (h : RoundsRun g body ls ts rest) (h' : RoundsRun g body ls ts' rest') :
    ts = ts' ∧ rest = rest' := by
  match h with
  | .fails hb =>
      cases h' with
      | fails => exact ⟨rfl, rfl⟩
      | standsStill => exact ⟨rfl, rfl⟩
      | round hb' => cases SequenceRuns.unique hb hb'
  | .standsStill hb =>
      cases h' with
      | fails => exact ⟨rfl, rfl⟩
      | standsStill => exact ⟨rfl, rfl⟩
      | round hb' hne =>
          cases SequenceRuns.unique hb hb'
          exact absurd rfl hne
  | .round hb hne hr =>
      cases h' with
      | fails hb' => cases SequenceRuns.unique hb hb'
      | standsStill hb' =>
          cases SequenceRuns.unique hb hb'
          exact absurd rfl hne
      | round hb' _ hr' =>
          cases SequenceRuns.unique hb hb'
          obtain ⟨rfl, rfl⟩ := RoundsRun.unique hr hr'
          exact ⟨rfl, rfl⟩
termination_by structural h

theorem RuleRuns.unique {rule : Rule} {ls : List Lexeme} {v w : Verdict}
    (h : RuleRuns g rule ls v) (h' : RuleRuns g rule ls w) : v = w := by
  match h with
  | .sequence hs =>
      cases h' with
      | sequence hs' => exact SequenceRuns.unique hs hs'
  | .repetition hr =>
      cases h' with
      | repetition hr' =>
          obtain ⟨rfl, rfl⟩ := RoundsRun.unique hr hr'
          rfl
termination_by structural h

theorem ChoiceRuns.unique {rules : List Rule} {ls : List Lexeme} {v w : Verdict}
    (h : ChoiceRuns g rules ls v) (h' : ChoiceRuns g rules ls w) : v = w := by
  match h with
  | .nil =>
      cases h'
      rfl
  | .first hr =>
      cases h' with
      | first hr' => exact RuleRuns.unique hr hr'
      | later hr' => cases RuleRuns.unique hr hr'
  | .later hr hc =>
      cases h' with
      | first hr' => cases RuleRuns.unique hr hr'
      | later _ hc' => exact ChoiceRuns.unique hc hc'
termination_by structural h
end

end Grammar

/-! ### Attempts that ordered choice bears out -/

open Grammar (Verdict SymbolRuns SequenceRuns RoundsRun RuleRuns ChoiceRuns)

/-- What the attempt on `s` answers is a verdict of `runs` on the significant lexemes ahead. An
attempt without an answer has none to be borne out. -/
def Outcome.Realizes (runs : List Lexeme → Verdict → Prop) (s : Stream) :
    Outcome (List Tree) → Prop
  | .success ts s' => s.Advance (·.significant.length) s' ∧ runs s.significant (some (ts, s'.significant))
  | .failure _ s' => s' = s.rewind s'.cursor ∧ runs s.significant none
  | .diverged => True

/-- Non-terminals are matched as ordered choice matches them. -/
def Descent.Resolver.Sound (g : Grammar) (resolve : Descent.Resolver) : Prop :=
  ∀ name s, s.Tidy → (resolve name s).Realizes (SymbolRuns g (.nonTerminal name)) s

/-- Nothing in the sequence asks for the sentinel. -/
def Symbol.SentinelFree (symbols : List Symbol) : Prop :=
  ¬ Symbol.Occurs (.terminal Lexeme.endKind) symbols

/-- No rule of the grammar asks for the sentinel. -/
def Grammar.SentinelFree (g : Grammar) : Prop :=
  ∀ name rule, g.HasRule name rule → Symbol.SentinelFree rule.symbols

namespace Symbol.SentinelFree

variable {x : Symbol} {xs : List Symbol}

theorem head (h : SentinelFree (x :: xs)) : SentinelFree [x] := fun ho => h ho.head

theorem tail (h : SentinelFree (x :: xs)) : SentinelFree xs := fun ho => h ho.weaken

theorem body {body : List Symbol} (h : SentinelFree [.repetition body]) : SentinelFree body :=
  fun ho => h ho.body

theorem kind_ne {kind : String} (h : SentinelFree [.terminal kind]) :
    kind ≠ Lexeme.endKind := by
  rintro rfl
  exact h (.here (List.mem_singleton.2 rfl))

end Symbol.SentinelFree

namespace Descent

variable {g : Grammar} {resolve : Resolver}

theorem matchTerminal_realizes (rule : String) {kind : String} (hk : kind ≠ Lexeme.endKind)
    (s : Stream) :
    (matchTerminal rule kind s).Realizes (SymbolRuns g (.terminal kind)) s := by
  rw [matchTerminal_eq]
  by_cases hfound : s.isInsignificant s.nextSignificant.1 = true
  · rw [if_pos hfound]
    trivial
  rw [if_neg hfound]
  cases hs : s.significant with
  | nil =>
      have hread := Stream.nextSignificant_of_nil hs
      have hend : Lexeme.endOfStream.kind ≠ kind := Ne.symm hk
      simp only [hread, hend, if_false, Outcome.Realizes, hs]
      exact ⟨rfl, .atEnd⟩
  | cons l rest =>
      obtain ⟨n, -, hread, hrest⟩ := Stream.nextSignificant_of_cons hs
      by_cases hl : l.kind = kind
      · simp only [hread, hl, if_true, Outcome.Realizes, hs, hrest]
        refine ⟨⟨rfl, fun _ => ?_⟩, .hit hl⟩
        rw [hrest, hs]
        exact Nat.lt_succ_self _
      · simp only [hread, hl, if_false, Outcome.Realizes, hs]
        exact ⟨rfl, .miss hl⟩

theorem rewound_realizes {runs : List Lexeme → Verdict → Prop} {s : Stream}
    {o : Outcome (List Tree)} (h : o.Realizes runs s) :
    (o.rewound s.cursor).Realizes runs s := by
  cases o with
  | success ts s' => exact h
  | failure ds s' =>
      rw [Outcome.Realizes] at h
      refine ⟨?_, h.2⟩
      rw [h.1]
      rfl
  | diverged => trivial

/-- A sequence that fails has put the cursor back. -/
theorem eq_of_matchSequence_failure {rule : String} {symbols : List Symbol} {s s' : Stream}
    {ds : List Diagnostic}
    (h : (matchSymbols resolve rule symbols s).Realizes (SequenceRuns g symbols) s)
    (hf : matchSequence resolve rule symbols s = .failure ds s') : s' = s := by
  refine Outcome.eq_of_rewound_failure (fun ds' s'' ho => ?_) hf
  rw [ho] at h
  exact h.1

/-- The rounds of a repetition. The induction is on the bound; every round but the last leaves
fewer lexemes, so that it may not count as one that stands still. -/
theorem rounds_realizes {body : List Symbol} {label : String}
    (hbody : ∀ s, s.Tidy →
      (matchSymbols resolve label body s).Realizes (SequenceRuns g body) s)
    (bound : Nat) (s : Stream) (hs : s.Tidy) :
    (rounds (matchSequence resolve label body) bound s).Realizes
      (RuleRuns g (.repetition body)) s := by
  induction bound generalizing s with
  | zero => trivial
  | succ bound ih =>
      have hround : (matchSequence resolve label body s).Realizes (SequenceRuns g body) s :=
        rewound_realizes (hbody s hs)
      rw [rounds]
      cases ho : matchSequence resolve label body s with
      | diverged => trivial
      | failure ds s' =>
          rw [ho] at hround
          obtain rfl := eq_of_matchSequence_failure (hbody s hs) ho
          exact ⟨.refl _, .repetition (.fails hround.2)⟩
      | success ts s' =>
          rw [ho] at hround
          obtain ⟨hadv, hruns⟩ := hround
          by_cases hc : s'.cursor = s.cursor
          · -- A round that stands still is dropped with its trees.
            have hsame := hadv.eq_of_cursor_eq hc
            subst hsame
            simp only [if_true]
            exact ⟨.refl _, .repetition (.standsStill hruns)⟩
          · simp only [hc, if_false]
            -- The cursor moved, so a significant lexeme was passed.
            have hne : s'.significant ≠ s.significant := by
              intro he
              have hlt := hadv.less hc
              rw [he] at hlt
              exact Nat.lt_irrefl _ hlt
            have hmore := ih s' (hadv.tidy hs)
            cases hr : rounds (matchSequence resolve label body) bound s' with
            | diverged => trivial
            | failure ds s'' =>
                rw [hr] at hmore
                cases hmore.2
            | success us s'' =>
                rw [hr] at hmore
                obtain ⟨hadv', hmore⟩ := hmore
                cases hmore with
                | repetition hmore =>
                    exact ⟨hadv.trans hadv', .repetition (.round hruns hne hmore)⟩

theorem matchRepetition_realizes {body : List Symbol}
    (hbody : ∀ s, s.Tidy →
      (matchSymbols resolve (Symbol.renderRepetition body) body s).Realizes
        (SequenceRuns g body) s)
    (s : Stream) (hs : s.Tidy) :
    (matchRepetition resolve body s).Realizes (RuleRuns g (.repetition body)) s :=
  rounds_realizes hbody _ s hs

mutual
theorem matchSymbol_realizes (hres : Resolver.Sound g resolve) (rule : String) (x : Symbol)
    (hx : Symbol.SentinelFree [x]) (s : Stream) (hs : s.Tidy) :
    (matchSymbol resolve rule x s).Realizes (SymbolRuns g x) s := by
  match x with
  | .terminal kind =>
      rw [matchSymbol]
      exact matchTerminal_realizes rule hx.kind_ne s
  | .nonTerminal name =>
      rw [matchSymbol]
      exact hres name s hs
  | .repetition body =>
      have hrep : (matchRepetition resolve body s).Realizes (RuleRuns g (.repetition body)) s :=
        matchRepetition_realizes
          (fun s' hs' => matchSymbols_realizes hres _ body hx.body s' hs') s hs
      rw [matchSymbol_repetition]
      cases ho : matchRepetition resolve body s with
      | diverged => trivial
      | failure ds s' =>
          rw [ho] at hrep
          cases hrep.2
      | success ts s' =>
          rw [ho] at hrep
          obtain ⟨hadv, hruns⟩ := hrep
          cases hruns with
          | repetition hruns => exact ⟨hadv, .rounds hruns⟩
termination_by structural x

theorem matchSymbols_realizes (hres : Resolver.Sound g resolve) (rule : String)
    (xs : List Symbol) (hxs : Symbol.SentinelFree xs) (s : Stream) (hs : s.Tidy) :
    (matchSymbols resolve rule xs s).Realizes (SequenceRuns g xs) s := by
  match xs with
  | [] =>
      rw [matchSymbols]
      exact ⟨.refl s, .nil⟩
  | x :: xs =>
      have hx := matchSymbol_realizes hres rule x hxs.head s hs
      rw [matchSymbols]
      cases ho : matchSymbol resolve rule x s with
      | diverged => trivial
      | failure ds s' =>
          rw [ho] at hx
          exact ⟨hx.1, .fails hx.2⟩
      | success ts s' =>
          rw [ho] at hx
          obtain ⟨hadv, hruns⟩ := hx
          have hmore := matchSymbols_realizes hres rule xs hxs.tail s' (hadv.tidy hs)
          dsimp only
          cases hr : matchSymbols resolve rule xs s' with
          | diverged => trivial
          | failure ds s'' =>
              rw [hr] at hmore
              obtain ⟨hsame, hmore⟩ := hmore
              refine ⟨?_, .failsLater hruns hmore⟩
              rw [hsame, hadv.same]
              rfl
          | success us s'' =>
              rw [hr] at hmore
              exact ⟨hadv.trans hmore.1, .cons hruns hmore.2⟩
termination_by structural xs
end

theorem matchRule_realizes (hres : Resolver.Sound g resolve) (name : String) {rule : Rule}
    (hrule : Symbol.SentinelFree rule.symbols) (s : Stream) (hs : s.Tidy) :
    (matchRule resolve name rule s).Realizes (RuleRuns g rule) s := by
  cases rule with
  | repetition body =>
      exact matchRepetition_realizes (matchSymbols_realizes hres _ body hrule) s hs
  | sequence symbols =>
      have hseq : (matchSequence resolve name symbols s).Realizes (SequenceRuns g symbols) s :=
        rewound_realizes (matchSymbols_realizes hres name symbols hrule s hs)
      rw [matchRule]
      cases ho : matchSequence resolve name symbols s with
      | diverged => trivial
      | failure ds s' =>
          rw [ho] at hseq
          exact ⟨hseq.1, .sequence hseq.2⟩
      | success ts s' =>
          rw [ho] at hseq
          exact ⟨hseq.1, .sequence hseq.2⟩

/-- A rule that fails has put the cursor back; a repetition never fails. -/
theorem eq_of_matchRule_failure (hres : Resolver.Sound g resolve) {name : String} {rule : Rule}
    (hrule : Symbol.SentinelFree rule.symbols) {s s' : Stream} (hs : s.Tidy)
    {ds : List Diagnostic} (hf : matchRule resolve name rule s = .failure ds s') : s' = s := by
  cases rule with
  | sequence symbols =>
      exact eq_of_matchSequence_failure (matchSymbols_realizes hres name symbols hrule s hs) hf
  | repetition body =>
      have hrep := matchRule_realizes hres name hrule s hs
      rw [hf] at hrep
      cases hrep.2

/-- The first alternative that succeeds is chosen. The induction is on the alternatives that are
left; those tried before have put the cursor back. -/
theorem matchFirst_realizes (hres : Resolver.Sound g resolve) {name : String}
    (hname : name ≠ repetitionKind) {rules : List Rule} (hrules : g.rules? name = some rules)
    (alternatives : Nat) (s : Stream) (hs : s.Tidy) (left : List Rule)
    (hleft : ∀ rule ∈ left, Symbol.SentinelFree rule.symbols) (last : List Diagnostic)
    (hskipped : ∀ v, ChoiceRuns g left s.significant v → ChoiceRuns g rules s.significant v) :
    (matchFirst resolve name alternatives left last s).Realizes
      (SymbolRuns g (.nonTerminal name)) s := by
  induction left generalizing last with
  | nil => exact ⟨rfl, .refused hrules (hskipped none .nil)⟩
  | cons rule left ih =>
      have hrule := matchRule_realizes hres name (hleft rule (List.mem_cons_self ..)) s hs
      rw [matchFirst]
      cases ho : matchRule resolve name rule s with
      | diverged => trivial
      | success ts s' =>
          rw [ho] at hrule
          obtain ⟨hadv, hruns⟩ := hrule
          refine ⟨hadv, ?_⟩
          have hfragment : fragment name name ts = [.ofSymbol name ts] := by
            simp [fragment, hname, Tree.ofSymbol]
          rw [hfragment]
          exact .chosen hrules (hskipped _ (.first hruns))
      | failure ds s' =>
          have hsame := eq_of_matchRule_failure hres (hleft rule (List.mem_cons_self ..)) hs ho
          subst hsame
          rw [ho] at hrule
          exact ih (fun r hr => hleft r (List.mem_cons_of_mem _ hr)) ds
            (fun v hv => hskipped v (.later hrule.2 hv))

end Descent

namespace Grammar

variable {g : Grammar}

/-- Cut at any level, the descent is sound. -/
theorem descend_sound (hterm : g.SentinelFree) (hname : g.isNonTerminal repetitionKind = false)
    (levels : Nat) : Descent.Resolver.Sound g (g.descend levels) := by
  induction levels with
  | zero =>
      intro name s _
      rw [descend]
      cases hrules : g.rules? name with
      | none => exact ⟨rfl, .undefined hrules⟩
      | some rules => trivial
  | succ levels ih =>
      intro name s hs
      rw [descend]
      cases hrules : g.rules? name with
      | none => exact ⟨rfl, .undefined hrules⟩
      | some rules =>
          have hne : name ≠ repetitionKind := by
            rintro rfl
            simp [isNonTerminal, hrules] at hname
          exact Descent.matchFirst_realizes ih hne hrules _ s hs rules
            (fun rule hr => hterm name rule ⟨rules, hrules, hr⟩) [] (fun _ hv => hv)

theorem sentinelFree_start (hterm : g.SentinelFree) {rule : Rule} (h : g.startRule = .ok rule) :
    Symbol.SentinelFree rule.symbols :=
  hterm g.start rule ⟨[rule], startRule_eq_ok_iff.1 h, List.mem_singleton.2 rfl⟩

theorem parseAt_eq_complete {levels : Nat} {s s' : Stream} {rule : Rule} {ts : List Tree}
    (h : g.startRule = .ok rule)
    (ho : Descent.matchRule (g.descend levels) g.start rule s = .success ts s') :
    g.parseAt levels s = g.complete ts s' := by
  simp only [parseAt, h, ho]

theorem complete_result?_iff {ts : List Tree} {s : Stream} (hs : s.Tidy) {root : Tree} :
    (g.complete ts s).result? = some (.ok root) ↔
      s.significant = [] ∧ root = .ofSymbol g.start ts := by
  rw [← Stream.isEnd_peekSignificant_iff hs, complete]
  cases s.peekSignificant.isEnd with
  | true => simp [Outcome.result?, eq_comm]
  | false => simp [Outcome.result?]

/-- What is parsed at all is parsed as ordered choice says, whatever the level of the cut. -/
theorem parseAt_ok_iff_accepts (hterm : g.SentinelFree)
    (hname : g.isNonTerminal repetitionKind = false) {s : Stream} (hs : s.Tidy) {levels : Nat}
    (hret : (g.parseAt levels s).Returns) (root : Tree) :
    (g.parseAt levels s).result? = some (.ok root) ↔ g.Accepts s.significant root := by
  cases hstart : g.startRule with
  | error e =>
      have hno : ¬ g.Accepts s.significant root := by
        rintro ⟨rule, ts, hrule, -, -⟩
        rw [startRule_eq_ok_iff.2 hrule] at hstart
        cases hstart
      simp [parseAt, hstart, Outcome.result?, hno]
  | ok rule =>
      have hsole : ∀ {rule' : Rule}, g.rules? g.start = some [rule'] → rule' = rule := by
        intro rule' hrule'
        rw [startRule_eq_ok_iff.2 hrule'] at hstart
        exact Except.ok.inj hstart
      have hruns := Descent.matchRule_realizes (descend_sound hterm hname levels) g.start
        (sentinelFree_start hterm hstart) s hs
      cases ho : Descent.matchRule (g.descend levels) g.start rule s with
      | diverged =>
          refine absurd ?_ hret
          simp only [parseAt, hstart, ho]
      | failure ds s' =>
          rw [ho] at hruns
          -- A verdict that accepts would be a second one on the same lexemes.
          have hno : ¬ g.Accepts s.significant root := by
            rintro ⟨rule', ts, hrule', hr, -⟩
            rw [hsole hrule'] at hr
            cases RuleRuns.unique hr hruns.2
          have hfail : (g.parseAt levels s).result? ≠ some (.ok root) := by
            cases ds <;> simp [parseAt, hstart, ho, Outcome.result?]
          exact iff_of_false hfail hno
      | success ts s' =>
          rw [ho] at hruns
          obtain ⟨hadv, hruns⟩ := hruns
          rw [parseAt_eq_complete hstart ho, complete_result?_iff (hadv.tidy hs)]
          constructor
          · rintro ⟨hend, rfl⟩
            rw [hend] at hruns
            exact ⟨rule, ts, startRule_eq_ok_iff.1 hstart, hruns, rfl⟩
          · rintro ⟨rule', us, hrule', hr, rfl⟩
            rw [hsole hrule'] at hr
            obtain ⟨rfl, hend⟩ : ts = us ∧ s'.significant = [] := by
              simpa using RuleRuns.unique hruns hr
            exact ⟨hend, rfl⟩

theorem sentinelFree_of_entries
    (h : ∀ entry ∈ g.entries, ∀ rule ∈ entry.2,
      ¬ Symbol.Occurs (.terminal Lexeme.endKind) rule.symbols) :
    g.SentinelFree := by
  intro name rule hrule
  obtain ⟨rules, hentry, hmem⟩ := exists_mem_entries hrule
  exact h (name, rules) hentry rule hmem

/-- A parse that returns gives the tree of ordered choice with greedy repetition, and gives one
exactly if there is one. The second part says so for every bound on the descent, so that nothing
rests on the bound that `parse` chooses. -/
theorem parse_implements_ordered_choice (g : Grammar) (hterm : g.SentinelFree)
    (hname : g.isNonTerminal repetitionKind = false) (s : Stream) (hs : s.Tidy) (root : Tree) :
    ((g.parse s).Returns →
      ((g.parse s).result? = some (.ok root) ↔ g.Accepts s.significant root)) ∧
    ∀ levels, (g.parseAt levels s).Returns →
      ((g.parseAt levels s).result? = some (.ok root) ↔ g.Accepts s.significant root) :=
  ⟨fun hret => parseAt_ok_iff_accepts hterm hname hs hret root,
    fun _ hret => parseAt_ok_iff_accepts hterm hname hs hret root⟩

/-- Items with any number of commas in front of each. An item is a word that may be marked, and
the marked word is tried first. -/
def itemList : Grammar :=
  ((empty "list").define "list"
      [.sequence [.repetition [.repetition [.terminal "Comma"], .nonTerminal "item"]]]).define
    "item" [.sequence [.terminal "Word", .terminal "Mark"], .sequence [.terminal "Word"]]

/-- Two items, with commas only in front of the second, and blanks. -/
def twoItems : Stream :=
  (Stream.ofLexemes
    [⟨"Word", "a", 1, 1⟩, ⟨"Space", " ", 1, 2⟩, ⟨"Comma", ",", 1, 3⟩, ⟨"Comma", ",", 1, 4⟩,
     ⟨"Word", "b", 1, 5⟩, ⟨"Mark", "!", 1, 6⟩, ⟨"Space", " ", 1, 7⟩]).skipping ["Space"]

/-- In `twoItems` an alternative is given up, a repetition matches nothing and is left out, and a
round that stands still ends the list. -/
def twoItemsTree : Tree :=
  .ofSymbol "list"
    [.node repetitionKind
      (Symbol.renderRepetition [.repetition [.terminal "Comma"], .nonTerminal "item"])
      [.ofSymbol "item" [.node "Word" "a" []],
       .node repetitionKind (Symbol.renderRepetition [.terminal "Comma"])
        [.node "Comma" "," [], .node "Comma" "," []],
       .ofSymbol "item" [.node "Word" "b" [], .node "Mark" "!" []]]]

theorem itemList_accepts_twoItems :
    (itemList.parse twoItems).result? = some (.ok twoItemsTree) ∧
      itemList.Accepts twoItems.significant twoItemsTree := by
  have hparse : (itemList.parse twoItems).result? = some (.ok twoItemsTree) := rfl
  have hreturns : (itemList.parse twoItems).Returns := by
    rw [Outcome.Returns]
    decide
  refine ⟨hparse, ?_⟩
  exact ((parse_implements_ordered_choice itemList (sentinelFree_of_entries (by decide))
    (by decide) twoItems ⟨by decide, by decide⟩ _).1 hreturns).1 hparse

end Grammar

end GrammarCompiler
