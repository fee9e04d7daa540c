import GrammarCompiler.Proofs.Configuration
import GrammarCompiler.Proofs.Invariant
import GrammarCompiler.Proofs.Significance

/-!
What is given up leaves no trace. A terminal moves the cursor whether it
matches or not, and only sequences put it back, so that where the cursor
stands after an attempt is settled by all the attempts within it. They come to
this: an attempt that fails was never made, and one that succeeds has read the
lexemes that are in its trees. It stands behind the last of them, for the next
one to start from, whatever was tried behind it.

Trees do not say which lexemes they are made of; two lexemes may look the
same. So the trees are set beside the places of the lexemes in the stream.
-/

namespace GrammarCompiler

namespace Stream

/-- The places of the significant lexemes from the cursor up to `stop`. -/
def significantUpTo (s : Stream) (stop : Nat) : List Nat :=
  (List.range' s.cursor (stop - s.cursor)).filter fun i =>
    s.lexemes[i]?.any fun l => !s.isInsignificant l

@[simp] theorem significantUpTo_cursor (s : Stream) : s.significantUpTo s.cursor = [] := by
  simp [significantUpTo]

theorem significantUpTo_append {s : Stream} {middle stop : Nat} (h : s.cursor ≤ middle)
    (h' : middle ≤ stop) :
    s.significantUpTo middle ++ (s.rewind middle).significantUpTo stop =
      s.significantUpTo stop := by
  have hrange : List.range' s.cursor (stop - s.cursor) =
      List.range' s.cursor (middle - s.cursor) ++ List.range' middle (stop - middle) := by
    rw [show stop - s.cursor = middle - s.cursor + (stop - middle) by omega,
      ← List.range'_append_1, show s.cursor + (middle - s.cursor) = middle by omega]
  rw [significantUpTo, significantUpTo, significantUpTo, hrange, List.filter_append]
  rfl

/-- A read goes up to a lexeme with nothing significant in front of it. -/
theorem exists_read_of_significant {s : Stream} {l : Lexeme} {rest : List Lexeme}
    (h : s.significant = l :: rest) :
    ∃ n, s.nextSignificant = (l, s.rewind (s.cursor + (n + 1))) ∧
      s.lexemes[s.cursor + n]? = some l ∧
      s.significantUpTo (s.cursor + (n + 1)) = [s.cursor + n] := by
  obtain ⟨front, back, hahead, hfront, hl, -⟩ := List.filter_eq_cons_iff.1 h
  have hget : ∀ i, s.lexemes[s.cursor + i]? = (front ++ l :: back)[i]? := by
    intro i
    rw [← hahead, ahead, List.getElem?_drop]
  have hlexeme : s.lexemes[s.cursor + front.length]? = some l := by simp [hget]
  refine ⟨front.length, ?_, hlexeme, ?_⟩
  · rw [nextSignificant, hahead, readPast_append (by simpa using hfront) (by simpa using hl)]
  · rw [significantUpTo, Nat.add_sub_cancel_left, List.range'_1_concat, List.filter_append,
      List.filter_eq_nil_iff.2, List.nil_append, List.filter_cons_of_pos, List.filter_nil]
    · simpa [hlexeme] using hl
    · intro i hi
      obtain ⟨hle, hlt⟩ := List.mem_range'_1.1 hi
      obtain ⟨j, rfl⟩ := Nat.exists_eq_add_of_le hle
      have hj : j < front.length := by omega
      simp [hget, List.getElem?_append_left hj, hj, hfront]

end Stream

namespace Grammar

variable {g : Grammar}

/-- The trees are made of the lexemes at the places, in this order: every leaf is the lexeme at
its place, and inner nodes are those of non-terminals and of repetitions. -/
inductive Grows (g : Grammar) (ls : List Lexeme) : List Tree → List Nat → Prop where
  | nil : Grows g ls [] []
  | leaf {l : Lexeme} {i : Nat} : ls[i]? = some l → Grows g ls [.ofLexeme l] [i]
  | node {name : String} {ts : List Tree} {places : List Nat} :
    g.isNonTerminal name = true → Grows g ls ts places → Grows g ls [.ofSymbol name ts] places
  | repetition {text : String} {ts : List Tree} {places : List Nat} :
    ts ≠ [] → Grows g ls ts places → Grows g ls [.node repetitionKind text ts] places
  | append {ts us : List Tree} {places places' : List Nat} :
    Grows g ls ts places → Grows g ls us places' → Grows g ls (ts ++ us) (places ++ places')

/-- Nothing but the cursor has changed; the trees are made of the significant lexemes that it has
passed; and it stands one behind the last of them, or where it was if there are none. -/
structure Consumes (g : Grammar) (s : Stream) (ts : List Tree) (s' : Stream) : Prop where
  same : s' = s.rewind s'.cursor
  cursor_le : s.cursor ≤ s'.cursor
  grows : g.Grows s.lexemes ts (s.significantUpTo s'.cursor)
  cursor_eq : s'.cursor = (s.significantUpTo s'.cursor).getLast?.elim s.cursor (· + 1)

theorem Consumes.refl (s : Stream) : g.Consumes s [] s where
  same := rfl
  cursor_le := Nat.le_refl _
  grows := by
    rw [Stream.significantUpTo_cursor]
    exact .nil
  cursor_eq := by simp

theorem Consumes.append {s s' s'' : Stream} {ts us : List Tree} (h : g.Consumes s ts s')
    (h' : g.Consumes s' us s'') : g.Consumes s (ts ++ us) s'' := by
  have hplaces : s.significantUpTo s''.cursor =
      s.significantUpTo s'.cursor ++ s'.significantUpTo s''.cursor := by
    have hsplit := Stream.significantUpTo_append h.cursor_le h'.cursor_le
    rwa [← h.same, eq_comm] at hsplit
  refine ⟨?_, Nat.le_trans h.cursor_le h'.cursor_le, ?_, ?_⟩
  · rw [h'.same, h.same]
    rfl
  · rw [hplaces]
    refine h.grows.append ?_
    have hlexemes : s'.lexemes = s.lexemes := by rw [h.same]; rfl
    rw [← hlexemes]
    exact h'.grows
  · rw [hplaces, List.getLast?_append]
    have hmiddle := h.cursor_eq
    have hlast := h'.cursor_eq
    cases hl : (s'.significantUpTo s''.cursor).getLast? with
    | none =>
        rw [hl] at hlast
        rw [Option.none_or, ← hmiddle]
        exact hlast
    | some i =>
        rw [hl] at hlast
        exact hlast

theorem Grows.fragment {ls : List Lexeme} {ts : List Tree} {places : List Nat}
    (h : g.Grows ls ts places) {kind text : String}
    (hkind : (g.isNonTerminal kind = true ∧ text = kind) ∨ kind = repetitionKind) :
    g.Grows ls (Descent.fragment kind text ts) places := by
  rw [Descent.fragment]
  split
  · next hempty => rwa [hempty.2] at h
  · next hkept =>
    rcases hkind with ⟨hname, rfl⟩ | rfl
    · exact .node hname h
    · exact .repetition (fun hts => hkept ⟨rfl, hts⟩) h

/-! ### Attempts that succeed -/

theorem consumes_leaf (hterm : g.SentinelFree) {s : Stream}
    (hkind : g.Mentions (.terminal s.nextSignificant.1.kind)) :
    g.Consumes s [.ofLexeme s.nextSignificant.1] s.nextSignificant.2 := by
  cases hs : s.significant with
  | nil =>
      rw [Stream.nextSignificant_of_nil hs] at hkind
      exact absurd rfl (hterm.kind_ne hkind)
  | cons l rest =>
      obtain ⟨n, hread, hlexeme, hplaces⟩ := Stream.exists_read_of_significant hs
      rw [hread]
      refine ⟨rfl, Nat.le_add_right _ _, ?_, ?_⟩
      · rw [Stream.cursor_rewind, hplaces]
        exact .leaf hlexeme
      · rw [Stream.cursor_rewind, hplaces]
        rfl

theorem invariant_consumes (hterm : g.SentinelFree) :
    Descent.Invariant g g.Consumes fun _ _ => True where
  nil := .refl
  append := .append
  leaf _ hkind := consumes_leaf hterm hkind
  node hname h := { h with grows := h.grows.fragment (.inl ⟨hname, rfl⟩) }
  repetition _ h := { h with grows := h.grows.fragment (.inr rfl) }
  mismatch _ _ _ _ := trivial
  undefined _ _ := trivial
  endOfFile _ _ := trivial
  noAlternative _ _ := trivial
  later _ _ := trivial

/-- Unlike an invariant in general, this one also holds of names that stand nowhere. -/
theorem descend_consumes (hterm : g.SentinelFree) (levels : Nat) (name : String) (s : Stream) :
    (g.descend levels name s).Obeys g.Consumes (fun _ _ => True) s := by
  have hinv := invariant_consumes hterm
  cases levels with
  | zero =>
      rw [descend]
      cases g.rules? name <;> trivial
  | succ levels =>
      rw [descend]
      cases hrules : g.rules? name with
      | none => trivial
      | some rules =>
          exact Descent.matchAlternatives_obeys hinv (descend_obeys hinv levels) hrules s

end Grammar

/-! ### Attempts that fail -/

namespace Descent

variable {g : Grammar} {resolve : Resolver}

/-- The rules need not be those of the grammar. -/
theorem matchRule_keeps (hres : Resolver.Steady g resolve) (name : String) (rule : Rule)
    (s : Stream) : (matchRule resolve name rule s).Settles True True s := by
  cases rule with
  | sequence symbols =>
      have hall := matchSymbols_settles hres name symbols s .trivially
      exact (rewound_settles hall).mono fun _ => trivial
  | repetition body =>
      exact matchRepetition_settles (matchSymbols_settles hres _ body) s .trivially

theorem eq_of_matchFirst_failed (hres : Resolver.Steady g resolve) {name : String}
    {alternatives : Nat} {left : List Rule} {last ds : List Diagnostic} {s s' : Stream}
    (hf : matchFirst resolve name alternatives left last s = .failure ds s') : s' = s := by
  induction left generalizing last with
  | nil => exact (Outcome.failure.inj hf).2.symm
  | cons rule left ih =>
      rw [matchFirst] at hf
      cases ho : matchRule resolve name rule s with
      | diverged => simp [ho] at hf
      | success ts s'' => simp [ho] at hf
      | failure ds' s'' =>
          obtain rfl := eq_of_matchRule_failed hres ho
          rw [ho] at hf
          exact ih hf

theorem matchSymbol_repetition_ne_failure (label : String) (body : List Symbol) (s s' : Stream)
    (ds : List Diagnostic) : matchSymbol resolve label (.repetition body) s ≠ .failure ds s' := by
  rw [matchSymbol_repetition]
  cases ho : matchRepetition resolve body s with
  | diverged => simp
  | success ts s'' => simp
  | failure ds' s'' => exact absurd ho (rounds_ne_failure _ _ _ _ _)

end Descent

/-! ### All attempts -/

/-- The children of a node to which an attempt adds what it has matched. -/
def Outcome.addedTo (children : List Tree) : Outcome (List Tree) → List Tree
  | .success ts _ => children ++ ts
  | .failure _ _ | .diverged => children

/-- The attempt on `s` has had no effect besides its result. What it has consumed is told by the
grammar, and so the symbols that it matches have to be those of the grammar. -/
structure Outcome.Isolated (g : Grammar) (symbols : List Symbol) (s : Stream)
    (o : Outcome (List Tree)) : Prop where
  kept : ∀ s', o.stream? = some s' → s'.lexemes = s.lexemes ∧ s'.skipped = s.skipped
  undone : ∀ ds s', o = .failure ds s' →
    s'.cursor = s.cursor ∧ ∀ children, o.addedTo children = children
  consumed : g.SentinelFree → g.Covers symbols → ∀ ts s', o = .success ts s' → g.Consumes s ts s'

theorem Outcome.Settles.isolated {still lost : Prop} {g : Grammar} {symbols : List Symbol}
    {s : Stream} {o : Outcome (List Tree)} (h : o.Settles still lost s)
    (hfailed : ∀ ds s', o = .failure ds s' → s' = s)
    (hconsumes : g.SentinelFree → g.Covers symbols → o.Obeys g.Consumes (fun _ _ => True) s) :
    o.Isolated g symbols s := by
  cases o with
  | diverged => exact ⟨nofun, nofun, fun _ _ => nofun⟩
  | failure ds s' =>
      obtain rfl := hfailed ds s' rfl
      refine ⟨?_, ?_, fun _ _ => nofun⟩
      · rintro _ ⟨⟩
        exact ⟨rfl, rfl⟩
      · rintro _ _ ⟨⟩
        exact ⟨rfl, fun _ => rfl⟩
  | success ts s' =>
      refine ⟨?_, nofun, ?_⟩
      · rintro _ ⟨⟩
        rw [h.1.places.same]
        exact ⟨rfl, rfl⟩
      · rintro hterm hcovers _ _ ⟨⟩
        exact hconsumes hterm hcovers

namespace Grammar

variable {g : Grammar}

theorem eq_of_descend_failed {levels : Nat} {name : String} {ds : List Diagnostic}
    {s s' : Stream} (hf : g.descend levels name s = .failure ds s') : s' = s := by
  cases levels with
  | zero =>
      rw [descend] at hf
      split at hf
      · exact (Outcome.failure.inj hf).2.symm
      · cases hf
  | succ levels =>
      rw [descend] at hf
      split at hf
      · exact (Outcome.failure.inj hf).2.symm
      · exact Descent.eq_of_matchFirst_failed (descend_steady g levels) hf

theorem isolated_matchRule (levels : Nat) (name : String) (rule : Rule) (s : Stream) :
    (Descent.matchRule (g.descend levels) name rule s).Isolated g rule.symbols s := by
  have hres := descend_steady g levels
  refine (Descent.matchRule_keeps hres name rule s).isolated ?_ ?_
  · intro ds s' hf
    exact Descent.eq_of_matchRule_failed hres hf
  · intro hterm hcovers
    have hinv := invariant_consumes hterm
    exact Descent.matchRule_obeys hinv (descend_obeys hinv levels) name hcovers s

theorem isolated_descend (levels : Nat) (name : String) (s : Stream) :
    (g.descend levels name s).Isolated g [] s := by
  refine (descend_steady g levels name s).isolated ?_ ?_
  · intro ds s' hf
    exact eq_of_descend_failed hf
  · intro hterm _
    exact descend_consumes hterm levels name s

theorem isolated_repetition (levels : Nat) (label : String) (body : List Symbol) (s : Stream) :
    (Descent.matchSymbol (g.descend levels) label (.repetition body) s).Isolated g
      [.repetition body] s := by
  have hres := descend_steady g levels
  refine (Descent.matchSymbol_settles hres label _ s .trivially).isolated ?_ ?_
  · intro ds s' hf
    exact absurd hf (Descent.matchSymbol_repetition_ne_failure _ _ _ _ _)
  · intro hterm hcovers
    have hinv := invariant_consumes hterm
    exact Descent.matchSymbol_obeys hinv (descend_obeys hinv levels) label _ hcovers s

/-! ### Parses -/

theorem Finds.ne_trailing {s : Stream} {d : Diagnostic} (h : g.Finds s d) (l : Lexeme)
    (start : String) : d ≠ .trailing l start := by
  cases h <;> exact nofun

/-- The lexemes and what is skipped never change. Applying a rule, a non-terminal or a repetition
has no effect if it fails; if it succeeds and the grammar does not ask for the sentinel, then the
cursor stands one behind the last lexeme in the trees, or where it was if there is none. So a
parse that fails leaves the cursor where it was; if the start symbol has matched and lexemes are
left, it stands one behind the last lexeme that was matched. -/
theorem attempts_are_isolated (g : Grammar) :
    (∀ levels name rule s,
      (Descent.matchRule (g.descend levels) name rule s).Isolated g rule.symbols s) ∧
    (∀ levels name s, (g.descend levels name s).Isolated g [] s) ∧
    (∀ levels label body s,
      (Descent.matchSymbol (g.descend levels) label (.repetition body) s).Isolated g
        [.repetition body] s) ∧
    ∀ s ds s', g.parse s = .failure ds s' →
      (s'.lexemes = s.lexemes ∧ s'.skipped = s.skipped) ∧
      ((∀ l, ds ≠ [.trailing l g.start]) → s'.cursor = s.cursor) ∧
      ∀ l, ds = [.trailing l g.start] → ∃ rule ts, g.startRule = .ok rule ∧
        Descent.matchRule (g.descend (g.depthBound s)) g.start rule s = .success ts s' ∧
        (g.SentinelFree → g.Consumes s ts s') := by
  refine ⟨isolated_matchRule, isolated_descend, isolated_repetition, fun s ds s' h => ?_⟩
  rcases parseAt_failure_cases h with
    ⟨e, -, rfl, rfl⟩ | ⟨rule, d, -, ho, rfl, hd⟩ | ⟨rule, ts, hstart, ho, -, rfl⟩
  · exact ⟨⟨rfl, rfl⟩, fun _ => rfl, by simp⟩
  · obtain rfl := Descent.eq_of_matchRule_failed (descend_steady g (g.depthBound s)) ho
    refine ⟨⟨rfl, rfl⟩, fun _ => rfl, fun l heq => ?_⟩
    exact absurd (List.head_eq_of_cons_eq heq) (hd.ne_trailing l g.start)
  · have hisolated := isolated_matchRule (g := g) (g.depthBound s) g.start rule s
    have hrule : g.HasRule g.start rule :=
      ⟨[rule], startRule_eq_ok_iff.1 hstart, List.mem_singleton.2 rfl⟩
    refine ⟨hisolated.kept s' (by rw [ho]; rfl), fun hnot => absurd rfl (hnot _), fun l _ => ?_⟩
    exact ⟨rule, ts, hstart, ho, fun hterm => hisolated.consumed hterm hrule.covers ts s' ho⟩

/-- Any number of words, each with a comma behind it. -/
def wordList : Grammar :=
  ((empty "words").define "words" [.repetition [.nonTerminal "item"]]).define "item"
    [.sequence [.terminal "Word", .terminal "Comma"]]

/-- The second word has no comma. -/
def openWords : Stream :=
  (Stream.ofLexemes
    [⟨"Word", "a", 1, 1⟩, ⟨"Space", " ", 1, 2⟩, ⟨"Comma", ",", 1, 3⟩, ⟨"Space", " ", 1, 4⟩,
     ⟨"Word", "b", 1, 5⟩, ⟨"Space", " ", 1, 6⟩]).skipping ["Space"]

/-- The second word is read and given back, together with the spaces around it. -/
theorem wordList_gives_back_openWords :
    wordList.Consumes openWords
      [.ofSymbol "item" [.node "Word" "a" [], .node "Comma" "," []]] (openWords.rewind 3) ∧
    (∃ ds s', wordList.descend 2 "item" (openWords.rewind 3) = .failure ds s' ∧ s'.cursor = 3) ∧
    ∃ ts, wordList.Consumes openWords ts (openWords.rewind 3) ∧
      wordList.parse openWords =
        .failure [.trailing ⟨"Word", "b", 1, 5⟩ "words"] (openWords.rewind 3) := by
  have hterm : wordList.SentinelFree := sentinelFree_of_entries (by decide)
  have hwords : wordList.HasRule "words" (.repetition [.nonTerminal "item"]) :=
    ⟨_, rfl, List.mem_singleton.2 rfl⟩
  obtain ⟨hrule, hdescend, -, hparse⟩ := attempts_are_isolated wordList
  refine ⟨?_, ?_, ?_⟩
  · exact (hrule 3 "words" _ openWords).consumed hterm hwords.covers _ _ rfl
  · exact ⟨_, _, rfl, ((hdescend 2 "item" (openWords.rewind 3)).undone _ _ rfl).1⟩
  · obtain ⟨rule, ts, -, -, hconsumes⟩ := (hparse openWords _ (openWords.rewind 3) rfl).2.2 _ rfl
    exact ⟨ts, hconsumes hterm, rfl⟩

end Grammar

end GrammarCompiler
