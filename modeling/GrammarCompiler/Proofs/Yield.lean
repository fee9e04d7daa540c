import GrammarCompiler.Proofs.Invariant
import GrammarCompiler.Proofs.Significance

/-!
The lexemes of a syntax tree. A parse builds trees for attempts that it gives
up, drops rounds that stand still together with their trees, and puts the
cursor back on its own account; that no lexeme gets lost or is used twice is
the statement that the trees of an attempt and the lexemes behind it are at
every moment the lexemes in front of it. This is an invariant of the descent.

A node without children need not be a lexeme: a non-terminal that matches
nothing leaves one too. The two can be told apart by their kinds if no
terminal has the name of a non-terminal.
-/

namespace GrammarCompiler

/-- What a syntax tree keeps of a lexeme. -/
def Lexeme.kindText (l : Lexeme) : String × String := (l.kind, l.text)

/-- What a node shows of itself. -/
def Tree.kindText (t : Tree) : String × String := (t.kind, t.text)

namespace Grammar

variable {g : Grammar}

/-- A node without children that bears the name of no non-terminal. -/
def isLexemeNode (g : Grammar) (t : Tree) : Bool := t.isLeaf && !g.isNonTerminal t.kind

/-- The lexemes of a tree: the kinds and texts of its lexeme nodes, depth first and from left to
right. -/
def yield (g : Grammar) (t : Tree) : List (String × String) :=
  (t.preorder.filter g.isLexemeNode).map Tree.kindText

/-- The lexemes of a list of trees. -/
def forestYield (g : Grammar) (ts : List Tree) : List (String × String) :=
  ((Tree.forestPreorder ts).filter g.isLexemeNode).map Tree.kindText

/-- No terminal has the name of a non-terminal. -/
def TerminalsApart (g : Grammar) : Prop :=
  ∀ kind, g.Mentions (.terminal kind) → g.isNonTerminal kind = false

theorem terminalsApart_of_entries
    (h : ∀ name ∈ g.nonTerminals, ∀ entry ∈ g.entries, ∀ rule ∈ entry.2,
      ¬ Symbol.Occurs (.terminal name) rule.symbols) : g.TerminalsApart := by
  rintro kind ⟨name, rule, hrule, ho⟩
  obtain ⟨rules, hentry, hmem⟩ := exists_mem_entries hrule
  refine Bool.eq_false_iff.2 fun hkind => ?_
  exact h kind (mem_nonTerminals hkind) (name, rules) hentry rule hmem ho

theorem forestYield_append (g : Grammar) (ts us : List Tree) :
    g.forestYield (ts ++ us) = g.forestYield ts ++ g.forestYield us := by
  simp only [forestYield, Tree.forestPreorder_append, List.filter_append, List.map_append]

theorem forestYield_leaf {l : Lexeme} (h : g.isNonTerminal l.kind = false) :
    g.forestYield [.ofLexeme l] = [l.kindText] := by
  have hnode : g.isLexemeNode (.ofLexeme l) = true := by
    simp [isLexemeNode, Tree.isLeaf, Tree.ofLexeme, h]
  have hforest : Tree.forestPreorder [.ofLexeme l] = [.ofLexeme l] := rfl
  rw [forestYield, hforest, List.filter_cons_of_pos hnode]
  rfl

/-- A node yields what its children yield, unless it passes for a lexeme itself. -/
theorem yield_node {kind : String} (text : String) {ts : List Tree}
    (h : g.isNonTerminal kind = true ∨ ts ≠ []) :
    g.yield (.node kind text ts) = g.forestYield ts := by
  have hnode : g.isLexemeNode (.node kind text ts) = false := by
    rcases h with h | h
    · simp [isLexemeNode, h]
    · simp [isLexemeNode, Tree.isLeaf, h]
  simp [yield, forestYield, Tree.preorder, hnode]

theorem forestYield_fragment {kind text : String} {ts : List Tree}
    (h : g.isNonTerminal kind = true ∨ kind = repetitionKind) :
    g.forestYield (Descent.fragment kind text ts) = g.forestYield ts := by
  rw [Descent.fragment]
  split
  · next hempty => rw [hempty.2]
  · next hkept =>
    have hnode : g.isNonTerminal kind = true ∨ ts ≠ [] :=
      h.imp id fun hk hts => hkept ⟨hk, hts⟩
    have hyield := yield_node text hnode
    simpa [forestYield, yield, Tree.forestPreorder] using hyield

/-! ### The invariant -/

/-- The trees of an attempt, and the lexemes behind it, are the lexemes in front of it. -/
def Conserves (g : Grammar) (s : Stream) (ts : List Tree) (s' : Stream) : Prop :=
  s.significant.map Lexeme.kindText = g.forestYield ts ++ s'.significant.map Lexeme.kindText

theorem conserves_leaf (hterm : g.SentinelFree) (hapart : g.TerminalsApart) {s : Stream}
    (hkind : g.Mentions (.terminal s.nextSignificant.1.kind)) :
    g.Conserves s [.ofLexeme s.nextSignificant.1] s.nextSignificant.2 := by
  rw [Conserves, forestYield_leaf (hapart _ hkind)]
  cases hs : s.significant with
  | nil =>
      -- At the end the sentinel is read, which no terminal asks for.
      rw [Stream.nextSignificant_of_nil hs] at hkind
      exact absurd rfl (hterm.kind_ne hkind)
  | cons l rest =>
      obtain ⟨n, -, hread, hrest⟩ := Stream.nextSignificant_of_cons hs
      rw [hread, hrest]
      rfl

theorem invariant_conserves (hterm : g.SentinelFree) (hapart : g.TerminalsApart) :
    Descent.Invariant g g.Conserves fun _ _ => True where
  nil _ := rfl
  append h h' := by
    rw [Conserves, forestYield_append, List.append_assoc, ← h', h]
  leaf _ hkind := conserves_leaf hterm hapart hkind
  node hname h := by
    rw [Conserves, forestYield_fragment (.inl hname)]
    exact h
  repetition body h := by
    rw [Conserves, forestYield_fragment (.inr rfl)]
    exact h
  mismatch _ _ _ _ := trivial
  undefined _ _ := trivial
  endOfFile _ _ := trivial
  noAlternative _ _ := trivial
  later _ _ := trivial

/-! ### Parses -/

/-- A parse that succeeds matches the rule of the start symbol up to the end. -/
theorem exists_match_of_parseAt {levels : Nat} {s : Stream} {root : Tree}
    (h : (g.parseAt levels s).result? = some (.ok root)) :
    ∃ rule ts s', g.startRule = .ok rule ∧
      Descent.matchRule (g.descend levels) g.start rule s = .success ts s' ∧
      s'.peekSignificant.isEnd = true ∧ root = .ofSymbol g.start ts := by
  rw [parseAt] at h
  cases hstart : g.startRule with
  | error e => simp [hstart, Outcome.result?] at h
  | ok rule =>
      rw [hstart] at h
      dsimp only at h
      cases ho : Descent.matchRule (g.descend levels) g.start rule s with
      | diverged => simp [ho, Outcome.result?] at h
      | failure ds s' => cases ds <;> simp [ho, Outcome.result?] at h
      | success ts s' =>
          rw [ho] at h
          dsimp only at h
          rw [complete] at h
          split at h
          · next hend =>
            refine ⟨rule, ts, s', rfl, ho, hend, ?_⟩
            simpa [Outcome.result?, eq_comm] using h
          · simp [Outcome.result?] at h

theorem isNonTerminal_start {rule : Rule} (h : g.startRule = .ok rule) :
    g.isNonTerminal g.start = true := by
  simp [isNonTerminal, startRule_eq_ok_iff.1 h]

theorem yield_of_parseAt (hterm : g.SentinelFree) (hapart : g.TerminalsApart) {s : Stream}
    (hs : s.Tidy) {levels : Nat} {root : Tree}
    (h : (g.parseAt levels s).result? = some (.ok root)) :
    g.yield root = s.significant.map Lexeme.kindText := by
  obtain ⟨rule, ts, s', hstart, ho, hend, rfl⟩ := exists_match_of_parseAt h
  have hconserves := matchRule_start_obeys (invariant_conserves hterm hapart) hstart levels s
  rw [ho] at hconserves
  have hmoves := Descent.matchRule_settles (descend_steady g levels) g.start
    ⟨[rule], startRule_eq_ok_iff.1 hstart, List.mem_singleton.2 rfl⟩ s .trivially
  rw [ho] at hmoves
  have hrest : s'.significant = [] :=
    (Stream.isEnd_peekSignificant_iff (hmoves.1.places.tidy hs)).1 hend
  calc g.yield (.ofSymbol g.start ts) = g.forestYield ts :=
        yield_node _ (.inl (isNonTerminal_start hstart))
    _ = g.forestYield ts ++ s'.significant.map Lexeme.kindText := by
        rw [hrest, List.map_nil, List.append_nil]
    _ = s.significant.map Lexeme.kindText := hconserves.symm

/-- The lexemes of the tree that a parse returns are the significant lexemes from the cursor to
the end of the stream: none is lost, none is there twice, and their order is kept. -/
theorem yield_eq_significant_lexemes (g : Grammar) (hterm : g.SentinelFree)
    (hapart : g.TerminalsApart) (s : Stream) (hs : s.Tidy) (root : Tree)
    (h : (g.parse s).result? = some (.ok root)) :
    g.yield root = s.significant.map Lexeme.kindText :=
  yield_of_parseAt hterm hapart hs h

/-- Slots with commas between them, each of which holds any number of words. -/
def slotList : Grammar :=
  ((empty "slots").define "slots"
      [.sequence [.nonTerminal "slot", .repetition [.terminal "Comma", .nonTerminal "slot"]]]).define
    "slot" [.repetition [.terminal "Word"]]

/-- An empty slot, a slot with two words and another empty slot, with blanks. -/
def threeSlots : Stream :=
  (Stream.ofLexemes
    [⟨"Space", " ", 1, 1⟩, ⟨"Comma", ",", 1, 2⟩, ⟨"Word", "a", 1, 3⟩, ⟨"Space", " ", 1, 4⟩,
     ⟨"Word", "b", 1, 5⟩, ⟨"Comma", ",", 1, 6⟩]).skipping ["Space"]

/-- The empty slots are nodes without children and no lexemes. -/
def threeSlotsTree : Tree :=
  .ofSymbol "slots"
    [.ofSymbol "slot" [],
     .node repetitionKind (Symbol.renderRepetition [.terminal "Comma", .nonTerminal "slot"])
      [.node "Comma" "," [], .ofSymbol "slot" [.node "Word" "a" [], .node "Word" "b" []],
       .node "Comma" "," [], .ofSymbol "slot" []]]

theorem slotList_yield_threeSlots :
    (slotList.parse threeSlots).result? = some (.ok threeSlotsTree) ∧
      slotList.yield threeSlotsTree =
        [("Comma", ","), ("Word", "a"), ("Word", "b"), ("Comma", ",")] := by
  have hparse : (slotList.parse threeSlots).result? = some (.ok threeSlotsTree) := rfl
  have hyield := yield_eq_significant_lexemes slotList (sentinelFree_of_entries (by decide))
    (terminalsApart_of_entries (by decide)) threeSlots ⟨by decide, by decide⟩ _ hparse
  exact ⟨hparse, hyield.trans rfl⟩

end Grammar

end GrammarCompiler
