import GrammarCompiler.Proofs.Traversal
import GrammarCompiler.Text.Lines
import GrammarCompiler.Tree.Outline

/-!
What an outline tells of a tree. An outline shows labels and tabs and nothing
that closes a node; how far the children of a node go is told by the first line
that is no deeper than the node itself. So what stands behind the lines of some
siblings has to be taken into account: as long as it begins at a lesser depth,
the lines and what is behind them can be told apart, and the siblings are
determined up to what is not shown of them.

Lines, in turn, have to be told from their labels, and tabs from the labels that
they stand in front of. An empty label is no harm to this: its line consists of
tabs only, and they are counted all the same.
-/

namespace GrammarCompiler.Tree

/-- The label stays on its line, and no part of it can be taken for indentation. -/
structure PlainLabel (label : String) : Prop where
  one_line : '\n' ∉ label.toList
  no_indentation : label.toList.head? ≠ some '\t'

instance (label : String) : Decidable (PlainLabel label) :=
  decidable_of_iff ('\n' ∉ label.toList ∧ label.toList.head? ≠ some '\t')
    ⟨fun h => ⟨h.1, h.2⟩, fun h => ⟨h.one_line, h.no_indentation⟩⟩

/-- The labels of all nodes are plain. -/
def PlainlyLabelled (t : Tree) : Prop := ∀ n ∈ t.preorder, PlainLabel n.label

instance (t : Tree) : Decidable t.PlainlyLabelled :=
  inferInstanceAs (Decidable (∀ n ∈ t.preorder, PlainLabel n.label))

/-- The label of the node at the address, if there is one. -/
def labelAt? (t : Tree) (address : List Nat) : Option String := (t.subtree? address).map label

@[simp] theorem labelAt?_nil (t : Tree) : t.labelAt? [] = some t.label := rfl

@[simp] theorem labelAt?_cons (t : Tree) (i : Nat) (address : List Nat) :
    t.labelAt? (i :: address) = t.children[i]?.bind (labelAt? · address) := by
  rw [labelAt?, subtree?_cons, Option.map_bind]
  rfl

/-! ### Labels and shapes -/

@[simp] theorem label_ofSymbol (label : String) (ts : List Tree) :
    (ofSymbol label ts).label = label := if_pos rfl

theorem skeleton_node (k x : String) (cs : List Tree) :
    (node k x cs).skeleton = .ofSymbol (label (.node k x cs)) (forestSkeleton cs) := rfl

theorem forestSkeleton_eq_map (ts : List Tree) : forestSkeleton ts = ts.map skeleton := by
  induction ts with
  | nil => rfl
  | cons t ts ih => rw [forestSkeleton, ih, List.map_cons]

/-- A skeleton has the labels of its tree at the same addresses. -/
theorem labelAt?_skeleton (t : Tree) (address : List Nat) :
    t.skeleton.labelAt? address = t.labelAt? address := by
  induction address generalizing t with
  | nil =>
      cases t
      exact congrArg some (label_ofSymbol _ _)
  | cons i address ih =>
      cases t with
      | node k x cs =>
          rw [skeleton_node, labelAt?_cons, labelAt?_cons, children_ofSymbol, children_node,
            forestSkeleton_eq_map, List.getElem?_map]
          cases cs[i]? with
          | none => rfl
          | some c => exact ih c

theorem forestSkeleton_eq_of_labels {ts us : List Tree}
    (h : ∀ (i : Nat) (address : List Nat),
      ts[i]?.bind (labelAt? · address) = us[i]?.bind (labelAt? · address)) :
    forestSkeleton ts = forestSkeleton us := by
  induction ts using forest_induct generalizing us with
  | nil =>
      cases us with
      | nil => rfl
      | cons u us => exact absurd (h 0 []) (by simp)
  | node k x cs ts ihcs ihts =>
      cases us with
      | nil => exact absurd (h 0 []) (by simp)
      | cons u us =>
          obtain ⟨k', x', cs'⟩ := u
          have hlabel : label (.node k x cs) = label (.node k' x' cs') := by simpa using h 0 []
          have hcs : forestSkeleton cs = forestSkeleton cs' := by
            apply ihcs
            intro i address
            simpa using h 0 (i :: address)
          have hts : forestSkeleton ts = forestSkeleton us := by
            apply ihts
            exact fun i address => h (i + 1) address
          rw [forestSkeleton, forestSkeleton, skeleton_node, skeleton_node, hlabel, hcs, hts]

/-- Skeletons are equal where the trees have the same shape and the same labels. -/
theorem skeleton_eq_iff {a b : Tree} :
    a.skeleton = b.skeleton ↔ ∀ address, a.labelAt? address = b.labelAt? address := by
  constructor
  · intro h address
    rw [← labelAt?_skeleton a, h, labelAt?_skeleton]
  · intro h
    have hforest : forestSkeleton [a] = forestSkeleton [b] := by
      apply forestSkeleton_eq_of_labels
      intro i address
      cases i with
      | zero => exact h address
      | succ i => rfl
    exact List.head_eq_of_cons_eq hforest

/-! ### Rows -/

/-- What an outline says of some siblings at a depth and of everything below them: the depth and the
label of every node. -/
def rows (depth : Nat) (ts : List Tree) : List (Nat × String) :=
  (forestLevels depth ts).map fun (depth, n) => (depth, n.label)

/-- The line of a row, without the line break at its end. -/
def rowLine (row : Nat × String) : List Char := List.replicate row.1 '\t' ++ row.2.toList

theorem rows_node (depth : Nat) (k x : String) (cs ts : List Tree) :
    rows depth (.node k x cs :: ts) =
      (depth, label (.node k x cs)) :: (rows (depth + 1) cs ++ rows depth ts) := by
  simp [rows, forestLevels, levels]

theorem forestOutlineAt_eq (depth : Nat) (ts : List Tree) :
    forestOutlineAt depth ts = (rows depth ts).flatMap fun row => rowLine row ++ ['\n'] := by
  induction ts using forest_induct generalizing depth with
  | nil => rfl
  | node k x cs ts ihcs ihts =>
      rw [forestOutlineAt, outlineAt, ihcs, ihts, rows_node]
      simp [outlineLine, rowLine]

/-- The rows begin at a lesser depth, or there are none. -/
def Outdented (depth : Nat) (rest : List (Nat × String)) : Prop :=
  ∀ row ∈ rest.head?, row.1 < depth

theorem Outdented.rows_append {depth : Nat} {rest : List (Nat × String)}
    (h : Outdented depth rest) (ts : List Tree) : Outdented (depth + 1) (rows depth ts ++ rest) := by
  cases ts with
  | nil => exact fun row hrow => Nat.lt_succ_of_lt (h row hrow)
  | cons t ts =>
      obtain ⟨k, x, cs⟩ := t
      rw [rows_node]
      rintro row ⟨⟩
      exact Nat.lt_succ_self _

theorem Outdented.ne_rows {depth : Nat} {rest : List (Nat × String)} (h : Outdented depth rest)
    (t : Tree) (ts : List Tree) (rest' : List (Nat × String)) :
    rest ≠ rows depth (t :: ts) ++ rest' := by
  rintro rfl
  obtain ⟨k, x, cs⟩ := t
  rw [rows_node] at h
  exact Nat.lt_irrefl depth (h _ rfl)

/-- The rows of siblings can be told from what stands behind them, and determine the siblings up to
what is not shown of them. -/
theorem forestSkeleton_eq_of_rows {depth : Nat} {ts us : List Tree}
    {rest rest' : List (Nat × String)} (h : rows depth ts ++ rest = rows depth us ++ rest')
    (hrest : Outdented depth rest) (hrest' : Outdented depth rest') :
    forestSkeleton ts = forestSkeleton us ∧ rest = rest' := by
  induction ts using forest_induct generalizing depth us rest rest' with
  | nil =>
      cases us with
      | nil => exact ⟨rfl, h⟩
      | cons u us => exact absurd h (hrest.ne_rows u us rest')
  | node k x cs ts ihcs ihts =>
      cases us with
      | nil => exact absurd h.symm (hrest'.ne_rows _ ts rest)
      | cons u us =>
          obtain ⟨k', x', cs'⟩ := u
          rw [rows_node, rows_node, List.cons_append, List.cons_append, List.append_assoc,
            List.append_assoc] at h
          obtain ⟨hrow, hrows⟩ := List.cons.inj h
          -- The rows of the other siblings are what stands behind those of the children.
          obtain ⟨hcs, hothers⟩ := ihcs hrows (hrest.rows_append ts) (hrest'.rows_append us)
          obtain ⟨hts, hbehind⟩ := ihts hothers hrest hrest'
          have hlabel : label (.node k x cs) = label (.node k' x' cs') := congrArg Prod.snd hrow
          refine ⟨?_, hbehind⟩
          rw [forestSkeleton, forestSkeleton, skeleton_node, skeleton_node, hlabel, hcs, hts]

/-- What is not in the skeleton of a tree is not in its outline. -/
theorem rows_forestSkeleton (depth : Nat) (ts : List Tree) :
    rows depth (forestSkeleton ts) = rows depth ts := by
  induction ts using forest_induct generalizing depth with
  | nil => rfl
  | node k x cs ts ihcs ihts =>
      rw [forestSkeleton, skeleton_node, ofSymbol, rows_node, rows_node, ihcs, ihts]
      congr 2
      exact label_ofSymbol _ _

theorem skeleton_eq_iff_rows {a b : Tree} : a.skeleton = b.skeleton ↔ rows 0 [a] = rows 0 [b] := by
  have hnone : Outdented 0 [] := by simp [Outdented]
  constructor
  · intro h
    rw [← rows_forestSkeleton 0 [a], ← rows_forestSkeleton 0 [b], forestSkeleton, forestSkeleton, h]
    rfl
  · intro h
    have hforest := (forestSkeleton_eq_of_rows (congrArg (· ++ []) h) hnone hnone).1
    exact List.head_eq_of_cons_eq hforest

/-! ### Lines -/

/-- The depth and the label that a line shows. -/
def readRow (line : List Char) : Nat × String :=
  ((line.takeWhile (· = '\t')).length, String.ofList (line.dropWhile (· = '\t')))

theorem readRow_rowLine {row : Nat × String} (h : PlainLabel row.2) :
    readRow (rowLine row) = row := by
  have hindentation : ∀ c ∈ List.replicate row.1 '\t', decide (c = '\t') = true := by simp
  have hlabel : row.2.toList.takeWhile (· = '\t') = [] ∧
      row.2.toList.dropWhile (· = '\t') = row.2.toList := by
    have hhead := h.no_indentation
    cases hchars : row.2.toList with
    | nil => exact ⟨rfl, rfl⟩
    | cons c cs =>
        have hc : c ≠ '\t' := by simpa [hchars] using hhead
        simp [hc]
  rw [readRow, rowLine, List.takeWhile_append_of_pos hindentation,
    List.dropWhile_append_of_pos hindentation, hlabel.1, hlabel.2]
  simp

theorem rowLine_oneLine {row : Nat × String} (h : PlainLabel row.2) : '\n' ∉ rowLine row := by
  simp [rowLine, h.one_line]

theorem lines_flatMap_rowLine {rs : List (Nat × String)} (h : ∀ row ∈ rs, PlainLabel row.2) :
    Text.lines (rs.flatMap fun row => rowLine row ++ ['\n']) = rs.map rowLine ++ [[]] := by
  induction rs with
  | nil => rfl
  | cons row rs ih =>
      obtain ⟨hrow, hrs⟩ := List.forall_mem_cons.1 h
      rw [List.flatMap_cons, List.append_assoc, List.singleton_append, Text.lines_append,
        Text.lines_of_not_mem (rowLine_oneLine hrow), ih hrs]
      rfl

/-- Plain labels can be read back from the lines that show them. -/
theorem map_readRow_rowLine {rs : List (Nat × String)} (h : ∀ row ∈ rs, PlainLabel row.2) :
    (rs.map rowLine).map readRow = rs := by
  rw [List.map_map]
  refine Eq.trans (List.map_congr_left fun row hrow => ?_) (List.map_id rs)
  exact readRow_rowLine (h row hrow)

theorem map_snd_forestLevels (depth : Nat) (ts : List Tree) :
    (forestLevels depth ts).map Prod.snd = forestPreorder ts := by
  induction ts using forest_induct generalizing depth with
  | nil => rfl
  | node k x cs ts ihcs ihts =>
      rw [forestLevels, levels, List.map_append, List.map_cons, ihcs, ihts]
      rfl

/-- A node is as deep as its address is long. -/
theorem map_fst_forestLevels (depth first : Nat) (ts : List Tree) :
    (forestLevels (depth + 1) ts).map Prod.fst =
      (forestAddresses first ts).map fun address => depth + address.length := by
  induction ts using forest_induct generalizing depth first with
  | nil => rfl
  | node k x cs ts ihcs ihts =>
      rw [forestLevels, levels, forestAddresses, addresses, List.map_append, List.map_cons,
        List.map_append, ihcs (depth + 1) 0, ihts depth (first + 1)]
      simp [Function.comp_def, Nat.add_assoc, Nat.add_comm 1]

/-! ### Outlines -/

theorem map_fst_levels (t : Tree) : (t.levels 0).map Prod.fst = t.addresses.map List.length := by
  cases t with
  | node k x cs =>
      rw [levels, addresses, List.map_cons, List.map_cons, map_fst_forestLevels 0 0]
      simp

theorem map_snd_levels (t : Tree) : (t.levels 0).map Prod.snd = t.preorder := by
  have hforest := map_snd_forestLevels 0 [t]
  simpa [forestLevels, forestPreorder] using hforest

theorem rows_eq_levels (t : Tree) :
    rows 0 [t] = (t.levels 0).map fun (depth, n) => (depth, n.label) := by
  simp [rows, forestLevels]

theorem PlainlyLabelled.plain_rows {t : Tree} (h : t.PlainlyLabelled) :
    ∀ row ∈ rows 0 [t], PlainLabel row.2 := by
  intro row hrow
  rw [rows_eq_levels] at hrow
  obtain ⟨level, hlevel, rfl⟩ := List.mem_map.1 hrow
  have hmem : level.2 ∈ (t.levels 0).map Prod.snd := List.mem_map_of_mem hlevel
  rw [map_snd_levels] at hmem
  exact h _ hmem

theorem toList_outline (t : Tree) :
    t.outline.toList = (rows 0 [t]).flatMap fun row => rowLine row ++ ['\n'] := by
  rw [← forestOutlineAt_eq, outline, String.toList_ofList, forestOutlineAt, forestOutlineAt,
    List.append_nil]

theorem lines_outline {t : Tree} (h : t.PlainlyLabelled) :
    Text.lines t.outline.toList = (rows 0 [t]).map rowLine ++ [[]] := by
  rw [toList_outline, lines_flatMap_rowLine h.plain_rows]

theorem outline_eq_iff_rows {a b : Tree} (ha : a.PlainlyLabelled) (hb : b.PlainlyLabelled) :
    a.outline = b.outline ↔ rows 0 [a] = rows 0 [b] := by
  constructor
  · intro h
    have hlines : (rows 0 [a]).map rowLine ++ [[]] = (rows 0 [b]).map rowLine ++ [[]] := by
      rw [← lines_outline ha, h, lines_outline hb]
    rw [← map_readRow_rowLine ha.plain_rows, List.append_cancel_right hlines,
      map_readRow_rowLine hb.plain_rows]
  · intro h
    rw [← String.toList_inj, toList_outline, h, toList_outline]

/-- If no label has a line break in it or begins with a tab, then two outlines are the same if and
only if the trees have nodes at the same addresses, with the same labels. The lines of an outline,
but for the empty one behind its last line break, are those of the nodes in the order of a walk,
each indented by its depth, which is the length of its address. -/
theorem outline_determines_labels {a b : Tree} (ha : a.PlainlyLabelled) (hb : b.PlainlyLabelled) :
    (a.outline = b.outline ↔ ∀ address, a.labelAt? address = b.labelAt? address) ∧
    Text.lines a.outline.toList =
      ((a.levels 0).map fun (depth, n) => List.replicate depth '\t' ++ n.label.toList) ++ [[]] ∧
    (a.levels 0).map Prod.snd = a.nodes ∧
    (a.levels 0).map Prod.fst = a.addresses.map List.length := by
  refine ⟨?_, ?_, ?_, map_fst_levels a⟩
  · rw [outline_eq_iff_rows ha hb, ← skeleton_eq_iff_rows, skeleton_eq_iff]
  · rw [lines_outline ha, rows_eq_levels, List.map_map]
    rfl
  · rw [map_snd_levels, nodes_eq_preorder]

/-- An item without a name, and a word next to it. -/
def itemAndWord : Tree := .ofSymbol "list" [.ofSymbol "" [], .node "Word" " a " []]

/-- An item without a name, and a word in it. -/
def wordInItem : Tree := .ofSymbol "list" [.ofSymbol "" [.node "Word" " a " []]]

/-- The same labels in the same order, but the word is indented by one tab or by two. -/
theorem itemAndWord_outline_ne :
    itemAndWord.outline ≠ wordInItem.outline ∧
    Text.lines itemAndWord.outline.toList =
      [['l', 'i', 's', 't'], ['\t'], ['\t', 'W', 'o', 'r', 'd', '<', 'a', '>'], []] := by
  have hitem : itemAndWord.PlainlyLabelled := by decide +kernel
  have hword : wordInItem.PlainlyLabelled := by decide +kernel
  obtain ⟨hiff, hlines, -⟩ := outline_determines_labels hitem hword
  refine ⟨fun h => ?_, hlines.trans (by decide +kernel)⟩
  exact absurd (hiff.1 h [1]) (by decide +kernel)

end GrammarCompiler.Tree
