import GrammarCompiler.Tree.Address
import GrammarCompiler.Tree.Walk

/-!
Walks visit trees in pre-order. In the middle of a walk the stack holds parts
of several subtrees that have been entered and not left, and no single tree
tells what is still to come. But the nodes of what is pending, tree by tree and
each in pre-order, are just that at every moment: a step takes the first of
them away. So a walk that has come to its end has visited them all, and it does
come to an end, because each step leaves one node less.
-/

namespace GrammarCompiler

namespace Tree

theorem length_forestPreorder (ts : List Tree) : (forestPreorder ts).length = forestSize ts := by
  induction ts using forest_induct with
  | nil => rfl
  | node k x cs ts ihcs ihts =>
      rw [forestPreorder, preorder, List.length_append, List.length_cons, ihcs, ihts]
      rfl

end Tree

namespace Walk

open GrammarCompiler.Tree (forestPreorder)

/-- Steps that visit the given nodes lead from the first walk to the second. -/
inductive Yields : Walk → List Tree → Walk → Prop where
  | refl (w : Walk) : Yields w [] w
  | step {w w' w'' : Walk} {t : Tree} {visited : List Tree} :
    w.next? = some (t, w') → Yields w' visited w'' → Yields w (t :: visited) w''

variable {w w' : Walk} {t : Tree} {visited : List Tree}

/-- A step visits the first of the nodes that are still to be visited. -/
theorem forestPreorder_of_next? (h : w.next? = some (t, w')) :
    forestPreorder w.pending = t :: forestPreorder w'.pending := by
  rcases w with ⟨_ | ⟨⟨k, x, cs⟩, ts⟩⟩
  · cases h
  · obtain ⟨rfl, rfl⟩ : Tree.node k x cs = t ∧ Walk.mk (cs ++ ts) = w' := by
      simpa [next?] using h
    show _ = Tree.node k x cs :: forestPreorder (cs ++ ts)
    rw [Tree.forestPreorder_append]
    rfl

theorem next?_eq_none_iff : w.next? = none ↔ forestPreorder w.pending = [] := by
  cases hnext : w.next? with
  | none =>
      rcases w with ⟨_ | ⟨t, ts⟩⟩
      · exact iff_of_true rfl rfl
      · cases hnext
  | some step => simp [forestPreorder_of_next? hnext]

theorem exists_next? {rest : List Tree} (h : forestPreorder w.pending = t :: rest) :
    ∃ w', w.next? = some (t, w') ∧ forestPreorder w'.pending = rest := by
  cases hnext : w.next? with
  | none =>
      rw [next?_eq_none_iff.1 hnext] at h
      cases h
  | some step =>
      obtain ⟨rfl, hrest⟩ := List.cons.inj ((forestPreorder_of_next? hnext).symm.trans h)
      exact ⟨step.2, rfl, hrest⟩

/-- What has been visited and what is still to be visited are always the same nodes. -/
theorem Yields.forestPreorder_eq (h : w.Yields visited w') :
    forestPreorder w.pending = visited ++ forestPreorder w'.pending := by
  induction h with
  | refl w => rfl
  | step hnext _ ih => rw [forestPreorder_of_next? hnext, ih, List.cons_append]

/-- The walk can always go on to its end. -/
theorem exists_yields_end (w : Walk) :
    ∃ w', w.Yields (forestPreorder w.pending) w' ∧ w'.next? = none := by
  induction hrest : forestPreorder w.pending generalizing w with
  | nil => exact ⟨w, .refl w, next?_eq_none_iff.2 hrest⟩
  | cons t rest ih =>
      obtain ⟨w', hnext, hrest'⟩ := exists_next? hrest
      obtain ⟨w'', hyields, hend⟩ := ih w' hrest'
      exact ⟨w'', .step hnext hyields, hend⟩

theorem yields_end_iff :
    (∃ w', w.Yields visited w' ∧ w'.next? = none) ↔ visited = forestPreorder w.pending := by
  constructor
  · rintro ⟨w', hyields, hend⟩
    rw [hyields.forestPreorder_eq, next?_eq_none_iff.1 hend, List.append_nil]
  · rintro rfl
    exact exists_yields_end w

theorem take_eq (steps : Nat) (w : Walk) :
    w.take steps = (forestPreorder w.pending).take steps := by
  induction steps generalizing w with
  | zero => rfl
  | succ steps ih =>
      rw [take]
      cases hnext : w.next? with
      | none => simp [next?_eq_none_iff.1 hnext]
      | some step => simp [forestPreorder_of_next? hnext, ih]

theorem nodes_eq (w : Walk) : w.nodes = forestPreorder w.pending := by
  rw [nodes, take_eq, remaining, ← Tree.length_forestPreorder, List.take_length]

end Walk

namespace Tree

theorem nodes_eq_preorder (t : Tree) : t.nodes = t.preorder := by
  rw [nodes, Walk.nodes_eq]
  exact List.append_nil _

/-- A search stops at the first node of the kind. -/
theorem find?_eq_some_iff_first {t n : Tree} {kind : String} :
    t.find? kind = some n ↔ ∃ front back, t.preorder = front ++ n :: back ∧
      n.kind = kind ∧ ∀ m ∈ front, m.kind ≠ kind := by
  rw [find?, nodes_eq_preorder, List.find?_eq_some_iff_append]
  constructor
  · rintro ⟨hkind, front, back, hnodes, hfront⟩
    exact ⟨front, back, hnodes, by simpa using hkind, by simpa using hfront⟩
  · rintro ⟨front, back, hnodes, hkind, hfront⟩
    exact ⟨by simpa using hkind, front, back, hnodes, by simpa using hfront⟩

/-- The nodes that a walk over the tree has visited and those of the trees that are pending are at
every moment the nodes of the tree in pre-order. A walk that goes on to its end, as it always can,
has visited the nodes in pre-order. They are the nodes at the addresses of the tree in
lexicographic order, one at each address at which there is a node. So a search finds the first node
of a kind in this order, or nothing if there is none, and a search for all finds them in this
order. -/
theorem walk_visits_nodes_in_preorder (t : Tree) :
    (∀ visited w, (Walk.start t).Yields visited w →
      t.preorder = visited ++ forestPreorder w.pending) ∧
    (∀ visited, (∃ w, (Walk.start t).Yields visited w ∧ w.next? = none) ↔
      visited = t.preorder) ∧
    t.nodes = t.preorder ∧
    (t.addresses.map t.subtree? = t.preorder.map some ∧ t.addresses.Pairwise (· < ·) ∧
      ∀ address, address ∈ t.addresses ↔ (t.subtree? address).isSome = true) ∧
    ∀ kind,
      (∀ n, t.find? kind = some n ↔ ∃ front back, t.preorder = front ++ n :: back ∧
        n.kind = kind ∧ ∀ m ∈ front, m.kind ≠ kind) ∧
      (t.find? kind = none ↔ t.findAll kind = []) ∧
      t.findAll kind = t.preorder.filter (·.kind = kind) := by
  have hstart : forestPreorder (Walk.start t).pending = t.preorder := List.append_nil _
  have haddresses := map_subtree?_addresses t
  refine ⟨fun visited w h => ?_, fun visited => ?_, nodes_eq_preorder t,
    ⟨haddresses, pairwise_addresses t, fun address => mem_addresses⟩, fun kind => ⟨?_, ?_, ?_⟩⟩
  · rw [← hstart, h.forestPreorder_eq]
  · rw [Walk.yields_end_iff, hstart]
  · exact fun n => find?_eq_some_iff_first
  · rw [find?, findAll, List.find?_eq_none, List.filter_eq_nil_iff]
  · rw [findAll, nodes_eq_preorder]

end Tree

end GrammarCompiler
