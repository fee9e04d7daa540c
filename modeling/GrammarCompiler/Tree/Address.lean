import GrammarCompiler.Tree

/-!
Addresses of nodes. Trees are values, and two nodes of one tree may well be
equal; what tells them apart is the way that leads down to them from the root.
An address lists the numbers of the children on that way. It is a beginning of
the addresses below it, so that in lexicographic order a node comes before what
is below it, and that before what is to its right.
-/

namespace GrammarCompiler.Tree

/-- The subtree at the address, if there is a node. -/
def subtree? (t : Tree) : List Nat → Option Tree
  | [] => some t
  | i :: address => t.children[i]?.bind fun c => c.subtree? address

mutual
/-- The addresses of the nodes of the tree, each in front of the addresses below it. -/
def addresses : Tree → List (List Nat)
  | .node _ _ cs => [] :: forestAddresses 0 cs

/-- The addresses of the nodes of some siblings, the first of which is child number `first`. -/
def forestAddresses (first : Nat) : List Tree → List (List Nat)
  | [] => []
  | t :: ts => t.addresses.map (first :: ·) ++ forestAddresses (first + 1) ts
end

@[simp] theorem subtree?_nil (t : Tree) : t.subtree? [] = some t := rfl

@[simp] theorem subtree?_cons (t : Tree) (i : Nat) (address : List Nat) :
    t.subtree? (i :: address) = t.children[i]?.bind fun c => c.subtree? address := rfl

theorem mem_forestAddresses {first : Nat} {ts : List Tree} {address : List Nat} :
    address ∈ forestAddresses first ts ↔
      ∃ n t rest, address = (first + n) :: rest ∧ ts[n]? = some t ∧ rest ∈ t.addresses := by
  induction ts generalizing first with
  | nil => simp [forestAddresses]
  | cons t ts ih =>
      rw [forestAddresses, List.mem_append, List.mem_map, ih]
      constructor
      · rintro (⟨rest, hrest, rfl⟩ | ⟨n, u, rest, rfl, hu, hrest⟩)
        · exact ⟨0, t, rest, rfl, rfl, hrest⟩
        · exact ⟨n + 1, u, rest, by rw [Nat.add_right_comm, Nat.add_assoc], hu, hrest⟩
      · rintro ⟨n, u, rest, rfl, hu, hrest⟩
        cases n with
        | zero =>
            obtain rfl : t = u := Option.some.inj hu
            exact .inl ⟨rest, hrest, rfl⟩
        | succ n => exact .inr ⟨n, u, rest, by rw [Nat.add_right_comm, Nat.add_assoc], hu, hrest⟩

theorem cons_mem_addresses {t : Tree} {i : Nat} {address : List Nat} :
    i :: address ∈ t.addresses ↔ ∃ c, t.children[i]? = some c ∧ address ∈ c.addresses := by
  cases t with
  | node k x cs =>
      rw [addresses, List.mem_cons, mem_forestAddresses]
      constructor
      · rintro (hroot | ⟨n, c, rest, heq, hc, hrest⟩)
        · cases hroot
        · obtain ⟨rfl, rfl⟩ : i = n ∧ address = rest := by simpa using heq
          exact ⟨c, hc, hrest⟩
      · rintro ⟨c, hc, haddress⟩
        exact .inr ⟨i, c, address, by rw [Nat.zero_add], hc, haddress⟩

/-- The addresses are all those at which there is a node. -/
theorem mem_addresses {t : Tree} {address : List Nat} :
    address ∈ t.addresses ↔ (t.subtree? address).isSome = true := by
  induction address generalizing t with
  | nil =>
      cases t
      simp [addresses]
  | cons i address ih =>
      rw [cons_mem_addresses, subtree?_cons]
      cases hc : t.children[i]? with
      | none => simp
      | some c => simp [ih]

theorem pairwise_forestAddresses (ts : List Tree) (first : Nat) :
    (forestAddresses first ts).Pairwise (· < ·) := by
  induction ts using forest_induct generalizing first with
  | nil => exact .nil
  | node k x cs ts ihcs ihts =>
      have hroot : ∀ address ∈ forestAddresses 0 cs, [] < address := by
        intro address haddress
        obtain ⟨n, t, rest, rfl, -, -⟩ := mem_forestAddresses.1 haddress
        exact List.nil_lt_cons _ _
      rw [forestAddresses, addresses, List.pairwise_append, List.pairwise_map]
      refine ⟨?_, ihts (first + 1), ?_⟩
      · refine (List.pairwise_cons.2 ⟨hroot, ihcs 0⟩).imp fun hlt => ?_
        exact List.cons_lt_cons_iff.2 (.inr ⟨rfl, hlt⟩)
      · intro a ha b hb
        obtain ⟨rest, -, rfl⟩ := List.mem_map.1 ha
        obtain ⟨n, t, rest', rfl, -, -⟩ := mem_forestAddresses.1 hb
        exact List.cons_lt_cons_iff.2 (.inl (by omega))

/-- The addresses are listed in lexicographic order, and so none is listed twice. -/
theorem pairwise_addresses (t : Tree) : t.addresses.Pairwise (· < ·) := by
  have hsiblings := pairwise_forestAddresses [t] 0
  rw [forestAddresses, forestAddresses, List.append_nil, List.pairwise_map] at hsiblings
  refine hsiblings.imp fun hlt => ?_
  exact (List.cons_lt_cons_iff.1 hlt).elim (fun h => absurd h (Nat.lt_irrefl 0)) And.right

/-- The nodes of some siblings are found at their addresses, with the siblings in front of them in
their place. -/
theorem map_subtree?_forestAddresses (kind text : String) (front ts : List Tree) :
    (forestAddresses front.length ts).map (node kind text (front ++ ts)).subtree? =
      (forestPreorder ts).map some := by
  induction ts using forest_induct generalizing kind text front with
  | nil => rfl
  | node k x cs ts ihcs ihts =>
      have hfirst : (node k x cs).addresses.map (node k x cs).subtree? =
          (node k x cs).preorder.map some := by
        rw [addresses, preorder, List.map_cons, List.map_cons, subtree?_nil]
        exact congrArg _ (ihcs k x [])
      have hother := ihts kind text (front ++ [node k x cs])
      rw [List.length_append, List.length_singleton, List.append_assoc,
        List.singleton_append] at hother
      rw [forestAddresses, forestPreorder, List.map_append, List.map_append, hother, ← hfirst,
        List.map_map]
      refine congrArg (· ++ _) (List.map_congr_left fun address _ => ?_)
      simp

/-- Pre-order is the order of the addresses. -/
theorem map_subtree?_addresses (t : Tree) :
    t.addresses.map t.subtree? = t.preorder.map some := by
  have hsiblings := map_subtree?_forestAddresses t.kind t.text [] [t]
  simpa [forestAddresses, forestPreorder, Function.comp_def] using hsiblings

end GrammarCompiler.Tree
