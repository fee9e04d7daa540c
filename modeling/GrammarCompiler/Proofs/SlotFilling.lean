import GrammarCompiler.Text.Slot

/-!
Filling slots in a text. A placeholder begins with a character that it does
not have anywhere else, so that no occurrence of it can begin inside another
one; and it ends with a character that plain text does not have, so that no
occurrence can end in plain text that is put behind an open one. These two
facts say where the first slot of a text is, without looking at the text
character by character.
-/

namespace GrammarCompiler.Text

variable {pattern text before after : List Char} {head : Char} {tail : List Char}

/-! ### The first occurrence -/

theorem eq_append_of_splitFirst? (h : splitFirst? pattern text = some (before, after)) :
    text = before ++ (pattern ++ after) := by
  induction text generalizing before with
  | nil =>
      rw [splitFirst?_nil] at h
      obtain ⟨after', hdrop, hpair⟩ := Option.map_eq_some_iff.1 h
      obtain ⟨rfl, rfl⟩ := Prod.mk.inj hpair
      rw [List.nil_append, ← eq_append_of_dropLeading? hdrop]
  | cons c text ih =>
      rw [splitFirst?_cons] at h
      cases hdrop : dropLeading? pattern (c :: text) with
      | some after' =>
          rw [hdrop] at h
          obtain ⟨rfl, rfl⟩ := Prod.mk.inj (Option.some.inj h)
          rw [List.nil_append, ← eq_append_of_dropLeading? hdrop]
      | none =>
          rw [hdrop] at h
          obtain ⟨⟨before', after'⟩, hsplit, hpair⟩ := Option.map_eq_some_iff.1 h
          obtain ⟨rfl, rfl⟩ := Prod.mk.inj hpair
          rw [ih hsplit]
          rfl

theorem splitFirst?_eq_none (h : ¬ pattern <:+: text) : splitFirst? pattern text = none := by
  cases hsplit : splitFirst? pattern text with
  | none => rfl
  | some pair =>
      have htext : text = pair.1 ++ (pattern ++ pair.2) := eq_append_of_splitFirst? hsplit
      exact absurd ⟨pair.1, pair.2, by rw [htext, List.append_assoc]⟩ h

theorem dropLeading?_eq_none (h : ¬ pattern <+: text) : dropLeading? pattern text = none := by
  cases hdrop : dropLeading? pattern text with
  | none => rfl
  | some after => exact absurd ⟨after, (eq_append_of_dropLeading? hdrop).symm⟩ h

/-- Text in which no occurrence begins is passed over. -/
theorem splitFirst?_append_of_not_mem (h : head ∉ text) (rest : List Char) :
    splitFirst? (head :: tail) (text ++ rest) =
      (splitFirst? (head :: tail) rest).map fun (before, after) => (text ++ before, after) := by
  induction text with
  | nil => simp
  | cons c text ih =>
      obtain ⟨hc, htext⟩ : head ≠ c ∧ head ∉ text := by simpa using h
      rw [List.cons_append, splitFirst?_cons, dropLeading?, if_neg hc, ih htext, Option.map_map]
      rfl

theorem splitFirst?_cons_append {c : Char} {rest : List Char}
    (hdrop : dropLeading? (head :: tail) (c :: text ++ rest) = none) (h : head ∉ text) :
    splitFirst? (head :: tail) (c :: text ++ rest) =
      (splitFirst? (head :: tail) rest).map fun (before, after) =>
        (c :: text ++ before, after) := by
  rw [List.cons_append, splitFirst?_cons, ← List.cons_append, hdrop,
    splitFirst?_append_of_not_mem h, Option.map_map]
  rfl

theorem splitFirst?_append_self (head : Char) (tail rest : List Char) :
    splitFirst? (head :: tail) (head :: tail ++ rest) = some ([], rest) := by
  rw [List.cons_append, splitFirst?_cons, ← List.cons_append, dropLeading?_append]

/-- An occurrence cannot begin in front of a slot and end in it. -/
theorem not_prefix_append (hhead : head ∉ tail) {c : Char} {pre post : List Char}
    (hpre : ¬ head :: tail <+: c :: pre) :
    ¬ head :: tail <+: c :: pre ++ (head :: tail ++ post) := by
  rintro ⟨after, h⟩
  rcases List.append_eq_append_iff.1 h with ⟨more, hmore, -⟩ | ⟨more, hmore, hrest⟩
  · exact hpre ⟨more, hmore.symm⟩
  · cases more with
    | nil => exact hpre ⟨[], by simpa using hmore⟩
    | cons x more =>
        -- The slot begins inside the occurrence, behind its first character.
        obtain ⟨rfl, -⟩ := List.cons.inj hrest
        obtain ⟨-, rfl⟩ := List.cons.inj hmore
        exact hhead (by simp)

/-- The first occurrence is the slot that no other slot stands in front of. -/
theorem splitFirst?_slot (hhead : head ∉ tail) {pre post : List Char}
    (hpre : ¬ head :: tail <:+: pre) :
    splitFirst? (head :: tail) (pre ++ (head :: tail ++ post)) = some (pre, post) := by
  induction pre with
  | nil => exact splitFirst?_append_self head tail post
  | cons c pre ih =>
      have hnot : ¬ head :: tail <+: c :: pre ++ (head :: tail ++ post) :=
        not_prefix_append hhead fun hp => hpre hp.isInfix
      have hpre' : ¬ head :: tail <:+: pre := fun hi => hpre (List.infix_cons hi)
      rw [List.cons_append, splitFirst?_cons, ← List.cons_append, dropLeading?_eq_none hnot,
        ih hpre']
      rfl

theorem fillFirst?_slot (hhead : head ∉ tail) {pre post : List Char}
    (hpre : ¬ head :: tail <:+: pre) (value : List Char) :
    fillFirst? (head :: tail) value (pre ++ (head :: tail ++ post)) =
      some (pre ++ (value ++ post)) := by
  rw [fillFirst?, splitFirst?_slot hhead hpre]
  rfl

/-- Text that does not have the last character of a placeholder cannot complete one. -/
theorem not_infix_append {init : List Char} {last : Char} {pre text : List Char}
    (hpre : ¬ init ++ [last] <:+: pre) (hlast : last ∉ text) :
    ¬ init ++ [last] <:+: pre ++ text := by
  rintro ⟨front, back, h⟩
  rcases List.append_eq_append_iff.1 h with ⟨more, hmore, -⟩ | ⟨more, hmore, hrest⟩
  · exact hpre ⟨front, more, hmore.symm⟩
  · rcases List.eq_nil_or_concat more with rfl | ⟨more, x, rfl⟩
    · exact hpre ⟨front, [], by simpa using hmore⟩
    · rw [List.concat_eq_append, ← List.append_assoc, ← List.append_assoc] at hmore
      obtain ⟨-, hx⟩ := List.append_inj' hmore rfl
      obtain rfl := (List.cons.inj hx).1
      exact hlast (by simp [hrest])

/-! ### All occurrences -/

theorem length_lt_of_splitFirst? (h : splitFirst? (head :: tail) text = some (before, after)) :
    after.length < text.length := by
  rw [eq_append_of_splitFirst? h]
  simp only [List.length_append, List.length_cons]
  omega

theorem fillUpTo_nil (value : List Char) (rounds : Nat) :
    fillUpTo (head :: tail) value rounds [] = [] := by
  cases rounds <;> rfl

/-- The number of rounds does not matter as long as it is large enough. -/
theorem fillUpTo_eq (value : List Char) {rounds rounds' : Nat} (h : text.length ≤ rounds)
    (h' : text.length ≤ rounds') :
    fillUpTo (head :: tail) value rounds text = fillUpTo (head :: tail) value rounds' text := by
  induction rounds generalizing rounds' text with
  | zero =>
      obtain rfl := List.eq_nil_of_length_eq_zero (Nat.le_zero.1 h)
      rw [fillUpTo_nil, fillUpTo_nil]
  | succ rounds ih =>
      cases rounds' with
      | zero =>
          obtain rfl := List.eq_nil_of_length_eq_zero (Nat.le_zero.1 h')
          rw [fillUpTo_nil, fillUpTo_nil]
      | succ rounds' =>
          rw [fillUpTo, fillUpTo]
          cases hsplit : splitFirst? (head :: tail) text with
          | none => rfl
          | some pair =>
              have hlt := length_lt_of_splitFirst? hsplit
              have hrec : fillUpTo (head :: tail) value rounds pair.2 =
                  fillUpTo (head :: tail) value rounds' pair.2 := ih (by omega) (by omega)
              simp only [hrec]

/-- What is in front of the first occurrence stays, and filling goes on behind the value. -/
theorem fillAll_cons (value text : List Char) :
    fillAll (head :: tail) value text =
      match splitFirst? (head :: tail) text with
      | none => text
      | some (before, after) => before ++ (value ++ fillAll (head :: tail) value after) := by
  change fillUpTo (head :: tail) value text.length text = _
  rw [fillUpTo_eq value (Nat.le_refl _) (Nat.le_succ _), fillUpTo]
  cases hsplit : splitFirst? (head :: tail) text with
  | none => rfl
  | some pair =>
      have hlt := length_lt_of_splitFirst? hsplit
      have hrec : fillUpTo (head :: tail) value text.length pair.2 =
          fillUpTo (head :: tail) value pair.2.length pair.2 :=
        fillUpTo_eq value (Nat.le_of_lt hlt) (Nat.le_refl _)
      simp only [hrec]
      rfl

/-- Text that the search for the first occurrence passes over is passed over by filling. -/
theorem fillAll_append {rest : List Char}
    (h : splitFirst? (head :: tail) (text ++ rest) =
      (splitFirst? (head :: tail) rest).map fun (before, after) => (text ++ before, after))
    (value : List Char) :
    fillAll (head :: tail) value (text ++ rest) =
      text ++ fillAll (head :: tail) value rest := by
  rw [fillAll_cons, fillAll_cons value rest, h]
  cases splitFirst? (head :: tail) rest with
  | none => rfl
  | some pair => simp

theorem fillAll_append_self (head : Char) (tail value rest : List Char) :
    fillAll (head :: tail) value (head :: tail ++ rest) =
      value ++ fillAll (head :: tail) value rest := by
  rw [fillAll_cons, splitFirst?_append_self]
  rfl

end GrammarCompiler.Text
