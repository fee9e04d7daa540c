import GrammarCompiler.Ebnf.Reader
import GrammarCompiler.Ebnf.Rendering

/-!
Layout and tokens of the notation. For every reader of this level there are
two lemmas: what it accepts is a text of its kind in front of the rest, and it
accepts such a text in front of every rest that cannot be mistaken for a part
of it. Layout is never mistaken for a token, because no token begins with a
blank or a parenthesis, and a name ends where the next character is no part of
a name.
-/

namespace GrammarCompiler.Ebnf

/-! ### Comments -/

theorem CommentBody.tail {c : Char} {body : List Char} (h : CommentBody (c :: body)) :
    CommentBody body := by
  intro before after heq
  apply h (c :: before) after
  rw [List.cons_append, heq, List.cons_append]

theorem commentBody_nil : CommentBody [] := by
  intro before after heq
  have hlength := congrArg List.length heq
  simp only [List.nil_append, List.length_append, List.length_cons] at hlength
  simp only [List.length_nil] at hlength
  omega

/-- The first end of a comment stays the first if a character that opens none is put in front. -/
theorem CommentBody.cons {c : Char} {body : List Char} (h : CommentBody body)
    (hc : c = '*' → ∀ rest, body ++ ['*'] ≠ ')' :: rest) : CommentBody (c :: body) := by
  intro before after heq
  cases before with
  | nil =>
      obtain ⟨hstar, hparen⟩ := List.cons.inj heq
      exact hc hstar after hparen
  | cons d before => exact h before after (List.cons.inj heq).2

theorem afterComment?_append {body : List Char} (h : CommentBody body) (rest : List Char) :
    afterComment? (body ++ '*' :: ')' :: rest) = some rest := by
  induction body with
  | nil => rfl
  | cons c body ih =>
      have hopen : ∀ rest', c = '*' → body ++ '*' :: ')' :: rest = ')' :: rest' → False := by
        rintro rest' rfl heq
        cases body with
        | nil => cases heq
        | cons d body =>
            obtain ⟨rfl, -⟩ := List.cons.inj heq
            exact h [] (body ++ ['*']) rfl
      rw [List.cons_append, afterComment?.eq_3 _ _ hopen]
      exact ih h.tail

theorem exists_of_afterComment? {text rest : List Char} (h : afterComment? text = some rest) :
    ∃ body, CommentBody body ∧ text = body ++ '*' :: ')' :: rest := by
  fun_induction afterComment? text with
  | case1 => cases h
  | case2 behind =>
      obtain rfl := Option.some.inj h
      exact ⟨[], commentBody_nil, rfl⟩
  | case3 c text hopen ih =>
      obtain ⟨body, hbody, rfl⟩ := ih h
      refine ⟨c :: body, hbody.cons fun hc rest' heq => ?_, rfl⟩
      cases body with
      | nil => cases heq
      | cons d body =>
          obtain ⟨rfl, -⟩ := List.cons.inj heq
          exact hopen _ hc rfl

/-! ### Layout -/

theorem length_lt_of_afterComment? {text rest : List Char} (h : afterComment? text = some rest) :
    rest.length < text.length := by
  obtain ⟨body, -, rfl⟩ := exists_of_afterComment? h
  simp only [List.length_append, List.length_cons]
  omega

/-- The text neither begins with a blank nor opens a comment that is closed. -/
def Unspaced (text : List Char) : Prop :=
  (∀ c ∈ text.head?, isBlank c = false) ∧
    ∀ body, text = '(' :: '*' :: body → afterComment? body = none

/-- A text begins with a blank, with a comment or with neither. -/
theorem unspaced_or (text : List Char) :
    Unspaced text ∨ (∃ c rest, isBlank c = true ∧ text = c :: rest) ∨
      ∃ body rest, afterComment? body = some rest ∧ text = '(' :: '*' :: body := by
  by_cases hblank : ∃ c rest, isBlank c = true ∧ text = c :: rest
  · exact .inr (.inl hblank)
  by_cases hcomment : ∃ body rest, afterComment? body = some rest ∧ text = '(' :: '*' :: body
  · exact .inr (.inr hcomment)
  refine .inl ⟨fun c hc => ?_, fun body heq => ?_⟩
  · obtain ⟨rest, rfl⟩ := List.head?_eq_some_iff.1 hc
    exact Bool.eq_false_iff.2 fun hb => hblank ⟨c, rest, hb, rfl⟩
  · refine Option.eq_none_iff_forall_ne_some.2 fun rest hrest => ?_
    exact hcomment ⟨body, rest, hrest, heq⟩

theorem skipLayoutUpTo_unspaced {text : List Char} (h : Unspaced text) (steps : Nat) :
    skipLayoutUpTo steps text = text := by
  cases steps with
  | zero => rfl
  | succ steps =>
      cases text with
      | nil => rfl
      | cons c rest =>
          have hc : ¬ isBlank c = true := by simp [h.1 c rfl]
          rw [skipLayoutUpTo, if_neg hc]
          split
          · next body heq => rw [h.2 body heq]
          · rfl

theorem skipLayoutUpTo_blank {c : Char} (h : isBlank c = true) (rest : List Char) (steps : Nat) :
    skipLayoutUpTo (steps + 1) (c :: rest) = skipLayoutUpTo steps rest := by
  rw [skipLayoutUpTo, if_pos h]

theorem skipLayoutUpTo_comment {body rest : List Char} (h : afterComment? body = some rest)
    (steps : Nat) :
    skipLayoutUpTo (steps + 1) ('(' :: '*' :: body) = skipLayoutUpTo steps rest := by
  have hopen : ¬ isBlank '(' = true := by decide
  rw [skipLayoutUpTo, if_neg hopen]
  simp only [h]

/-- The bound on the steps does not matter once it is the length of the text. -/
theorem skipLayoutUpTo_congr {m n : Nat} {text : List Char} (hm : text.length ≤ m)
    (hn : text.length ≤ n) : skipLayoutUpTo m text = skipLayoutUpTo n text := by
  induction m generalizing n text with
  | zero =>
      obtain rfl : text = [] := List.length_eq_zero_iff.1 (by omega)
      cases n <;> rfl
  | succ m ih =>
      rcases unspaced_or text with hopen | ⟨c, rest, hblank, rfl⟩ | ⟨body, rest, hbody, rfl⟩
      · rw [skipLayoutUpTo_unspaced hopen, skipLayoutUpTo_unspaced hopen]
      · obtain ⟨n, rfl⟩ : ∃ k, n = k + 1 := Nat.exists_eq_add_one.2 (Nat.lt_of_lt_of_le (by simp) hn)
        rw [skipLayoutUpTo_blank hblank, skipLayoutUpTo_blank hblank]
        exact ih (Nat.le_of_succ_le_succ hm) (Nat.le_of_succ_le_succ hn)
      · obtain ⟨n, rfl⟩ : ∃ k, n = k + 1 := Nat.exists_eq_add_one.2 (Nat.lt_of_lt_of_le (by simp) hn)
        rw [skipLayoutUpTo_comment hbody, skipLayoutUpTo_comment hbody]
        have hrest := length_lt_of_afterComment? hbody
        simp only [List.length_cons] at hm hn
        exact ih (by omega) (by omega)

theorem skipLayout_unspaced {text : List Char} (h : Unspaced text) : skipLayout text = text :=
  skipLayoutUpTo_unspaced h _

theorem skipLayout_blank {c : Char} (h : isBlank c = true) (rest : List Char) :
    skipLayout (c :: rest) = skipLayout rest :=
  skipLayoutUpTo_blank h rest rest.length

theorem skipLayout_comment {body rest : List Char} (h : afterComment? body = some rest) :
    skipLayout ('(' :: '*' :: body) = skipLayout rest := by
  have hrest := length_lt_of_afterComment? h
  calc skipLayout ('(' :: '*' :: body) = skipLayoutUpTo (body.length + 1) rest :=
        skipLayoutUpTo_comment h (body.length + 1)
    _ = skipLayout rest := skipLayoutUpTo_congr (by omega) (Nat.le_refl _)

/-- Layout in front is skipped, and nothing but layout is. -/
theorem Layout.skipLayout_append {gap : List Char} (h : Layout gap) (text : List Char) :
    skipLayout (gap ++ text) = skipLayout text := by
  induction h with
  | nil => rfl
  | blank hblank _ ih =>
      rw [List.cons_append, skipLayout_blank hblank]
      exact ih
  | @comment body rest hbody _ ih =>
      have hend : afterComment? (body ++ '*' :: ')' :: rest ++ text) = some (rest ++ text) := by
        rw [List.append_assoc]
        exact afterComment?_append hbody (rest ++ text)
      rw [List.cons_append, List.cons_append, skipLayout_comment hend]
      exact ih

theorem exists_layout (text : List Char) :
    ∃ gap, Layout gap ∧ text = gap ++ skipLayout text := by
  induction hn : text.length using Nat.strongRecOn generalizing text with
  | ind n ih =>
      rcases unspaced_or text with hopen | ⟨c, rest, hblank, rfl⟩ | ⟨body, rest, hbody, rfl⟩
      · exact ⟨[], .nil, (skipLayout_unspaced hopen).symm⟩
      · obtain ⟨gap, hgap, heq⟩ := ih rest.length (by simp [← hn]) rest rfl
        refine ⟨c :: gap, .blank hblank hgap, ?_⟩
        rw [skipLayout_blank hblank, List.cons_append, ← heq]
      · have hless := length_lt_of_afterComment? hbody
        obtain ⟨gap, hgap, heq⟩ := ih rest.length (by simp [← hn]; omega) rest rfl
        obtain ⟨inside, hinside, rfl⟩ := exists_of_afterComment? hbody
        refine ⟨'(' :: '*' :: (inside ++ '*' :: ')' :: gap), .comment hinside hgap, ?_⟩
        rw [skipLayout_comment hbody]
        simp [← heq]

theorem layout_iff_skipLayout {text : List Char} : Layout text ↔ skipLayout text = [] := by
  constructor
  · intro h
    have happend := h.skipLayout_append []
    rw [List.append_nil] at happend
    exact happend
  · intro h
    obtain ⟨gap, hgap, heq⟩ := exists_layout text
    rw [h, List.append_nil] at heq
    rw [heq]
    exact hgap

/-! ### Characters in front of which layout ends -/

/-- A character with which a token can begin. -/
def StartsToken (c : Char) : Prop := isBlank c = false ∧ c ≠ '('

instance (c : Char) : Decidable (StartsToken c) := inferInstanceAs (Decidable (_ ∧ _))

theorem skipLayout_token {c : Char} (h : StartsToken c) (rest : List Char) :
    skipLayout (c :: rest) = c :: rest := by
  refine skipLayout_unspaced ⟨?_, ?_⟩
  · rintro d hd
    obtain rfl : c = d := by simpa using hd
    exact h.1
  · intro body heq
    exact absurd (List.cons.inj heq).1 h.2

theorem isNamePart_of_isBlank {c : Char} (h : isBlank c = true) : isNamePart c = false := by
  simp only [isBlank, Bool.or_eq_true, beq_iff_eq] at h
  rcases h with ((rfl | rfl) | rfl) | rfl <;> decide

theorem isNamePart_of_isNameStart {c : Char} (h : isNameStart c = true) :
    isNamePart c = true := by
  simp only [isNameStart, isNamePart, Char.isAlphanum, Bool.or_eq_true] at h ⊢
  rcases h with h | h
  · exact .inl (.inl h)
  · exact .inr h

theorem startsToken_of_isNamePart {c : Char} (h : isNamePart c = true) : StartsToken c := by
  refine ⟨Bool.eq_false_iff.2 fun hblank => ?_, ?_⟩
  · rw [isNamePart_of_isBlank hblank] at h
    cases h
  · rintro rfl
    revert h
    decide

/-- A name in front of the text ends in front of the text. -/
def Apart (text : List Char) : Prop := ∀ c ∈ text.head?, isNamePart c = false

theorem Layout.apart {gap : List Char} (h : Layout gap) {text : List Char} (htext : Apart text) :
    Apart (gap ++ text) := by
  cases h with
  | nil => exact htext
  | blank hblank _ =>
      intro c hc
      obtain rfl := Option.some.inj hc
      exact isNamePart_of_isBlank hblank
  | comment _ _ =>
      intro c hc
      obtain rfl := Option.some.inj hc
      decide

theorem apart_cons {c : Char} (h : isNamePart c = false) (rest : List Char) :
    Apart (c :: rest) := by
  intro d hd
  obtain rfl := Option.some.inj hd
  exact h

/-! ### Marks -/

theorem readMark_append {gap : List Char} (hgap : Layout gap) {mark : Char}
    (hmark : StartsToken mark) (rest : List Char) :
    readMark mark (gap ++ mark :: rest) = some rest := by
  rw [readMark, hgap.skipLayout_append, skipLayout_token hmark]
  exact if_pos rfl

theorem readMark_other {gap : List Char} (hgap : Layout gap) {mark c : Char}
    (hc : StartsToken c) (hne : c ≠ mark) (rest : List Char) :
    readMark mark (gap ++ c :: rest) = none := by
  rw [readMark, hgap.skipLayout_append, skipLayout_token hc]
  exact if_neg hne

theorem exists_of_readMark {mark : Char} {text rest : List Char}
    (h : readMark mark text = some rest) : ∃ gap, Layout gap ∧ text = gap ++ mark :: rest := by
  obtain ⟨gap, hgap, heq⟩ := exists_layout text
  refine ⟨gap, hgap, ?_⟩
  rw [readMark] at h
  split at h
  · cases h
  · next c behind hskip =>
    split at h
    · next hc =>
      obtain rfl := Option.some.inj h
      rw [heq, hskip, hc]
    · cases h

/-! ### Names and terminals -/

theorem takeWhile_apart {cs rest : List Char} (hcs : ∀ c ∈ cs, isNamePart c = true)
    (hrest : Apart rest) :
    (cs ++ rest).takeWhile isNamePart = cs ∧ (cs ++ rest).dropWhile isNamePart = rest := by
  rw [List.takeWhile_append_of_pos hcs, List.dropWhile_append_of_pos hcs]
  cases rest with
  | nil => simp
  | cons c rest => simp [hrest c rfl]

/-- A name is read as far as its characters go. -/
theorem readName_append {cs rest : List Char} (h : NameText cs) (hrest : Apart rest) :
    readName (cs ++ rest) = some (String.ofList cs, rest) := by
  cases h with
  | @intro c cs hc hcs =>
      obtain ⟨htake, hdrop⟩ := takeWhile_apart hcs hrest
      rw [List.cons_append, readName, if_pos hc, htake, hdrop]

theorem exists_of_readName {text rest : List Char} {name : String}
    (h : readName text = some (name, rest)) :
    ∃ cs, NameText cs ∧ name = String.ofList cs ∧ text = cs ++ rest := by
  cases text with
  | nil => cases h
  | cons c text =>
      rw [readName] at h
      split at h
      · next hc =>
        obtain ⟨rfl, rfl⟩ := Prod.mk.inj (Option.some.inj h)
        refine ⟨c :: text.takeWhile isNamePart, .intro hc ?_, rfl, ?_⟩
        · exact List.all_eq_true.1 List.all_takeWhile
        · rw [List.cons_append, List.takeWhile_append_dropWhile]
      · cases h

theorem splitAtQuote_append {quote : Char} {cs : List Char} (h : quote ∉ cs)
    (rest : List Char) : splitAtQuote quote (cs ++ quote :: rest) = some (cs, rest) := by
  induction cs with
  | nil => simp [splitAtQuote]
  | cons c cs ih =>
      obtain ⟨hc, hcs⟩ : quote ≠ c ∧ quote ∉ cs := by simpa using h
      rw [List.cons_append, splitAtQuote, if_neg (Ne.symm hc), ih hcs]
      rfl

theorem exists_of_splitAtQuote {quote : Char} {text inside behind : List Char}
    (h : splitAtQuote quote text = some (inside, behind)) :
    quote ∉ inside ∧ text = inside ++ quote :: behind := by
  induction text generalizing inside with
  | nil => cases h
  | cons c text ih =>
      rw [splitAtQuote] at h
      split at h
      · next hc =>
        obtain ⟨rfl, rfl⟩ := Prod.mk.inj (Option.some.inj h)
        exact ⟨List.not_mem_nil, by rw [hc, List.nil_append]⟩
      · next hc =>
        obtain ⟨⟨front, back⟩, hsplit, heq⟩ := Option.map_eq_some_iff.1 h
        obtain ⟨rfl, rfl⟩ := Prod.mk.inj heq
        obtain ⟨hfront, rfl⟩ := ih hsplit
        refine ⟨?_, rfl⟩
        simpa using ⟨Ne.symm hc, hfront⟩

theorem readTerminal_append {quote : Char} (hquote : quote = doubleQuote ∨ quote = singleQuote)
    {cs : List Char} (hcs : quote ∉ cs) (rest : List Char) :
    readTerminal (quote :: (cs ++ quote :: rest)) = some (String.ofList cs, rest) := by
  have hopen : (decide (quote = doubleQuote) || decide (quote = singleQuote)) = true := by
    simpa using hquote
  rw [readTerminal, if_pos hopen, splitAtQuote_append hcs]
  rfl

theorem exists_of_readTerminal {text rest : List Char} {terminal : String}
    (h : readTerminal text = some (terminal, rest)) :
    ∃ quote cs, (quote = doubleQuote ∨ quote = singleQuote) ∧ quote ∉ cs ∧
      terminal = String.ofList cs ∧ text = quote :: (cs ++ quote :: rest) := by
  cases text with
  | nil => cases h
  | cons c text =>
      rw [readTerminal] at h
      split at h
      · next hc =>
        obtain ⟨⟨inside, behind⟩, hsplit, heq⟩ := Option.map_eq_some_iff.1 h
        obtain ⟨rfl, rfl⟩ := Prod.mk.inj heq
        obtain ⟨hinside, rfl⟩ := exists_of_splitAtQuote hsplit
        exact ⟨c, inside, by simpa using hc, hinside, rfl, rfl⟩
      · cases h

theorem readTerminal_of_not_quote {c : Char} (h : c ≠ doubleQuote ∧ c ≠ singleQuote)
    (rest : List Char) : readTerminal (c :: rest) = none := by
  have hopen : ¬ (decide (c = doubleQuote) || decide (c = singleQuote)) = true := by
    simp [h.1, h.2]
  rw [readTerminal, if_neg hopen]

end GrammarCompiler.Ebnf
