import GrammarCompiler.Proofs.Layout

/-!
The reader accepts exactly the notation. That it accepts nothing else is shown
reader by reader, each relative to the reader for what stands between braces.
That it accepts everything is shown along the rendering: a text is read as
what it denotes if what follows it cannot continue it. The only place where
this needs care are the lists, which are read as far as they go; a list that
is followed by no separator of its own kind ends where its rendering ends.

None of the bounds in the readers matters: an item of a list is not shorter
than the separator in front of it, and a text is not nested deeper than it is
long.
-/

namespace GrammarCompiler.Ebnf

variable {α : Type}

/-- What the reader accepts is a text in front of the rest, and what it gives is denoted by that
text. -/
def Reader.Sound (denotes : α → List Char → Prop) (read : Reader α) : Prop :=
  ∀ {text x rest}, read text = some (x, rest) → ∃ front, denotes x front ∧ text = front ++ rest

theorem Reader.Sound.length_le {denotes : α → List Char → Prop} {read : Reader α}
    (h : Reader.Sound denotes read) {text rest : List Char} {x : α}
    (hread : read text = some (x, rest)) : rest.length ≤ text.length := by
  obtain ⟨front, -, rfl⟩ := h hread
  simp

/-! ### Lists -/

section Lists

variable {separator : Char} {item : Reader α} {Item : α → List Char → Prop}
  {Items : List α → List Char → Prop}

/-- The items behind the first one. The induction is on the bound; the first item is there to
make the rest of the list a list. -/
theorem readRest_sound (hitem : Reader.Sound Item item)
    (hlast : ∀ {x text}, Item x text → Items [x] text)
    (hcons : ∀ {x text gap xs rest}, Item x text → Layout gap → Items xs rest →
      Items (x :: xs) (text ++ gap ++ separator :: rest))
    {rounds : Nat} {text last : List Char} {xs : List α}
    (h : readRest separator item rounds text = (xs, last)) {x : α} {first : List Char}
    (hx : Item x first) :
    ∃ front, Items (x :: xs) (first ++ front) ∧ text = front ++ last := by
  induction rounds generalizing text xs x first with
  | zero =>
      obtain ⟨rfl, rfl⟩ := Prod.mk.inj h
      exact ⟨[], by simpa using hlast hx, rfl⟩
  | succ rounds ih =>
      rw [readRest] at h
      split at h
      · obtain ⟨rfl, rfl⟩ := Prod.mk.inj h
        exact ⟨[], by simpa using hlast hx, rfl⟩
      · next y rest hread =>
        obtain ⟨behind, hmark, hy⟩ := Option.bind_eq_some_iff.1 hread
        obtain ⟨gap, hgap, rfl⟩ := exists_of_readMark hmark
        obtain ⟨second, hsecond, rfl⟩ := hitem hy
        obtain ⟨rfl, rfl⟩ := Prod.mk.inj h
        obtain ⟨front, hfront, hrest⟩ := ih rfl hsecond
        refine ⟨gap ++ separator :: (second ++ front), ?_, ?_⟩
        · rw [← List.append_assoc]
          exact hcons hx hgap hfront
        · simp [← hrest]

theorem readList_sound (hitem : Reader.Sound Item item)
    (hlast : ∀ {x text}, Item x text → Items [x] text)
    (hcons : ∀ {x text gap xs rest}, Item x text → Layout gap → Items xs rest →
      Items (x :: xs) (text ++ gap ++ separator :: rest)) :
    Reader.Sound Items (readList separator item) := by
  intro text xs last h
  rw [readList] at h
  split at h
  · cases h
  · next x rest hx =>
    obtain ⟨rfl, rfl⟩ := Prod.mk.inj (Option.some.inj h)
    obtain ⟨first, hfirst, rfl⟩ := hitem hx
    obtain ⟨front, hfront, hrest⟩ := readRest_sound hitem hlast hcons rfl hfirst
    exact ⟨first ++ front, hfront, by rw [List.append_assoc, ← hrest]⟩

theorem readRest_nil (separator : Char) (item : Reader α) (rounds : Nat) :
    readRest separator item rounds [] = ([], []) := by
  cases rounds <;> rfl

theorem length_lt_of_readMark {mark : Char} {text rest : List Char}
    (h : readMark mark text = some rest) : rest.length < text.length := by
  obtain ⟨gap, -, rfl⟩ := exists_of_readMark h
  simp only [List.length_append, List.length_cons]
  omega

/-- Every round takes a separator, so that the bound on the rounds does not matter once it is
the length of the text. -/
theorem readRest_congr (hitem : Reader.Sound Item item) {m n : Nat} {text : List Char}
    (hm : text.length ≤ m) (hn : text.length ≤ n) :
    readRest separator item m text = readRest separator item n text := by
  induction m generalizing n text with
  | zero =>
      obtain rfl : text = [] := List.length_eq_zero_iff.1 (by omega)
      rw [readRest_nil, readRest_nil]
  | succ m ih =>
      cases n with
      | zero =>
          obtain rfl : text = [] := List.length_eq_zero_iff.1 (by omega)
          rw [readRest_nil, readRest_nil]
      | succ n =>
          rw [readRest, readRest]
          cases hread : (readMark separator text).bind item with
          | none => rfl
          | some found =>
              obtain ⟨x, rest⟩ := found
              obtain ⟨behind, hmark, hx⟩ := Option.bind_eq_some_iff.1 hread
              have hbehind := length_lt_of_readMark hmark
              have hrest := hitem.length_le hx
              have heq : readRest separator item m rest = readRest separator item n rest :=
                ih (by omega) (by omega)
              dsimp only
              rw [heq]

theorem readList_last {text rest : List Char} {x : α} (hx : item text = some (x, rest))
    (hstop : readMark separator rest = none) :
    readList separator item text = some ([x], rest) := by
  have hrest : readRest separator item rest.length rest = ([], rest) := by
    cases rest with
    | nil => rfl
    | cons c rest =>
        rw [List.length_cons, readRest, hstop]
        rfl
  simp only [readList, hx, hrest]

theorem readList_cons (hitem : Reader.Sound Item item) (hseparator : StartsToken separator)
    {text gap rest last : List Char} {x : α} {xs : List α}
    (hx : item text = some (x, gap ++ separator :: rest)) (hgap : Layout gap)
    (hxs : readList separator item rest = some (xs, last)) :
    readList separator item text = some (x :: xs, last) := by
  rw [readList] at hxs
  split at hxs
  · cases hxs
  · next y behind hy =>
    obtain ⟨rfl, rfl⟩ := Prod.mk.inj (Option.some.inj hxs)
    have hbehind := hitem.length_le hy
    obtain ⟨rounds, hrounds⟩ : ∃ n, (gap ++ separator :: rest).length = n + 1 :=
      ⟨gap.length + rest.length, by simp only [List.length_append, List.length_cons]; omega⟩
    have hle : behind.length ≤ rounds := by
      simp only [List.length_append, List.length_cons] at hrounds
      omega
    have hread : (readMark separator (gap ++ separator :: rest)).bind item = some (y, behind) := by
      rw [readMark_append hgap hseparator, Option.bind_some, hy]
    simp only [readList, hx, hrounds, readRest, hread]
    rw [readRest_congr hitem hle (Nat.le_refl _)]

end Lists

/-! ### What the readers accept -/

/-- A factor with layout in front. -/
def SpacedFactor (e : Expr) (text : List Char) : Prop :=
  ∃ layout body, Layout layout ∧ FactorText e body ∧ text = layout ++ body

/-- A body that is a list of factors, or a single one. -/
def SequenceText (e : Expr) (text : List Char) : Prop :=
  ∃ es, ConcatenationText es text ∧ e = .ofSequence es

theorem readRepetition_sound {inner : Reader Expr} (hinner : Reader.Sound ExprText inner) :
    Reader.Sound FactorText (readRepetition inner) := by
  intro text e rest h
  cases text with
  | nil => cases h
  | cons c text =>
      rw [readRepetition] at h
      split at h
      · next hc =>
        split at h
        · cases h
        · next body behind hbody =>
          obtain ⟨last, hmark, heq⟩ := Option.map_eq_some_iff.1 h
          obtain ⟨rfl, rfl⟩ := Prod.mk.inj heq
          obtain ⟨front, ⟨hfront⟩, rfl⟩ := hinner hbody
          obtain ⟨gap, hgap, rfl⟩ := exists_of_readMark hmark
          exact ⟨_, .repetition hfront hgap, by simp [hc]⟩
      · cases h

theorem readFactorHere_sound {inner : Reader Expr} (hinner : Reader.Sound ExprText inner) :
    Reader.Sound FactorText (readFactorHere inner) := by
  intro text e rest h
  rw [readFactorHere] at h
  split at h
  · next found hrepetition =>
    obtain rfl := Option.some.inj h
    exact readRepetition_sound hinner hrepetition
  · split at h
    · next t behind hterminal =>
      obtain ⟨rfl, rfl⟩ := Prod.mk.inj (Option.some.inj h)
      obtain ⟨quote, cs, hquote, hcs, rfl, rfl⟩ := exists_of_readTerminal hterminal
      exact ⟨_, .terminal hquote hcs, by simp⟩
    · obtain ⟨⟨name, behind⟩, hname, heq⟩ := Option.map_eq_some_iff.1 h
      obtain ⟨rfl, rfl⟩ := Prod.mk.inj heq
      obtain ⟨cs, hcs, rfl, rfl⟩ := exists_of_readName hname
      exact ⟨cs, .reference hcs, rfl⟩

theorem readFactor_sound {inner : Reader Expr} (hinner : Reader.Sound ExprText inner) :
    Reader.Sound SpacedFactor (readFactor inner) := by
  intro text e rest h
  obtain ⟨gap, hgap, heq⟩ := exists_layout text
  obtain ⟨body, hbody, hskip⟩ := readFactorHere_sound hinner h
  exact ⟨gap ++ body, ⟨gap, body, hgap, hbody, rfl⟩, by rw [List.append_assoc, ← hskip, ← heq]⟩

theorem readFactors_sound {inner : Reader Expr} (hinner : Reader.Sound ExprText inner) :
    Reader.Sound ConcatenationText (readList ',' (readFactor inner)) := by
  refine readList_sound (readFactor_sound hinner) ?_ ?_
  · rintro e _ ⟨layout, body, hlayout, hbody, rfl⟩
    exact .last hlayout hbody
  · rintro e _ gap es rest ⟨layout, body, hlayout, hbody, rfl⟩ hgap hrest
    exact .cons hlayout hbody hgap hrest

theorem readConcatenation_sound {inner : Reader Expr} (hinner : Reader.Sound ExprText inner) :
    Reader.Sound SequenceText (readConcatenation inner) := by
  intro text e rest h
  obtain ⟨⟨es, behind⟩, hread, heq⟩ := Option.map_eq_some_iff.1 h
  obtain ⟨rfl, rfl⟩ := Prod.mk.inj heq
  obtain ⟨front, hfront, rfl⟩ := readFactors_sound hinner hread
  exact ⟨front, ⟨es, hfront, rfl⟩, rfl⟩

theorem readConcatenations_sound {inner : Reader Expr} (hinner : Reader.Sound ExprText inner) :
    Reader.Sound AlternationText (readList '|' (readConcatenation inner)) := by
  refine readList_sound (readConcatenation_sound hinner) ?_ ?_
  · rintro _ text ⟨es, hes, rfl⟩
    exact .last hes
  · rintro _ text gap others rest ⟨es, hes, rfl⟩ hgap hrest
    exact .cons hes hgap hrest

theorem readAlternation_sound {inner : Reader Expr} (hinner : Reader.Sound ExprText inner) :
    Reader.Sound ExprText (readAlternation inner) := by
  intro text e rest h
  obtain ⟨⟨es, behind⟩, hread, heq⟩ := Option.map_eq_some_iff.1 h
  obtain ⟨rfl, rfl⟩ := Prod.mk.inj heq
  obtain ⟨front, hfront, rfl⟩ := readConcatenations_sound hinner hread
  exact ⟨front, .intro hfront, rfl⟩

theorem readExprAt_sound (depth : Nat) : Reader.Sound ExprText (readExprAt depth) := by
  induction depth with
  | zero =>
      intro text e rest h
      cases h
  | succ depth ih => exact readAlternation_sound ih

/-! ### What the readers do not refuse -/

theorem NameText.exists_cons {cs : List Char} (h : NameText cs) :
    ∃ c tail, cs = c :: tail ∧ isNameStart c = true := by
  cases h with
  | @intro c tail hc _ => exact ⟨c, tail, rfl, hc⟩

theorem NameText.startsToken {cs : List Char} (h : NameText cs) :
    ∃ c tail, cs = c :: tail ∧ StartsToken c := by
  obtain ⟨c, tail, rfl, hc⟩ := h.exists_cons
  exact ⟨c, tail, rfl, startsToken_of_isNamePart (isNamePart_of_isNameStart hc)⟩

theorem FactorText.startsToken {e : Expr} {text : List Char} (h : FactorText e text) :
    ∃ c tail, text = c :: tail ∧ StartsToken c := by
  cases h with
  | reference hname => exact hname.startsToken
  | terminal hquote _ =>
      refine ⟨_, _, rfl, ?_⟩
      rcases hquote with rfl | rfl <;> decide
  | repetition _ _ => exact ⟨_, _, rfl, by decide⟩

theorem readRepetition_of_ne {c : Char} (h : c ≠ openBrace) (inner : Reader Expr)
    (rest : List Char) : readRepetition inner (c :: rest) = none := by
  rw [readRepetition, if_neg h]

/-- A name is neither a repetition nor a terminal, and is read as far as it goes. -/
theorem readFactorHere_reference (inner : Reader Expr) {cs rest : List Char} (h : NameText cs)
    (hrest : Apart rest) :
    readFactorHere inner (cs ++ rest) = some (.reference (String.ofList cs), rest) := by
  have hname := readName_append h hrest
  obtain ⟨c, tail, rfl, hc⟩ := h.exists_cons
  have hbrace : c ≠ openBrace := by
    rintro rfl
    revert hc
    decide
  have hquote : c ≠ doubleQuote ∧ c ≠ singleQuote := by
    constructor <;> rintro rfl <;> revert hc <;> decide
  rw [readFactorHere, List.cons_append, readRepetition_of_ne hbrace,
    readTerminal_of_not_quote hquote, ← List.cons_append, hname]
  rfl

theorem readFactorHere_terminal (inner : Reader Expr) {quote : Char}
    (hquote : quote = doubleQuote ∨ quote = singleQuote) {cs : List Char} (hcs : quote ∉ cs)
    (rest : List Char) :
    readFactorHere inner (quote :: (cs ++ [quote]) ++ rest) =
      some (.terminal (String.ofList cs), rest) := by
  have hbrace : quote ≠ openBrace := by rcases hquote with rfl | rfl <;> decide
  have hread := readTerminal_append hquote hcs rest
  have htext : quote :: (cs ++ [quote]) ++ rest = quote :: (cs ++ quote :: rest) := by simp
  rw [htext, readFactorHere, readRepetition_of_ne hbrace, hread]

theorem readFactorHere_repetition {inner : Reader Expr} {body : Expr}
    {text layout rest : List Char} (hlayout : Layout layout)
    (hbody : inner (text ++ (layout ++ closeBrace :: rest)) =
      some (body, layout ++ closeBrace :: rest)) :
    readFactorHere inner (openBrace :: (text ++ layout ++ [closeBrace]) ++ rest) =
      some (.repetition body, rest) := by
  have htext : openBrace :: (text ++ layout ++ [closeBrace]) ++ rest =
      openBrace :: (text ++ (layout ++ closeBrace :: rest)) := by simp
  have hread : readRepetition inner (openBrace :: (text ++ (layout ++ closeBrace :: rest))) =
      some (.repetition body, rest) := by
    rw [readRepetition, if_pos rfl, hbody]
    dsimp only
    rw [readMark_append hlayout (by decide)]
    rfl
  rw [htext, readFactorHere, hread]

theorem readFactor_append {inner : Reader Expr} {layout text rest : List Char} {e : Expr}
    (hlayout : Layout layout) (htext : FactorText e text)
    (hread : readFactorHere inner (text ++ rest) = some (e, rest)) :
    readFactor inner (layout ++ text ++ rest) = some (e, rest) := by
  obtain ⟨c, tail, rfl, hc⟩ := htext.startsToken
  rw [readFactor, List.append_assoc, hlayout.skipLayout_append, List.cons_append,
    skipLayout_token hc]
  exact hread

/-- What follows the text neither continues a name nor adds an item to a list. -/
structure Closes (rest : List Char) : Prop where
  apart : Apart rest
  comma : readMark ',' rest = none
  bar : readMark '|' rest = none

theorem closes_mark {gap : List Char} (hgap : Layout gap) {mark : Char} (hmark : StartsToken mark)
    (hpart : isNamePart mark = false) (hcomma : mark ≠ ',') (hbar : mark ≠ '|')
    (rest : List Char) : Closes (gap ++ mark :: rest) where
  apart := hgap.apart (apart_cons hpart rest)
  comma := readMark_other hgap hmark hcomma rest
  bar := readMark_other hgap hmark hbar rest

mutual
/-- A factor is read if the braces in it are read. The induction follows the rendering, and the
depth pays for one pair of braces after the other. -/
theorem FactorText.read {e : Expr} {text : List Char} (h : FactorText e text) {depth : Nat}
    (hdepth : text.length ≤ depth) {rest : List Char} (hrest : Apart rest) :
    readFactorHere (readExprAt depth) (text ++ rest) = some (e, rest) := by
  match h with
  | .reference hname => exact readFactorHere_reference _ hname hrest
  | .terminal hquote hcs => exact readFactorHere_terminal _ hquote hcs rest
  | @FactorText.repetition es text layout htext hlayout =>
      obtain ⟨depth, rfl⟩ : ∃ n, depth = n + 1 :=
        Nat.exists_eq_add_one.2 (Nat.lt_of_lt_of_le (by simp) hdepth)
      have hinner : text.length ≤ depth := by
        simp only [List.length_cons, List.length_append, List.length_nil] at hdepth
        omega
      refine readFactorHere_repetition hlayout ?_
      have hclose : Closes (layout ++ closeBrace :: rest) :=
        closes_mark hlayout (by decide) (by decide) (by decide) (by decide) rest
      rw [readExprAt, readAlternation, AlternationText.read htext hinner hclose]
      rfl
termination_by structural h

theorem ConcatenationText.read {es : List Expr} {text : List Char}
    (h : ConcatenationText es text) {depth : Nat} (hdepth : text.length ≤ depth)
    {rest : List Char} (hrest : Apart rest) (hstop : readMark ',' rest = none) :
    readList ',' (readFactor (readExprAt depth)) (text ++ rest) = some (es, rest) := by
  match h with
  | @ConcatenationText.last e layout text hlayout htext =>
      have hlength : text.length ≤ depth := by
        simp only [List.length_append] at hdepth
        omega
      exact readList_last (readFactor_append hlayout htext (htext.read hlength hrest)) hstop
  | @ConcatenationText.cons e es layout text gap others hlayout htext hgap hothers =>
      simp only [List.length_append, List.length_cons] at hdepth
      have hlength : text.length ≤ depth := by omega
      have hlength' : others.length ≤ depth := by omega
      have hcomma : Apart (gap ++ ',' :: (others ++ rest)) :=
        hgap.apart (apart_cons (by decide) _)
      have hassoc : layout ++ text ++ gap ++ ',' :: others ++ rest =
          layout ++ text ++ (gap ++ ',' :: (others ++ rest)) := by simp
      rw [hassoc]
      exact readList_cons (readFactor_sound (readExprAt_sound depth)) (by decide)
        (readFactor_append hlayout htext (htext.read hlength hcomma)) hgap
        (hothers.read hlength' hrest hstop)
termination_by structural h

theorem AlternationText.read {es : List Expr} {text : List Char} (h : AlternationText es text)
    {depth : Nat} (hdepth : text.length ≤ depth) {rest : List Char} (hrest : Closes rest) :
    readList '|' (readConcatenation (readExprAt depth)) (text ++ rest) = some (es, rest) := by
  match h with
  | @AlternationText.last es text htext =>
      refine readList_last ?_ hrest.bar
      rw [readConcatenation, htext.read hdepth hrest.apart hrest.comma]
      rfl
  | @AlternationText.cons es others text gap more htext hgap hmore =>
      simp only [List.length_append, List.length_cons] at hdepth
      have hlength : text.length ≤ depth := by omega
      have hlength' : more.length ≤ depth := by omega
      have hbar : Apart (gap ++ '|' :: (more ++ rest)) := hgap.apart (apart_cons (by decide) _)
      have hcomma : readMark ',' (gap ++ '|' :: (more ++ rest)) = none :=
        readMark_other hgap (by decide) (by decide) _
      have hassoc : text ++ gap ++ '|' :: more ++ rest =
          text ++ (gap ++ '|' :: (more ++ rest)) := by simp
      rw [hassoc]
      refine readList_cons (readConcatenation_sound (readExprAt_sound depth)) (by decide) ?_ hgap
        (hmore.read hlength' hrest)
      rw [readConcatenation, htext.read hlength hbar hcomma]
      rfl
termination_by structural h
end

theorem ExprText.read {e : Expr} {text rest : List Char} (h : ExprText e text)
    (hrest : Closes rest) : readExpr (text ++ rest) = some (e, rest) := by
  cases h with
  | intro htext =>
      have hlength : text.length ≤ (text ++ rest).length := by simp
      rw [readExpr, readExprAt, readAlternation, htext.read hlength hrest]
      rfl

theorem readExpr_sound : Reader.Sound ExprText readExpr := fun h => readExprAt_sound _ h

/-! ### Productions -/

theorem exists_of_readProduction {text rest : List Char} {p : Production}
    (h : readProduction text = .ok (p, rest)) :
    ∃ front, ProductionText p front ∧ text = front ++ rest := by
  rw [readProduction] at h
  split at h
  · cases h
  · next name afterName hname =>
    split at h
    · cases h
    · next afterEquals hequals =>
      split at h
      · cases h
      · next body afterBody hbody =>
        split at h
        · cases h
        · next behind hend =>
          obtain ⟨rfl, rfl⟩ := Prod.mk.inj (Except.ok.inj h)
          obtain ⟨layout, hlayout, htext⟩ := exists_layout text
          obtain ⟨cs, hcs, rfl, hskip⟩ := exists_of_readName hname
          obtain ⟨gap, hgap, rfl⟩ := exists_of_readMark hequals
          obtain ⟨front, hfront, rfl⟩ := readExpr_sound hbody
          obtain ⟨last, hlast, rfl⟩ := exists_of_readMark hend
          refine ⟨_, .intro hlayout hcs hgap hfront hlast, ?_⟩
          rw [htext, hskip]
          simp

theorem ProductionText.read {p : Production} {text : List Char} (h : ProductionText p text)
    (rest : List Char) : readProduction (text ++ rest) = .ok (p, rest) := by
  cases h with
  | @intro name layout gap body text last hlayout hname hgap hbody hlast =>
      have hsemicolon : Closes (last ++ ';' :: rest) :=
        closes_mark hlast (by decide) (by decide) (by decide) (by decide) rest
      have hequals : Apart (gap ++ '=' :: (text ++ (last ++ ';' :: rest))) :=
        hgap.apart (apart_cons (by decide) _)
      have hassoc : layout ++ name ++ gap ++ '=' :: (text ++ last ++ [';']) ++ rest =
          layout ++ (name ++ (gap ++ '=' :: (text ++ (last ++ ';' :: rest)))) := by simp
      have hskip : skipLayout (name ++ (gap ++ '=' :: (text ++ (last ++ ';' :: rest)))) =
          name ++ (gap ++ '=' :: (text ++ (last ++ ';' :: rest))) := by
        obtain ⟨c, tail, rfl, hc⟩ := hname.startsToken
        exact skipLayout_token hc _
      rw [readProduction, hassoc, hlayout.skipLayout_append, hskip, readName_append hname hequals]
      dsimp only
      rw [readMark_append hgap (by decide)]
      dsimp only
      rw [hbody.read hsemicolon]
      dsimp only
      rw [readMark_append hlast (by decide)]

/-- Where only layout is left, no production begins. -/
theorem readProduction_layout {layout : List Char} (h : Layout layout) :
    readProduction layout = .error ⟨.token, []⟩ := by
  rw [readProduction, layout_iff_skipLayout.1 h]
  rfl

/-- What was read is denoted by the text in front of the rest, with any layout at its end. -/
theorem exists_of_readProductions {rounds : Nat} {text last : List Char} {ps : List Production}
    (h : readProductions rounds text = (ps, last)) :
    ∃ front, text = front ++ last ∧
      ∀ {layout}, Layout layout → ProductionsText ps (front ++ layout) := by
  induction rounds generalizing text ps with
  | zero =>
      obtain ⟨rfl, rfl⟩ := Prod.mk.inj h
      exact ⟨[], rfl, .nil⟩
  | succ rounds ih =>
      rw [readProductions] at h
      split at h
      · obtain ⟨rfl, rfl⟩ := Prod.mk.inj h
        exact ⟨[], rfl, .nil⟩
      · next p rest hp =>
        obtain ⟨rfl, rfl⟩ := Prod.mk.inj h
        obtain ⟨first, hfirst, rfl⟩ := exists_of_readProduction hp
        obtain ⟨front, hrest, hfront⟩ := ih rfl
        refine ⟨first ++ front, by rw [List.append_assoc, ← hrest], fun hlayout => ?_⟩
        rw [List.append_assoc]
        exact .cons hfirst (hfront hlayout)

theorem ProductionText.length_pos {p : Production} {text : List Char} (h : ProductionText p text) :
    0 < text.length := by
  cases h with
  | intro => simp only [List.length_append, List.length_cons]; omega

/-- Every production takes a character, so that the rounds suffice. -/
theorem ProductionsText.read {ps : List Production} {text : List Char}
    (h : ProductionsText ps text) {rounds : Nat} (hrounds : text.length ≤ rounds) :
    ∃ last, Layout last ∧ readProductions rounds text = (ps, last) := by
  induction h generalizing rounds with
  | @nil layout hlayout =>
      refine ⟨layout, hlayout, ?_⟩
      cases rounds with
      | zero => rfl
      | succ rounds => rw [readProductions, readProduction_layout hlayout]
  | @cons p ps text rest hp _ ih =>
      have hpos := hp.length_pos
      rw [List.length_append] at hrounds
      obtain ⟨rounds, rfl⟩ : ∃ n, rounds = n + 1 := Nat.exists_eq_add_one.2 (by omega)
      have hless : rest.length ≤ rounds := by omega
      obtain ⟨last, hlast, hread⟩ := ih hless
      refine ⟨last, hlast, ?_⟩
      rw [readProductions, hp.read rest]
      dsimp only
      rw [hread]

/-! ### Whole texts -/

theorem finish_eq_ok_iff {value result : α} {rest : List Char} :
    finish value rest = .ok result ↔ Layout rest ∧ value = result := by
  rw [layout_iff_skipLayout, finish]
  cases skipLayout rest with
  | nil => simp
  | cons c left => simp

theorem Grammar.parseChars_eq_ok_iff {text : List Char} {g : Grammar} :
    Grammar.parseChars text = .ok g ↔ g.DenotedBy text := by
  rw [Grammar.parseChars, finish_eq_ok_iff]
  constructor
  · rintro ⟨hlast, rfl⟩
    obtain ⟨front, htext, hfront⟩ := @exists_of_readProductions text.length text _ _ rfl
    have hdenoted := hfront hlast
    rw [← htext] at hdenoted
    exact hdenoted
  · intro h
    obtain ⟨last, hlast, hread⟩ := h.read (Nat.le_refl _)
    rw [hread]
    exact ⟨hlast, rfl⟩

/-- A text is read as a grammar if and only if it is a rendering of that grammar. So no text is a
rendering of two grammars. -/
theorem Grammar.parse_eq_ok_iff_denotedBy :
    (∀ (text : String) (g : Grammar), Grammar.parse text = .ok g ↔ g.DenotedBy text.toList) ∧
    ∀ (text : List Char) (g g' : Grammar), g.DenotedBy text → g'.DenotedBy text → g = g' := by
  refine ⟨fun text g => Grammar.parseChars_eq_ok_iff, fun text g g' h h' => ?_⟩
  rw [← Grammar.parseChars_eq_ok_iff] at h h'
  exact Except.ok.inj (h.symm.trans h')

/-- Two productions with comments, nested braces and both quotes. -/
def annotatedText : String :=
  "(* lists (* *)\nlist = item , \x7b ',' ,item \x7d;(**) item_2=\x7b\x7b \"'\" | a\x7d, '(*' \x7d\t;  "

/-- What the text denotes. -/
def annotatedGrammar : Grammar where
  productions :=
    [⟨"list", .concatenation
        [.reference "item", .repetition (.concatenation [.terminal ",", .reference "item"])]⟩,
     ⟨"item_2", .repetition (.concatenation
        [.repetition (.alternation [.terminal "'", .reference "a"]), .terminal "(*"])⟩]

theorem annotatedText_denotes : annotatedGrammar.DenotedBy annotatedText.toList := by
  have hread : (Grammar.parse annotatedText).toOption = some annotatedGrammar := by decide +kernel
  refine (Grammar.parse_eq_ok_iff_denotedBy.1 annotatedText annotatedGrammar).1 ?_
  cases hparse : Grammar.parse annotatedText with
  | error e =>
      rw [hparse] at hread
      cases hread
  | ok g =>
      rw [hparse] at hread
      rw [Option.some.inj hread]

end GrammarCompiler.Ebnf
