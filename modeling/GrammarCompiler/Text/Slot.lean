/-!
Slots in a text: named gaps that are filled with a value later. A slot is
marked by its placeholder, a text that stands where the value goes. Filling
looks for the first occurrence from the left, and filling all occurrences goes
on behind the value that was put in, so that a value may contain its own
placeholder.
-/

namespace GrammarCompiler.Text

/-- The text behind a leading `pattern`, if the text begins with it. -/
def dropLeading? : List Char → List Char → Option (List Char)
  | [], text => some text
  | _ :: _, [] => none
  | p :: pattern, c :: text => if p = c then dropLeading? pattern text else none

/-- Looks for the first occurrence of `pattern`; `seen` is the text passed so far, backwards. -/
def splitFrom (pattern seen : List Char) : List Char → Option (List Char × List Char)
  | [] =>
    match dropLeading? pattern [] with
    | some after => some (seen.reverse, after)
    | none => none
  | c :: text =>
    match dropLeading? pattern (c :: text) with
    | some after => some (seen.reverse, after)
    | none => splitFrom pattern (c :: seen) text

/-- The text in front of the first occurrence of `pattern`, and the text behind it. -/
def splitFirst? (pattern text : List Char) : Option (List Char × List Char) :=
  splitFrom pattern [] text

/-- Fills the first slot; `none` if there is no such slot. -/
def fillFirst? (placeholder value text : List Char) : Option (List Char) :=
  (splitFirst? placeholder text).map fun (before, after) => before ++ (value ++ after)

/-- Fills at most `rounds` slots from the left, never looking into a value that was put in. -/
def fillUpTo (placeholder value : List Char) : Nat → List Char → List Char
  | 0, text => text
  | rounds + 1, text =>
    match splitFirst? placeholder text with
    | none => text
    | some (before, after) => before ++ (value ++ fillUpTo placeholder value rounds after)

/-- Fills every slot. The empty placeholder marks a slot at the start and one behind every
character. -/
def fillAll (placeholder value text : List Char) : List Char :=
  if placeholder.isEmpty then value ++ text.flatMap (fun c => c :: value)
  else fillUpTo placeholder value text.length text

theorem dropLeading?_append (pattern text : List Char) :
    dropLeading? pattern (pattern ++ text) = some text := by
  induction pattern with
  | nil => rfl
  | cons p pattern ih => simp [dropLeading?, ih]

theorem eq_append_of_dropLeading? {pattern text after : List Char}
    (h : dropLeading? pattern text = some after) : text = pattern ++ after := by
  induction pattern generalizing text with
  | nil => simpa [dropLeading?] using h
  | cons p pattern ih =>
    cases text with
    | nil => simp [dropLeading?] at h
    | cons c text =>
      by_cases hc : p = c
      · simp only [dropLeading?, hc, if_true] at h
        simp [hc, ih h]
      · simp [dropLeading?, hc] at h

/-! ### The first occurrence, character by character -/

theorem splitFrom_eq (pattern seen text : List Char) :
    splitFrom pattern seen text =
      (splitFirst? pattern text).map fun (before, after) => (seen.reverse ++ before, after) := by
  induction text generalizing seen with
  | nil => cases h : dropLeading? pattern [] <;> simp [splitFirst?, splitFrom, h]
  | cons c text ih =>
    cases h : dropLeading? pattern (c :: text) with
    | some after => simp [splitFirst?, splitFrom, h]
    | none =>
      have hc := ih [c]
      have hs := ih (c :: seen)
      simp only [splitFirst?, splitFrom, h] at hc hs ⊢
      rw [hs, hc, Option.map_map]
      congr 1
      funext pair
      simp

theorem splitFirst?_nil (pattern : List Char) :
    splitFirst? pattern [] = (dropLeading? pattern []).map fun after => ([], after) := by
  cases h : dropLeading? pattern [] <;> simp [splitFirst?, splitFrom, h]

theorem splitFirst?_cons (pattern : List Char) (c : Char) (text : List Char) :
    splitFirst? pattern (c :: text) =
      match dropLeading? pattern (c :: text) with
      | some after => some ([], after)
      | none => (splitFirst? pattern text).map fun (before, after) => (c :: before, after) := by
  cases h : dropLeading? pattern (c :: text) with
  | some after => simp [splitFirst?, splitFrom, h]
  | none =>
    have hc := splitFrom_eq pattern [c] text
    simpa [splitFirst?, splitFrom, h] using hc

end GrammarCompiler.Text
