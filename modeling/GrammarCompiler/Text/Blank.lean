import GrammarCompiler.Text.CodePointSet

/-!
White space at the two ends of a text. Source files and the labels of an
outline are trimmed by the Unicode property White_Space, which is wider than
the four blanks that the notations of this library skip between tokens: it has
the no-break and ideographic spaces and the line separators, but neither the
zero-width space nor the byte order mark.
-/

namespace GrammarCompiler.Text

/-- The property White_Space. -/
def whiteSpace : CodePointSet :=
  [(0x0009, 0x000D), (0x0020, 0x0020), (0x0085, 0x0085), (0x00A0, 0x00A0), (0x1680, 0x1680),
   (0x2000, 0x200A), (0x2028, 0x2029), (0x202F, 0x202F), (0x205F, 0x205F), (0x3000, 0x3000)]

def isWhiteSpace (c : Char) : Bool := whiteSpace.contains c

def trimStart (cs : List Char) : List Char := cs.dropWhile isWhiteSpace

def trimEnd (cs : List Char) : List Char := (cs.reverse.dropWhile isWhiteSpace).reverse

def trimChars (cs : List Char) : List Char := trimEnd (trimStart cs)

/-- The text without the white space at its two ends. -/
def trim (text : String) : String := String.ofList (trimChars text.toList)

@[simp] theorem toList_trim (text : String) : (trim text).toList = trimChars text.toList := by
  simp [trim]

theorem trimStart_eq_self_iff {text : List Char} :
    trimStart text = text ↔ ∀ c ∈ text.head?, isWhiteSpace c = false := by
  cases text with
  | nil => simp [trimStart]
  | cons c text =>
      cases hc : isWhiteSpace c with
      | false => simp [trimStart, hc]
      | true =>
          have hlength := (List.dropWhile_suffix isWhiteSpace (l := text)).length_le
          refine iff_of_false (fun heq => ?_) (by simp [hc])
          rw [trimStart, List.dropWhile_cons_of_pos hc] at heq
          rw [heq, List.length_cons] at hlength
          omega

theorem trimEnd_eq_self_iff {text : List Char} :
    trimEnd text = text ↔ ∀ c ∈ text.getLast?, isWhiteSpace c = false := by
  rw [trimEnd, ← List.reverse_inj, List.reverse_reverse, ← List.head?_reverse]
  exact trimStart_eq_self_iff

theorem trimChars_eq_self_iff {text : List Char} :
    trimChars text = text ↔ trimStart text = text ∧ trimEnd text = text := by
  constructor
  · intro h
    have hstart : trimStart text <:+ text := List.dropWhile_suffix _
    have hend : (trimChars text).length ≤ (trimStart text).length := by
      rw [trimChars, trimEnd, List.length_reverse]
      exact Nat.le_trans (List.dropWhile_suffix _).length_le (Nat.le_of_eq List.length_reverse)
    rw [h] at hend
    have heq := hstart.eq_of_length (Nat.le_antisymm hstart.length_le hend)
    rw [trimChars, heq] at h
    exact ⟨heq, h⟩
  · rintro ⟨hstart, hend⟩
    rw [trimChars, hstart, hend]

/-- The white space in front of the text. -/
def lead (text : List Char) : List Char := text.takeWhile isWhiteSpace

theorem exists_trail (text : List Char) : ∃ trail, text = lead text ++ trimChars text ++ trail := by
  have hend : trimChars text <+: trimStart text := by
    rw [trimChars, trimEnd, ← List.reverse_suffix, List.reverse_reverse]
    exact List.dropWhile_suffix _
  obtain ⟨trail, htrail⟩ := hend
  refine ⟨trail, ?_⟩
  rw [List.append_assoc, htrail]
  exact List.takeWhile_append_dropWhile.symm

theorem mem_trimStart {c : Char} {text : List Char} (hc : isWhiteSpace c = false)
    (h : c ∈ text) : c ∈ trimStart text := by
  have htext : lead text ++ trimStart text = text := List.takeWhile_append_dropWhile
  rw [← htext] at h
  rcases List.mem_append.1 h with hlead | hrest
  · have hwhite : isWhiteSpace c = true := List.all_eq_true.1 List.all_takeWhile c hlead
    rw [hc] at hwhite
    cases hwhite
  · exact hrest

/-- Nothing but white space is trimmed. -/
theorem mem_trimChars {c : Char} {text : List Char} (hc : isWhiteSpace c = false)
    (h : c ∈ text) : c ∈ trimChars text := by
  rw [trimChars, trimEnd, List.mem_reverse]
  exact mem_trimStart hc (List.mem_reverse.2 (mem_trimStart hc h))

/-- Nothing that is put between two parts of a trimmed text can be trimmed. -/
theorem trimChars_insert {front back : List Char} (hfront : front ≠ []) (hback : back ≠ [])
    (h : trimChars (front ++ back) = front ++ back) (more : List Char) :
    trimChars (front ++ more ++ back) = front ++ more ++ back := by
  have hhead := List.head?_eq_some_head hfront
  have hlast := List.getLast?_eq_some_getLast hback
  rw [trimChars_eq_self_iff, trimStart_eq_self_iff, trimEnd_eq_self_iff] at h ⊢
  simp only [List.head?_append, List.getLast?_append, hhead, hlast, Option.some_or] at h ⊢
  exact h

end GrammarCompiler.Text
