import GrammarCompiler.Naja.Assembly.Template
import GrammarCompiler.Naja.Assembly.Generators
import GrammarCompiler.Proofs.SlotFilling

/-!
Placeholders, lines and the frame of a program. A placeholder begins with a
brace that it does not have anywhere else and ends with the other brace, and
everything but placeholders is plain text, which has neither. So a frame whose
slots are filled one kind after another is the frame with texts in their
place, in whatever order they are filled.
-/

namespace GrammarCompiler.Naja.Assembly

open Text

/-! ### Plain text and slots -/

/-- The text has neither of the characters that mark the ends of a placeholder. -/
def Plain (text : List Char) : Prop := ∀ c ∈ text, c ≠ '\x7b' ∧ c ≠ '\x7d'

-- The characters of the text are looked at one by one, and not all characters that there are.
instance (text : List Char) : Decidable (Plain text) :=
  List.decidableBAll (fun c => c ≠ '\x7b' ∧ c ≠ '\x7d') text

@[simp] theorem plain_append {front back : List Char} :
    Plain (front ++ back) ↔ Plain front ∧ Plain back :=
  List.forall_mem_append

theorem Plain.not_mem_open {text : List Char} (h : Plain text) : '\x7b' ∉ text :=
  fun hm => (h _ hm).1 rfl

theorem Plain.not_mem_close {text : List Char} (h : Plain text) : '\x7d' ∉ text :=
  fun hm => (h _ hm).2 rfl

/-- A placeholder without its first character. -/
def Slot.tail : Slot → List Char
  | .functionName => "function_name\x7d".toList
  | .functionBody => "function_body\x7d".toList
  | .expression => "expression\x7d".toList

theorem Slot.toList_placeholder (s : Slot) : s.placeholder.toList = '\x7b' :: s.tail := by
  cases s <;> rfl

theorem Slot.open_not_mem_tail (s : Slot) : '\x7b' ∉ s.tail := by
  cases s <;> decide

/-- The placeholder of an expression. -/
def openSlot : List Char := Slot.expression.placeholder.toList

theorem fillFirst_openSlot {pre post : List Char} (hpre : ¬ openSlot <:+: pre) (value : String) :
    Edit.fillFirst Slot.expression.placeholder value (pre ++ (openSlot ++ post)) =
      .ok (pre ++ (value.toList ++ post)) := by
  rw [openSlot, Slot.toList_placeholder] at hpre
  rw [Edit.fillFirst, openSlot, Slot.toList_placeholder,
    fillFirst?_slot Slot.expression.open_not_mem_tail hpre]

theorem fillFirst_eq_error {out : Buffer} (h : ¬ openSlot <:+: out) (value : String) :
    Edit.fillFirst Slot.expression.placeholder value out =
      .error (.noSlot Slot.expression.placeholder) := by
  have hfill : fillFirst? Slot.expression.placeholder.toList value.toList out = none := by
    rw [fillFirst?, ← openSlot, splitFirst?_eq_none h]
    rfl
  rw [Edit.fillFirst, hfill]

theorem not_openSlot_infix_append {pre text : List Char} (hpre : ¬ openSlot <:+: pre)
    (htext : Plain text) : ¬ openSlot <:+: pre ++ text := by
  have hslot : openSlot = "\x7bexpression".toList ++ ['\x7d'] := rfl
  rw [hslot] at hpre ⊢
  exact not_infix_append hpre htext.not_mem_close

theorem Slot.not_placeholder_infix_of_plain (s : Slot) {text : List Char} (h : Plain text) :
    ¬ s.placeholder.toList <:+: text := by
  intro hpart
  refine h.not_mem_open (hpart.subset ?_)
  rw [s.toList_placeholder]
  exact List.mem_cons_self ..

theorem not_openSlot_infix_of_plain {text : List Char} (h : Plain text) :
    ¬ openSlot <:+: text :=
  Slot.expression.not_placeholder_infix_of_plain h

/-! ### Lines -/

/-- Lines behind another one. -/
def following (lines : List String) : List Char :=
  lines.flatMap fun line => nextLine.toList ++ line.toList

@[simp] theorem following_nil : following [] = [] := rfl

@[simp] theorem following_cons (line : String) (lines : List String) :
    following (line :: lines) = nextLine.toList ++ (line.toList ++ following lines) := by
  simp [following]

@[simp] theorem following_append (lines more : List String) :
    following (lines ++ more) = following lines ++ following more := by
  simp [following]

theorem toList_joinLines_cons (line : String) (lines : List String) :
    (joinLines (line :: lines)).toList = line.toList ++ following lines := by
  induction lines generalizing line with
  | nil => simp [joinLines]
  | cons next lines ih => simp [joinLines, ih]

theorem toList_joinLines_append {lines : List String} (h : lines ≠ []) (more : List String) :
    (joinLines (lines ++ more)).toList = (joinLines lines).toList ++ following more := by
  cases lines with
  | nil => exact absurd rfl h
  | cons line lines => simp [toList_joinLines_cons]

theorem following_eq {lines : List String} (h : lines ≠ []) :
    following lines = nextLine.toList ++ (joinLines lines).toList := by
  cases lines with
  | nil => exact absurd rfl h
  | cons line lines => rw [toList_joinLines_cons, following_cons]

/-! ### The frame of a program -/

/-- Whether a stretch is a slot or plain text. -/
def Stretch.isPlain : Stretch → Bool
  | .fixed text => decide (Plain text.toList)
  | .slot _ => true

/-- A frame with texts in place of its slots. -/
def expand (value : Slot → List Char) (frame : List Stretch) : List Char :=
  frame.flatMap fun
    | .fixed text => text.toList
    | .slot s => value s

theorem expand_append (value : Slot → List Char) (front back : List Stretch) :
    expand value (front ++ back) = expand value front ++ expand value back :=
  List.flatMap_append

theorem expand_fixed (value : Slot → List Char) (text : String) (frame : List Stretch) :
    expand value (.fixed text :: frame) = text.toList ++ expand value frame := rfl

theorem expand_slot (value : Slot → List Char) (s : Slot) (frame : List Stretch) :
    expand value (.slot s :: frame) = value s ++ expand value frame := rfl

section

variable {value value' : Slot → List Char} {frame : List Stretch}

theorem expand_congr (h : ∀ s, .slot s ∈ frame → value s = value' s) :
    expand value frame = expand value' frame := by
  rw [expand, expand, List.flatMap_def, List.flatMap_def]
  refine congrArg List.flatten (List.map_congr_left fun stretch hmem => ?_)
  cases stretch with
  | fixed text => rfl
  | slot s => exact h s hmem

theorem plain_expand (hfixed : ∀ stretch ∈ frame, stretch.isPlain = true)
    (hslot : ∀ s, .slot s ∈ frame → Plain (value s)) : Plain (expand value frame) := by
  intro c hc
  obtain ⟨stretch, hmem, hc⟩ := List.mem_flatMap.1 hc
  cases stretch with
  | fixed text => exact of_decide_eq_true (hfixed _ hmem) c hc
  | slot s => exact hslot s hmem c hc

/-- Filling one kind of slot passes over the others. -/
theorem fillAll_other {s other : Slot} (h : other ≠ s) (new rest : List Char) :
    fillAll s.placeholder.toList new (other.placeholder.toList ++ rest) =
      other.placeholder.toList ++ fillAll s.placeholder.toList new rest := by
  rw [Slot.toList_placeholder s, Slot.toList_placeholder other]
  refine fillAll_append (splitFirst?_cons_append ?_ other.open_not_mem_tail) new
  cases s <;> cases other <;> first | exact absurd rfl h | rfl

theorem fillAll_plain {s : Slot} {text : List Char} (h : Plain text) (new rest : List Char) :
    fillAll s.placeholder.toList new (text ++ rest) =
      text ++ fillAll s.placeholder.toList new rest := by
  rw [Slot.toList_placeholder]
  exact fillAll_append (splitFirst?_append_of_not_mem h.not_mem_open rest) new

/-- All slots of one kind are filled, and the rest of the frame stays as it is. -/
theorem fillAll_expand {s : Slot} (hs : value s = s.placeholder.toList)
    (hother : ∀ other, other ≠ s → Plain (value other) ∨
      value other = other.placeholder.toList)
    (hfixed : ∀ stretch ∈ frame, stretch.isPlain = true) (new : List Char) :
    fillAll s.placeholder.toList new (expand value frame) =
      expand (fun other => if other = s then new else value other) frame := by
  induction frame with
  | nil =>
      rw [Slot.toList_placeholder]
      rfl
  | cons stretch frame ih =>
      have hrest := ih fun stretch hmem => hfixed stretch (List.mem_cons_of_mem _ hmem)
      cases stretch with
      | fixed text =>
          have hplain : Plain text.toList :=
            of_decide_eq_true (hfixed _ (List.mem_cons_self ..))
          rw [expand_fixed, expand_fixed, fillAll_plain hplain, hrest]
      | slot other =>
          rw [expand_slot, expand_slot]
          by_cases he : other = s
          · subst he
            rw [if_pos rfl, hs, ← hrest, Slot.toList_placeholder]
            exact fillAll_append_self _ _ _ _
          · rw [if_neg he, ← hrest]
            rcases hother other he with hplain | hslot
            · exact fillAll_plain hplain _ _
            · rw [hslot]
              exact fillAll_other he _ _

end

/-! ### The body of the function in the frame -/

/-- The frame up to the body of the function. -/
def frameFront : List Stretch := programFrame.take 12

/-- The frame behind the body of the function. -/
def frameBack : List Stretch := programFrame.drop 13

theorem programFrame_eq : programFrame = frameFront ++ .slot .functionBody :: frameBack := rfl

theorem isPlain_of_mem_programFrame : ∀ stretch ∈ programFrame, stretch.isPlain = true := by
  decide +kernel

theorem expand_programFrame (value : Slot → List Char) :
    expand value programFrame =
      expand value frameFront ++ (value .functionBody ++ expand value frameBack) := by
  rw [programFrame_eq, expand_append, expand_slot]

/-- Besides the body, the frame has no slots but those of the name. -/
theorem eq_functionName_of_mem {s : Slot} (h : .slot s ∈ frameFront ++ frameBack) :
    s = .functionName := by
  have hbody : Stretch.slot .functionBody ∉ frameFront ++ frameBack := by decide
  have hexpression : Stretch.slot .expression ∉ frameFront ++ frameBack := by decide
  cases s with
  | functionName => rfl
  | functionBody => exact absurd h hbody
  | expression => exact absurd h hexpression

end GrammarCompiler.Naja.Assembly
