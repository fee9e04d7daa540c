import GrammarCompiler.Lexeme.Stream
import GrammarCompiler.Parse.Diagnostic

/-!
Outcomes of attempts to match a stretch of a stream. An attempt that fails
leaves a stream behind too, so that where the cursor stands after a failure is
a fact about the attempt and not a convention. An attempt that would go on
forever has an outcome of its own.
-/

namespace GrammarCompiler

inductive Outcome (α : Type) where
  | success (value : α) (stream : Stream)
  | failure (diagnostics : List Diagnostic) (stream : Stream)
  /-- The attempt descends without end. -/
  | diverged
deriving DecidableEq, Repr, Inhabited

namespace Outcome

variable {α : Type}

/-- Puts the cursor of a failed attempt back. -/
def rewound (cursor : Nat) : Outcome α → Outcome α
  | .success value s => .success value s
  | .failure ds s => .failure ds (s.rewind cursor)
  | .diverged => .diverged

/-- The outcome as a value or its diagnostics; `none` without an end. -/
def result? : Outcome α → Option (Except (List Diagnostic) α)
  | .success value _ => some (.ok value)
  | .failure ds _ => some (.error ds)
  | .diverged => none

/-- The stream that the attempt leaves behind. -/
def stream? : Outcome α → Option Stream
  | .success _ s => some s
  | .failure _ s => some s
  | .diverged => none

/-- Whether the attempt comes to an end. -/
def Returns (o : Outcome α) : Prop := o ≠ .diverged

instance [DecidableEq α] (o : Outcome α) : Decidable o.Returns :=
  inferInstanceAs (Decidable (o ≠ .diverged))

/-- A failed attempt that changed nothing but the cursor, and was put back, changed nothing. -/
theorem eq_of_rewound_failure {o : Outcome α} {s s' : Stream} {ds : List Diagnostic}
    (h : ∀ ds' s'', o = .failure ds' s'' → s'' = s.rewind s''.cursor)
    (hf : o.rewound s.cursor = .failure ds s') : s' = s := by
  cases o with
  | success value s'' => cases hf
  | diverged => cases hf
  | failure ds' s'' =>
    obtain ⟨-, rfl⟩ : ds' = ds ∧ s''.rewind s.cursor = s' := by simpa [rewound] using hf
    rw [h ds' s'' rfl]
    rfl

end Outcome

end GrammarCompiler
