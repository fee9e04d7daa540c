/-!
Sets of code points given as ascending lists of closed ranges. A Unicode
property is data, and a list of ranges is the form in which the standard
publishes it; membership is one pass that stops as soon as a range starts
beyond the character.
-/

namespace GrammarCompiler.Text

/-- Closed ranges of code points, in ascending order and without overlap. -/
abbrev CodePointSet := List (Nat × Nat)

namespace CodePointSet

/-- Membership of a code point; the ranges behind one that starts later are not looked at. -/
def has : CodePointSet → Nat → Bool
  | [], _ => false
  | (low, high) :: rest, n => if n < low then false else n ≤ high || has rest n

def contains (set : CodePointSet) (c : Char) : Bool := set.has c.toNat

end CodePointSet

end GrammarCompiler.Text
