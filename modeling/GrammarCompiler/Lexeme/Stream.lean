import GrammarCompiler.Lexeme

/-!
A stream of lexemes with a cursor that can be put back. Some categories are
insignificant: a reader that asks for the next significant lexeme passes over
them. The cursor counts lexemes from the front; nothing forbids it to lie past
the end, where every read gives the sentinel and leaves the cursor alone.

Consumption (`nextSignificant`) and lookahead (`peekSignificant`) are defined
apart: one counts the lexemes it reads, the other only searches. The lemmas at
the end say that they see the same lexeme.
-/

namespace GrammarCompiler

structure Stream where
  lexemes : List Lexeme
  skipped : List String := []
  cursor : Nat := 0
deriving DecidableEq, Repr, Inhabited

namespace Stream

/-- A stream over the lexemes, with the cursor in front of the first one. -/
def ofLexemes (lexemes : List Lexeme) : Stream where
  lexemes := lexemes

/-- Adds insignificant categories. -/
def skipping (s : Stream) (kinds : List String) : Stream :=
  { s with skipped := s.skipped ++ kinds }

def isInsignificant (s : Stream) (lexeme : Lexeme) : Bool := s.skipped.contains lexeme.kind

def length (s : Stream) : Nat := s.lexemes.length

def isEmpty (s : Stream) : Bool := s.lexemes.isEmpty

/-- Whether the cursor has passed the last lexeme. -/
def isExhausted (s : Stream) : Bool := s.length ≤ s.cursor

/-- The lexemes from the cursor on. -/
def ahead (s : Stream) : List Lexeme := s.lexemes.drop s.cursor

/-- The lexemes from the cursor on that a reader of significant lexemes sees. -/
def significant (s : Stream) : List Lexeme := s.ahead.filter fun l => !s.isInsignificant l

/-- The lexeme under the cursor. -/
def current (s : Stream) : Lexeme := s.lexemes[s.cursor]?.getD .endOfStream

/-- Puts the cursor where it was when its value was `cursor`. -/
def rewind (s : Stream) (cursor : Nat) : Stream := { s with cursor }

/-- The lexeme under the cursor, and the stream behind it. -/
def next (s : Stream) : Lexeme × Stream :=
  match s.lexemes[s.cursor]? with
  | some lexeme => (lexeme, s.rewind (s.cursor + 1))
  | none => (.endOfStream, s)

/-- Reads lexemes up to the first one that is not `skip`ped, and counts the lexemes read. -/
def readPast (skip : Lexeme → Bool) : List Lexeme → Lexeme × Nat
  | [] => (.endOfStream, 0)
  | lexeme :: rest =>
    if skip lexeme then
      let (found, read) := readPast skip rest
      (found, read + 1)
    else (lexeme, 1)

/-- The first significant lexeme from the cursor on, and the stream behind it. At the end this
is the sentinel, and the insignificant lexemes in front of the end are consumed. The search
stops at the sentinel even if its category is insignificant; whoever must not stop there has to
look at what was found. -/
def nextSignificant (s : Stream) : Lexeme × Stream :=
  let (found, read) := readPast s.isInsignificant s.ahead
  (found, s.rewind (s.cursor + read))

/-- The first significant lexeme from the cursor on, without consuming anything. -/
def peekSignificant (s : Stream) : Lexeme :=
  (s.ahead.find? fun l => !s.isInsignificant l).getD .endOfStream

@[simp] theorem lexemes_rewind (s : Stream) (n : Nat) : (s.rewind n).lexemes = s.lexemes := rfl

@[simp] theorem skipped_rewind (s : Stream) (n : Nat) : (s.rewind n).skipped = s.skipped := rfl

@[simp] theorem cursor_rewind (s : Stream) (n : Nat) : (s.rewind n).cursor = n := rfl

@[simp] theorem rewind_cursor (s : Stream) : s.rewind s.cursor = s := rfl

@[simp] theorem rewind_rewind (s : Stream) (m n : Nat) : (s.rewind m).rewind n = s.rewind n := rfl

@[simp] theorem isInsignificant_rewind (s : Stream) (n : Nat) :
    (s.rewind n).isInsignificant = s.isInsignificant := rfl

theorem fst_readPast (skip : Lexeme → Bool) (ls : List Lexeme) :
    (readPast skip ls).1 = (ls.find? fun l => !skip l).getD .endOfStream := by
  induction ls with
  | nil => rfl
  | cons l ls ih =>
    cases h : skip l <;> simp [readPast, h, ih]

/-- Consumption yields the lexeme that lookahead shows. -/
theorem fst_nextSignificant (s : Stream) : s.nextSignificant.1 = s.peekSignificant :=
  fst_readPast _ _

end Stream

end GrammarCompiler
