import GrammarCompiler.Lexeme.Stream

/-!
Sessions: what a reader does to a stream, step by step. A checkpoint is a
cursor and nothing else. It stays good however often it is used, and whatever
has been read or put back since; and a checkpoint of another stream is taken as
well, even if this stream is too short for it.
-/

namespace GrammarCompiler.Stream

/-- What can be done to a stream. Checkpoints have numbers, from zero on. -/
inductive Operation where
  | next
  | nextSignificant
  | checkpoint
  /-- Goes back to the checkpoint with the number, and does nothing if there is none. -/
  | rewind (number : Nat)
  /-- Goes to where a checkpoint of another stream has been taken. -/
  | rewindForeign (cursor : Nat)
  | skipping (kinds : List String)
deriving DecidableEq, Repr

/-- The categories that are insignificant from here on. -/
def Operation.added : Operation → List String
  | .skipping kinds => kinds
  | _ => []

/-- A stream, and the cursors of the checkpoints that have been taken, the first one first. -/
structure Session where
  stream : Stream
  checkpoints : List Nat := []
deriving DecidableEq, Repr

namespace Session

/-- A session with a new stream. -/
def start (lexemes : List Lexeme) : Session where
  stream := .ofLexemes lexemes

def perform (w : Session) : Operation → Session
  | .next => { w with stream := w.stream.next.2 }
  | .nextSignificant => { w with stream := w.stream.nextSignificant.2 }
  | .checkpoint => { w with checkpoints := w.checkpoints ++ [w.stream.cursor] }
  | .rewind number =>
    { w with stream := w.stream.rewind (w.checkpoints[number]?.getD w.stream.cursor) }
  | .rewindForeign cursor => { w with stream := w.stream.rewind cursor }
  | .skipping kinds => { w with stream := w.stream.skipping kinds }

def run (w : Session) (ops : List Operation) : Session := ops.foldl perform w

@[simp] theorem run_nil (w : Session) : w.run [] = w := rfl

@[simp] theorem run_cons (w : Session) (op : Operation) (ops : List Operation) :
    w.run (op :: ops) = (w.perform op).run ops := rfl

theorem run_append (w : Session) (front back : List Operation) :
    w.run (front ++ back) = (w.run front).run back := List.foldl_append

end Session

/-- The stream that the operations make of a new one. -/
def after (lexemes : List Lexeme) (ops : List Operation) : Stream :=
  ((Session.start lexemes).run ops).stream

end GrammarCompiler.Stream
