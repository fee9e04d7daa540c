import GrammarCompiler.CommandLine.Run

/-!
The command line program. It reads files, prints, and leaves every decision to
`CommandLine.run`. Starting other programs is not among its services, so a
request for an assembler ends with the system's word for that.
-/

namespace GrammarCompiler.CommandLine

/-- The system's errors by their causes. -/
def SystemError.ofIOError : IO.Error → SystemError
  | .noFileOrDirectory .. => .notFound
  | .noSuchThing _ code _ => if code = 6 then .noSuchDevice else .notFound
  | .permissionDenied .. => .permissionDenied
  | .inappropriateType _ code details =>
    if code = 20 then .notADirectory else if code = 21 then .isADirectory else .other details
  | .unsatisfiedConstraints _ details => .other details
  | .illegalOperation _ details => .other details
  | .resourceExhausted _ code details =>
    if code = 28 then .noSpace else if code = 36 then .nameTooLong else .other details
  | .invalidArgument _ code details => if code = 36 then .nameTooLong else .other details
  | e => .other (toString e)

/-- Runs an action of the system and keeps its error as a value. -/
def attempt {α : Type} (action : IO α) : IO (Except SystemError α) :=
  try return .ok (← action) catch e => return .error (.ofIOError e)

/-- The services of the system that the program runs on. -/
def systemHost : Host IO where
  readFile path := attempt (IO.FS.readBinFile path)
  writeFile path text := attempt (IO.FS.writeFile path text)
  launch _ _ := return .error .notImplemented
  print text := do
    let out ← IO.getStdout
    out.putStr text
    out.flush

/-- The log filter that a setting names. Settings that speak of single parts of the program are not
told apart from none: the log then shows everything. -/
def LogFilter.ofSetting : Option String → LogFilter
  | some "off" => .off
  | some "error" => .downTo .error
  | some "warn" => .downTo .warning
  | _ => .downTo .info

end GrammarCompiler.CommandLine

open GrammarCompiler.CommandLine in
def main (arguments : List String) : IO UInt32 := do
  let assembler ← IO.getEnv "NAJA_ASSEMBLER"
  let log := LogFilter.ofSetting (← IO.getEnv "RUST_LOG")
  match Command.parse assembler arguments with
  | .error e => (← IO.getStderr).putStrLn e.message
  | .ok _ => pure ()
  return (← run systemHost { assembler, log } arguments).toUInt32
