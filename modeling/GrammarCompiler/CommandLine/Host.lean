import GrammarCompiler.CommandLine.FileSystem

/-!
What the command line needs from the system it runs on: files, a standard
output and a way to start a program. A host says how these are done in some
monad; `World.host` does them on a value, which is what can be reasoned about.
-/

namespace GrammarCompiler.CommandLine

/-- The services of the system. -/
structure Host (m : Type → Type) where
  readFile : String → m (Except SystemError ByteArray)
  writeFile : String → String → m (Except SystemError Unit)
  /-- Runs a program on an argument to its end, and gives its exit status. -/
  launch : String → String → m (Except SystemError Nat)
  print : String → m Unit

/-- A program that can be started: what it prints for an argument, and its exit status. -/
abbrev Program := FileSystem → Location → String → String × Nat

/-- A system as a value. -/
structure World where
  files : FileSystem
  working : Location
  /-- The directories, as paths, in which a program without a slash is looked for. -/
  searchPath : List String
  programs : List (Location × Program)
  /-- What has been printed so far. -/
  printed : String

namespace World

/-- The program that a path means, or why it cannot be started. -/
def programAt (w : World) (path : String) : Except SystemError Program :=
  match w.files.resolve w.working path with
  | .ok (.name location) =>
    match w.programs.lookup location with
    | some program => if Path.endsInSlash path then .error .notADirectory else .ok program
    | none => .error (w.files.refusal w.working path)
  | _ => .error (w.files.refusal w.working path)

/-- Looks for a program in directories. A directory without the name is passed over, and a
candidate that may not be started counts only if no later directory has a program; any other
refusal ends the search. -/
def search (w : World) (name : String) (refusal : SystemError) :
    List String → Except SystemError Program
  | [] => .error refusal
  | folder :: rest =>
    match w.programAt (folder ++ "/" ++ name) with
    | .ok program => .ok program
    | .error .permissionDenied => search w name .permissionDenied rest
    | .error .notFound | .error .notADirectory => search w name refusal rest
    | .error e => .error e

/-- The program of a name or path. -/
def program (w : World) (name : String) : Except SystemError Program :=
  if name.toList.contains '/' then w.programAt name else w.search name .notFound w.searchPath

/-- Hands a text to what takes it. A file gets it as its new content. -/
def deliver (w : World) (text : String) : FileSystem.Sink → Except SystemError World
  | .file location => .ok { w with files := w.files.set location (.file text.toUTF8) }
  | .device .null => .ok w
  | .device .full => .error .noSpace
  | .device .standardOutput => .ok { w with printed := w.printed ++ text }
  | .device .detached => .error .noSuchDevice

/-- Writes a text under a path. -/
def write (w : World) (path text : String) : Except SystemError World :=
  match w.files.sink w.working path with
  | .error e => .error e
  | .ok sink => w.deliver text sink

/-- The services of a world. -/
def host : Host (StateM World) where
  readFile path := do return (← get).files.read (← get).working path
  writeFile path text := fun w =>
    match w.write path text with
    | .error e => (.error e, w)
    | .ok w' => (.ok (), w')
  launch name argument := fun w =>
    match w.program name with
    | .error e => (.error e, w)
    | .ok program =>
      let (text, status) := program w.files w.working argument
      (.ok status, { w with printed := w.printed ++ text })
  print text := fun w => ((), { w with printed := w.printed ++ text })

end World

end GrammarCompiler.CommandLine
