import GrammarCompiler.CommandLine.Arguments
import GrammarCompiler.CommandLine.Host
import GrammarCompiler.Naja.Compile

/-!
A run of the compiler from the command line. The source is read, compiled and
written; then the assembler runs on what was written, if one was asked for.
What happens is logged on standard output. Any step that fails ends the run;
an assembler that reports failure does not count as one.
-/

namespace GrammarCompiler.CommandLine

/-- How serious a line of the log is. -/
inductive Level where
  | error
  | warning
  | info
deriving DecidableEq, Repr, Inhabited

def Level.name : Level → String
  | .error => "ERROR"
  | .warning => "WARN"
  | .info => "INFO"

/-- Which lines the log shows: nothing, or everything down to a level. -/
inductive LogFilter where
  | off
  | downTo (level : Level)
deriving DecidableEq, Repr, Inhabited

def Level.rank : Level → Nat
  | .error => 0
  | .warning => 1
  | .info => 2

def LogFilter.shows : LogFilter → Level → Bool
  | .off, _ => false
  | .downTo least, level => level.rank ≤ least.rank

/-- What a run gets from its surroundings besides its arguments. -/
structure Surroundings where
  /-- The assembler to use if the arguments name none. -/
  assembler : Option String := none
  log : LogFilter := .downTo .info

def programName : String := "najac"

def versionText : String := programName ++ " 0.1.0"

inductive RunError where
  | read (path : String) (error : SystemError)
  | notText (path : String)
  | compile (error : Naja.CompileError)
  | write (path : String) (error : SystemError)
  | launch (program : String) (error : SystemError)
deriving DecidableEq, Repr, Inhabited

/-- What the log says of a failure; every diagnostic of the parser has a line of its own. -/
def RunError.messages : RunError → List String
  | .read path error => ["read " ++ path ++ ": " ++ error.message]
  | .notText path => ["read " ++ path ++ ": stream did not contain valid UTF-8"]
  | .compile (.parse diagnostics) => diagnostics
  | .compile error => [error.message]
  | .write path error => ["write " ++ path ++ ": " ++ error.message]
  | .launch program error => ["run " ++ program ++ ": " ++ error.message]

def assemblyExtension : String := "asm"

/-- Where the assembly goes. -/
def Request.outputPath (request : Request) : String :=
  request.output.getD (Path.withExtension request.input assemblyExtension)

section

variable {m : Type → Type} [Monad m] (host : Host m)

def logLine (filter : LogFilter) (level : Level) (text : String) : m Unit :=
  if filter.shows level then
    host.print (level.name ++ " " ++ programName ++ ": " ++ text ++ "\n")
  else pure ()

def logLines (filter : LogFilter) (level : Level) : List String → m Unit
  | [] => pure ()
  | text :: rest => do
    logLine host filter level text
    logLines filter level rest

def readSource (path : String) : m (Except RunError String) := do
  match ← host.readFile path with
  | .error e => return .error (.read path e)
  | .ok bytes =>
    match String.fromUTF8? bytes with
    | none => return .error (.notText path)
    | some text => return .ok text

def storeAssembly (filter : LogFilter) (path code : String) : m (Except RunError Unit) := do
  match ← host.writeFile path code with
  | .error e => return .error (.write path e)
  | .ok () =>
    logLine host filter .info ("wrote assembly output=" ++ path)
    return .ok ()

/-- Runs the assembler; its exit status is only reported. -/
def runAssembler (filter : LogFilter) (assembler path : String) : m (Except RunError Unit) := do
  match ← host.launch assembler path with
  | .error e => return .error (.launch assembler e)
  | .ok status =>
    if status = 0 then logLine host filter .info ("assembled assembler=" ++ assembler)
    else
      logLine host filter .warning
        ("assembler failed assembler=" ++ assembler ++ " status=exit status: " ++ toString status)
    return .ok ()

/-- Parses a source, shows its tree if that is asked for, and generates its assembly. -/
def compileSource (request : Request) (source : String) : m (Except RunError String) := do
  match Naja.parse source with
  | .error e => return .error (.compile e)
  | .ok tree =>
    if request.printTree then host.print tree.outline
    match Naja.assemble tree with
    | .error e => return .error (.compile e)
    | .ok code => return .ok code

/-- Carries out a request. -/
def execute (filter : LogFilter) (request : Request) : m (Except RunError Unit) := do
  match ← readSource host request.input with
  | .error e => return .error e
  | .ok source =>
    logLine host filter .info ("compiling input=" ++ request.input)
    match ← compileSource host request source with
    | .error e => return .error e
    | .ok code =>
      match ← storeAssembly host filter request.outputPath code with
      | .error e => return .error e
      | .ok () =>
        match request.assembler with
        | none => return .ok ()
        | some assembler => runAssembler host filter assembler request.outputPath

def helpText : String :=
  "Naja compiler\n\n"
    ++ "Usage: najac [OPTIONS] <INPUT>\n\n"
    ++ "Arguments:\n"
    ++ "  <INPUT>  Naja source file\n\n"
    ++ "Options:\n"
    ++ "  -o, --output <OUTPUT>        "
    ++ "Assembly output (defaults to the input with an `.asm` extension)\n"
    ++ "      --assembler <ASSEMBLER>  Assembler to run on the output [env: NAJA_ASSEMBLER=]\n"
    ++ "      --print-ast              Print the syntax tree\n"
    ++ "  -h, --help                   Print help\n"
    ++ "  -V, --version                Print version\n"

/-- Carries out a command and gives the exit status. -/
def perform (filter : LogFilter) : Command → m Nat
  | .help => do
    host.print helpText
    return 0
  | .version => do
    host.print (versionText ++ "\n")
    return 0
  | .compile request => do
    match ← execute host filter request with
    | .ok () => return 0
    | .error e =>
      logLines host filter .error e.messages
      return 1

/-- A whole run: its exit status is 0, 1 if a step failed, or 2 if the arguments were refused,
in which case nothing is touched. -/
def run (surroundings : Surroundings) (arguments : List String) : m Nat :=
  match Command.parse surroundings.assembler arguments with
  | .error _ => return 2
  | .ok command => perform host surroundings.log command

end

end GrammarCompiler.CommandLine
