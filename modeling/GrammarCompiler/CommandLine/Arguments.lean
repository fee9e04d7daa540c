/-!
The arguments of the command line. They are read from left to right, and the
first one that cannot be accepted decides; a request for the version or for
help takes effect as soon as it is met.

An option that takes a value takes it from its own argument (`-oX`, `-o=X`,
`--output=X`) or from the next one, which must not look like an option. Behind
`--` nothing is an option any more.
-/

namespace GrammarCompiler.CommandLine

/-- A run of the compiler as the arguments ask for it. -/
structure Request where
  input : String
  output : Option String := none
  assembler : Option String := none
  printTree : Bool := false
deriving DecidableEq, Repr, Inhabited

inductive Command where
  | help
  | version
  | compile (request : Request)
deriving DecidableEq, Repr, Inhabited

/-- Why the arguments were refused. -/
inductive UsageError where
  | unknownOption (argument : String)
  | unexpectedArgument (argument : String)
  | unexpectedValue (option : String)
  | missingValue (option : String)
  | emptyValue (name : String)
  | repeated (option : String)
  | missingInput
deriving DecidableEq, Repr, Inhabited

def UsageError.message : UsageError → String
  | .unknownOption argument => "error: unexpected argument '" ++ argument ++ "' found"
  | .unexpectedArgument argument => "error: unexpected argument '" ++ argument ++ "' found"
  | .unexpectedValue option => "error: unexpected value for '" ++ option ++ "' found"
  | .missingValue option =>
    "error: a value is required for '" ++ option ++ "' but none was supplied"
  | .emptyValue name => "error: a value is required for '" ++ name ++ "' but none was supplied"
  | .repeated option => "error: the argument '" ++ option ++ "' cannot be used multiple times"
  | .missingInput => "error: the following required arguments were not provided: <INPUT>"

/-- The options that take a value. -/
inductive ValueOption where
  | output
  | assembler
deriving DecidableEq, Repr, Inhabited

def ValueOption.name : ValueOption → String
  | .output => "--output"
  | .assembler => "--assembler"

/-- What has been given so far. -/
structure Given where
  input : Option String := none
  output : Option String := none
  assembler : Option String := none
  printTree : Bool := false
deriving DecidableEq, Repr, Inhabited

namespace Given

def value? (given : Given) : ValueOption → Option String
  | .output => given.output
  | .assembler => given.assembler

def setValue (given : Given) (option : ValueOption) (value : String) : Given :=
  match option with
  | .output => { given with output := some value }
  | .assembler => { given with assembler := some value }

/-- Gives an option its value. No value may be empty, and none may be given twice. -/
def addValue (given : Given) (option : ValueOption) (value : String) : Except UsageError Given :=
  if value.isEmpty then .error (.emptyValue option.name)
  else if (given.value? option).isSome then .error (.repeated option.name)
  else .ok (given.setValue option value)

/-- Asks for the syntax tree, once at most. -/
def addPrintTree (given : Given) : Except UsageError Given :=
  if given.printTree then .error (.repeated "--print-ast") else .ok { given with printTree := true }

/-- Names the input, once at most. -/
def addInput (given : Given) (value : String) : Except UsageError Given :=
  if given.input.isSome then .error (.unexpectedArgument value)
  else if value.isEmpty then .error (.emptyValue "<INPUT>")
  else .ok { given with input := some value }

end Given

inductive Argument where
  | separator
  /-- A long option with the value behind its equals sign. -/
  | long (name : String) (value : Option String)
  /-- A short option with the text behind its letter. -/
  | short (letter : Char) (attached : List Char)
  | plain
deriving DecidableEq, Repr, Inhabited

/-- Splits a long option at its first equals sign. -/
def splitEquals : List Char → List Char × Option (List Char)
  | [] => ([], none)
  | '=' :: value => ([], some value)
  | c :: rest =>
    let (name, value) := splitEquals rest
    (c :: name, value)

/-- The form of an argument. A lone hyphen is no option. -/
def Argument.ofChars : List Char → Argument
  | ['-', '-'] => .separator
  | '-' :: '-' :: rest =>
    let (name, value) := splitEquals rest
    .long (String.ofList name) (value.map String.ofList)
  | '-' :: letter :: attached => .short letter attached
  | _ => .plain

inductive OptionMeaning where
  | help
  | version
  | printTree
  /-- The value is in the argument, or else in the next one. -/
  | value (option : ValueOption) (attached : Option String)
deriving DecidableEq, Repr, Inhabited

/-- The value that is attached to a short option; an equals sign in front is no part of it. -/
def attachedValue? : List Char → Option String
  | [] => none
  | '=' :: value => some (String.ofList value)
  | value => some (String.ofList value)

def longMeaning (argument name : String) (value : Option String) :
    Except UsageError OptionMeaning :=
  match name, value with
  | "output", value => .ok (.value .output value)
  | "assembler", value => .ok (.value .assembler value)
  | "print-ast", none => .ok .printTree
  | "help", none => .ok .help
  | "version", none => .ok .version
  | "print-ast", some _ | "help", some _ | "version", some _ => .error (.unexpectedValue argument)
  | _, _ => .error (.unknownOption argument)

def shortMeaning (argument : String) (letter : Char) (attached : List Char) :
    Except UsageError OptionMeaning :=
  match letter with
  | 'o' => .ok (.value .output (attachedValue? attached))
  | 'h' => .ok .help
  | 'V' => .ok .version
  | _ => .error (.unknownOption argument)

/-- What an argument asks for as an option; `none` if it is none. -/
def optionMeaning (argument : String) : Except UsageError (Option OptionMeaning) :=
  match Argument.ofChars argument.toList with
  | .separator | .plain => .ok none
  | .long name value => (longMeaning argument name value).map some
  | .short letter attached => (shortMeaning argument letter attached).map some

/-- Arguments behind the end of the options. -/
def readInputs (given : Given) : List String → Except UsageError Given
  | [] => .ok given
  | argument :: rest =>
    match given.addInput argument with
    | .error e => .error e
    | .ok given' => readInputs given' rest

/-- How the reading of arguments ends. -/
inductive Reading where
  | help
  | version
  | complete (given : Given)
deriving DecidableEq, Repr, Inhabited

/-- Reads arguments; `pending` is an option that waits for its value. -/
def readArguments (pending : Option ValueOption) (given : Given) :
    List String → Except UsageError Reading
  | [] =>
    match pending with
    | some option => .error (.missingValue option.name)
    | none => .ok (.complete given)
  | argument :: rest =>
    match pending, Argument.ofChars argument.toList with
    | some option, .plain =>
      match given.addValue option argument with
      | .error e => .error e
      | .ok given' => readArguments none given' rest
    | some option, _ => .error (.missingValue option.name)
    | none, .separator => (readInputs given rest).map .complete
    | none, _ =>
      match optionMeaning argument with
      | .error e => .error e
      | .ok none =>
        match given.addInput argument with
        | .error e => .error e
        | .ok given' => readArguments none given' rest
      | .ok (some .help) => .ok .help
      | .ok (some .version) => .ok .version
      | .ok (some .printTree) =>
        match given.addPrintTree with
        | .error e => .error e
        | .ok given' => readArguments none given' rest
      | .ok (some (.value option none)) => readArguments (some option) given rest
      | .ok (some (.value option (some value))) =>
        match given.addValue option value with
        | .error e => .error e
        | .ok given' => readArguments none given' rest

/-- The assembler: the option wins over the default of the environment. -/
def chooseAssembler (given : Option String) (default : Option String) :
    Except UsageError (Option String) :=
  match given, default with
  | some name, _ => .ok (some name)
  | none, some name => if name.isEmpty then .error (.emptyValue "--assembler") else .ok (some name)
  | none, none => .ok none

/-- The request that complete arguments make. -/
def Given.request (given : Given) (defaultAssembler : Option String) : Except UsageError Request :=
  match chooseAssembler given.assembler defaultAssembler with
  | .error e => .error e
  | .ok assembler =>
    match given.input with
    | none => .error .missingInput
    | some input =>
      .ok { input, output := given.output, assembler, printTree := given.printTree }

/-- What the arguments ask for. -/
def Command.parse (defaultAssembler : Option String) (arguments : List String) :
    Except UsageError Command :=
  match readArguments none {} arguments with
  | .error e => .error e
  | .ok .help => .ok .help
  | .ok .version => .ok .version
  | .ok (.complete given) => (given.request defaultAssembler).map .compile

end GrammarCompiler.CommandLine
