import GrammarCompiler.CommandLine.Arguments

/-!
The spelling of argument lists, as a relation. A list that asks for a run says
so by its items: the input, the values of options, and the wish to see the
syntax tree. An item can be written in more than one way, and the items can
come in any order.
-/

namespace GrammarCompiler.CommandLine

/-- What arguments can say about a run. -/
inductive Item where
  | input (path : String)
  | value (option : ValueOption) (text : String)
  | printTree
deriving DecidableEq, Repr, Inhabited

/-- The argument is no option. -/
def IsPlain (argument : String) : Prop :=
  argument = "-" ∨ argument.toList.head? ≠ some '-'

/-- The arguments that announce a value of the option in the next argument. -/
def ValueOption.flags : ValueOption → List String
  | .output => ["-o", "--output"]
  | .assembler => ["--assembler"]

/-- The arguments that say the item. -/
inductive Item.Written : Item → List String → Prop where
  | input {path : String} : IsPlain path → Written (.input path) [path]
  | separate {option : ValueOption} {flag text : String} :
    flag ∈ option.flags → IsPlain text → Written (.value option text) [flag, text]
  | long {option : ValueOption} {text : String} :
    Written (.value option text) [option.name ++ "=" ++ text]
  | short {text : String} :
    text ≠ "" → text.toList.head? ≠ some '=' → Written (.value .output text) ["-o" ++ text]
  | shortEquals {text : String} : Written (.value .output text) ["-o=" ++ text]
  | printTree : Written .printTree ["--print-ast"]

/-- The arguments say the items, one behind the other. Behind a separator every argument is an
input. -/
inductive Spelled : List String → List Item → Prop where
  | nil : Spelled [] []
  | cons {item : Item} {words rest : List String} {items : List Item} :
    item.Written words → Spelled rest items → Spelled (words ++ rest) (item :: items)
  | separator {paths : List String} : Spelled ("--" :: paths) (paths.map .input)

/-- The items ask for the run. The assembler of the environment counts if they name none. -/
structure Request.MadeBy (request : Request) (items : List Item)
    (defaultAssembler : Option String) : Prop where
  input : ∀ path, .input path ∈ items ↔ request.input = path
  output : ∀ path, .value .output path ∈ items ↔ request.output = some path
  assembler : ∀ name, request.assembler = some name ↔
    .value .assembler name ∈ items ∨
      (∀ given, .value .assembler given ∉ items) ∧ defaultAssembler = some name
  printTree : .printTree ∈ items ↔ request.printTree = true

end GrammarCompiler.CommandLine
