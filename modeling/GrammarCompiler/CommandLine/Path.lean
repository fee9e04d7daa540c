/-!
Path texts. A path is a list of names with slashes between them; here it is
taken apart for looking up its names and for changing the extension of its
last one.
-/

namespace GrammarCompiler.CommandLine

/-- The text in front of the last occurrence of a character, and the text behind it. -/
def splitLast? (c : Char) : List Char → Option (List Char × List Char)
  | [] => none
  | x :: xs =>
    match splitLast? c xs with
    | some (before, after) => some (x :: before, after)
    | none => if x = c then some ([], xs) else none

namespace Path

/-- The pieces of a path between its slashes; some may be empty. -/
def pieces : List Char → List (List Char)
  | [] => [[]]
  | c :: rest =>
    if c = '/' then [] :: pieces rest
    else
      match pieces rest with
      | [] => [[c]]
      | piece :: more => (c :: piece) :: more

def names (path : String) : List String :=
  ((pieces path.toList).filter fun piece => !piece.isEmpty).map String.ofList

def isAbsolute (path : String) : Bool := path.toList.head? == some '/'

/-- Whether the path ends in a slash, so that it can only mean a directory. -/
def endsInSlash (path : String) : Bool := path.toList.getLast? == some '/'

/-- The stem of a file name: the text in front of its last dot. A dot at the very front starts
no extension. -/
def stem? (name : List Char) : Option (List Char) :=
  match splitLast? '.' name with
  | none => none
  | some ([], _) => none
  | some (stem, _) => some stem

/-- A file name with another extension, or with one behind it if it has none. If the stem is a
single dot, what is left without the extension is the name of the parent directory, which takes
no extension. -/
def renameExtension (extension name : List Char) : List Char :=
  match stem? name with
  | none => name ++ '.' :: extension
  | some ['.'] => ['.', '.']
  | some stem => stem ++ '.' :: extension

/-- The path whose file name has another extension. -/
def withExtension (path extension : String) : String :=
  match splitLast? '/' path.toList with
  | none => String.ofList (renameExtension extension.toList path.toList)
  | some (folder, name) =>
    String.ofList (folder ++ '/' :: renameExtension extension.toList name)

end Path

end GrammarCompiler.CommandLine
