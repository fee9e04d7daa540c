import GrammarCompiler.CommandLine.Path

/-!
A file system as a value: directories, files with their bytes, and devices.
Paths are resolved name by name from the root or from the working directory,
and each way in which that can fail has its own error.

Symbolic and hard links are left out: what stands at a location has no other
name, so that two paths mean the same file exactly if they lead to the same
location. What is said here about content that stays where nothing is written
rests on this. Permissions are left out as well: every file can be read and
written.
-/

namespace GrammarCompiler.CommandLine

/-- What the system answers when it refuses. -/
inductive SystemError where
  | notFound
  | noSuchDevice
  | permissionDenied
  | notADirectory
  | isADirectory
  | noSpace
  | nameTooLong
  | notImplemented
  | other (text : String)
deriving DecidableEq, Repr, Inhabited

def SystemError.message : SystemError → String
  | .notFound => "No such file or directory (os error 2)"
  | .noSuchDevice => "No such device or address (os error 6)"
  | .permissionDenied => "Permission denied (os error 13)"
  | .notADirectory => "Not a directory (os error 20)"
  | .isADirectory => "Is a directory (os error 21)"
  | .noSpace => "No space left on device (os error 28)"
  | .nameTooLong => "File name too long (os error 36)"
  | .notImplemented => "Function not implemented (os error 38)"
  | .other text => text

/-- A place in the file system: the names on the way to it from the root. -/
abbrev Location := List String

/-- What can stand in the place of a file. A device that can be opened reads as empty; what it
does with content is its own affair. -/
inductive Device where
  /-- Takes any content without keeping it. -/
  | null
  /-- Has no room for any content. -/
  | full
  /-- Shows the content on standard output. -/
  | standardOutput
  /-- Cannot be opened, because nothing is attached to it. -/
  | detached
deriving DecidableEq, Repr, Inhabited

inductive Entry where
  | directory
  | file (content : ByteArray)
  | device (device : Device)
deriving Inhabited

structure FileSystem where
  entries : List (Location × Entry)

namespace FileSystem

/-- What is at a location. The root is always there. -/
def entry? (fs : FileSystem) (location : Location) : Option Entry :=
  if location = [] then some .directory else fs.entries.lookup location

/-- Puts an entry at a location, in place of the one that was there. -/
def replace (location : Location) (entry : Entry) :
    List (Location × Entry) → List (Location × Entry)
  | [] => [(location, entry)]
  | (l, e) :: rest =>
    if l = location then (l, entry) :: rest else (l, e) :: replace location entry rest

def set (fs : FileSystem) (location : Location) (entry : Entry) : FileSystem where
  entries := replace location entry fs.entries

/-- The most bytes that a name may have. -/
def maxName : Nat := 255

/-- The most bytes that a path may have. -/
def maxPath : Nat := 4095

/-- Looks a location up. No directory has a name that is too long. -/
def find (fs : FileSystem) (location : Location) : Except SystemError (Option Entry) :=
  if maxName < (location.getLastD "").utf8ByteSize then .error .nameTooLong
  else .ok (fs.entry? location)

/-- Goes from a directory to one of its directories, or to its parent. -/
def enter (fs : FileSystem) (location : Location) (name : String) : Except SystemError Location :=
  if name = "." then .ok location
  else if name = ".." then .ok location.dropLast
  else
    match fs.find (location ++ [name]) with
    | .error e => .error e
    | .ok none => .error .notFound
    | .ok (some .directory) => .ok (location ++ [name])
    | .ok (some _) => .error .notADirectory

/-- Goes through directories one after the other. -/
def enterAll (fs : FileSystem) (location : Location) : List String → Except SystemError Location
  | [] => .ok location
  | name :: rest =>
    match fs.enter location name with
    | .error e => .error e
    | .ok next => enterAll fs next rest

inductive Target where
  | directory (location : Location)
  /-- A name in a directory that is there; the name itself has not been looked up. -/
  | name (location : Location)
deriving DecidableEq, Repr, Inhabited

/-- Resolves a path, seen from the working directory. -/
def resolve (fs : FileSystem) (working : Location) (path : String) : Except SystemError Target :=
  if path.isEmpty then .error .notFound
  else if maxPath < path.utf8ByteSize then .error .nameTooLong
  else
    let base := if Path.isAbsolute path then [] else working
    let names := Path.names path
    match names.getLast? with
    | none => .ok (.directory base)
    | some last =>
      match fs.enterAll base names.dropLast with
      | .error e => .error e
      | .ok folder =>
        if last = "." then .ok (.directory folder)
        else if last = ".." then .ok (.directory folder.dropLast)
        else .ok (.name (folder ++ [last]))

/-- The bytes of the file that a path means. -/
def read (fs : FileSystem) (working : Location) (path : String) : Except SystemError ByteArray :=
  match fs.resolve working path with
  | .error e => .error e
  | .ok (.directory _) => .error .isADirectory
  | .ok (.name location) =>
    match fs.find location with
    | .error e => .error e
    | .ok none => .error .notFound
    | .ok (some .directory) => .error .isADirectory
    | .ok (some (.file content)) =>
      if Path.endsInSlash path then .error .notADirectory else .ok content
    | .ok (some (.device device)) =>
      if Path.endsInSlash path then .error .notADirectory
      else if device = .detached then .error .noSuchDevice
      else .ok ByteArray.empty

/-- What takes content that is written. -/
inductive Sink where
  | file (location : Location)
  | device (device : Device)
deriving DecidableEq, Repr, Inhabited

/-- What takes the content written under a path. A name that is free is good for a new file. A
slash at the end asks for a directory, which is refused before the name is looked up. -/
def sink (fs : FileSystem) (working : Location) (path : String) : Except SystemError Sink :=
  match fs.resolve working path with
  | .error e => .error e
  | .ok (.directory _) => .error .isADirectory
  | .ok (.name location) =>
    if Path.endsInSlash path then .error .isADirectory
    else
      match fs.find location with
      | .error e => .error e
      | .ok (some .directory) => .error .isADirectory
      | .ok (some (.device device)) => .ok (.device device)
      | .ok (some (.file _)) | .ok none => .ok (.file location)

/-- The error of running what a path means, if it is no program. -/
def refusal (fs : FileSystem) (working : Location) (path : String) : SystemError :=
  match fs.resolve working path with
  | .error e => e
  | .ok (.directory _) => .permissionDenied
  | .ok (.name location) =>
    match fs.find location with
    | .error e => e
    | .ok none => .notFound
    | .ok (some .directory) => .permissionDenied
    | .ok (some _) => if Path.endsInSlash path then .notADirectory else .permissionDenied

end FileSystem

end GrammarCompiler.CommandLine
