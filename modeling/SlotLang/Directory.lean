/-!
# Files

What the commands need of a file system: reading a text by its path and writing one. `Directory` is
a file system small enough to be a value; its paths are relative to one working directory.

A path is refused before it is followed if it holds a NUL character or is too long as a whole. It is
then followed name by name, so of two faults in its names the earlier one counts.
-/

namespace SlotLang

/-- Why a file cannot be read or written. -/
inductive FileError where
  /-- The path holds a NUL character, with which no name can be written. -/
  | nulInPath
  /-- The path, or a name in it, has too many bytes. -/
  | nameTooLong
  | notFound
  | notDirectory
  | isDirectory
  /-- The bytes of the file are no UTF-8 text. -/
  | notText
deriving DecidableEq, Repr

/-- The wording the system gives the error. -/
def FileError.message : FileError → String
  | .nulInPath => "file name contained an unexpected NUL byte"
  | .nameTooLong => "File name too long (os error 36)"
  | .notFound => "No such file or directory (os error 2)"
  | .notDirectory => "Not a directory (os error 20)"
  | .isDirectory => "Is a directory (os error 21)"
  | .notText => "stream did not contain valid UTF-8"

/-- A place where texts are read and written. A failure is the system's own wording. -/
class FileStore (m : Type → Type) where
  /-- Read the text at a path. -/
  readText (path : String) : m (Except String String)
  /-- Write a text to a path, in the place of what was there. -/
  writeText (path text : String) : m (Except String Unit)

/-- Something a path leads to. -/
inductive Node where
  | file (content : ByteArray)
  | directory

/-- The steps of a path: the names between its slashes. The first is empty if the path begins with
a slash, the last if it ends with one. -/
def pathSteps (path : String) : List String :=
  path.toList.foldr
    (fun c steps ↦
      if c = '/' then "" :: steps
      else
        match steps with
        | [] => [String.singleton c]
        | step :: steps => (String.singleton c ++ step) :: steps)
    [""]

/-- The number of bytes that a path has to stay below. -/
def pathSizeLimit : Nat := 4096

/-- The number of bytes that a name may have. -/
def nameSizeLimit : Nat := 255

/-- A place in a file system: the names from the working directory down to it. A place above the
working directory has a `..` for each level up, one under the root a `/`, in front of the names. -/
abbrev FilePlace := List String

namespace FilePlace

/-- Where a path begins: at the root or in the working directory. -/
def start (path : String) : FilePlace :=
  if path.toList.head? = some '/' then ["/"] else []

/-- Whether no names lead to a place: it is the working directory, one above it, or the root. -/
def isTop (p : FilePlace) : Bool := p = ["/"] || p.all (· = "..")

/-- The place above. The root is above itself. -/
def up (p : FilePlace) : FilePlace :=
  if p = ["/"] then p else if p.isTop then p ++ [".."] else p.dropLast

/-- The place a path names if every name in it stands for a directory. -/
def ofPath (path : String) : FilePlace :=
  (pathSteps path).foldl
    (fun p step ↦
      if step = "" || step = "." then p
      else if step = ".." then p.up
      else p ++ [step])
    (start path)

/-- The places a place is in, the outermost first. -/
def parents (p : FilePlace) : List FilePlace :=
  (List.range p.length).map p.take

end FilePlace

/-- A working directory with everything under it, each entry by its place. -/
structure Directory where
  /-- The entries; of two with one place the first counts. -/
  entries : List (FilePlace × Node)

namespace Directory

/-- A directory with nothing in it. -/
def empty : Directory := ⟨[]⟩

/-- What is at a place. -/
def find? (d : Directory) (p : FilePlace) : Option Node :=
  if p.isTop then some .directory else (d.entries.find? (·.1 = p)).map (·.2)

/-- Put something at a place. -/
def put (d : Directory) (p : FilePlace) (node : Node) : Directory :=
  ⟨(p, node) :: d.entries.filter (·.1 ≠ p)⟩

/-- What a name in a directory leads to. -/
def lookUp (d : Directory) (here : FilePlace) (name : String) : Except FileError (Option Node) :=
  if name = "." || name = ".." then .ok (some .directory)
  else if nameSizeLimit < name.utf8ByteSize then .error .nameTooLong
  else .ok (d.find? (here ++ [name]))

/-- Follow the steps of a path from a directory, through directories all the way. -/
def walk (d : Directory) (here : FilePlace) : List String → Except FileError FilePlace
  | [] => .ok here
  | step :: steps =>
    if step = "" || step = "." then d.walk here steps
    else if step = ".." then d.walk here.up steps
    else
      match d.lookUp here step with
      | .error e => .error e
      | .ok (some .directory) => d.walk (here ++ [step]) steps
      | .ok (some (.file _)) => .error .notDirectory
      | .ok none => .error .notFound

/-- Where a path leads. -/
structure Location where
  /-- The directory that the last name of the path stands in. -/
  parent : FilePlace
  /-- The last name, `.` if there is none. -/
  name : String
  /-- Whether the path says that it leads to a directory. -/
  asDirectory : Bool

/-- Follow a path up to its last name. -/
def locate (d : Directory) (path : String) : Except FileError Location :=
  if path.toList.contains '\x00' then .error .nulInPath
  else if pathSizeLimit ≤ path.utf8ByteSize then .error .nameTooLong
  else if path.isEmpty then .error .notFound
  else
    let steps := pathSteps path
    let names := (steps.reverse.dropWhile (· = "")).reverse
    let name := names.getLast?.getD "."
    match d.walk (FilePlace.start path) names.dropLast with
    | .error e => .error e
    | .ok parent =>
      .ok ⟨parent, name, name = "." || name = ".." || steps.getLast? = some ""⟩

/-- Read the bytes at a path. -/
def read (d : Directory) (path : String) : Except FileError ByteArray :=
  match d.locate path with
  | .error e => .error e
  | .ok l =>
    match d.lookUp l.parent l.name with
    | .error e => .error e
    | .ok (some (.file content)) => if l.asDirectory then .error .notDirectory else .ok content
    | .ok (some .directory) => .error .isDirectory
    | .ok none => .error .notFound

/-- Read the text at a path. -/
def readText (d : Directory) (path : String) : Except FileError String :=
  match d.read path with
  | .error e => .error e
  | .ok content =>
    match String.fromUTF8? content with
    | some text => .ok text
    | none => .error .notText

/-- Write a text to a path. -/
def writeText (d : Directory) (path text : String) : Except FileError Directory :=
  match d.locate path with
  | .error e => .error e
  | .ok l =>
    if l.asDirectory then .error .isDirectory
    else
      match d.lookUp l.parent l.name with
      | .error e => .error e
      | .ok (some .directory) => .error .isDirectory
      | .ok _ => .ok (d.put (l.parent ++ [l.name]) (.file text.toUTF8))

/-- Make a place a directory if there is nothing. -/
def ensure (d : Directory) (p : FilePlace) : Directory :=
  if (d.find? p).isSome then d else d.put p .directory

/-- Add an entry by its path, and the directories it is in where they are missing. -/
def add (d : Directory) (path : String) (node : Node) : Directory :=
  let p := FilePlace.ofPath path
  (p.parents.foldl ensure d).put p node

end Directory

instance : FileStore (StateM Directory) where
  readText path := do return ((← get).readText path).mapError FileError.message
  writeText path text := do
    match (← get).writeText path text with
    | .error e => return .error e.message
    | .ok d =>
      set d
      return .ok ()

end SlotLang
