/-!
Files as the program sees them.

`FileAccess` lists what is asked of a file system, in any monad, so that what the program does with
files can be stated and run without one. `FileTree` is a file system held in memory.
-/

namespace LexicalModes

/-- Why a file or directory cannot be read. -/
inductive ReadError
  | notFound
  | isDirectory
  | notDirectory
  | invalidText
  /-- A name on the path is too long. -/
  | invalidName
  /-- The path holds a character that no path may hold. -/
  | invalidPath
  | other (description : String)
  deriving DecidableEq, Repr

/-- A short description of a read error. -/
def ReadError.description : ReadError → String
  | .notFound => "entity not found"
  | .isDirectory => "is a directory"
  | .notDirectory => "not a directory"
  | .invalidText => "invalid data"
  | .invalidName => "invalid filename"
  | .invalidPath => "invalid input parameter"
  | .other description => description

/-- What is asked of a file system. -/
structure FileAccess (m : Type → Type) where
  /-- The text of a file. -/
  readText : String → m (Except ReadError String)
  /-- Whether the path leads to a directory. -/
  isDirectory : String → m Bool
  /-- The names in a directory, in any order. -/
  list : String → m (Except ReadError (List String))

/-- The parts of a path between slashes. -/
def pathParts (path : String) : List String :=
  let (parts, last) := path.toList.foldl
    (fun (parts, part) c => if c == '/' then (part.reverse :: parts, []) else (parts, c :: part))
    (([], []) : List (List Char) × List Char)
  ((last.reverse :: parts).reverse).map String.ofList

/-- The parts of a path that name something, without those that stay in place. -/
def pathNames (path : String) : List String :=
  (pathParts path).filter fun part => !part.isEmpty && part != "."

/-- The last name of a path, if it ends with one. -/
def pathFileName? (path : String) : Option String :=
  match (pathNames path).getLast? with
  | some ".." => none
  | name => name

/-- The part of a file name after its last dot; a dot at the very start does not count. -/
def fileExtension? (name : String) : Option String :=
  let chars := name.toList.reverse
  let tail := chars.takeWhile (· != '.')
  match chars.drop tail.length with
  | _ :: _ :: _ => some (String.ofList tail.reverse)
  | _ => none

/-- The path of a name in a directory. -/
def joinPath (directory name : String) : String :=
  if directory.isEmpty || directory.toList.getLast? == some '/' then directory ++ name
  else directory ++ "/" ++ name

/-- A file by its bytes, or a directory. -/
inductive FileNode
  | file (bytes : ByteArray)
  | directory

/-- Files and directories by the names on the way to them. -/
structure FileTree where
  nodes : List (List String × FileNode) := []

namespace FileTree

/-- What the names lead to. A directory exists if it is listed or something in it is; the one that
paths start from always does. -/
def get? (t : FileTree) (names : List String) : Option FileNode :=
  match t.nodes.lookup names with
  | some node => some node
  | none =>
    if names.isEmpty || t.nodes.any fun entry => names.isPrefixOf entry.1 then some .directory
    else none

/-- Most bytes of a name. -/
def nameLimit : Nat := 255

/-- Most bytes of a path. -/
def pathLimit : Nat := 4095

/-- Follow names from a place. A place in the tree is given by the names on the way to it, the
latest first; there is none for places outside of it, in which nothing but the way further out is
known. -/
def walk (t : FileTree) :
    Option (List String) → List String → Except ReadError (Option (List String))
  | here, [] => .ok here
  | none, name :: rest =>
    if name == ".." then walk t none rest
    else if name.utf8ByteSize > nameLimit then .error .invalidName
    else .error .notFound
  | some here, name :: rest =>
    match t.get? here.reverse with
    | some .directory =>
      if name == ".." then walk t (if here.isEmpty then none else some here.tail) rest
      else if name.utf8ByteSize > nameLimit then .error .invalidName
      else walk t (some (name :: here)) rest
    | some (.file _) => .error .notDirectory
    | none => .error .notFound

/-- Where a path leads to: a place in the tree, or none outside of it. Paths that start with a slash
start outside. -/
def locate (t : FileTree) (path : String) : Except ReadError (Option (List String)) :=
  if path.contains (Char.ofNat 0) then .error .invalidPath
  else if path.utf8ByteSize > pathLimit then .error .invalidName
  else if path.isEmpty then .error .notFound
  else t.walk (if path.startsWith "/" then none else some []) (pathNames path)

/-- What a path leads to. A path that ends in a slash has to lead to a directory. -/
def find (t : FileTree) (path : String) : Except ReadError FileNode := do
  match ← t.locate path with
  | none => return .directory
  | some place =>
    match t.get? place.reverse with
    | none => throw .notFound
    | some (.file bytes) =>
      let last := (pathParts path).getLast?
      if last == some "" || last == some "." then throw .notDirectory else return .file bytes
    | some .directory => return .directory

/-- The names in the directory that the names lead to, each once. -/
def namesIn (t : FileTree) (directory : List String) : List String :=
  (t.nodes.filterMap fun entry =>
    if directory.isPrefixOf entry.1 then (entry.1.drop directory.length).head? else none).eraseDups

/-- Access to a file tree. -/
def access (t : FileTree) : FileAccess Id where
  readText path :=
    match t.find path with
    | .error e => .error e
    | .ok .directory => .error .isDirectory
    | .ok (.file bytes) =>
      match String.fromUTF8? bytes with
      | some text => .ok text
      | none => .error .invalidText
  isDirectory path :=
    match t.find path with
    | .ok .directory => true
    | _ => false
  list path :=
    match t.locate path with
    | .error e => .error e
    | .ok none => .ok []
    | .ok (some place) => .ok (t.namesIn place.reverse)

end FileTree

end LexicalModes
