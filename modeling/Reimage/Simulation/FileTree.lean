/-
  A tree of files in memory.

  Every node has a location, which is the row of names that leads to it from the root; the root
  itself is a directory. A path is followed from the working directory name by name, and every name
  but the last must lead to a directory. A symbolic link on the way has another path in its place.

  * `walk` follows names, and `locate` a path, whether or not there is something at its end;
  * `read`, `write`, `append` and `createDir` do what the system's calls of these names do, and fail
    as they do; a path that ends in a slash never leads to a file;
  * `createDirs` makes a directory with all those above it.
-/
import Reimage.Path
import Reimage.SystemError
import Reimage.Text.Utf8

namespace Reimage.Simulation

/-- What there is at a location. -/
inductive Node
  | directory
  /-- A file, by its number: one file can be at several locations. -/
  | file (number : Nat)
  /-- A device that holds nothing and takes everything. -/
  | sink
  /-- A symbolic link to what a path leads to. -/
  | link (target : String)
  deriving DecidableEq, Repr, Inhabited

/-- The names on the way from the root to a location. -/
abbrev Location := List String

/-- The nodes below the root, what is in the files, and the directory that relative paths start
    at. -/
structure FileTree where
  nodes : List (Location × Node) := []
  contents : List (Nat × List UInt8) := []
  workingDirectory : Location := []
  deriving DecidableEq, Repr, Inhabited

namespace FileTree

/-- The node at a location. -/
def find? (t : FileTree) (location : Location) : Option Node :=
  if location.isEmpty then some .directory else t.nodes.lookup location

/-- What is in a file. -/
def contentsOf (t : FileTree) (number : Nat) : List UInt8 := (t.contents.lookup number).getD []

/-- Puts a value at a key, instead of the one there. -/
def put {κ α : Type} [DecidableEq κ] (key : κ) (value : α) : List (κ × α) → List (κ × α)
  | [] => [(key, value)]
  | e :: rest => if e.1 = key then (key, value) :: rest else e :: put key value rest

/-- The tree with a node at a location. -/
def insert (t : FileTree) (location : Location) (node : Node) : FileTree :=
  { t with nodes := put location node t.nodes }

/-- The tree with other bytes in a file. -/
def refill (t : FileTree) (number : Nat) (bytes : List UInt8) : FileTree :=
  { t with contents := put number bytes t.contents }

/-- A number above those of all files. -/
def fresh (t : FileTree) : Nat :=
  t.nodes.foldr (fun e n => match e.2 with
    | .file number => max (number + 1) n
    | _ => n) 0

/-- The tree with a file of its own at a location. -/
def insertFile (t : FileTree) (location : Location) (bytes : List UInt8) : FileTree :=
  (t.refill t.fresh bytes).insert location (.file t.fresh)

/-! ## Paths -/

/-- The longest name that a node may have, in bytes. -/
def nameLimit : Nat := 255

/-- The longest path that the system takes, in bytes. -/
def pathLimit : Nat := 4095

/-- Follows one name, which `location` must be a directory for. -/
def follow (t : FileTree) (location : Location) (name : String) :
    Except SystemError Location :=
  match t.find? location with
  | none => .error .notFound
  | some .directory =>
    if nameLimit < name.utf8ByteSize then .error .nameTooLong
    else if name = "." then .ok location
    else if name = ".." then .ok location.dropLast
    else .ok (location ++ [name])
  | some _ => .error .notDirectory

/-- The names in a path, `.` and `..` included. -/
def names (path : String) : List String := (Text.split '/' path).filter fun name => !name.isEmpty

/-- The most symbolic links that a path may lead through. -/
def linkLimit : Nat := 40

/-- The directory that a path starts at, as seen from a location. -/
def start (location : Location) (path : String) : Location :=
  if Path.isAbsolute path then [] else location

/-- The names that a path is followed by. A slash at its end asks for a directory, as a point after
    it does. -/
def steps (path : String) : List String :=
  names path ++ if Path.endsInSlash path then ["."] else []

/-- Follows names up to a symbolic link, from where `through` goes on: it is given the directory that
    the link is in, its target, and the names that are left. -/
def walkTo (t : FileTree) (through : Location → String → List String → Except SystemError Location) :
    Location → List String → Except SystemError Location
  | location, [] => .ok location
  | location, name :: rest => do
    let next ← t.follow location name
    match t.find? next with
    | some (.link target) => through location target rest
    | _ => t.walkTo through next rest

/-- Follows names through as many symbolic links as are allowed. -/
def walk (t : FileTree) : (links : Nat) → Location → List String → Except SystemError Location
  | 0 => t.walkTo fun _ _ _ => .error .tooManyLinks
  | links + 1 => t.walkTo fun location target rest =>
    t.walk links (start location target) (steps target ++ rest)

/-- Follows what `choose` leaves of a path. -/
def locateWith (t : FileTree) (choose : String → List String) (path : String) :
    Except SystemError Location :=
  if path.toList.contains '\x00' then .error .nulInName
  else if path.isEmpty then .error .notFound
  else if pathLimit < path.utf8ByteSize then .error .nameTooLong
  else t.walk linkLimit (start t.workingDirectory path) (choose path)

/-- Follows a path. -/
def locate (t : FileTree) (path : String) : Except SystemError Location := t.locateWith steps path

/-- Follows a path up to its last name, to a directory. -/
def locateAbove (t : FileTree) (path : String) : Except SystemError Location := do
  t.follow (← t.locateWith (fun path => (names path).dropLast) path) "."

/-- The node that a path leads to. -/
def node (t : FileTree) (path : String) : Except SystemError Node := do
  match t.find? (← t.locate path) with
  | none => .error .notFound
  | some node => .ok node

/-- Whether a path leads anywhere. -/
def hasPath (t : FileTree) (path : String) : Bool := (t.node path).toOption.isSome

/-- Whether a path leads to a directory. -/
def hasDirectory (t : FileTree) (path : String) : Bool :=
  decide ((t.node path).toOption = some .directory)

/-! ## Files -/

/-- What is read from a file. -/
def read (t : FileTree) (path : String) : Except SystemError (List UInt8) := do
  match ← t.node path with
  | .directory => .error .isDirectory
  | .file number => .ok (t.contentsOf number)
  | .sink => .ok []
  | .link _ => .error .tooManyLinks

/-- Replaces what is in a file by what `change` makes of it. A file that is not there is made
    first. -/
def update (t : FileTree) (path : String) (change : List UInt8 → List UInt8) :
    Except SystemError FileTree := do
  if Path.endsInSlash path then
    let _ ← t.locateAbove path
    .error .isDirectory
  else
    let location ← t.locate path
    match t.find? location with
    | none => .ok (t.insertFile location (change []))
    | some .directory => .error .isDirectory
    | some (.file number) => .ok (t.refill number (change (t.contentsOf number)))
    | some .sink => .ok t
    -- No path ends at a link.
    | some (.link _) => .error .tooManyLinks

/-- Writes a file anew. -/
def write (t : FileTree) (path : String) (contents : List UInt8) : Except SystemError FileTree :=
  t.update path fun _ => contents

/-- Adds to the end of a file. -/
def append (t : FileTree) (path : String) (data : List UInt8) : Except SystemError FileTree :=
  t.update path fun contents => contents ++ data

/-! ## Directories -/

/-- Makes a directory. A path that ends in `.` or `..` names one that is there already, and a link
    in the place of the directory is not followed. -/
def createDir (t : FileTree) (path : String) : Except SystemError FileTree := do
  let above ← t.locateAbove path
  match (names path).getLast? with
  | none | some "." | some ".." => .error .alreadyExists
  | some name =>
    let location ← t.follow above name
    match t.find? location with
    | some _ => .error .alreadyExists
    | none => .ok (t.insert location .directory)

/-- What is to be said of a directory that could not be made: nothing if it is there. -/
def settle (t : FileTree) (path : String) (e : SystemError) : FileTree × Except SystemError Unit :=
  (t, if t.hasDirectory path then .ok () else .error e)

/-- Makes a directory, and those above it first if it cannot be made without them. `fuel` bounds how
    many are above it. -/
def createDirsFrom (t : FileTree) : (fuel : Nat) → String → FileTree × Except SystemError Unit
  | 0, _ => (t, .error .notFound)
  | fuel + 1, path =>
    if path.isEmpty then (t, .ok ())
    else match t.createDir path with
      | .ok t => (t, .ok ())
      | .error .notFound =>
        match createDirsFrom t fuel (Path.parent path) with
        | (t, .error e) => (t, .error e)
        | (t, .ok ()) =>
          match t.createDir path with
          | .ok t => (t, .ok ())
          | .error e => t.settle path e
      | .error e => t.settle path e

/-- Makes a directory with all those above it. -/
def createDirs (t : FileTree) (path : String) : FileTree × Except SystemError Unit :=
  t.createDirsFrom ((Path.parts path).length + 1) path

/-! ## Whole trees -/

/-- The tree with a directory at a location, unless there is something. -/
def withDirectory (t : FileTree) (location : Location) : FileTree :=
  if (t.find? location).isNone then t.insert location .directory else t

/-- The tree with all directories above a location. -/
def withParents (t : FileTree) (location : Location) : FileTree :=
  (List.range location.length).foldl (fun t n => t.withDirectory (location.take n)) t

/-- The tree with a file and all directories above it. -/
def withFile (t : FileTree) (location : Location) (bytes : List UInt8) : FileTree :=
  (t.withParents location).insertFile location bytes

/-- The directories that every system has, and its null device. -/
def usual : FileTree :=
  { nodes := ["bin", "boot", "dev", "etc", "home", "lib", "media", "mnt", "opt", "proc", "root",
      "run", "sbin", "srv", "sys", "tmp", "usr", "var"].map (fun name => ([name], .directory))
      ++ [(["dev", "null"], .sink)] }

/-- The files below a directory, by the paths that lead to them from there without a link. -/
def filesBelow (t : FileTree) (directory : Location) : List (String × List UInt8) :=
  t.nodes.filterMap fun (location, node) =>
    match node with
    | .file number =>
      if directory.isPrefixOf location then
        some (Text.join "/" (location.drop directory.length), t.contentsOf number)
      else none
    | _ => none

end FileTree

end Reimage.Simulation
