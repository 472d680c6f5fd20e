/-
  Paths of files, as text.

  A path is a row of components with slashes between them. Empty components and `.` mean nothing,
  `..` is the directory above, and a slash in front starts at the root.
-/
import Reimage.Text.Blank

namespace Reimage.Path

/-- The components of a path: the parts between slashes, except empty ones and `.`. -/
def components (path : List Char) : List (List Char) :=
  (Text.splitChars '/' path).filter fun part => !(part.isEmpty || part == ['.'])

/-- The components of a path. -/
def parts (path : String) : List String := (components path.toList).map String.ofList

/-- Whether a path starts at the root. -/
def isAbsolute (path : String) : Bool := path.toList.head? == some '/'

/-- Whether a path says that it leads to a directory. -/
def endsInSlash (path : String) : Bool := path.toList.getLast? == some '/'

/-- `path` seen from the directory `base`. -/
def join (base path : String) : String :=
  if isAbsolute path then path
  else if base.isEmpty || endsInSlash base then base ++ path
  else base ++ "/" ++ path

/-- The directory that holds what a path leads to. -/
def parent (path : String) : String :=
  (if isAbsolute path then "/" else "") ++ Text.join "/" (parts path).dropLast

/-- The name of what a path leads to, unless it ends by going up or has no components. -/
def fileName? (path : String) : Option String :=
  match (parts path).getLast? with
  | some name => if name = ".." then none else some name
  | none => none

end Reimage.Path
