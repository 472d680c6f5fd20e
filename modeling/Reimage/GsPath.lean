/-
  Places of objects in cloud storage, written `gs://bucket/object`.

  A path is its list of components: empty components and `.` mean nothing and are dropped on
  reading, and there is at least one component, the bucket.
-/
import Reimage.Error
import Reimage.Path

namespace Reimage

/-- A cloud storage path as its components, the bucket first. -/
structure GsPath where
  bucket : String
  object : List String
  deriving DecidableEq, Repr

namespace GsPath

/-- What every storage path starts with. -/
def scheme : String := "gs://"

/-- Reads a storage path. -/
def parse (url : String) : Result GsPath :=
  match Text.dropStart? scheme.toList url.toList with
  | none => .error (.invalidSource ("gs url must begin with 'gs://', instead have, " ++ url))
  | some rest =>
    match (Path.components rest).map String.ofList with
    | [] => .error (.invalidSource ("missing bucket in " ++ url))
    | bucket :: object => .ok ⟨bucket, object⟩

/-- The path without its scheme: bucket and object joined by slashes. -/
def text (p : GsPath) : String := Text.join "/" (p.bucket :: p.object)

/-- The path of `relative` below the directory `parent`. -/
def below (parent relative : String) : String :=
  Text.trimEndChar '/' parent ++ "/" ++ relative

end GsPath

end Reimage
