/-
  Keeping crash data in files.

  Each chunk of crash data goes to a file in one directory. The file's name is the number of the
  crash, a point, and the last name in the path that the chunk had on the device. So no chunk can
  leave the directory, whatever its path says.
-/
import Reimage.Crash.Message
import Reimage.Path

namespace Reimage.Crash

/-- The name of the file for the chunks of one file of a crash. A path without a last name counts as
    one that ends in `blob`. -/
def storedName (crashId : Int64) (path : String) : String :=
  toString crashId.toInt ++ "." ++ (Path.fileName? path).getD "blob"

/-- The data in a message and the name of the file they are added to, if it carries any. -/
def Message.stored? (m : Message) : Option (String × List UInt8) :=
  match m.payload with
  | some (.blob b) => some (storedName m.crashId b.filename, b.blob)
  | some (.core c) => some (storedName m.crashId c.filename, c.blob)
  | _ => none

end Reimage.Crash
