/-
  The command line.

  It works on the files of the machine. It has no network of its own: whatever it is to reach on a
  device it fails to reach, as on a machine that is offline.
-/
import Reimage.Simulation.Host

namespace Reimage.Main

open CommandLine (User)
open Simulation (Session)

/-- What the system said when it refused an operation. -/
def refusal : IO.Error → SystemError
  | .noFileOrDirectory _ _ _ => .notFound
  | .alreadyExists _ _ _ => .alreadyExists
  | .inappropriateType _ code _ => if code = 21 then .isDirectory else .notDirectory
  | e => .other (toString e)

/-- Does something that the system may refuse. -/
def attempt {α : Type} (action : IO α) : IO (Except SystemError α) := do
  try
    return .ok (← action)
  catch e => return .error (refusal e)

/-- Does something and tells whether the system let it. -/
def succeeds (action : IO Unit) : IO Bool := do
  try
    action
    return true
  catch _ => return false

/-- Writes bytes to a stream. -/
def write (stream : IO.FS.Stream) (bytes : List UInt8) : IO Unit := do
  stream.write ⟨bytes.toArray⟩
  stream.flush

/-- A number that no other run is likely to draw. -/
def draw : IO Nat := do
  return (← IO.getRandomBytes 16).toList.foldl (fun n byte => n * 256 + byte.toNat) 0

/-- Answers a question. -/
def answer (u : User) : (q : CommandLine.Ask) → StateT (Option (Session Unit)) IO q.Answer
  | .readFile path => attempt do return (← IO.FS.readBinFile path).toList
  | .writeFile path contents => attempt (IO.FS.writeBinFile path ⟨contents.toArray⟩)
  | .appendFile path data => attempt do
      (← IO.FS.Handle.mk path .append).write ⟨data.toArray⟩
  | .createDirs path => attempt (if path.isEmpty then pure () else IO.FS.createDirAll path)
  | .pathExists path => succeeds do let _ ← IO.FS.Handle.mk path .read
  | .print bytes => do write (← IO.getStdout) bytes
  | .printError bytes => do write (← IO.getStderr) bytes
  | .use c => do set (some (Session.offline c u.home (← draw)))
  | .device q => do
    match (← get).bind fun s => s.answer Simulation.front q with
    | some (a, s) =>
      set (some s)
      return a
    | none => throw (IO.userError "the device will never answer")
  | .abort message => throw (IO.userError message)

/-- The user who runs the program. -/
def currentUser : IO User := do
  return { home := (← IO.getEnv "HOME").filter fun home => !home.isEmpty
           configHome := ← IO.getEnv "XDG_CONFIG_HOME" }

/-- The exit code after a defect. -/
def defect : UInt32 := 101

/-- Runs a command line and gives its exit code. -/
def run (arguments : List String) : IO UInt32 := do
  let user ← currentUser
  try
    let (code, _) ← ((CommandLine.run user arguments).interpret (answer user)).run none
    return UInt32.ofNat code
  catch e =>
    IO.eprintln e
    return defect

end Reimage.Main

/-- Runs the command line. -/
def main (arguments : List String) : IO UInt32 := Reimage.Main.run arguments
