/-
  The link to a device: running commands, watching the connection, rebooting.

  A link dials on first use. Dials are serialized by a lock, and the connection in use stays current
  until a new one is there.

  * `connection` gives the current connection, dialing if there is none;
  * `exec` never fails: a command that did not reach the device is an outcome of its own;
  * `restart` succeeds only after the old connection was seen to drop and a new one was opened, both
    before the deadline; otherwise the old connection stays current;
  * `close` is final: a dial that is still going on closes its result.
-/
import Reimage.CacheProxy
import Reimage.Link.Ask
import Reimage.Shell

namespace Reimage

/-- What a link needs to know of its device. -/
structure Link where
  /-- The device's name. -/
  dut : String
  /-- The address of the caching proxy, empty if there is none. -/
  cacheAddress : String := ""
  deriving DecidableEq, Repr, Inhabited

namespace Link

/-- The error of every use of a closed link. -/
def closedError (l : Link) : Error :=
  .transport ("adapter for " ++ l.dut ++ " is closed")

/-- Makes a connection current. After the link was closed, the connection is closed instead. -/
def install (l : Link) (c : Connection) : Task (Result Unit) := do
  if ← Task.ask (.install c) then pure (.ok ())
  else
    Task.ask (.disconnect c)
    pure (.error l.closedError)

/-- The current connection; dials on first use. -/
def connection (l : Link) : Task (Result Connection) := do
  if ← Task.ask .isClosed then return .error l.closedError
  if let some c ← Task.ask .current then return .ok c
  Task.ask .acquire
  -- Another task may have dialed while this one waited.
  if let some c ← Task.ask .current then
    Task.ask .release
    return .ok c
  match ← Task.ask .dial with
  | .error e =>
    Task.ask .release
    return .error e
  | .ok c =>
    let installed ← l.install c
    Task.ask .release
    return installed.map fun _ => c

/-- Runs a command line and reports everything about how it went. -/
def exec (l : Link) (command : String) (stdin : Option (List UInt8) := none)
    (mode : StderrMode := .separate) : Task ExecResult := do
  match ← l.connection with
  | .error e => return .notStarted e.message
  | .ok c => return .ofAttempt (← Task.ask (.run c command stdin mode))

/-- Runs a command and gives its output; a status other than zero is an error. -/
def runCommand (l : Link) (command : String) (args : List String := [])
    (stdin : Option (List UInt8) := none) (mode : StderrMode := .separate) :
    Task (Result String) := do
  let line := Shell.commandLine command args
  return (← l.exec line stdin mode).intoStdout line

/-- Starts a command line whose output is read while it runs. -/
def stream (l : Link) (command : String) : Task (Result Crash.Running) :=
  l.connection.andThen fun c => Task.ask (.start c command)

/-- Whether a path exists on the device. -/
def pathExists (l : Link) (path : String) : Task (Result Bool) := do
  return (← l.runCommand (Shell.pathExists path)).map fun output => Text.trim output == "1"

/-- The proxy's address of an artifact. -/
def artifactUrl (l : Link) (source : CacheProxy.Source) : Result String :=
  CacheProxy.url l.cacheAddress source

/-- Finds the device again and replaces the connection. Commands that still use the old one keep
    it. -/
def forceReconnect (l : Link) : Task (Result Unit) := do
  Task.ask .acquire
  let result ← Task.andThen (Task.ask .dial) fun c =>
    (l.install c).andThen fun _ => do
      Task.log (.info ("Reconnected to " ++ l.dut ++ " at " ++ c.address))
      return .ok ()
  Task.ask .release
  return result

/-- Waits until the current connection is closed. -/
def wait (l : Link) : Task (Result Unit) :=
  l.connection.andThen fun c => Task.ask (.awaitClose c)

/-- Dials again after the old connection has dropped. -/
def redial (l : Link) (timeout : Duration) (deadline : Instant) : Task (Result Unit) := do
  Task.ask .acquire
  let result ← match ← Task.ask (.dialBefore deadline) with
    | none => do
      Task.log (.warn (l.dut ++ " did not come back within " ++ timeout.text))
      pure (.error (.rebootTimeout timeout))
    | some (.error e) => pure (.error e)
    | some (.ok c) =>
      (l.install c).andThen fun _ => do
        Task.log (.info ("Reconnected to " ++ l.dut ++ " after reboot"))
        return .ok ()
  Task.ask .release
  return result

/-- Reboots the device and connects again once it went down. Gives what the reboot command
    printed. -/
def restart (l : Link) (args : List String) (timeout : Duration) : Task (Result String) := do
  let deadline ← Task.deadline timeout
  l.connection.andThen fun old =>
    (l.runCommand "reboot" args).andThen fun output => do
      Task.log (.info
        ("Reboot issued on " ++ l.dut ++ ", waiting for the connection to drop"))
      match ← Task.ask (.awaitCloseBefore old deadline) with
      | none =>
        Task.log (.warn (l.dut ++ " did not go down within " ++ timeout.text))
        return .error (.rebootTimeout timeout)
      | some (.error e) => return .error e
      | some (.ok ()) =>
        (l.redial timeout deadline).andThen fun _ => pure (.ok output)

/-- Closes the connection and refuses any further use. -/
def close (_ : Link) : Task Unit := do
  if let some c ← Task.ask .closeLink then
    Task.ask (.disconnect c)

end Link

end Reimage
