/-
  A service for one device: single commands, crash reports, and operations in the background.

  What may take longer than a caller wants to wait is registered as an operation and carried out by
  a task of its own; the caller gets the operation at once. Closing the service drops those tasks
  before it lets go of the connection.
-/
import Reimage.Crosid
import Reimage.Link.Basic

namespace Reimage

/-- A service for one device. -/
structure Service where
  link : Link
  /-- Where the crash report helper is on the device. -/
  helperPath : String
  /-- The largest chunk the helper may send. -/
  chunkSize : Nat
  rebootTimeout : Duration
  deriving Inhabited

namespace Service

/-- Runs a command and reports its raw outcome. -/
def exec (s : Service) (command : String) (args : List String) (stdin : Option (List UInt8))
    (mode : StderrMode) : Task ExecResult :=
  s.link.exec (Shell.commandLine command args) stdin mode

/-- Starts the crash report helper, if the device has it. -/
def startHelper (s : Service) (fetchCore : Bool) : Task (Result Crash.Running) := do
  match (← s.link.pathExists s.helperPath).within "failed to check crash_serializer existence" with
  | .error e => return .error e
  | .ok false => return .error (.notFound ("crash_serializer at " ++ s.helperPath))
  | .ok true => s.link.stream (Crash.helperCommand s.helperPath s.chunkSize fetchCore)

/-- Hands every crash message of the device to a receiver, and gives the number of messages. -/
def fetchCrashes {m : Type → Type} [Monad m] [MonadLiftT Task m] (s : Service) (fetchCore : Bool)
    (receive : Crash.Message → m (Result Unit)) : m (Result Nat) := do
  match ← (liftM (s.startHelper fetchCore) : m (Result Crash.Running)) with
  | .error e => return .error e
  | .ok helper =>
    let (outcome, log) ← Crash.collect receive helper
    liftM (Task.logAll log)
    return outcome

/-! ## Operations in the background -/

/-- What a job is called in the log. -/
def jobLabel : Job → String
  | .startDaemon _ => "start"
  | .restart _ _ _ => "restart"
  | .cache _ _ => "cache"
  | .reconnect _ => "force_reconnect"

/-- Records how the work of an operation ended. -/
def record (label op : String) (outcome : Result OperationResponse) : Task Unit := do
  let result : OperationResult ← match outcome with
    | .ok response => do
      Task.log (.info (label ++ " " ++ op ++ " done"))
      pure (.ok response)
    | .error e => do
      Task.log (.error (label ++ " " ++ op ++ " failed: " ++ e.message))
      pure (.error (.ofError e))
  if let .error e ← Task.ask (.setResult op result) then
    Task.log (.error ("Could not record result of " ++ op ++ ": " ++ e.message))

/-- The work of a job. -/
def carryOut (l : Link) (job : Job) : Task Unit :=
  match job with
  | .startDaemon name => do
    if let .error e ← l.runCommand "start" [name] then
      Task.log (.warn ("failed to start " ++ name ++ " daemon, " ++ e.message))
  | .restart op args timeout => do
    let outcome ← l.restart args timeout
    record (jobLabel job) op (outcome.map .restart)
  | .cache op command => do
    let outcome ← l.runCommand command
    record (jobLabel job) op (outcome.map fun _ => .cache)
  | .reconnect op => do
    let outcome ← l.forceReconnect
    record (jobLabel job) op (outcome.map fun _ => .forceReconnect)

/-- Registers an operation, starts its task, and remembers the task. -/
def launch (job : String → Job) : Task (Result Operation) :=
  Task.andThen (Task.ask .register) fun op => do
    let task ← Task.ask (.spawn (job op.name))
    Task.ask (.track task)
    return .ok op

/-- Starts a reboot. -/
def restart (s : Service) (args : List String) : Task (Result Operation) :=
  launch fun op => .restart op args s.rebootTimeout

/-- Starts a download onto the device. A malformed source is refused before anything is
    registered. -/
def cache (s : Service) (source : CacheProxy.Source) (destination : CacheProxy.Destination) :
    Task (Result Operation) :=
  match s.link.artifactUrl source with
  | .error e => pure (.error e)
  | .ok url => launch fun op => .cache op (CacheProxy.downloadCommand url destination)

/-- Starts replacing the connection. -/
def forceReconnect (_ : Service) : Task (Result Operation) := launch .reconnect

/-- An operation as it is now. -/
def operation (_ : Service) (op : String) : Task (Result Operation) :=
  Task.ask (.operation op)

/-- Waits until an operation is done or a time has passed, and gives it as it is then. -/
def awaitOperation (_ : Service) (op : String) (timeout : Duration) :
    Task (Result Operation) := do
  let deadline ← Task.deadline timeout
  Task.ask (.awaitOperation op deadline)

/-- Reads the identity of the device's configuration. -/
def detect (s : Service) : Task (Result ConfigId) := do
  return (← s.link.runCommand "crosid").bind ConfigId.parse

/-- Drops tasks, the first one first. -/
def dropAll : List Nat → Task Unit
  | [] => pure ()
  | task :: tasks => do
    Task.ask (.drop task)
    dropAll tasks

/-- Drops the background tasks, forgets the operations and closes the link. -/
def close (s : Service) : Task Unit := do
  dropAll (← Task.ask .takeTracked)
  Task.ask .closeRegistry
  s.link.close

end Service

end Reimage
