/-
  What a task that works on a device asks of its surroundings.

  Each question is one atomic step. The questions fall into groups: the log and the clock, the
  current connection and the lock that dials take, the device itself, what the run knows of its
  disk, and the operations of a service with the tasks that carry them out.

  * `Task` is a program over these questions;
  * `Procedure` may also let two tasks run side by side and wait for both.
-/
import Reimage.Crash.Delivery
import Reimage.Exec
import Reimage.Link.Current
import Reimage.Operation
import Reimage.Partition
import Reimage.Program

namespace Reimage

/-- Work that goes on in a task of its own. -/
inductive Job
  /-- Start a system job again that was stopped. -/
  | startDaemon (name : String)
  /-- Restart the device for the operation `op`. -/
  | restart (op : String) (args : List String) (timeout : Duration)
  /-- Run a download command for the operation `op`. -/
  | cache (op command : String)
  /-- Replace the connection for the operation `op`. -/
  | reconnect (op : String)
  deriving DecidableEq, Repr, Inhabited

/-- One question of a task. -/
inductive Ask
  /-- Write a log line. -/
  | log (line : LogLine)
  /-- Read the clock. -/
  | now
  | sleep (till : Instant)
  /-- End the task without a result, because of a defect. -/
  | abort (message : String)
  /-- Whether the link is closed. -/
  | isClosed
  /-- The current connection. -/
  | current
  /-- Make a connection current, unless the link is closed. -/
  | install (c : Connection)
  /-- Close the link and take its connection out. -/
  | closeLink
  /-- Wait for the lock that dials take. -/
  | acquire
  /-- Give the lock back. -/
  | release
  /-- Find the device and open a connection. -/
  | dial
  /-- The same, but give up at a deadline; a connection that comes later is not used. -/
  | dialBefore (deadline : Instant)
  /-- Close a connection. -/
  | disconnect (c : Connection)
  /-- Wait until a connection is closed. -/
  | awaitClose (c : Connection)
  /-- The same, but give up at a deadline. -/
  | awaitCloseBefore (c : Connection) (deadline : Instant)
  /-- Run a command in a session of its own. -/
  | run (c : Connection) (command : String) (stdin : Option (List UInt8)) (mode : StderrMode)
  /-- Start a command whose output is read while it runs. -/
  | start (c : Connection) (command : String)
  /-- The disk layout this run has probed. -/
  | layout
  /-- Remember the disk layout. -/
  | setLayout (l : Layout)
  /-- From now on, should this task be dropped, a job is started in its place. -/
  | guard (job : Job)
  /-- Take back the last guard. -/
  | unguard
  /-- Register a new operation. -/
  | register
  | setResult (op : String) (result : OperationResult)
  | operation (op : String)
  /-- Wait until an operation is done. -/
  | awaitOperation (op : String) (deadline : Instant)
  /-- Forget all operations and refuse new ones. -/
  | closeRegistry
  /-- Start a job and give its task. -/
  | spawn (job : Job)
  /-- Remember a task as one of the service's. -/
  | track (task : Nat)
  /-- Forget the service's tasks and give them. -/
  | takeTracked
  /-- Drop a task. -/
  | drop (task : Nat)

/-- The answer to a question. -/
abbrev Ask.Answer : Ask → Type
  | log _ | sleep _ | acquire | release | disconnect _ | setLayout _ | guard _ | unguard => Unit
  | track _ | drop _ | closeRegistry => Unit
  | now => Instant
  | abort _ => Empty
  | isClosed | install _ => Bool
  | current | closeLink => Option Connection
  | dial => Result Connection
  | dialBefore _ => Option (Result Connection)
  | awaitClose _ => Result Unit
  | awaitCloseBefore _ _ => Option (Result Unit)
  | run _ _ _ _ => Result Finished
  | start _ _ => Result Crash.Running
  | layout => Option Layout
  | register | operation _ | awaitOperation _ _ => Result Operation
  | setResult _ _ => Result Unit
  | spawn _ => Nat
  | takeTracked => List Nat

/-- A program that works on a device. -/
abbrev Task := Program Ask Ask.Answer

/-- One step of a procedure. -/
inductive Call
  | one (q : Ask)
  /-- Run two tasks side by side and wait for both. -/
  | both (left right : Task (Result Unit))

/-- The answer to a step. -/
abbrev Call.Answer : Call → Type
  | one q => q.Answer
  | both _ _ => Result Unit × Result Unit

/-- A program that works on a device and may run two tasks side by side. -/
abbrev Procedure := Program Call Call.Answer

/-- Every task is a procedure. -/
def Task.procedure {α : Type} (t : Task α) : Procedure α :=
  Program.substitute (fun q => Program.query (Call.one q)) t

instance : MonadLift Task Procedure where
  monadLift := Task.procedure

namespace Task

/-- Asks one question. -/
def ask (q : Ask) : Task q.Answer := Program.query q

/-- Writes a log line. -/
def log (line : LogLine) : Task Unit := ask (.log line)

/-- Writes log lines. -/
def logAll : List LogLine → Task Unit
  | [] => pure ()
  | line :: lines => do
    log line
    logAll lines

/-- The point `d` from now. A clock that cannot show it ends the task. -/
def deadline (d : Duration) : Task Instant := do
  let now : Instant ← ask .now
  match now.after? d with
  | some t => pure t
  | none =>
    let never : Empty ← ask (.abort "overflow when adding duration to instant")
    nomatch never

/-- Goes on after success. -/
def andThen {α β : Type} (t : Task (Result α)) (f : α → Task (Result β)) : Task (Result β) := do
  match ← t with
  | .ok a => f a
  | .error e => pure (.error e)

end Task

/-- Goes on after success. -/
def Procedure.andThen {α β : Type} (t : Procedure (Result α)) (f : α → Procedure (Result β)) :
    Procedure (Result β) := do
  match ← t with
  | .ok a => f a
  | .error e => pure (.error e)

end Reimage
