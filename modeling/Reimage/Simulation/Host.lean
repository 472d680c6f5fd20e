/-
  A machine in memory for the command line to run on: files, what was printed, and a device that the
  machine cannot reach for want of a network.

  `Host.run` runs a command line. It has no exit code if the command line can never end; then the
  machine is as it was left.
-/
import Reimage.CommandLine.Run
import Reimage.Simulation.FileTree
import Reimage.Simulation.Offline
import Reimage.Simulation.Session

namespace Reimage.Simulation

/-- The number of the command line among the tasks that work on a device. -/
def front : Nat := 0

/-- Work on a device that cannot be reached, where `named` operations were named before. -/
def Session.offline (c : Config) (home : Option String) (named : Nat) : Session Unit :=
  { world := { World.offline c home named with nextTask := front + 1 } }

structure Host where
  files : FileTree
  user : CommandLine.User
  stdout : List UInt8 := []
  stderr : List UInt8 := []
  /-- The work on a device, once there is any. -/
  session : Option (Session Unit) := none

namespace Host

/-- The machine after its files have changed, unless the change was refused. -/
def changed (h : Host) : Except SystemError FileTree → Except SystemError Unit × Host
  | .ok files => (.ok (), { h with files := files })
  | .error e => (.error e, h)

/-- Begins to work on the device of a configuration. -/
def use (h : Host) (c : Config) : Host :=
  { h with session := some (.offline c h.user.home 0) }

/-- Answers a question about the device. -/
def answerDevice (h : Host) (q : Call) : Option (q.Answer × Host) :=
  h.session.bind fun s => (s.answer front q).map fun (a, s) => (a, { h with session := some s })

/-- Answers a question, if it has an answer. -/
def answer? (h : Host) : (q : CommandLine.Ask) → Option (q.Answer × Host)
  | .readFile path => some (h.files.read path, h)
  | .writeFile path contents => some (h.changed (h.files.write path contents))
  | .appendFile path data => some (h.changed (h.files.append path data))
  | .createDirs path =>
    let (files, outcome) := h.files.createDirs path
    some (outcome, { h with files := files })
  | .pathExists path => some (h.files.hasPath path, h)
  | .print bytes => some ((), { h with stdout := h.stdout ++ bytes })
  | .printError bytes => some ((), { h with stderr := h.stderr ++ bytes })
  | .use c => some ((), h.use c)
  | .device q => h.answerDevice q
  | .abort _ => none

/-- Answers a question, and keeps the machine even if there is no answer. -/
def answer (q : CommandLine.Ask) : OptionT (StateM Host) q.Answer :=
  OptionT.mk fun h =>
    match h.answer? q with
    | some (a, h) => (some a, h)
    | none => (none, h)

/-- Runs a command line. -/
def run (h : Host) (arguments : List String) : Option Nat × Host :=
  let run : OptionT (StateM Host) Nat := (CommandLine.run h.user arguments).interpret answer
  StateT.run run.run h

end Host

end Reimage.Simulation
