/-
  A device that follows a script.

  The device answers a command by the last of its rules that fits, and by what it is otherwise known
  to do: name its disk and booted root, and tell which files exist. It records every command. A
  command that reboots it closes the connection a while later, and each boot may change the root.
-/
import Reimage.Crash.Delivery
import Reimage.Exec
import Reimage.Link.Current

namespace Reimage.Simulation

/-- What a device answers to commands that contain a text. -/
structure Rule where
  /-- The text that a command must contain. -/
  pattern : String
  /-- The rule holds once the device has booted this often. -/
  minBoots : Nat := 0
  answer : Finished := {}
  /-- The error that the command is refused with. -/
  refusal : Option Error := none
  /-- The error of waiting for the end of the command, when its output is read while it runs. -/
  finishFailure : Option Error := none
  deriving Inhabited

/-- What becomes of the connection when the device reboots. -/
inductive RebootStyle
  | closesAfter (d : Duration)
  /-- It is never closed. -/
  | hangs
  deriving DecidableEq, Repr, Inhabited

/-- A command as the device saw it. -/
structure CommandRecord where
  /-- The number of the connection it came over. -/
  connection : Nat
  command : String
  stdin : Option (List UInt8)
  deriving DecidableEq, Repr, Inhabited

structure Device where
  disk : String := "/dev/nvme0n1"
  /-- The booted root after no, one, … reboots; the last one stays. -/
  roots : List String := ["/dev/nvme0n1p3"]
  files : List String := []
  rules : List Rule := []
  reboot : RebootStyle := .closesAfter (.ofMillis 20)
  /-- How many dials are still to fail. -/
  failDials : Nat := 0
  boots : Nat := 0
  /-- How many dials succeeded. -/
  dials : Nat := 0
  /-- When connections close, by number. -/
  closings : List (Nat × Instant) := []
  /-- The recorded commands, the last one first. -/
  record : List CommandRecord := []
  deriving Inhabited

namespace Device

/-! ## Connections -/

/-- Opens a connection. -/
def dial (d : Device) (address : String) : Result Connection × Device :=
  if 0 < d.failDials then
    (.error (.transport ("dial " ++ address ++ ": connection refused")),
      { d with failDials := d.failDials - 1 })
  else
    let id := d.dials + 1
    (.ok ⟨id, address ++ "#" ++ toString id⟩, { d with dials := id })

/-- When a connection closes, if it is going to. -/
def closing? (d : Device) (id : Nat) : Option Nat :=
  ((d.closings.filter fun c => c.1 == id).map fun c => c.2.nanos).min?

/-- Whether a connection is closed. -/
def isClosed (d : Device) (id : Nat) (now : Instant) : Bool :=
  match d.closing? id with
  | some t => decide (t ≤ now.nanos)
  | none => false

/-- Has a connection close at a time. -/
def closeAt (d : Device) (id : Nat) (t : Instant) : Device :=
  { d with closings := (id, t) :: d.closings }

/-! ## Commands -/

/-- The rule for a command. -/
def rule? (d : Device) (command : String) : Option Rule :=
  d.rules.reverse.find? fun r => decide (r.minBoots ≤ d.boots) && Text.contains command r.pattern

/-- The root that is booted. -/
def root (d : Device) : String := (d.roots[min d.boots (d.roots.length - 1)]?).getD ""

/-- The path in a test for existence, which ends at the closing bracket. -/
def testedPath? (command : List Char) : Option (List Char) :=
  (Text.dropStart? ['[', ' ', '-', 'e', ' '] command).map fun rest =>
    let rec upTo : List Char → List Char
      | ' ' :: ']' :: _ => []
      | c :: cs => c :: upTo cs
      | [] => []
    upTo rest

/-- The output of a command that no rule is for. -/
def usualOutput (d : Device) (command : String) : String :=
  if command = "rootdev -s -d" then d.disk
  else if command = "rootdev -s" then d.root
  else match testedPath? command.toList with
    | some path => if d.files.contains (String.ofList path) then "1" else "0"
    | none => ""

/-- The rule that a command is answered by. -/
def ruleFor (d : Device) (command : String) : Rule :=
  (d.rule? command).getD
    { pattern := "", answer := { stdout := Text.Utf8.ofString (d.usualOutput command) } }

/-- What a command does to the device besides answering. -/
def afterCommand (d : Device) (now : Instant) (id : Nat) (command : String) (r : Rule) : Device :=
  if r.refusal.isNone && r.answer.status == 0 && "reboot".toList.isPrefixOf command.toList then
    let d := { d with boots := d.boots + 1 }
    match d.reboot with
    | .closesAfter delay => d.closeAt id ⟨now.nanos + delay.nanos⟩
    | .hangs => d
  else d

/-- Takes a command: the rule that answers it, unless the connection is closed. -/
def take (d : Device) (now : Instant) (c : Connection) (command : String)
    (stdin : Option (List UInt8)) : Result Rule × Device :=
  if d.isClosed c.id now then (.error (.transport (c.address ++ " is closed")), d)
  else
    let r := d.ruleFor command
    let d := { d with record := ⟨c.id, command, stdin⟩ :: d.record }
    let d := d.afterCommand now c.id command r
    match r.refusal with
    | some e => (.error e, d)
    | none => (.ok r, d)

/-- The outcome of a command with error output in its place. -/
def placed (mode : StderrMode) (f : Finished) : Finished :=
  match mode with
  | .separate => f
  | .combined => { f with stdout := f.stdout ++ f.stderr, stderr := [] }

/-- Runs a command to its end. -/
def run (d : Device) (now : Instant) (c : Connection) (command : String)
    (stdin : Option (List UInt8)) (mode : StderrMode) : Result Finished × Device :=
  let (r, d) := d.take now c command stdin
  (r.map fun r => placed mode r.answer, d)

/-- What a started command still gives. -/
def running (r : Rule) : Crash.Running :=
  { stdout := [.data r.answer.stdout], stderr := [.data r.answer.stderr]
    finish := match r.finishFailure with
      | some e => .error e
      | none => .ok r.answer.status }

/-- Starts a command whose output is read while it runs. All of it is there at once. -/
def start (d : Device) (now : Instant) (c : Connection) (command : String) :
    Result Crash.Running × Device :=
  let (r, d) := d.take now c command none
  (r.map running, d)

end Device

end Reimage.Simulation
