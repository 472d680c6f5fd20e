/-
  Single commands on a device and what became of them.

  * `Finished` is the raw outcome of a command that ran to its end;
  * `ExecResult` adds the commands that never reached the device, which are reported with a status
    of their own;
  * `ExecResult.intoStdout` accepts nothing but a clean exit.
-/
import Reimage.Error
import Reimage.Text.Blank
import Reimage.Text.Utf8

namespace Reimage

/-- Where a command's error output goes. -/
inductive StderrMode
  | separate
  /-- Into the output. -/
  | combined
  deriving DecidableEq, Repr, Inhabited

/-- The outcome of a command that ran to its end. -/
structure Finished where
  stdout : List UInt8 := []
  stderr : List UInt8 := []
  status : Int := 0
  deriving DecidableEq, Repr, Inhabited

/-- The outcome of a command as reported to callers. -/
inductive ExecResult
  /-- The command never reached the device. -/
  | notStarted (message : String)
  | finished (output : Finished)
  deriving DecidableEq, Repr, Inhabited

namespace ExecResult

/-- The status of a command that never reached the device. The value is arbitrary, but callers rely
    on it. -/
def notStartedStatus : Int := 42

/-- The outcome of an attempt to run a command. -/
def ofAttempt : Result Finished → ExecResult
  | .ok output => .finished output
  | .error e => .notStarted e.message

def started : ExecResult → Bool
  | notStarted _ => false
  | finished _ => true

def status : ExecResult → Int
  | notStarted _ => notStartedStatus
  | finished output => output.status

/-- Whether the command ran and ended abnormally. -/
def signaled : ExecResult → Bool
  | notStarted _ => false
  | finished output => decide (output.status ≠ 0)

def stdout : ExecResult → List UInt8
  | notStarted _ => []
  | finished output => output.stdout

def stderr : ExecResult → List UInt8
  | notStarted _ => []
  | finished output => output.stderr

/-- Why the command did not start, or nothing. -/
def errorMessage : ExecResult → String
  | notStarted message => message
  | finished _ => ""

/-- Whether the command ran and ended cleanly. -/
def succeeded : ExecResult → Bool
  | notStarted _ => false
  | finished output => decide (output.status = 0)

/-- The output of a command that ended cleanly; anything else is an error. -/
def intoStdout (command : String) : ExecResult → Result String
  | notStarted message =>
    .error (.transport ("failed to start `" ++ command ++ "`: " ++ message))
  | finished output =>
    if output.status = 0 then .ok (Text.Utf8.lossy output.stdout)
    else
      let stderr := Text.trim (Text.Utf8.lossy output.stderr)
      .error (.commandFailed command output.status stderr)

end ExecResult

end Reimage
