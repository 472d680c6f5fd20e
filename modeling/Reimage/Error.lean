/-
  What can go wrong while a device is provisioned, as a tree of causes.

  * `Error.message` is the text shown for an error;
  * `Error.kind` is the coarse class callers act on, and `Error.isFatal` says that no further step
    may run;
  * `Error.root` is the error below every context added on its way up.
-/
import Reimage.Time

namespace Reimage

/-- The class of an error: a transport failure may be retried, a command failure is rolled back
    where it happened, a protocol error means a bad artifact or input, and a fatal error ends the
    run. -/
inductive ErrorKind
  | transport
  | command
  | protocol
  | fatal
  deriving DecidableEq, Repr, Inhabited

/-- The name of the class. -/
def ErrorKind.name : ErrorKind → String
  | .transport => "Transport"
  | .command => "Command"
  | .protocol => "Protocol"
  | .fatal => "Fatal"

/-- A failure and what led to it. -/
inductive Error where
  /-- The local system refused an input or output operation. -/
  | io (message : String)
  /-- The secure shell refused an operation with a numbered error. -/
  | ssh (code : Int) (message : String)
  /-- The device cannot be reached. -/
  | transport (message : String)
  /-- A command on the device ended with a status other than zero. -/
  | commandFailed (command : String) (status : Int) (stderr : String)
  /-- A check of an input or of the device's state did not hold. -/
  | validation (message : String)
  | notFound (what : String)
  /-- The place of an artifact cannot be understood. -/
  | invalidSource (message : String)
  /-- A stream ended or broke before it was complete. -/
  | unavailable (message : String)
  /-- The content of a stream cannot be decoded. -/
  | corrupt (message : String)
  | config (message : String)
  /-- The device did not go down and come back in time. -/
  | rebootTimeout (limit : Duration)
  | invalidPartition (number : String)
  /-- `reason` happened, and undoing the work before it failed. -/
  | revert (reason failure : Error)
  /-- Several concurrent steps failed. -/
  | multiple (errors : List Error)
  /-- The registry of operations refused a request. -/
  | operation (message : String)
  /-- What was being done when `source` happened. -/
  | context (text : String) (source : Error)
  deriving Repr, Inhabited

namespace Error

mutual

/-- The text shown for an error. -/
def message : Error → String
  | io text => "IO error: " ++ text
  | ssh code text => "SSH error: [Session(" ++ toString code ++ ")] " ++ text
  | transport text => "Transport error: " ++ text
  | commandFailed command status stderr =>
    "command `" ++ command ++ "` exited with status " ++ toString status ++ ": " ++ stderr
  | validation text => text
  | notFound what => what ++ " not found"
  | invalidSource text => "invalid cache source: " ++ text
  | unavailable text => "stream unavailable: " ++ text
  | corrupt text => "corrupt payload: " ++ text
  | config text => "configuration error: " ++ text
  | rebootTimeout limit => "timeout waiting for reboot after " ++ limit.text
  | invalidPartition number => "invalid partition number " ++ number
  | revert reason failure =>
    "failure while reverting, " ++ message reason ++ ": " ++ message failure
  | multiple errors => "; ".intercalate (messages errors)
  | operation text => "operation error: " ++ text
  | context text source => text ++ ", " ++ message source

/-- The texts of several errors. -/
def messages : List Error → List String
  | [] => []
  | e :: es => message e :: messages es

end

mutual

/-- The class of an error. A context does not change it; several errors are fatal together as soon
    as one of them is. -/
def kind : Error → ErrorKind
  | io _ | ssh _ _ | transport _ | unavailable _ => .transport
  | commandFailed _ _ _ | validation _ | notFound _ | operation _ => .command
  | invalidSource _ | corrupt _ => .protocol
  | config _ | rebootTimeout _ | invalidPartition _ | revert _ _ => .fatal
  | multiple errors => if anyFatal errors then .fatal else .command
  | context _ source => kind source

/-- Whether one of several errors is fatal. -/
def anyFatal : List Error → Bool
  | [] => false
  | e :: es => decide (kind e = .fatal) || anyFatal es

end

/-- Whether no further step may run after this error. -/
def isFatal (e : Error) : Bool := decide (e.kind = .fatal)

/-- The error below every context. -/
def root : Error → Error
  | context _ source => root source
  | e => e

/-- The errors and system texts an error was caused by, outermost first. -/
def causes : Error → List String
  | io text => [text]
  | ssh code text => ["[Session(" ++ toString code ++ ")] " ++ text]
  | context _ source => message source :: causes source
  | _ => []

end Error

/-- The outcome of a step that may fail. -/
abbrev Result (α : Type) := Except Error α

/-- Adds what was being done to the error of a failed step. -/
def Result.within {α : Type} (text : String) : Result α → Result α
  | .ok a => .ok a
  | .error e => .error (.context text e)

end Reimage
