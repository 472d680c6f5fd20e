/-
  Commands of an installation and their chains.

  * `Command.execute` does the work of a command, `Command.revert` undoes it where there is
    something to undo;
  * `runChain` executes commands in order. When one fails, those before it are reverted, the last
    one first; a failing revert ends the rollback with a fatal error.
-/
import Reimage.Install.Plan

namespace Reimage

/-- One unit of work of an installation. -/
inductive Command
  | probePartitions
  | wipeStateful
  | installPartitions
  | stopSystemDaemons
  | clearDlcArtifacts
  | installStateful
  | installDlcs
  | waitForStabilize
  | runFirmwareUpdater
  /-- Records the firmware slot that the next boot will try, if it is another one. -/
  | checkFirmwareSlot (rebootTarget : Option String)
  | reboot (timeout : Duration)
  | verifyFirmware (expected : Option String)
  | postInstall
  | clearTpm
  | verifyActiveRoot
  | verifyDlcs
  deriving DecidableEq, Repr, Inhabited

namespace Command

def name : Command → String
  | probePartitions => "ProbePartitions"
  | wipeStateful => "WipeStateful"
  | installPartitions => "InstallPartitions"
  | stopSystemDaemons => "StopSystemDaemons"
  | clearDlcArtifacts => "ClearDlcArtifacts"
  | installStateful => "InstallStateful"
  | installDlcs => "InstallDlcs"
  | waitForStabilize => "WaitForStabilize"
  | runFirmwareUpdater => "RunFirmwareUpdater"
  | checkFirmwareSlot _ => "CheckFirmwareSlot"
  | reboot _ => "Reboot"
  | verifyFirmware _ => "VerifyFirmware"
  | postInstall => "PostInstall"
  | clearTpm => "ClearTpm"
  | verifyActiveRoot => "VerifyActiveRoot"
  | verifyDlcs => "VerifyDlcs"

/-- What is said of a command that failed. -/
def failureText : Command → String
  | probePartitions => "failed to get partition info"
  | wipeStateful => "failed to wipe stateful"
  | installPartitions => "failed to install partitions"
  | stopSystemDaemons => "failed to stop system daemons"
  | clearDlcArtifacts => "failed to clear DLC artifacts"
  | installStateful => "failed to install stateful partition"
  | installDlcs => "failed to install DLCs"
  | waitForStabilize => "failed to wait for DUT to stabilize"
  | runFirmwareUpdater => "failed to run firmware updater"
  | checkFirmwareSlot _ => "failed to check firmware slot"
  | reboot _ => "failed to reboot DUT"
  | verifyFirmware _ => "failed to verify firmware"
  | postInstall => "failed to run post install"
  | clearTpm => "failed to clear TPM"
  | verifyActiveRoot => "failed to verify active root"
  | verifyDlcs => "failed to verify DLCs"

/-- The firmware slot the device must reboot into, if the command found one. -/
def rebootTarget : Command → Option String
  | checkFirmwareSlot target => target
  | _ => none

/-- Keeps a command whose work succeeded. -/
def kept {α : Type} (c : Command) (work : Procedure (Result α)) : Procedure (Result Command) := do
  return (← work).map fun _ => c

/-- Does the work of a command. Gives the command with what it has found out. -/
def execute (p : Plan) (c : Command) : Procedure (Result Command) :=
  match c with
  | probePartitions => c.kept (p.probePartitions.procedure)
  | wipeStateful => c.kept (p.wipeStateful.procedure)
  | installPartitions => c.kept p.installPartitions
  | stopSystemDaemons => c.kept (p.stopSystemDaemons.procedure)
  | clearDlcArtifacts => c.kept (p.clearDlcArtifacts.procedure)
  | installStateful => c.kept (p.installStateful.procedure)
  | installDlcs => c.kept (p.installDlcs.procedure)
  | waitForStabilize => c.kept (p.waitForStabilize.procedure)
  | runFirmwareUpdater => c.kept (p.runFirmwareUpdater.procedure)
  | checkFirmwareSlot _ => do
    return (← p.checkFirmwareSlot.procedure).map checkFirmwareSlot
  | reboot timeout => c.kept ((p.reboot timeout).procedure)
  | verifyFirmware expected => c.kept ((p.verifyFirmware expected).procedure)
  | postInstall => c.kept (p.postInstall.procedure)
  | clearTpm => c.kept (p.clearTpm.procedure)
  | verifyActiveRoot => c.kept (p.verifyActiveRoot.procedure)
  | verifyDlcs => c.kept (p.verifyDlcs.procedure)

/-- Undoes a command that succeeded. Most leave nothing on the device worth undoing. -/
def revert (p : Plan) : Command → Procedure (Result Unit)
  | wipeStateful => p.revertWipeStateful.procedure
  | installStateful => p.revertInstallStateful.procedure
  | postInstall => p.revertPostInstall.procedure
  | clearTpm => p.revertClearTpm.procedure
  | _ => pure (.ok ())

/-- Executes a command outside a chain. -/
def executeAlone (p : Plan) (c : Command) : Procedure (Result Command) := do
  return (← c.execute p).within c.failureText

end Command

/-- Reverts commands, the first of the list first, because of `reason`. -/
def rollback (p : Plan) (title : String) (reason : Error) : List Command → Procedure Error
  | [] => pure reason
  | c :: cs => do
    Task.procedure (Task.log (.warn (title ++ " REVERT " ++ c.name)))
    match ← c.revert p with
    | .error failure => return .revert reason failure
    | .ok () => rollback p title reason cs

/-- Executes commands after those in `executed`, the latest of which comes first. -/
def runChainAfter (p : Plan) (title : String) :
    (executed : List Command) → List Command → Procedure (Result (List Command))
  | executed, [] => pure (.ok executed.reverse)
  | executed, c :: cs => do
    match ← c.execute p with
    | .ok c => runChainAfter p title (c :: executed) cs
    | .error e =>
      return .error (← rollback p title (.context c.failureText e) executed)

/-- Executes commands in order and gives them with what they have found out. -/
def runChain (p : Plan) (title : String) (commands : List Command) :
    Procedure (Result (List Command)) :=
  runChainAfter p title [] commands

end Reimage
