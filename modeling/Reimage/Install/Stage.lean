/-
  The stages of an installation.

  Each stage runs the chain of commands that the request asks for. A failure ends the run; it is
  rolled back within the stage it happened in, and no further.
-/
import Reimage.Install.Command

namespace Reimage

/-- One stage of an installation. -/
inductive Stage
  | init
  | installPartitions
  | installStateful
  | updateFirmware
  | postInstall
  | verify
  deriving DecidableEq, Repr, Inhabited

/-- How a stage that did not fail ended. -/
inductive StageOutcome
  | completed
  | skipped (reason : String)
  deriving DecidableEq, Repr, Inhabited

namespace Stage

/-- The name of a stage in messages. -/
def title : Stage → String
  | init => "CrOS Init"
  | installPartitions => "CrOS Install Partitions"
  | installStateful => "CrOS Install Stateful"
  | updateFirmware => "CrOS Update Firmware"
  | postInstall => "CrOS Post Install"
  | verify => "CrOS Verify"

/-- The stage after one that did not fail. A device that keeps running the old image has nothing to
    verify. -/
def next (r : Request) : Stage → Option Stage
  | init => some installPartitions
  | installPartitions => some installStateful
  | installStateful => some updateFirmware
  | updateFirmware => some postInstall
  | postInstall => if r.preventReboot then none else some verify
  | verify => none

/-- The stages from `s` on; at most `n` more. -/
def following (r : Request) : (n : Nat) → Stage → List Stage
  | 0, s => [s]
  | n + 1, s =>
    match s.next r with
    | none => [s]
    | some t => s :: following r n t

/-- The stages from `s` on. There are six stages, and none comes after itself. -/
def itinerary (r : Request) (s : Stage) : List Stage := following r 5 s

/-- The commands of a stage. -/
def commands (p : Plan) : Stage → List Command
  | init =>
    [.probePartitions] ++ if p.request.preserveStateful then [] else [.wipeStateful]
  | installPartitions => [.installPartitions]
  | installStateful =>
    [.stopSystemDaemons]
      ++ (if p.request.dlcIds.isEmpty then [] else [.clearDlcArtifacts])
      ++ [.installStateful]
      ++ if p.request.dlcIds.isEmpty then [] else [.installDlcs]
  | updateFirmware => [.waitForStabilize, .runFirmwareUpdater, .checkFirmwareSlot none]
  | postInstall =>
    [.postInstall, .clearTpm]
      ++ if p.request.preventReboot then [] else [.reboot p.rebootTimeout]
  | verify =>
    [.verifyActiveRoot] ++ if p.request.dlcIds.isEmpty then [] else [.verifyDlcs]

/-- Runs the commands of a stage. -/
def runCommands (p : Plan) (s : Stage) : Procedure (Result (List Command)) :=
  runChain p s.title (s.commands p)

/-- Boots the new firmware, if there is any, and checks it. -/
def bootFirmware (p : Plan) (target : Option String) : Procedure (Result Unit) := do
  let booted : Result Unit ← match target with
    | some _ => do
      let done ← (Command.reboot p.firmwareRebootTimeout).executeAlone p
      pure (done.map fun _ => ())
    | none => do
      Task.procedure (Task.log (.info
        "no firmware slot change detected, skip post firmware update reboot."))
      pure (.ok ())
  match booted with
  | .error e => return .error e
  | .ok () => do
    let done ← (Command.verifyFirmware target).executeAlone p
    return done.map fun _ => ()

/-- Updates the firmware, if the request asks for it and the build has an updater. -/
def runFirmware (p : Plan) : Procedure (Result StageOutcome) :=
  if !p.request.updateFirmware then pure (.ok (.skipped "by request"))
  else
    Procedure.andThen (Task.procedure p.firmwareUpdaterExists) fun found =>
      if !found then pure (.ok (.skipped "firmware updater does not exist on the build"))
      else
        Procedure.andThen (updateFirmware.runCommands p) fun executed => do
          let target := executed.findSome? Command.rebootTarget
          return (← bootFirmware p target).map fun _ => .completed

/-- Runs a stage. -/
def execute (p : Plan) : Stage → Procedure (Result StageOutcome)
  | updateFirmware => runFirmware p
  | s => do return (← s.runCommands p).map fun _ => .completed

end Stage

end Reimage
