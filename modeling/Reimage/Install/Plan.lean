/-
  The steps of an installation on the device.

  A plan is the request with the link to the device and the time limits. Each step is a command or a
  few on the device; their order and their undoing are the business of chains and stages.

  * `probePartitions` finds out which slot is booted and remembers the layout; the steps that write
    partitions or verify use that layout and nothing else;
  * `installPartitions` writes kernel and root side by side;
  * `clearDlcArtifacts` stops a system job and starts it again on every way out.
-/
import Reimage.Link.Basic
import Reimage.Request

namespace Reimage

/-- What is to be done to a device, and how long it may take. -/
structure Plan where
  link : Link
  request : Request
  rebootTimeout : Duration := .ofSecs 120
  /-- Reboots after a firmware update take longer. -/
  firmwareRebootTimeout : Duration := .ofSecs 300
  stabilizeTimeout : Duration := .ofSecs 120
  stabilizePoll : Duration := .ofSecs 2
  deriving Inhabited

namespace Plan

/-! ## Places -/

def dlcCacheDir : String := "/var/cache/dlc"
def dlcLibDir : String := "/var/lib/dlcservice/dlc"
def dlcPackage : String := "package"
def dlcImage : String := "dlc.img"
def dlcVerified : String := "verified"
def statefulPath : String := "/mnt/stateful_partition"
def statefulMark : String := "/mnt/stateful_partition/.update_available"
def factoryResetMark : String := "/mnt/stateful_partition/factory_install_reset"
def kernelImage : String := "full_dev_part_KERN.bin.gz"
def rootImage : String := "full_dev_part_ROOT.bin.gz"
def statefulImage : String := "stateful.tgz"
def firmwareUpdater : String := "/usr/sbin/chromeos-firmwareupdate"

/-- The mark of a package whose image in a slot was verified. -/
def verifiedMark (id : String) (slot : Slot) : String :=
  dlcLibDir ++ "/" ++ id ++ "/" ++ slot.dlcName ++ "/" ++ dlcVerified

/-- The directory of a package's image in a slot. -/
def dlcSlotDir (id : String) (slot : Slot) : String :=
  dlcCacheDir ++ "/" ++ id ++ "/" ++ dlcPackage ++ "/" ++ slot.dlcName

/-- The pattern of the marks that are removed before packages are installed. -/
def staleMarks (slot : Slot) : String :=
  dlcCacheDir ++ "/*/*/" ++ slot.dlcName ++ "/" ++ dlcVerified

/-! ## Layout -/

/-- Runs a command for its effect. -/
def run (p : Plan) (command : String) (args : List String) : Task (Result Unit) := do
  return (← p.link.runCommand command args).map fun _ => ()

/-- The layout the run has probed. -/
def layout : Task (Result Layout) := do
  match ← Task.ask .layout with
  | some l => return .ok l
  | none => return .error (.validation "partition layout has not been probed")

/-- The slot the run started from. -/
def startSlot : Task (Result Slot) := do
  return (← layout).bind fun l => Slot.ofRoot l.activeRoot

/-- The slot the run installs to. -/
def targetSlot : Task (Result Slot) := do
  return (← layout).bind fun l => Slot.ofRoot l.inactiveRoot

/-- The root device that is booted. -/
def bootedRoot (p : Plan) : Task (Result String) := do
  return ((← p.link.runCommand "rootdev" ["-s"]).within "failed to get current root").map Text.trim

/-- The disk of the root device. -/
def bootDisk (p : Plan) : Task (Result String) := do
  return ((← p.link.runCommand "rootdev" ["-s", "-d"]).within "failed to get root disk").map
    Text.trim

/-- Reads the boot layout and remembers it. -/
def probePartitions (p : Plan) : Task (Result Layout) :=
  p.bootedRoot.andThen fun root => p.bootDisk.andThen fun disk =>
    match (Slot.ofRoot root).within "failed to get root part number" with
    | .error e => pure (.error e)
    | .ok slot => do
      let l := Layout.ofSlot slot root disk
      Task.log (.info ("Booted from " ++ l.activeRoot ++ ", installing to " ++ l.inactiveKernel
        ++ " / " ++ l.inactiveRoot))
      Task.ask (.setLayout l)
      return .ok l

/-! ## System jobs and the stateful partition -/

/-- Stops what would get in the way of the installation. -/
def stopSystemDaemons (p : Plan) : Task (Result Unit) := do
  match (← p.run "stop" ["ui"]).within "failed to stop UI daemon" with
  | .error e => return .error e
  | .ok () =>
    return (← p.run "stop" ["update-engine"]).within "failed to stop update-engine daemon"

/-- Has the next boot wipe the stateful partition. -/
def wipeStateful (p : Plan) : Task (Result Unit) := do
  return (← p.run "echo" ["'fast keepimg'", ">", factoryResetMark]).within
    "failed to write to factory reset file"

def revertWipeStateful (p : Plan) : Task (Result Unit) := do
  return (← p.run "rm" ["-f", factoryResetMark]).within "failed to remove factory reset file"

/-- The proxy's address of an artifact of the image. -/
def artifactUrl (p : Plan) (relative : String) : Result String :=
  p.link.artifactUrl (.file (p.request.artifact relative))

def revertInstallStateful (p : Plan) : Task (Result Unit) := do
  return (← p.run "rm" ["-rf", statefulPath ++ "/var_new", statefulPath ++ "/dev_image_new",
    statefulMark]).within "failed to revert stateful installation"

/-- The command that unpacks the stateful image from `url`. -/
def unpackStateful (url : String) : List String :=
  [ "rm -rf " ++ statefulMark ++ " " ++ statefulPath ++ "/var_new " ++ statefulPath
      ++ "/dev_image_new",
    "&&",
    "curl " ++ url ++ " | tar --ignore-command-error --overwrite --directory=" ++ statefulPath
      ++ " -xzf -",
    "&&",
    "echo -n clobber > " ++ statefulMark ]

/-- Unpacks the stateful image, which the next boot puts in place. What a failed attempt left behind
    is removed. -/
def installStateful (p : Plan) : Task (Result Unit) :=
  match (p.artifactUrl statefulImage).within "failed to get GS Cache URL" with
  | .error e => pure (.error e)
  | .ok url => do
    match ← p.run "" (unpackStateful url) with
    | .ok () => return .ok ()
    | .error e =>
      if let .error failure ← p.revertInstallStateful then
        Task.log (.warn
          ("Failed to clean up partial stateful install: " ++ failure.message))
      return .error e

/-! ## Kernel and root -/

/-- Writes a compressed image to a partition. -/
def installZippedImage (p : Plan) (image output : String) : Task (Result Unit) :=
  match (p.artifactUrl image).within "failed to get GS Cache URL" with
  | .error e => pure (.error e)
  | .ok url => p.run "curl" [url, "|", "gzip -d", "|", "dd of=" ++ output ++ " obs=2M"]

/-- The outcome of the writes of kernel and root: each failure counts. -/
def joinWrites (kernel root : Result Unit) : Result Unit :=
  let failures := [kernel.within "failed to install kernel", root.within "failed to install root"]
    |>.filterMap fun
      | .ok () => none
      | .error e => some e
  if failures.isEmpty then .ok () else .error (.multiple failures)

/-- Writes kernel and root to the slot that is not booted, side by side. Both writes always run to
    their end. -/
def installPartitions (p : Plan) : Procedure (Result Unit) :=
  Procedure.andThen (Task.procedure layout) fun l => do
    let (kernel, root) ← Program.query (Call.both
      (p.installZippedImage kernelImage l.inactiveKernel)
      (p.installZippedImage rootImage l.inactiveRoot))
    return joinWrites kernel root

/-! ## Post-install and reboot -/

/-- The commands that mount a root and run its post-install script. -/
def postInstallScript (root : String) : List String :=
  [ "tmpmnt=$(mktemp -d)", "&&", "mount -o ro " ++ root ++ " $\x7btmpmnt\x7d", "&&",
    "$\x7btmpmnt\x7d/postinst " ++ root, "&&", "\x7b umount $\x7btmpmnt\x7d || true; \x7d", "&&",
    "\x7b rmdir $\x7btmpmnt\x7d || true; \x7d" ]

/-- Makes the new root the one to boot. -/
def postInstall (p : Plan) : Task (Result Unit) :=
  layout.andThen fun l => p.run "" (postInstallScript l.inactiveRoot)

/-- Makes the booted root the one to boot again. -/
def revertPostInstall (p : Plan) : Task (Result Unit) :=
  layout.andThen fun l => do
    return (← p.run "/postinst" [l.activeRoot, "2>&1"]).within "failed to revert postinst"

def clearTpm (p : Plan) : Task (Result Unit) :=
  p.run "crossystem" ["clear_tpm_owner_request=1"]

def revertClearTpm (p : Plan) : Task (Result Unit) :=
  p.run "crossystem" ["clear_tpm_owner_request=0"]

def reboot (p : Plan) (timeout : Duration) : Task (Result Unit) := do
  return (← p.link.restart [] timeout).map fun _ => ()

/-! ## DLC packages -/

/-- Removes the marks of verified packages in the slot to be written. The package service is
    stopped for that and started again on every way out once it was stopped, also when this task
    is dropped. -/
def clearDlcArtifacts (p : Plan) : Task (Result Unit) := do
  match (← p.link.pathExists dlcLibDir).within "failed path existence" with
  | .error e => return .error e
  | .ok false => return .error (.notFound ("DLC path " ++ dlcLibDir))
  | .ok true =>
    startSlot.andThen fun slot => do
      if let .error e ← p.run "stop" ["dlcservice"] then
        Task.log (.warn ("clear DLC artifacts: failed to stop dlcservice daemon, " ++ e.message))
      Task.ask (.guard (.startDaemon "dlcservice"))
      let cleared := (← p.run "rm" ["-f", staleMarks slot.other]).within
        "failed remove inactive verified DLCs"
      Task.ask .unguard
      if let .error e ← p.run "start" ["dlcservice"] then
        Task.log (.warn ("failed to start dlcservice daemon, " ++ e.message))
      return cleared

/-- Whether a package's image in a slot was verified. Asked anew every time. -/
def isDlcVerified (p : Plan) (id : String) (slot : Slot) : Task (Result Bool) := do
  return (← p.link.pathExists (verifiedMark id slot)).within
    ("failed to check if DLC " ++ id ++ " is verified")

/-- Transfers a package's image into a slot. -/
def transferDlc (p : Plan) (id : String) (slot : Slot) : Task (Result Unit) :=
  let source := "dlc/" ++ id ++ "/" ++ dlcPackage ++ "/" ++ dlcImage
  match (p.artifactUrl source).within "failed to get GS Cache server" with
  | .error e => pure (.error e)
  | .ok url => do
    let dir := dlcSlotDir id slot
    match (← p.run "" ["mkdir", "-p", dir, "&&", "curl", "--output", dir ++ "/" ++ dlcImage,
        url]).within ("failed to provision DLC " ++ id) with
    | .error e => return .error e
    | .ok () =>
      Task.log (.info ("Provisioned DLC " ++ id ++ " into " ++ slot.dlcName))
      return .ok ()

/-- Installs a package into a slot, unless it is verified there. Tells whether it was
    transferred. -/
def installDlc (p : Plan) (id : String) (slot : Slot) : Task (Result Bool) := do
  match (← p.isDlcVerified id slot).within "failed is DLC verified check" with
  | .error e => return .error e
  | .ok true =>
    Task.log (.info ("provision DLC " ++ id ++ " skipped as already verified"))
    return .ok false
  | .ok false => return (← p.transferDlc id slot).map fun _ => true

/-- Installs packages into a slot, one after the other, after `transferred` earlier ones. -/
def installDlcsInto (p : Plan) (slot : Slot) : (transferred : Nat) → List String → Task (Result Nat)
  | transferred, [] => pure (.ok transferred)
  | transferred, id :: ids =>
    (p.installDlc id slot).andThen fun new =>
      p.installDlcsInto slot (if new then transferred + 1 else transferred) ids

/-- Installs every requested package into the slot to be written. Tells how many were
    transferred. -/
def installDlcs (p : Plan) : Task (Result Nat) :=
  startSlot.andThen fun slot => p.installDlcsInto slot.other 0 p.request.dlcIds

/-! ## Firmware -/

/-- Whether the build has a firmware updater. -/
def firmwareUpdaterExists (p : Plan) : Task (Result Bool) := do
  return (← p.link.pathExists firmwareUpdater).within "failed to check firmware updater existence"

/-- The error of a device whose services do not come up. -/
def notStable (p : Plan) : Error :=
  .validation ("system services did not start within " ++ p.stabilizeTimeout.text)

/-- Whether the status of the system services says that they run. -/
def isStable : Result String → Bool
  | .ok output => Text.contains output "start/running"
  | .error _ => false

/-- Asks for the status of the system services. Gives when to ask again, or none if they run. -/
def askStable (p : Plan) (deadline : Instant) : Task (Result (Option Instant)) := do
  if isStable (← p.link.runCommand "status" ["system-services"]) then return .ok none
  let next ← Task.deadline p.stabilizePoll
  if deadline.nanos < next.nanos then return .error p.notStable
  return .ok (some next)

/-- Asks for the status of the system services, and after each pause again while the deadline
    allows, at most `left` times more. -/
def pollStable (p : Plan) (deadline : Instant) : (left : Nat) → Task (Result Unit)
  | 0 => (p.askStable deadline).andThen fun
    | none => pure (.ok ())
    | some _ => pure (.error p.notStable)
  | left + 1 => (p.askStable deadline).andThen fun
    | none => pure (.ok ())
    | some next => do
      Task.ask (.sleep next)
      p.pollStable deadline left

/-- Waits until the system services run. The status fits into the time limit as often as the pause
    does, and once more. If there is no pause, a status itself takes a nanosecond at least. -/
def waitForStabilize (p : Plan) : Task (Result Unit) := do
  let deadline ← Task.deadline p.stabilizeTimeout
  p.pollStable deadline (p.stabilizeTimeout.nanos / max 1 p.stabilizePoll.nanos)

def runFirmwareUpdater (p : Plan) : Task (Result Unit) := do
  return (← p.link.runCommand firmwareUpdater ["--wp=1", "--mode=autoupdate"] none .combined).map
    fun _ => ()

/-- Reads a system property. -/
def crossystem (p : Plan) (key : String) : Task (Result String) := do
  return ((← p.link.runCommand "crossystem" [key]).within
    ("failed to read crossystem " ++ key)).map Text.trim

/-- The firmware slot the next boot will try, if it is another one than the active. -/
def checkFirmwareSlot (p : Plan) : Task (Result (Option String)) :=
  (p.crossystem "mainfw_act").andThen fun active =>
    (p.crossystem "fw_try_next").andThen fun next =>
      if active = next then pure (.ok none)
      else do
        Task.log (.info ("Firmware slot changes from " ++ active ++ " to " ++ next))
        return .ok (some next)

/-- Checks that the device booted the expected firmware slot, if one is expected. -/
def verifyFirmwareSlot (p : Plan) : (expected : Option String) → Task (Result Unit)
  | none => pure (.ok ())
  | some expected =>
    (p.crossystem "mainfw_act").andThen fun active =>
      if active = expected then pure (.ok ())
      else pure (.error
        (.validation ("booted firmware slot " ++ active ++ ", expected " ++ expected)))

/-- Checks the booted firmware slot and that the firmware did not fail. -/
def verifyFirmware (p : Plan) (expected : Option String) : Task (Result Unit) :=
  (p.verifyFirmwareSlot expected).andThen fun _ =>
    (p.crossystem "fw_result").andThen fun result =>
      if result = "failure" then
        pure (.error (.validation "firmware reports fw_result=failure"))
      else pure (.ok ())

/-! ## Verification -/

/-- Checks that the device booted from the slot this run installed to. -/
def verifyActiveRoot (p : Plan) : Task (Result Unit) :=
  targetSlot.andThen fun expected =>
    p.bootedRoot.andThen fun root =>
      match Slot.ofRoot root with
      | .error e => pure (.error e)
      | .ok booted =>
        if booted = expected then pure (.ok ())
        else pure (.error (.validation ("device booted from root partition "
          ++ booted.rootNumber ++ ", expected " ++ expected.rootNumber)))

/-- Checks that each package is verified in a slot. -/
def verifyDlcsIn (p : Plan) (slot : Slot) : List String → Task (Result Unit)
  | [] => pure (.ok ())
  | id :: ids =>
    (p.isDlcVerified id slot).andThen fun verified =>
      if verified then p.verifyDlcsIn slot ids
      else pure (.error
        (.validation ("DLC " ++ id ++ " is not verified in " ++ slot.dlcName)))

/-- Checks that every requested package is verified in the slot this run installed to. -/
def verifyDlcs (p : Plan) : Task (Result Unit) :=
  targetSlot.andThen fun slot => p.verifyDlcsIn slot p.request.dlcIds

end Plan

end Reimage
