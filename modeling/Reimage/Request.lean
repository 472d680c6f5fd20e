/-
  What to install on a device, and the report of an installation.
-/
import Reimage.GsPath
import Reimage.Text.Quoted

namespace Reimage

/-- What to install on a device. -/
structure Request where
  /-- The storage directory that holds the image's artifacts. -/
  imagePath : String
  preserveStateful : Bool := false
  dlcIds : List String := []
  updateFirmware : Bool := false
  /-- Stop after the post-install step instead of booting the new image. -/
  preventReboot : Bool := false
  deriving DecidableEq, Repr, Inhabited

namespace Request

/-- Whether a package id is one plain name. -/
def validDlcId (id : String) : Bool :=
  !id.isEmpty && id.toList.all fun c => c != '/' && !Text.isBlank c

/-- Refuses a request that cannot be served, before anything touches the device. -/
def validate (r : Request) : Result Unit :=
  if !GsPath.scheme.toList.isPrefixOf r.imagePath.toList then
    .error (.invalidSource
      ("only GS copying is implemented, got image path " ++ Text.quoted r.imagePath))
  else match r.dlcIds.find? fun id => !validDlcId id with
    | some id => .error (.validation ("invalid DLC id " ++ Text.quoted id))
    | none => .ok ()

/-- The storage path of an artifact below the image directory. -/
def artifact (r : Request) (relative : String) : String := GsPath.below r.imagePath relative

end Request

/-- How an installation ended. -/
inductive Status
  | success
  | provisioningFailed
  | firmwareUpdateFailed
  /-- The request was refused before anything reached the device. -/
  | rpcFailed
  deriving DecidableEq, Repr, Inhabited

namespace Status

/-- The status in a written report. -/
def text : Status → String
  | success => "SUCCESS"
  | provisioningFailed => "PROVISIONING_FAILED"
  | firmwareUpdateFailed => "FIRMWARE_UPDATE_FAILED"
  | rpcFailed => "RPC_FAILED"

/-- The status in a message. -/
def name : Status → String
  | success => "Success"
  | provisioningFailed => "ProvisioningFailed"
  | firmwareUpdateFailed => "FirmwareUpdateFailed"
  | rpcFailed => "RpcFailed"

/-- Reads a status of a written report. -/
def ofText? (s : String) : Option Status :=
  [success, provisioningFailed, firmwareUpdateFailed, rpcFailed].find? fun status =>
    status.text == s

end Status

/-- The report of an installation. -/
structure Response where
  dut : String
  status : Status
  failedState : Option String := none
  error : Option String := none
  deriving DecidableEq, Repr, Inhabited

/-- Whether the installation succeeded. -/
def Response.isSuccess (r : Response) : Bool := decide (r.status = .success)

end Reimage
