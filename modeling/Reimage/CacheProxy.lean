/-
  Fetching artifacts through the caching proxy.

  A device never talks to cloud storage itself. It downloads from a proxy with three endpoints: one
  for an object as it is, one for a single member of an archive, and one for a decompressed archive.
-/
import Reimage.GsPath

namespace Reimage.CacheProxy

/-- The artifact to fetch. -/
inductive Source
  /-- An object as it is. -/
  | file (url : String)
  /-- One member of an archive. -/
  | member (url file : String)
  /-- A decompressed archive. -/
  | archive (url : String)
  deriving DecidableEq, Repr

/-- Where an artifact goes on the device. -/
inductive Destination
  | file (path : String)
  /-- Shell commands that the download is piped into. -/
  | pipe (commands : String)
  deriving DecidableEq, Repr

/-- The endpoint of the proxy and what follows it. -/
def Source.endpoint : Source → Result String
  | .file url => (GsPath.parse url).map fun p => "/download/" ++ p.text
  | .member url name => (GsPath.parse url).map fun p => "/extract/" ++ p.text ++ "?file=" ++ name
  | .archive url => (GsPath.parse url).map fun p => "/decompress/" ++ p.text

/-- The address to fetch `source` from. A malformed source is reported even when no proxy is
    configured. -/
def url (address : String) (source : Source) : Result String := do
  let endpoint ← source.endpoint
  if address.isEmpty then .error (.config "cache_address is not configured")
  else .ok (Text.trimEndChar '/' address ++ endpoint)

/-- A download that is resumed and tried again on the device's side. -/
def curl : String := "curl -S -s -v -# -C - --retry 3 --retry-delay 60"

/-- The command with which a device downloads `url`. -/
def downloadCommand (url : String) : Destination → String
  | .file path => curl ++ " -o " ++ path ++ " " ++ url
  | .pipe commands => curl ++ " " ++ url ++ " | " ++ commands

end Reimage.CacheProxy
