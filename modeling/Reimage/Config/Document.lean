/-
  Configurations and requests as YAML documents.

  Unknown fields do not count, and every field but the names of device and image has a default.
  `Config.document` writes all fields, in a fixed order, and the hosts in any order.
-/
import Reimage.Config
import Reimage.Yaml.Printer
import Reimage.Yaml.Record

namespace Reimage

open Yaml (Fault Record Value Tree)

/-! ## Reading -/

/-- Reads the login of a device. -/
def DutConfig.value : Value DutConfig := fun d n => do
  let r ← Record.read ["name", "user", "port", "ssh_key", "timeout"] d n
  let port ← r.optional "port" (Value.unsigned (Nat.pow 2 16)) 22
  let timeout ← r.optional "timeout" (Value.unsigned (Nat.pow 2 64)) 60
  .ok { name := ← r.required "name" Value.text
        user := ← r.optional "user" Value.text "root"
        port := UInt16.ofNat port
        sshKey := ← r.optional "ssh_key" Value.text? none
        timeoutSecs := UInt64.ofNat timeout }

/-- Reads how often and how soon something is tried again. -/
def RetryPolicy.value : Value RetryPolicy := fun d n => do
  let r ← Record.read ["max_retries", "initial_delay_ms", "backoff_multiplier", "max_delay_ms"] d n
  let start : RetryPolicy := {}
  let maxRetries ← r.optional "max_retries" (Value.unsigned (Nat.pow 2 32)) start.maxRetries.toNat
  let initialDelay ←
    r.optional "initial_delay_ms" (Value.unsigned (Nat.pow 2 64)) start.initialDelayMs.toNat
  let maxDelay ← r.optional "max_delay_ms" (Value.unsigned (Nat.pow 2 64)) start.maxDelayMs.toNat
  .ok { maxRetries := UInt32.ofNat maxRetries
        initialDelayMs := UInt64.ofNat initialDelay
        multiplier := ← r.optional "backoff_multiplier" Value.float start.multiplier
        maxDelayMs := UInt64.ofNat maxDelay }

/-- The names of the fields of a configuration. -/
def Config.fieldNames : List String :=
  ["dut", "hosts", "cache_address", "serializer_path", "proto_chunk_size", "reboot_timeout_secs",
    "firmware_reboot_timeout_secs", "dial_retry"]

/-- Reads a configuration. -/
def Config.value : Value Config := fun d n => do
  let r ← Record.read Config.fieldNames d n
  let c : Config := { dut := ← r.required "dut" DutConfig.value }
  let word := Value.unsigned (Nat.pow 2 64)
  let chunkSize ← r.optional "proto_chunk_size" word c.chunkSize.toNat
  let reboot ← r.optional "reboot_timeout_secs" word c.rebootTimeoutSecs.toNat
  let firmwareReboot ←
    r.optional "firmware_reboot_timeout_secs" word c.firmwareRebootTimeoutSecs.toNat
  .ok { c with
        hosts := .ofList (← r.optional "hosts" (Value.pairs Value.text) [])
        cacheAddress := ← r.optional "cache_address" Value.text c.cacheAddress
        serializerPath := ← r.optional "serializer_path" Value.text c.serializerPath
        chunkSize := UInt64.ofNat chunkSize
        rebootTimeoutSecs := UInt64.ofNat reboot
        firmwareRebootTimeoutSecs := UInt64.ofNat firmwareReboot
        dialRetry := ← r.optional "dial_retry" RetryPolicy.value c.dialRetry }

/-- Reads a request. -/
def Request.value : Value Request := fun d n => do
  let r ← Record.read
    ["image_path", "preserve_stateful", "dlc_ids", "update_firmware", "prevent_reboot"] d n
  .ok { imagePath := ← r.required "image_path" Value.text
        preserveStateful := ← r.optional "preserve_stateful" Value.flag false
        dlcIds := ← r.optional "dlc_ids" (Value.list Value.text) []
        updateFirmware := ← r.optional "update_firmware" Value.flag false
        preventReboot := ← r.optional "prevent_reboot" Value.flag false }

/-- Reads a value from the text of a document. -/
def readDocument {α : Type} (value : Value α) (text : String) : Except Fault α := do
  let d ← Yaml.Document.parse text.toList
  value d d.root

/-- Reads a configuration that is fit for use. -/
def Config.parse (text : String) : Result Config :=
  match readDocument Config.value text with
  | .error e => .error (.config ("failed to parse config: " ++ e.message
      ++ "\n\nSuggestions:\n• Check YAML syntax in the config file\n"
      ++ "• Verify indentation uses spaces, not tabs"))
  | .ok c => c.validate.map fun _ => c

/-- Reads the contents of a configuration file, or the reason why there are none. -/
def Config.load (path : String) : Except String String → Result Config
  | .error reason => .error (.config ("failed to read config file " ++ path ++ ": " ++ reason
      ++ "\n\nSuggestions:\n• Check file permissions: ls -la " ++ path
      ++ "\n• Create one with at least a `dut.name` entry"))
  | .ok contents => (Config.parse contents).within ("config file " ++ path)

/-- Reads a request that can be served. -/
def Request.parse (text : String) : Result Request :=
  match readDocument Request.value text with
  | .error e => .error (.validation ("failed to parse provision request: " ++ e.message))
  | .ok r => r.validate.map fun _ => r

/-! ## Writing -/

/-- A number in a document. -/
def Tree.number (n : Nat) : Tree := .plain (toString n)

def DutConfig.tree (d : DutConfig) : Tree :=
  .record [
    ("name", .text d.name),
    ("user", .text d.user),
    ("port", Tree.number d.port.toNat),
    ("ssh_key", match d.sshKey with | some key => .text key | none => .plain "null"),
    ("timeout", Tree.number d.timeoutSecs.toNat)]

def RetryPolicy.tree (p : RetryPolicy) : Tree :=
  .record [
    ("max_retries", Tree.number p.maxRetries.toNat),
    ("initial_delay_ms", Tree.number p.initialDelayMs.toNat),
    ("backoff_multiplier", .plain (Yaml.floatText p.multiplier)),
    ("max_delay_ms", Tree.number p.maxDelayMs.toNat)]

/-- The fields of a configuration, with the entries of its table of hosts as they are listed. -/
def Config.fields (c : Config) (hosts : List (String × String)) : List (String × Tree) :=
  [("dut", c.dut.tree),
    ("hosts", .record (hosts.map fun e => (e.1, .text e.2))),
    ("cache_address", .text c.cacheAddress),
    ("serializer_path", .text c.serializerPath),
    ("proto_chunk_size", Tree.number c.chunkSize.toNat),
    ("reboot_timeout_secs", Tree.number c.rebootTimeoutSecs.toNat),
    ("firmware_reboot_timeout_secs", Tree.number c.firmwareRebootTimeoutSecs.toNat),
    ("dial_retry", c.dialRetry.tree)]

/-- A configuration as a document. Its hosts may be listed in any order. -/
def Config.document (c : Config) (hosts : List (String × String) := c.hosts.entries) : String :=
  Yaml.document (c.fields hosts)

end Reimage
