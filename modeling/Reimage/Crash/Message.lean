/-
  The messages of the crash report helper.

  A crash is announced by a message with its description; any number of messages with chunks of its
  files follow, under the same number.

  * `Message.encode` writes a message as a protocol buffer, fields in the order of their numbers and
    without those that have their default value;
  * `Message.decode` reads one: of a repeated scalar the last counts, a repeated part of the payload
    is merged into the one before if it is of the same kind and replaces it otherwise, and unknown
    fields are passed over.
-/
import Reimage.Protobuf.Wire
import Reimage.Text.Utf8

namespace Reimage.Crash

open Protobuf

/-- A named remark about a crash. -/
structure Remark where
  key : String := ""
  text : String := ""
  deriving DecidableEq, Repr, Inhabited

/-- The description of a crash. -/
structure Info where
  execName : String := ""
  prog : String := ""
  version : String := ""
  sig : String := ""
  inProgressIntegrationTest : String := ""
  collector : String := ""
  remarks : List Remark := []
  deriving DecidableEq, Repr, Inhabited

/-- A chunk of a file collected with a crash. -/
structure Blob where
  key : String := ""
  blob : List UInt8 := []
  filename : String := ""
  deriving DecidableEq, Repr, Inhabited

/-- A chunk of a memory image. -/
structure CoreDump where
  filename : String := ""
  blob : List UInt8 := []
  deriving DecidableEq, Repr, Inhabited

inductive Payload
  | crash (info : Info)
  | blob (blob : Blob)
  | core (core : CoreDump)
  deriving DecidableEq, Repr, Inhabited

/-- One message of the helper. -/
structure Message where
  crashId : Int64 := 0
  payload : Option Payload := none
  deriving DecidableEq, Repr, Inhabited

/-- A short description for logs. -/
def Message.summary (m : Message) : String :=
  let start := "crash " ++ toString m.crashId.toInt ++ ": "
  start ++ match m.payload with
    | none => "empty"
    | some (.crash i) => i.execName ++ " (" ++ i.collector ++ ") sig=" ++ i.sig
    | some (.blob b) => "blob " ++ b.filename ++ " " ++ toString b.blob.length ++ " bytes"
    | some (.core c) => "core " ++ c.filename ++ " " ++ toString c.blob.length ++ " bytes"

/-! ## Writing -/

/-- A field of bytes, left out when empty. -/
def bytesField (tag : Nat) (bytes : List UInt8) : List UInt8 :=
  if bytes.isEmpty then [] else lengthDelimited tag bytes

/-- A field of text, left out when empty. -/
def textField (tag : Nat) (text : String) : List UInt8 :=
  bytesField tag (Text.Utf8.ofString text)

def Remark.encode (r : Remark) : List UInt8 := textField 1 r.key ++ textField 2 r.text

def Info.encode (i : Info) : List UInt8 :=
  textField 1 i.execName ++ textField 2 i.prog ++ textField 3 i.version ++ textField 4 i.sig
    ++ textField 5 i.inProgressIntegrationTest ++ textField 6 i.collector
    ++ i.remarks.flatMap fun r => lengthDelimited 7 r.encode

def Blob.encode (b : Blob) : List UInt8 :=
  textField 1 b.key ++ bytesField 2 b.blob ++ textField 3 b.filename

def CoreDump.encode (c : CoreDump) : List UInt8 :=
  textField 1 c.filename ++ bytesField 2 c.blob

/-- A payload, which is written even when all its fields have their defaults. -/
def Payload.encode : Payload → List UInt8
  | .crash i => lengthDelimited 2 i.encode
  | .blob b => lengthDelimited 3 b.encode
  | .core c => lengthDelimited 4 c.encode

/-- A message as a protocol buffer. -/
def Message.encode (m : Message) : List UInt8 :=
  (if m.crashId = 0 then [] else key 1 .varint ++ varint m.crashId.toUInt64.toNat)
    ++ match m.payload with
      | none => []
      | some p => p.encode

/-! ## Reading -/

/-- Reads a field of text. -/
def readText (w : WireType) (bytes : List UInt8) : Decoded (String × List UInt8) := do
  let (payload, rest) ← readPayload w bytes
  match Text.Utf8.toString? payload with
  | some s => .ok (s, rest)
  | none => .error .invalidUtf8

/-- Reads a message inside a message, merging it into `start`. -/
def readNested {μ : Type}
    (field : μ → Nat → WireType → List UInt8 → Decoded (μ × List UInt8)) (start : μ)
    (w : WireType) (bytes : List UInt8) : Decoded (μ × List UInt8) := do
  let (payload, rest) ← readPayload w bytes
  let m ← readMessage field start payload
  .ok (m, rest)

/-- Takes one field of a remark; `budget` is what is left of the nesting limit. -/
def Remark.field (budget : Nat) (r : Remark) (tag : Nat) (w : WireType) (bytes : List UInt8) :
    Decoded (Remark × List UInt8) :=
  match tag with
  | 1 => (readText w bytes).map fun (s, rest) => ({ r with key := s }, rest)
  | 2 => (readText w bytes).map fun (s, rest) => ({ r with text := s }, rest)
  | _ => ignoreField budget r tag w bytes

/-- Takes one field of a description. -/
def Info.field (budget : Nat) (i : Info) (tag : Nat) (w : WireType) (bytes : List UInt8) :
    Decoded (Info × List UInt8) :=
  match tag with
  | 1 => (readText w bytes).map fun (s, rest) => ({ i with execName := s }, rest)
  | 2 => (readText w bytes).map fun (s, rest) => ({ i with prog := s }, rest)
  | 3 => (readText w bytes).map fun (s, rest) => ({ i with version := s }, rest)
  | 4 => (readText w bytes).map fun (s, rest) => ({ i with sig := s }, rest)
  | 5 => (readText w bytes).map fun (s, rest) =>
    ({ i with inProgressIntegrationTest := s }, rest)
  | 6 => (readText w bytes).map fun (s, rest) => ({ i with collector := s }, rest)
  | 7 => (readNested (Remark.field (budget - 1)) {} w bytes).map fun (r, rest) =>
    ({ i with remarks := i.remarks ++ [r] }, rest)
  | _ => ignoreField budget i tag w bytes

/-- Takes one field of a file chunk. -/
def Blob.field (budget : Nat) (b : Blob) (tag : Nat) (w : WireType) (bytes : List UInt8) :
    Decoded (Blob × List UInt8) :=
  match tag with
  | 1 => (readText w bytes).map fun (s, rest) => ({ b with key := s }, rest)
  | 2 => (readPayload w bytes).map fun (s, rest) => ({ b with blob := s }, rest)
  | 3 => (readText w bytes).map fun (s, rest) => ({ b with filename := s }, rest)
  | _ => ignoreField budget b tag w bytes

/-- Takes one field of a memory image chunk. -/
def CoreDump.field (budget : Nat) (c : CoreDump) (tag : Nat) (w : WireType)
    (bytes : List UInt8) : Decoded (CoreDump × List UInt8) :=
  match tag with
  | 1 => (readText w bytes).map fun (s, rest) => ({ c with filename := s }, rest)
  | 2 => (readPayload w bytes).map fun (s, rest) => ({ c with blob := s }, rest)
  | _ => ignoreField budget c tag w bytes

/-- Takes one field of a message. -/
def Message.field (budget : Nat) (m : Message) (tag : Nat) (w : WireType) (bytes : List UInt8) :
    Decoded (Message × List UInt8) :=
  match tag with
  | 1 =>
    if w = .varint then
      (readVarint bytes).map fun (n, rest) =>
        ({ m with crashId := (UInt64.ofNat n).toInt64 }, rest)
    else .error .wrongWireType
  | 2 =>
    let start := match m.payload with | some (.crash i) => i | _ => {}
    (readNested (Info.field (budget - 1)) start w bytes).map fun (i, rest) =>
      ({ m with payload := some (.crash i) }, rest)
  | 3 =>
    let start := match m.payload with | some (.blob b) => b | _ => {}
    (readNested (Blob.field (budget - 1)) start w bytes).map fun (b, rest) =>
      ({ m with payload := some (.blob b) }, rest)
  | 4 =>
    let start := match m.payload with | some (.core c) => c | _ => {}
    (readNested (CoreDump.field (budget - 1)) start w bytes).map fun (c, rest) =>
      ({ m with payload := some (.core c) }, rest)
  | _ => ignoreField budget m tag w bytes

/-- Reads a message. -/
def Message.decode (bytes : List UInt8) : Decoded Message :=
  readMessage (Message.field nestingLimit) {} bytes

end Reimage.Crash
