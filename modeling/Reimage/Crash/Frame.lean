/-
  The framed stream of crash messages.

  Each frame is the length of its payload, eight bytes with the highest first, and the payload. The
  stream ends at the end of a frame.

  * `Source` is a source of bytes as its reader sees it: the outcomes of successive reads;
  * `Message.frame` writes a frame;
  * `readMessage` reads one, whatever the pieces in which the source gives its bytes.
-/
import Reimage.Crash.Message
import Reimage.Error

namespace Reimage.Crash

/-- The outcome of one read from a byte source. -/
inductive Chunk
  /-- Bytes; none at all are the end of the source. What a read does not ask for stays for the
      next. -/
  | data (bytes : List UInt8)
  /-- The read was interrupted before it gave anything. -/
  | interrupted
  | failure (message : String)
  deriving DecidableEq, Repr, Inhabited

/-- The outcomes of the reads to come; after the last of them every read gives no bytes. -/
abbrev Source := List Chunk

/-- How gathering bytes ended. -/
inductive Ending
  /-- All wanted bytes are there. -/
  | full
  /-- The source ended before. -/
  | ended
  | failed (message : String)
  deriving DecidableEq, Repr, Inhabited

/-- Reads up to `wanted` bytes: on after an interruption, until the bytes are there, the source
    ends or a read fails. -/
def gather : (wanted : Nat) → Source → List UInt8 × Ending × Source
  | 0, source => ([], .full, source)
  | _ + 1, [] => ([], .ended, [])
  | wanted + 1, .interrupted :: rest => gather (wanted + 1) rest
  | _ + 1, .failure message :: rest => ([], .failed message, rest)
  | _ + 1, .data [] :: rest => ([], .ended, rest)
  | wanted + 1, .data (b :: bytes) :: rest =>
    if wanted < bytes.length then
      ((b :: bytes).take (wanted + 1), .full, .data ((b :: bytes).drop (wanted + 1)) :: rest)
    else
      let (more, ending, rest) := gather (wanted - bytes.length) rest
      (b :: bytes ++ more, ending, rest)

/-- The length of the size in front of a payload. -/
def sizeLength : Nat := 8

/-- A number as bytes, the highest first. -/
def bigEndian : (length n : Nat) → List UInt8
  | 0, _ => []
  | length + 1, n =>
    UInt8.ofNat (n / Nat.pow 256 length) :: bigEndian length (n % Nat.pow 256 length)

/-- The number that bytes spell, the highest first. -/
def ofBigEndian (bytes : List UInt8) : Nat := bytes.foldl (fun n b => n * 256 + b.toNat) 0

/-- A message in a frame. -/
def Message.frame (m : Message) : List UInt8 :=
  bigEndian sizeLength m.encode.length ++ m.encode

/-- Reads the size in front of a payload; none at the end of the stream. -/
def readSize (source : Source) : Result (Option Nat) × Source :=
  match gather sizeLength source with
  | (bytes, .full, rest) => (.ok (some (ofBigEndian bytes)), rest)
  | ([], .ended, rest) => (.ok none, rest)
  | (bytes, .ended, rest) =>
    (.error (.unavailable ("failed to read a size: got " ++ toString bytes.length ++ " of "
      ++ toString sizeLength ++ " bytes")), rest)
  | (_, .failed message, rest) =>
    (.error (.unavailable ("failed to read a size: " ++ message)), rest)

/-- Reads a payload of a given size. -/
def readPayload (size : Nat) (source : Source) : Result (List UInt8) × Source :=
  match gather size source with
  | (bytes, .full, rest) => (.ok bytes, rest)
  | (bytes, .ended, rest) =>
    (.error (.unavailable ("failed to read complete proto. Read " ++ toString bytes.length
      ++ " bytes but wanted " ++ toString size)), rest)
  | (_, .failed message, rest) =>
    (.error (.unavailable ("failed to read complete proto: " ++ message)), rest)

/-- Reads a message from its payload. -/
def decodePayload (payload : List UInt8) : Result Message :=
  match Message.decode payload with
  | .ok m => .ok m
  | .error e => .error (.corrupt ("failed to unmarshal proto: " ++ e.message))

/-- Reads the next message; none at the end of the stream. -/
def readMessage (source : Source) : Result (Option Message) × Source :=
  match readSize source with
  | (.error e, rest) => (.error e, rest)
  | (.ok none, rest) => (.ok none, rest)
  | (.ok (some size), rest) =>
    match readPayload size rest with
    | (.error e, rest) => (.error e, rest)
    | (.ok payload, rest) => ((decodePayload payload).map some, rest)

/-- What a source holds after everything up to its next end or failure has been read. -/
def exhaust : Source → Source
  | [] => []
  | .data [] :: rest => rest
  | .data (_ :: _) :: rest => exhaust rest
  | .interrupted :: rest => exhaust rest
  | .failure _ :: rest => rest

/-- How many bytes can be read up to the next end or failure. -/
def readable : Source → Nat
  | [] | .data [] :: _ | .failure _ :: _ => 0
  | .data bytes :: rest => bytes.length + readable rest
  | .interrupted :: rest => readable rest

end Reimage.Crash
