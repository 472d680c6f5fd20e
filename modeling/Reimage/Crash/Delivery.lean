/-
  Crash reports from a running helper.

  The helper writes framed messages to its output and remarks for people to its error output. The
  error output is read whatever becomes of the messages.

  * `remarks` logs the error output line by line, as long as it is text;
  * `deliver` hands the messages of a stream to a receiver, in order, until the stream ends, fails
    or the receiver refuses one;
  * `collect` does both and waits for the helper to end.
-/
import Reimage.Crash.Frame
import Reimage.Log
import Reimage.Text.Blank

namespace Reimage.Crash

/-- A helper that was started: what its two streams give, and what waiting for its end gives. -/
structure Running where
  stdout : Source
  stderr : Source
  finish : Result Int

/-- The command that starts the helper. -/
def helperCommand (path : String) (chunkSize : Nat) (fetchCore : Bool) : String :=
  path ++ " --chunk_size=" ++ toString chunkSize
    ++ if fetchCore then " --fetch_coredumps" else ""

/-! ## Remarks -/

/-- The bytes of a source up to its next end or failure, the text of the failure if that came
    first, and what the source holds then. -/
def readToEnd : Source → List UInt8 × Option String × Source
  | [] => ([], none, [])
  | .data [] :: rest => ([], none, rest)
  | .interrupted :: rest => readToEnd rest
  | .failure message :: rest => ([], some message, rest)
  | .data (b :: bytes) :: rest =>
    let (more, failure, rest) := readToEnd rest
    (b :: bytes ++ more, failure, rest)

/-- Cuts bytes into lines after each line feed; what follows the last one is kept apart. -/
def cutLines : List UInt8 → List (List UInt8) × List UInt8
  | [] => ([], [])
  | b :: rest =>
    let (lines, last) := cutLines rest
    if b = 10 then ([] :: lines, last)
    else match lines with
      | [] => ([], b :: last)
      | line :: lines => ((b :: line) :: lines, last)

/-- The warning after which the error output is no longer logged. -/
def remarkFailure (message : String) : LogLine :=
  .warn ("Failed to read crash_serializer stderr: " ++ message)

/-- The log line for a line of the error output, if it is text. -/
def remark? (line : List UInt8) : Option LogLine :=
  (Text.Utf8.decode? line).map fun text =>
    .info ("crash_serializer: " ++ String.ofList (Text.dropReturn text))

/-- The warning about a line that is not text. -/
def notText : LogLine := remarkFailure "stream did not contain valid UTF-8"

/-- The log lines for finished lines, up to the first that is not text, and whether all were. -/
def remarkLines : List (List UInt8) → List LogLine × Bool
  | [] => ([], true)
  | line :: rest =>
    match remark? line with
    | none => ([notText], false)
    | some logged =>
      let (more, all) := remarkLines rest
      (logged :: more, all)

/-- The log line for what stands behind the last line feed when the output ends, and whether there
    is any and it is text. -/
def remarkLast (last : List UInt8) : List LogLine × Bool :=
  if last.isEmpty then ([], false)
  else match Text.Utf8.decode? last with
    | none => ([notText], false)
    | some text => ([.info ("crash_serializer: " ++ String.ofList text)], true)

/-- Bytes in pieces of `n + 1`, but for the last. -/
def inPieces (n : Nat) : List UInt8 → List (List UInt8)
  | [] => []
  | b :: rest => (b :: rest.take n) :: inPieces n (rest.drop n)
termination_by bytes => bytes.length
decreasing_by simp only [List.length_drop, List.length_cons]; omega

/-- The most that one read for lines asks for, less one byte. -/
def lineReadRest : Nat := 8191

/-- What reads for lines give, where a source gives `c` to a read that asks for more. -/
def lineRead : Chunk → List Chunk
  | .data (b :: bytes) => (inPieces lineReadRest (b :: bytes)).map .data
  | c => [c]

/-- The outcomes of the reads for lines. -/
def lineReads (source : Source) : Source := source.flatMap lineRead

/-- Logs an error output line by line, where `held` is the beginning of a line. The lines that a
    read finishes are logged before the next read; after one that is not text there is none. What
    the end of the output cuts off counts as a line, and after it the output is read once more.
    Gives the log lines and the reads that were made. -/
def remarksFrom (held : List UInt8) : Source → List LogLine × List Chunk
  | [] =>
    match remarkLast held with
    | (logged, false) => (logged, [.data []])
    | (logged, true) => (logged, [.data [], .data []])
  | .data [] :: rest =>
    match remarkLast held with
    | (logged, false) => (logged, [.data []])
    | (logged, true) =>
      let (more, made) := remarksFrom [] rest
      (logged ++ more, .data [] :: made)
  | .data (b :: bytes) :: rest =>
    let (lines, last) := cutLines (held ++ b :: bytes)
    match remarkLines lines with
    | (logged, false) => (logged, [.data (b :: bytes)])
    | (logged, true) =>
      let (more, made) := remarksFrom last rest
      (logged ++ more, .data (b :: bytes) :: made)
  | .interrupted :: rest =>
    let (logged, made) := remarksFrom held rest
    (logged, .interrupted :: made)
  | .failure message :: _ => ([remarkFailure message], [.failure message])

/-- Logs the helper's error output. Gives the log lines and the reads that were made. -/
def remarks (stderr : Source) : List LogLine × List Chunk := remarksFrom [] (lineReads stderr)

/-! ## Messages -/

/-- Hands messages to a receiver, which took `count` before, and gives the number it took or the
    first error, with what is left of the stream. `fuel` bounds the number of messages. After an
    error the rest of the stream is read, up to its next end or failure, so that the helper can
    end. -/
def deliverFrom {m : Type → Type} [Monad m] (receive : Message → m (Result Unit)) :
    (fuel count : Nat) → Source → m (Result Nat × Source)
  | 0, count, source => pure (.ok count, source)
  | fuel + 1, count, source =>
    match readMessage source with
    | (.ok none, rest) => pure (.ok count, rest)
    | (.error e, rest) => pure (.error e, exhaust rest)
    | (.ok (some message), rest) => do
      match ← receive message with
      | .ok () => deliverFrom receive fuel (count + 1) rest
      | .error e => pure (.error e, exhaust rest)

/-- More than the number of messages a source can hold: each takes at least a byte or an end. -/
def Source.messageBound (source : Source) : Nat :=
  source.foldr (fun
    | .data bytes, n => bytes.length + 1 + n
    | _, n => 1 + n) 1

/-- Hands the messages of a stream to a receiver. -/
def deliver {m : Type → Type} [Monad m] (receive : Message → m (Result Unit)) (stdout : Source) :
    m (Result Nat × Source) :=
  deliverFrom receive (Source.messageBound stdout) 0 stdout

/-- The log lines about the end of a helper all of whose messages were delivered. -/
def endingLines (finish : Result Int) (count : Nat) : List LogLine :=
  (match finish with
    | .ok status =>
      if status = 0 then []
      else [.warn ("crash_serializer exited with status " ++ toString status)]
    | .error e => [.warn ("crash_serializer did not close cleanly: " ++ e.message)])
    ++ [.info ("Fetched " ++ toString count ++ " crash messages")]

/-- Hands the messages of a running helper to a receiver. Gives the number of messages or the first
    error, and the log. -/
def collect {m : Type → Type} [Monad m] (receive : Message → m (Result Unit)) (helper : Running) :
    m (Result Nat × List LogLine) := do
  let (outcome, _) ← deliver receive helper.stdout
  let (log, _) := remarks helper.stderr
  match outcome with
  | .error e => pure (.error e, log)
  | .ok count => pure (.ok count, log ++ endingLines helper.finish count)

end Reimage.Crash
