/-
  The exchange with a command while it runs in a session.

  No call on a channel blocks: it does what can be done now, or says that nothing can. Input,
  output and error output take turns, so that a full window on one of them never stalls the
  others. After a round in which nothing moved, the exchange is over if the remote side has ended
  its output; else there is a pause before the next round.

  * `Pump` is the state between two calls, and `Pump.step` makes the next call;
  * `Pump.run` makes a number of calls.
-/
import Reimage.Exec
import Reimage.Time

namespace Reimage.Ssh

/-- What comes of a call that does not block. -/
inductive Ready (α : Type) where
  | done (result : α)
  /-- Nothing can be done now. -/
  | wouldBlock
  | failed (e : Error)
  deriving Repr

/-- A call on a channel. -/
inductive ChannelCall
  /-- Write some of the bytes, at the front, and tell how many. -/
  | write (bytes : List UInt8)
  /-- Signal the end of the input. -/
  | endInput
  | readStdout
  | readStderr
  /-- Whether the remote side has ended its output and all of it was read. -/
  | atEnd
  | pause (d : Duration)
  deriving DecidableEq, Repr

/-- The answer to a call. -/
abbrev ChannelCall.Answer : ChannelCall → Type
  | write _ => Ready Nat
  | endInput => Ready Unit
  | readStdout | readStderr => Ready (List UInt8)
  | atEnd => Bool
  | pause _ => Unit

/-- The call that comes next. -/
inductive Turn
  | write
  | endInput
  /-- Pause before the end of the input is signalled again. -/
  | pauseInput
  | readStdout
  | readStderr
  | checkEnd
  /-- Pause before the next round. -/
  | pauseRound
  /-- The exchange is over. -/
  | over
  | failed (e : Error)
  deriving Repr

/-- The exchange between two calls. -/
structure Pump where
  mode : StderrMode
  /-- The input that is still to be written. -/
  input : List UInt8
  /-- Whether the end of the input was signalled. -/
  inputEnded : Bool := false
  stdout : List UInt8 := []
  stderr : List UInt8 := []
  /-- Whether anything moved in this round. -/
  moved : Bool := false
  turn : Turn := .readStdout
  deriving Repr

namespace Pump

/-- The pause between attempts. -/
def pollInterval : Duration := .ofMillis 10

/-- Begins a round. -/
def newRound (p : Pump) : Pump :=
  { p with
    moved := false
    turn := if p.inputEnded then .readStdout else if p.input.isEmpty then .endInput else .write }

/-- The exchange before the first call. -/
def start (mode : StderrMode) (stdin : Option (List UInt8)) : Pump :=
  newRound { mode := mode, input := stdin.getD [] }

/-- Ends a round. -/
def endRound (p : Pump) : Pump := if p.moved then p.newRound else { p with turn := .checkEnd }

/-- Goes on after some of the input was written. -/
def wrote (p : Pump) (count : Nat) : Pump :=
  let input := p.input.drop count
  { p with
    input := input
    moved := p.moved || decide (0 < count)
    turn := if input.isEmpty then .endInput else .readStdout }

/-- Goes on after output was read. -/
def readOutput (p : Pump) (bytes : List UInt8) : Pump :=
  let p := { p with stdout := p.stdout ++ bytes, moved := p.moved || !bytes.isEmpty }
  match p.mode with
  | .separate => { p with turn := .readStderr }
  | .combined => p.endRound

/-- Goes on after error output was read. -/
def readErrors (p : Pump) (bytes : List UInt8) : Pump :=
  { p with stderr := p.stderr ++ bytes, moved := p.moved || !bytes.isEmpty }.endRound

/-- Goes on after a call that did something, could do nothing, or failed. -/
def settle {α : Type} (p : Pump) (done : α → Pump) (blocked : Pump) : Ready α → Pump
  | .done result => done result
  | .wouldBlock => blocked
  | .failed e => { p with turn := .failed e }

/-- Makes the next call. -/
def step {m : Type → Type} [Monad m] (answer : (c : ChannelCall) → m c.Answer) (p : Pump) :
    m Pump :=
  match p.turn with
  | .write => do return p.settle p.wrote { p with turn := .readStdout } (← answer (.write p.input))
  | .endInput => do
    return p.settle (fun () => { p with inputEnded := true, turn := .readStdout })
      { p with turn := .pauseInput } (← answer .endInput)
  | .pauseInput => do
    answer (.pause pollInterval)
    return { p with turn := .endInput }
  | .readStdout => do return p.settle p.readOutput (p.readOutput []) (← answer .readStdout)
  | .readStderr => do return p.settle p.readErrors (p.readErrors []) (← answer .readStderr)
  | .checkEnd => do return { p with turn := if ← answer .atEnd then .over else .pauseRound }
  | .pauseRound => do
    answer (.pause pollInterval)
    return p.newRound
  | .over | .failed _ => pure p

/-- Makes a number of calls. -/
def run {m : Type → Type} [Monad m] (answer : (c : ChannelCall) → m c.Answer) :
    (calls : Nat) → Pump → m Pump
  | 0, p => pure p
  | calls + 1, p => do run answer calls (← p.step answer)

end Pump

end Reimage.Ssh
