/-
  Trying again with growing delays.

  * `RetryPolicy.delay` is the delay before a retry: it starts at `initialDelayMs`, is multiplied
    before each further retry, and never exceeds `maxDelayMs`;
  * `retry` calls an operation until it succeeds or all retries are used up.
-/
import Reimage.Binary64
import Reimage.Error
import Reimage.Program

namespace Reimage

/-- How often and how soon an operation is tried again. -/
structure RetryPolicy where
  /-- Tries after the first one. -/
  maxRetries : UInt32 := 5
  initialDelayMs : UInt64 := 2000
  /-- Growth of the delay from one retry to the next. -/
  multiplier : Binary64 := ⟨0x4000000000000000⟩
  maxDelayMs : UInt64 := 30000
  deriving DecidableEq, Repr, Inhabited

namespace RetryPolicy

/-- `x` to the power `n` by repeated squaring: `square` is the current square of `x`, and a factor
    is taken for each binary digit of `n`. -/
def powerLoop : (fuel n : Nat) → (square result : Float) → Float
  | 0, _, _, result => result
  | fuel + 1, n, square, result =>
    let result := if n % 2 == 1 then result * square else result
    if n / 2 == 0 then result else powerLoop fuel (n / 2) (square * square) result

/-- `x` to an integer power; a negative power is the reciprocal of the positive one. -/
def power (x : Float) (n : Int) : Float :=
  let r := powerLoop 64 n.natAbs x 1.0
  if n < 0 then 1.0 / r else r

/-- The smaller of two numbers, the other one if one is no number. -/
def smaller (a b : Float) : Float :=
  if a.isNaN then b else if b.isNaN then a else if a < b then a else b

/-- The delay before retry number `index`, counted from 0, in whole milliseconds. -/
def delay (p : RetryPolicy) (index : Nat) : Duration :=
  let grown := p.initialDelayMs.toFloat *
    power p.multiplier.toFloat (Int.bmod index (Nat.pow 2 32))
  .ofMillis (smaller grown p.maxDelayMs.toFloat).toUInt64.toNat

end RetryPolicy

/-- What a retried operation needs from its surroundings. -/
inductive RetryStep
  /-- Call the operation. -/
  | call
  /-- Warn that the operation is tried again. -/
  | warn (text : String)
  | wait (d : Duration)
  deriving DecidableEq, Repr

/-- What a retried operation gets back; a call gives a result or an error. -/
abbrev RetryStep.Answer (β : Type) : RetryStep → Type
  | .call => Result β
  | .warn _ | .wait _ => Unit

/-- The calls after one that failed with `last`, of which `left` may still be made. -/
def retryAfter {β : Type} (p : RetryPolicy) (name : String) :
    (left : Nat) → (last : Error) → Program RetryStep (RetryStep.Answer β) (Result β)
  | 0, last => .done (.error last)
  | left + 1, _ =>
    let index := p.maxRetries.toNat - (left + 1)
    let delay := p.delay index
    let text := "Retrying " ++ name ++ " (attempt " ++ toString (index + 1) ++ "/"
      ++ toString p.maxRetries.toNat ++ ") after " ++ delay.text
    .ask (.warn text) fun _ => .ask (.wait delay) fun _ => .ask .call fun
      | .ok result => .done (.ok result)
      | .error e => retryAfter p name left e

/-- Calls an operation until it succeeds or all retries are used up, and then gives the last
    error. -/
def retry {β : Type} (p : RetryPolicy) (name : String) :
    Program RetryStep (RetryStep.Answer β) (Result β) :=
  .ask .call fun
    | .ok result => .done (.ok result)
    | .error e => retryAfter p name p.maxRetries.toNat e

end Reimage
