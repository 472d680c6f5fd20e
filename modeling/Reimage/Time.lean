/-
  Spans of time and points on a clock, to the nanosecond.

  * `Duration.text` is how a message shows a span: in the largest of `s`, `ms`, `µs`, `ns` that
    does not exceed it, with the exact remainder as a decimal fraction;
  * a clock counts seconds in a signed and spans count them in an unsigned 64-bit word, so adding
    a span may have no representable result (`Instant.after?`, `Duration.add?`).
-/
namespace Reimage

/-- A span of time. -/
structure Duration where
  nanos : Nat
  deriving DecidableEq, Repr, Inhabited

/-- A point on a clock, as the time since the clock's origin. -/
structure Instant where
  nanos : Nat
  deriving DecidableEq, Repr, Inhabited

namespace Duration

/-- A number of seconds. -/
def ofSecs (secs : Nat) : Duration := ⟨secs * 1000000000⟩

/-- A number of milliseconds. -/
def ofMillis (ms : Nat) : Duration := ⟨ms * 1000000⟩

/-- One past the largest number of whole seconds a span can hold. -/
def secsLimit : Nat := Nat.pow 2 64

/-- The sum, if it can be represented. -/
def add? (a b : Duration) : Option Duration :=
  let sum := a.nanos + b.nanos
  if sum / 1000000000 < secsLimit then some ⟨sum⟩ else none

/-- `n` written with at least `width` digits. -/
def padded (width n : Nat) : List Char :=
  let digits := Nat.toDigits 10 n
  List.replicate (width - digits.length) '0' ++ digits

/-- `n` and a fraction of `width` decimal places whose digits form `part`, without the zeros at
    its end; without a point if nothing is left. -/
def decimal (n part width : Nat) : List Char :=
  let digits := ((padded width part).reverse.dropWhile (· == '0')).reverse
  Nat.toDigits 10 n ++ if digits.isEmpty then [] else '.' :: digits

/-- The span as shown in messages, such as `1.5s` or `250ms`. -/
def text (d : Duration) : String :=
  let n := d.nanos
  if 1000000000 ≤ n then String.ofList (decimal (n / 1000000000) (n % 1000000000) 9) ++ "s"
  else if 1000000 ≤ n then String.ofList (decimal (n / 1000000) (n % 1000000) 6) ++ "ms"
  else if 1000 ≤ n then String.ofList (decimal (n / 1000) (n % 1000) 3) ++ "µs"
  else String.ofList (Nat.toDigits 10 n) ++ "ns"

end Duration

namespace Instant

/-- One past the largest number of whole seconds a clock can show. -/
def secsLimit : Nat := Nat.pow 2 63

/-- The point `d` after `t`, if the clock can show it. -/
def after? (t : Instant) (d : Duration) : Option Instant :=
  let sum := t.nanos + d.nanos
  if sum / 1000000000 < secsLimit then some ⟨sum⟩ else none

end Instant

end Reimage
