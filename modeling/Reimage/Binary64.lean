/-
  Binary floating point numbers of 64 bits, as words.

  * `ofRatio` is the number nearest to a fraction, a tie going to the even one;
  * `ofDecimal?` reads decimal notation;
  * `text` writes the shortest decimal that reads back as the same number.

  Reading and writing use exact natural number arithmetic only, so nothing here depends on the
  processor. `toFloat` hands the word to the processor where a number is computed with.
-/
namespace Reimage

/-- A floating point number: sign, eleven bits of exponent, 52 bits of fraction. -/
structure Binary64 where
  bits : UInt64
  deriving DecidableEq, Repr, Inhabited

namespace Binary64

/-- The number as the processor knows it. -/
def toFloat (x : Binary64) : Float := Float.ofBits x.bits

def isNegative (x : Binary64) : Bool := x.bits.toNat / Nat.pow 2 63 == 1

/-- The eleven exponent bits. -/
def exponentBits (x : Binary64) : Nat := x.bits.toNat / Nat.pow 2 52 % Nat.pow 2 11

/-- The 52 fraction bits. -/
def fractionBits (x : Binary64) : Nat := x.bits.toNat % Nat.pow 2 52

def isFinite (x : Binary64) : Bool := x.exponentBits != 2047

def isNaN (x : Binary64) : Bool := x.exponentBits == 2047 && x.fractionBits != 0

/-- The word with the given sign and remaining 63 bits. -/
def ofParts (negative : Bool) (magnitude : Nat) : Binary64 :=
  ⟨UInt64.ofNat ((if negative then Nat.pow 2 63 else 0) + magnitude)⟩

def infinity (negative : Bool) : Binary64 := ofParts negative (2047 * Nat.pow 2 52)

/-- In units of `2 ^ -1074` every finite number is an integer. -/
@[irreducible]
def unitBits : Nat := 1074

/-- The magnitude of a finite number in these units, as `m * 2 ^ e`. -/
def magnitude (x : Binary64) : Nat × Nat :=
  if x.exponentBits = 0 then (x.fractionBits, 0)
  else (x.fractionBits + Nat.pow 2 52, x.exponentBits - 1)

/-- `num / den` rounded to the nearest integer, a tie to the even one. -/
def roundHalfEven (num den : Nat) : Nat :=
  let q := num / den
  let r := num % den
  if den < 2 * r || (2 * r == den && q % 2 == 1) then q + 1 else q

/-- The number of binary digits of `n`. -/
def bitLength (n : Nat) : Nat := if n = 0 then 0 else n.log2 + 1

/-- The word of the number nearest to a positive `num / den`, a tie going to the even one. -/
def nearest (num den : Nat) : Nat :=
  let scaled := num * Nat.pow 2 unitBits
  let whole := bitLength (scaled / den)
  let shift := whole - 53
  let m := roundHalfEven scaled (den * Nat.pow 2 shift)
  -- A carry into the 54th bit moves into the exponent by itself.
  if shift = 0 then m else shift * Nat.pow 2 52 + m

/-- The number with a word, which is infinite if the word is none of a finite number. -/
def ofWord (negative : Bool) (word : Nat) : Binary64 :=
  if 2047 * Nat.pow 2 52 ≤ word then infinity negative else ofParts negative word

/-- The number nearest to `num / den`, a tie going to the even one. -/
def ofRatio (negative : Bool) (num den : Nat) : Binary64 :=
  if num = 0 then ofParts negative 0 else ofWord negative (nearest num den)

/-- The number nearest to `digits * 10 ^ exponent`. Exponents far outside the range are cut short,
    which changes no result. -/
def ofDigits (negative : Bool) (digits : Nat) (exponent : Int) : Binary64 :=
  if digits = 0 then ofParts negative 0
  else
    let order := exponent + (Nat.toDigits 10 digits).length
    if 400 < order then infinity negative
    else if order < -400 then ofParts negative 0
    else if 0 ≤ exponent then ofRatio negative (digits * Nat.pow 10 exponent.toNat) 1
    else ofRatio negative digits (Nat.pow 10 (-exponent).toNat)

/-- The value of a text of decimal digits. -/
def digitsValue (s : List Char) : Nat :=
  s.foldl (fun n c => n * 10 + (c.toNat - '0'.toNat)) 0

/-- Whether a text has only decimal digits, at least one. -/
def isNumeral (s : List Char) : Bool :=
  !s.isEmpty && s.all fun c => '0' ≤ c && c ≤ '9'

/-- Splits a sign off a text. -/
def takeSign : List Char → Bool × List Char
  | '-' :: rest => (true, rest)
  | '+' :: rest => (false, rest)
  | s => (false, s)

/-- Whether a character starts an exponent. -/
def isMark (c : Char) : Bool := c == 'e' || c == 'E'

/-- Reads what follows the digits of decimal notation: nothing, or a mark and an exponent. -/
def exponent? : List Char → Option Int
  | [] => some 0
  | _ :: power =>
    let (down, digits) := takeSign power
    if isNumeral digits then
      some (if down then -(digitsValue digits : Int) else (digitsValue digits : Int))
    else none

/-- Reads decimal notation after its sign. -/
def ofUnsigned? (negative : Bool) (s : List Char) : Option Binary64 :=
  let mantissa := s.takeWhile (!isMark ·)
  let whole := mantissa.takeWhile (· != '.')
  let part := (mantissa.dropWhile (· != '.')).drop 1
  let digits := whole ++ part
  if !isNumeral digits then none
  else (exponent? (s.dropWhile (!isMark ·))).map fun exponent =>
    ofDigits negative (digitsValue digits) (exponent - part.length)

/-- Reads decimal notation: a sign, digits with an optional point, at least one of them, and an
    optional exponent. -/
def ofDecimal? (s : List Char) : Option Binary64 :=
  let (negative, unsigned) := takeSign s
  ofUnsigned? negative unsigned

/-- The two decimals with `count` digits next to a positive number, `d * 10 ^ e` below or at it
    first: as pairs `(d, e)`. `num / den` is the number and lies in `[10 ^ (top - 1), 10 ^ top)`. -/
def neighbours (num den : Nat) (top : Int) (count : Nat) : List (Nat × Int) :=
  let e := top - count
  let (n, d) := if 0 ≤ e then (num, den * Nat.pow 10 e.toNat) else (num * Nat.pow 10 (-e).toNat, den)
  let below := n / d
  let nearBelow := 2 * (n % d) < d || (2 * (n % d) == d && below % 2 == 0)
  if nearBelow then [(below, e), (below + 1, e)] else [(below + 1, e), (below, e)]

/-- The least `top` with `num / den < 10 ^ top`, for a positive fraction. -/
def decimalOrder (num den : Nat) : Int :=
  let guess : Int := (Nat.toDigits 10 num).length - (Nat.toDigits 10 den).length
  let below := if 0 ≤ guess then num < den * Nat.pow 10 guess.toNat
    else num * Nat.pow 10 (-guess).toNat < den
  if below then guess else guess + 1

/-- The decimal with the fewest digits that reads back as the positive finite number `x`, the
    nearest of them: `d * 10 ^ e` as `(d, e)`. If none of up to seventeen digits did, the exact
    value is taken. -/
def shortest (x : Binary64) : Nat × Int :=
  let (m, e) := x.magnitude
  let num := m * Nat.pow 2 e
  let den := Nat.pow 2 unitBits
  let top := decimalOrder num den
  let candidates := (List.range 17).flatMap fun n => neighbours num den top (n + 1)
  match candidates.find? fun (d, k) => ofDigits false d k == x with
  | some found => found
  | none => (num * Nat.pow 5 unitBits, -unitBits)

/-- A decimal without zeros at the end of its digits. -/
def withoutTrailingZeros : (fuel : Nat) → Nat × Int → Nat × Int
  | 0, p => p
  | fuel + 1, (d, e) =>
    if d ≠ 0 && d % 10 == 0 then withoutTrailingZeros fuel (d / 10, e + 1) else (d, e)

/-- Positional notation is used while the point stands at most sixteen places right of the first
    digit or five left of it; every number has a fraction or an exponent. -/
def layout (d : Nat) (e : Int) : List Char :=
  let digits := Nat.toDigits 10 d
  let point := e + digits.length
  if 0 ≤ e && point ≤ 16 then digits ++ List.replicate e.toNat '0' ++ ['.', '0']
  else if 0 < point && point ≤ 16 then
    digits.take point.toNat ++ '.' :: digits.drop point.toNat
  else if -5 < point && point ≤ 0 then
    ['0', '.'] ++ List.replicate (-point).toNat '0' ++ digits
  else
    let power := (toString (point - 1)).toList
    match digits with
    | [digit] => digit :: 'e' :: power
    | digit :: others => digit :: '.' :: others ++ 'e' :: power
    | [] => power

/-- The shortest decimal that reads back as `x`, which is finite. -/
def decimal (x : Binary64) : List Char :=
  let sign := if x.isNegative then ['-'] else []
  let positive := ofParts false (x.bits.toNat % Nat.pow 2 63)
  if positive.bits = 0 then sign ++ ['0', '.', '0']
  else
    let (d, e) := withoutTrailingZeros 800 positive.shortest
    sign ++ layout d e

end Binary64

end Reimage
