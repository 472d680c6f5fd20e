/-
  What plain scalars of a YAML document mean.

  Null, booleans, integers and floating point numbers have fixed spellings; every other plain scalar
  is text. `isTyped` tells the spellings that a text must not have to be written plain.
-/
import Reimage.Binary64
import Reimage.Text.Hex

namespace Reimage.Yaml

/-- A spelling of null. -/
def isNull (s : String) : Bool := s == "~" || s == "null" || s == "Null" || s == "NULL"

/-- Reads a boolean. -/
def readBool? (s : String) : Option Bool :=
  if s = "true" || s = "True" || s = "TRUE" then some true
  else if s = "false" || s = "False" || s = "FALSE" then some false
  else none

/-- The value of a digit in bases up to sixteen. -/
def digit? (base : Nat) (c : Char) : Option Nat :=
  (Text.hexDigit? c).bind fun d => if d < base then some d else none

/-- Reads more digits after those worth `value`. -/
def readBase? (base value : Nat) : List Char → Option Nat
  | [] => some value
  | c :: rest => (digit? base c).bind fun d => readBase? base (value * base + d) rest

/-- Reads at least one digit; the result is below `limit`. -/
def readNumber? (base limit : Nat) (s : List Char) : Option Nat :=
  if s.isEmpty then none
  else (readBase? base 0 s).bind fun n => if n < limit then some n else none

/-- The base that a mark in front of the digits says. -/
def markedBase? (mark : Char) : Option Nat :=
  if mark = 'x' then some 16 else if mark = 'o' then some 8 else if mark = 'b' then some 2 else none

/-- A text after its plus sign, if it has one. -/
def afterPlus : List Char → List Char
  | '+' :: rest => rest
  | s => s

/-- A text after its sign, if it has one. -/
def afterSign : List Char → List Char
  | '-' :: rest | '+' :: rest => rest
  | s => s

/-- Decimal digits with a zero in front, which are no number. -/
def isPadded (s : List Char) : Bool :=
  let digits := afterSign s
  decide (1 < digits.length) && digits.head? == some '0' && digits.all Char.isDigit

/-- Reads a number with a mark of its base in front. -/
def readMarked? (limit : Nat) : List Char → Option Nat
  | '0' :: mark :: digits => (markedBase? mark).bind fun base => readNumber? base limit digits
  | _ => none

/-- Reads an unsigned integer below `limit`: an optional plus sign, and decimal digits or a marked
    base. -/
def readUnsigned? (limit : Nat) (s : List Char) : Option Nat :=
  match readMarked? limit (afterPlus s) with
  | some n => some n
  | none => if isPadded s then none else readNumber? 10 limit (afterPlus s)

/-- Whether a text is a signed integer of no more than `limit` in size. -/
def isNegativeInteger (limit : Nat) (s : List Char) : Bool :=
  match s with
  | '-' :: unsigned =>
    (readMarked? (limit + 1) unsigned).isSome
      || (!isPadded s && (readNumber? 10 (limit + 1) unsigned).isSome)
  | _ => false

/-- Reads a floating point number. Decimals too large for one are none. -/
def readFloat? (s : List Char) : Option Binary64 :=
  let plus := s.head? == some '+'
  let unsigned := afterPlus s
  let signed := unsigned.head? == some '+' || unsigned.head? == some '-'
  if plus && signed then none
  else if [".inf", ".Inf", ".INF"].contains (String.ofList unsigned) then
    some (.infinity false)
  else if ["-.inf", "-.Inf", "-.INF"].contains (String.ofList s) then some (.infinity true)
  else if [".nan", ".NaN", ".NAN"].contains (String.ofList s) then some ⟨0x7ff8000000000000⟩
  else (Binary64.ofDecimal? unsigned).bind fun x => if x.isFinite then some x else none

/-- Whether a plain scalar would not be read as a text by a reader that goes by its spelling, or
    might be mistaken by another reader. -/
def isTyped (s : String) : Bool :=
  let cs := s.toList
  cs.isEmpty || isNull s || (readBool? s).isSome || (readUnsigned? (Nat.pow 2 128) cs).isSome
    || isNegativeInteger (Nat.pow 2 127) cs || isPadded cs || (readFloat? cs).isSome

/-- A floating point number as a plain scalar. -/
def floatText (x : Binary64) : String :=
  if x.isNaN then ".nan"
  else if x.isFinite then String.ofList x.decimal
  else if x.isNegative then "-.inf" else ".inf"

end Reimage.Yaml
