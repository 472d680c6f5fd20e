/-
  Unsigned decimal numbers of a bounded size, as read from configuration values and command lines:
  one optional plus sign and at least one digit.

  The digits are taken one by one, so of two faults the earlier one is reported.
-/
import Reimage.Text.Blank

namespace Reimage.Text

/-- Why a text is no number of the wanted size. -/
inductive NumeralError
  | empty
  | invalidDigit
  | tooLarge
  deriving DecidableEq, Repr

/-- The fault in words. -/
def NumeralError.message : NumeralError → String
  | .empty => "cannot parse integer from empty string"
  | .invalidDigit => "invalid digit found in string"
  | .tooLarge => "number too large to fit in target type"

/-- Reads more digits after those worth `value`; the result is below `limit`. -/
def readDigits (limit value : Nat) : List Char → Except NumeralError Nat
  | [] => .ok value
  | c :: rest =>
    if !isDigit c then .error .invalidDigit
    else
      let next := value * 10 + (c.toNat - '0'.toNat)
      if limit ≤ next then .error .tooLarge else readDigits limit next rest

/-- Reads a number below `limit`. -/
def readNumeral (limit : Nat) : List Char → Except NumeralError Nat
  | [] => .error .empty
  | ['+'] => .error .invalidDigit
  | '+' :: digits => readDigits limit 0 digits
  | digits => readDigits limit 0 digits

end Reimage.Text
