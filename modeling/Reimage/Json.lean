/-
  JSON documents.

  A string that stands in a document may spell half of a surrogate pair. Such a string is no text,
  which only matters where a text is wanted: `Json.string none`. The same holds for the size of
  numbers, so a number is kept as it is written.

  * `Json.parse?` reads a document;
  * `Json.stringText` writes a string.
-/
import Reimage.Text.Hex
import Reimage.Text.Utf8

namespace Reimage

/-- A JSON value. The members of an object stay in the order and number they are written. -/
inductive Json where
  | null
  | bool (b : Bool)
  /-- A number, as it is written. -/
  | number (text : List Char)
  /-- A string, or none for one that is no text. -/
  | string (text : Option (List Char))
  | array (items : List Json)
  | object (members : List (Option (List Char) × Json))
  deriving Inhabited

namespace Json

/-! ## Reading -/

/-- The four characters between values. -/
def isSpace (c : Char) : Bool := c == ' ' || c == '\n' || c == '\t' || c == '\r'

def skipSpace (s : List Char) : List Char := s.dropWhile isSpace

/-- The value of four hexadecimal digits. -/
def hexUnit? (a b c d : Char) : Option Nat := Text.readHex? 0 [a, b, c, d]

/-- The character of a one-letter escape. -/
def shortEscape? (c : Char) : Option Char :=
  if c = '\x22' then some '\x22'
  else if c = '\\' then some '\\'
  else if c = '/' then some '/'
  else if c = 'b' then some '\x08'
  else if c = 'f' then some '\x0c'
  else if c = 'n' then some '\n'
  else if c = 'r' then some '\r'
  else if c = 't' then some '\t'
  else none

/-- One piece of a string: a character, or a unit of sixteen bits spelled by number. -/
inductive Piece
  | char (c : Char)
  | unit (n : Nat)

/-- Reads the pieces of a string up to its closing quote, and what follows it. -/
def pieces : List Char → Option (List Piece × List Char)
  | [] => none
  | '\x22' :: rest => some ([], rest)
  | '\\' :: 'u' :: a :: b :: c :: d :: rest => do
    let n ← hexUnit? a b c d
    let (ps, rest) ← pieces rest
    some (.unit n :: ps, rest)
  | '\\' :: e :: rest => do
    let c ← shortEscape? e
    let (ps, rest) ← pieces rest
    some (.char c :: ps, rest)
  | c :: rest =>
    if c.toNat < 0x20 || c == '\\' then none
    else do
      let (ps, rest) ← pieces rest
      some (.char c :: ps, rest)

def isHigh (n : Nat) : Bool := 0xD800 ≤ n && n ≤ 0xDBFF
def isLow (n : Nat) : Bool := 0xDC00 ≤ n && n ≤ 0xDFFF

/-- The text that pieces spell: a high unit must be followed by a low one, and a low unit must not
    stand alone. -/
def spell : List Piece → Option (List Char)
  | [] => some []
  | .char c :: rest => (spell rest).map (c :: ·)
  | .unit high :: .unit low :: rest =>
    if isHigh high then
      if isLow low then
        (spell rest).map (Char.ofNat (0x10000 + (high - 0xD800) * 0x400 + (low - 0xDC00)) :: ·)
      else none
    else if isLow high then none
    else (spell (.unit low :: rest)).map (Char.ofNat high :: ·)
  | .unit n :: rest =>
    if isHigh n || isLow n then none else (spell rest).map (Char.ofNat n :: ·)

/-- Reads the digits of a number, at least one, and gives what follows. -/
def digits1? (s : List Char) : Option (List Char) :=
  match s with
  | c :: _ => if c.isDigit then some (s.dropWhile Char.isDigit) else none
  | [] => none

/-- What follows the sign of a number, if there is one. -/
def afterSign : List Char → List Char
  | '-' :: rest => rest
  | s => s

/-- What follows the digits in front of the point: a zero, or digits that do not start with one. -/
def afterWhole? : List Char → Option (List Char)
  | '0' :: rest => some rest
  | s => digits1? s

/-- What follows the point and the digits after it, if there are any. -/
def afterPart? : List Char → Option (List Char)
  | '.' :: rest => digits1? rest
  | s => some s

/-- What follows the exponent, if there is one. -/
def afterPower? : List Char → Option (List Char)
  | 'e' :: '+' :: rest | 'e' :: '-' :: rest | 'E' :: '+' :: rest | 'E' :: '-' :: rest
  | 'e' :: rest | 'E' :: rest => digits1? rest
  | s => some s

/-- What follows the number at the start of a text. -/
def afterNumber? (s : List Char) : Option (List Char) :=
  (afterWhole? (afterSign s)).bind fun s =>
    if (s.head?.map Char.isDigit).getD false then none else (afterPart? s).bind afterPower?

mutual

/-- Reads the value at the start of a text, and gives what follows. `fuel` bounds the number of
    values still to be read. -/
def value? : (fuel : Nat) → List Char → Option (Json × List Char)
  | 0, _ => none
  | fuel + 1, s =>
    match skipSpace s with
    | 'n' :: 'u' :: 'l' :: 'l' :: rest => some (null, rest)
    | 't' :: 'r' :: 'u' :: 'e' :: rest => some (bool true, rest)
    | 'f' :: 'a' :: 'l' :: 's' :: 'e' :: rest => some (bool false, rest)
    | '\x22' :: rest => do
      let (ps, rest) ← pieces rest
      some (string (spell ps), rest)
    | '[' :: rest =>
      match skipSpace rest with
      | ']' :: rest => some (array [], rest)
      | _ => do
        let (items, rest) ← items? fuel rest
        some (array items, rest)
    | '\x7b' :: rest =>
      match skipSpace rest with
      | '\x7d' :: rest => some (object [], rest)
      | _ => do
        let (members, rest) ← members? fuel rest
        some (object members, rest)
    | c :: rest =>
      if c == '-' || c.isDigit then do
        let after ← afterNumber? (c :: rest)
        some (number ((c :: rest).take ((c :: rest).length - after.length)), after)
      else none
    | [] => none

/-- Reads the items of an array up to its closing bracket. -/
def items? : (fuel : Nat) → List Char → Option (List Json × List Char)
  | 0, _ => none
  | fuel + 1, s => do
    let (v, rest) ← value? fuel s
    match skipSpace rest with
    | ',' :: rest => do
      let (vs, rest) ← items? fuel rest
      some (v :: vs, rest)
    | ']' :: rest => some ([v], rest)
    | _ => none

/-- Reads the members of an object up to its closing brace. -/
def members? : (fuel : Nat) → List Char → Option (List (Option (List Char) × Json) × List Char)
  | 0, _ => none
  | fuel + 1, s =>
    match skipSpace s with
    | '\x22' :: rest => do
      let (ps, rest) ← pieces rest
      match skipSpace rest with
      | ':' :: rest => do
        let (v, rest) ← value? fuel rest
        match skipSpace rest with
        | ',' :: rest => do
          let (ms, rest) ← members? fuel rest
          some ((spell ps, v) :: ms, rest)
        | '\x7d' :: rest => some ([(spell ps, v)], rest)
        | _ => none
      | _ => none
    | _ => none

end

/-- Reads a document: one value with nothing but space around it. -/
def parse? (s : List Char) : Option Json := do
  let (v, rest) ← value? (s.length + 1) s
  if (skipSpace rest).isEmpty then some v else none

/-! ## Writing -/

/-- The two lower case hexadecimal digits of a number below 256. -/
def hexByte (n : Nat) : List Char :=
  [Nat.digitChar (n / 16), Nat.digitChar (n % 16)]

/-- A character as written inside a string. -/
def stringChar (c : Char) : List Char :=
  if c = '\x22' then ['\\', '\x22']
  else if c = '\\' then ['\\', '\\']
  else if c = '\x08' then ['\\', 'b']
  else if c = '\x0c' then ['\\', 'f']
  else if c = '\n' then ['\\', 'n']
  else if c = '\r' then ['\\', 'r']
  else if c = '\t' then ['\\', 't']
  else if c.toNat < 0x20 then ['\\', 'u', '0', '0'] ++ hexByte c.toNat
  else [c]

/-- A string as written in a document. -/
def stringText (s : List Char) : List Char :=
  '\x22' :: s.flatMap stringChar ++ ['\x22']

/-- A text as a JSON value. -/
def ofString (s : String) : Json := .string (some s.toList)

/-- An integer as a JSON value. -/
def ofInt (n : Int) : Json := .number (toString n).toList

mutual

/-- A value on one line. What is no text is written as an empty one. -/
def text : Json → List Char
  | null => ['n', 'u', 'l', 'l']
  | bool b => if b then ['t', 'r', 'u', 'e'] else ['f', 'a', 'l', 's', 'e']
  | number digits => digits
  | string s => stringText (s.getD [])
  | array items => '[' :: itemsText items ++ [']']
  | object members => '\x7b' :: membersText members ++ ['\x7d']

/-- Values with commas between them. -/
def itemsText : List Json → List Char
  | [] => []
  | [v] => text v
  | v :: w :: rest => text v ++ ',' :: itemsText (w :: rest)

/-- Members of an object with commas between them. -/
def membersText : List (Option (List Char) × Json) → List Char
  | [] => []
  | [(k, v)] => stringText (k.getD []) ++ ':' :: text v
  | (k, v) :: m :: rest =>
    stringText (k.getD []) ++ ':' :: text v ++ ',' :: membersText (m :: rest)

end

end Json

end Reimage
