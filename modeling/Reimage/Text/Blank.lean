/-
  White space and lines.

  * `isBlank` is the Unicode property White_Space, and `trim` removes it at both ends;
  * `lines` cuts a text at line feeds: a carriage return just before the line feed belongs to the
    line end, and a text that ends in a line feed has no empty last line;
  * `split` cuts at every occurrence of one character, keeping empty parts.

  All functions have a form on `List Char`, which is the one that is reasoned about, and one on
  `String`.
-/
namespace Reimage.Text

/-- The characters with the Unicode property White_Space. -/
def isBlank (c : Char) : Bool :=
  let n := c.toNat
  (9 ≤ n && n ≤ 13) || n == 0x20 || n == 0x85 || n == 0xA0 || n == 0x1680
    || (0x2000 ≤ n && n ≤ 0x200A) || n == 0x2028 || n == 0x2029 || n == 0x202F || n == 0x205F
    || n == 0x3000

/-- An ASCII digit. -/
def isDigit (c : Char) : Bool := '0' ≤ c && c ≤ '9'

/-- Drops the longest final part whose characters all satisfy `p`. -/
def dropEndWhile (p : Char → Bool) (s : List Char) : List Char :=
  (s.reverse.dropWhile p).reverse

/-- The longest final part whose characters all satisfy `p`. -/
def takeEndWhile (p : Char → Bool) (s : List Char) : List Char :=
  (s.reverse.takeWhile p).reverse

/-- Removes white space at both ends. -/
def trimChars (s : List Char) : List Char :=
  dropEndWhile isBlank (s.dropWhile isBlank)

/-- Removes white space at both ends. -/
def trim (s : String) : String := String.ofList (trimChars s.toList)

/-- Cuts at every `sep`; a text without one is a single part. -/
def splitChars (sep : Char) : List Char → List (List Char)
  | [] => [[]]
  | c :: rest =>
    if c = sep then [] :: splitChars sep rest
    else match splitChars sep rest with
      | [] => [[c]]
      | part :: parts => (c :: part) :: parts

/-- Cuts at every `sep`; a text without one is a single part. -/
def split (sep : Char) (s : String) : List String :=
  (splitChars sep s.toList).map String.ofList

/-- Cuts at the first `sep`, which belongs to neither part. -/
def splitOnceChars (sep : Char) : List Char → Option (List Char × List Char)
  | [] => none
  | c :: rest =>
    if c = sep then some ([], rest)
    else (splitOnceChars sep rest).map fun (before, after) => (c :: before, after)

/-- Cuts at the last `sep`, which belongs to neither part. -/
def splitLastChars (sep : Char) (s : List Char) : Option (List Char × List Char) :=
  (splitOnceChars sep s.reverse).map fun (after, before) => (before.reverse, after.reverse)

/-- Drops one carriage return at the end. -/
def dropReturn (line : List Char) : List Char :=
  match line.reverse with
  | '\r' :: rest => rest.reverse
  | _ => line

/-- The lines after cutting at line feeds: every part but the last was ended by a line feed, and
    an empty last part is no line. -/
def linesOfParts : List (List Char) → List (List Char)
  | [] => []
  | [last] => if last.isEmpty then [] else [last]
  | part :: parts => dropReturn part :: linesOfParts parts

/-- The lines of a text, without their ends. -/
def lineChars (s : List Char) : List (List Char) := linesOfParts (splitChars '\n' s)

/-- The lines of a text, without their ends. -/
def lines (s : String) : List String := (lineChars s.toList).map String.ofList

/-- Whether `needle` occurs in a text. -/
def containsChars (needle : List Char) : List Char → Bool
  | [] => needle.isEmpty
  | c :: rest => needle.isPrefixOf (c :: rest) || containsChars needle rest

/-- Whether `needle` occurs in `s`. -/
def contains (s needle : String) : Bool := containsChars needle.toList s.toList

/-- The rest of `s` after `start`, if `s` begins with it. -/
def dropStart? (start : List Char) (s : List Char) : Option (List Char) :=
  if start.isPrefixOf s then some (s.drop start.length) else none

/-- Removes every `c` at the end. -/
def trimEndChar (c : Char) (s : String) : String :=
  String.ofList (dropEndWhile (· == c) s.toList)

/-- Joins texts with `sep` between neighbours. -/
def join (sep : String) (parts : List String) : String := sep.intercalate parts

end Reimage.Text
