/-
  Reading a YAML text from its start, and what can be wrong with it.

  A line ends at a line feed, a carriage return, both together, or one of three further characters;
  `readBreak` gives what such an end stands for in a text of several lines.
-/
namespace Reimage.Yaml

/-- What is wrong with a document. -/
inductive Fault
  /-- The text breaks the rules of the notation. -/
  | malformed (line column : Nat)
  /-- The text holds a character that no document may hold. -/
  | badCharacter
  | noDocument
  | severalDocuments
  | unknownAnchor (name : String)
  | unknownTagHandle (handle : String)
  /-- A value is not of the wanted kind. -/
  | unexpected (wanted : String)
  | missingField (name : String)
  | repeatedField (name : String)
  deriving DecidableEq, Repr

/-- The fault in words. -/
def Fault.message : Fault → String
  | .malformed line column =>
    "unexpected text at line " ++ toString (line + 1) ++ " column " ++ toString (column + 1)
  | .badCharacter => "control characters are not allowed"
  | .noDocument => "there is no document"
  | .severalDocuments => "there is more than one document"
  | .unknownAnchor name => "unknown anchor " ++ name
  | .unknownTagHandle handle => "unknown tag handle " ++ handle
  | .unexpected wanted => "expected " ++ wanted
  | .missingField name => "missing field " ++ name
  | .repeatedField name => "repeated field " ++ name

/-! ## Characters -/

/-- A space or a tab. -/
def isGap (c : Char) : Bool := c == ' ' || c == '\t'

/-- A character that ends a line. -/
def isBreak (c : Char) : Bool :=
  c == '\n' || c == '\r' || c == '\u0085' || c == '\u2028' || c == '\u2029'

/-- A character of the names of anchors and directives. -/
def isWord (c : Char) : Bool := c.isAlphanum || c == '_' || c == '-'

/-- A character that a document may hold. -/
def isAllowed (c : Char) : Bool :=
  let n := c.toNat
  n == 9 || n == 10 || n == 13 || (0x20 ≤ n && n ≤ 0x7E) || n == 0x85 || (0xA0 ≤ n && n ≤ 0xFFFD)
    || 0x10000 ≤ n

/-! ## Cursor -/

/-- A place in a text. -/
structure Cursor where
  rest : List Char
  index : Nat := 0
  line : Nat := 0
  column : Nat := 0
  deriving Inhabited

namespace Cursor

/-- Whether the character `n` places ahead is `c`. -/
def looksAt (p : Cursor) (n : Nat) (c : Char) : Bool := p.rest[n]? == some c

/-- Whether a line or the text ends `n` places ahead. -/
def endsLine (p : Cursor) (n : Nat) : Bool := (p.rest[n]?.map isBreak).getD true

/-- Whether a gap, or the end of a line or the text, is `n` places ahead. -/
def endsWord (p : Cursor) (n : Nat) : Bool :=
  (p.rest[n]?.map fun c => isGap c || isBreak c).getD true

/-- Whether one of some characters is `n` places ahead. -/
def looksAtAny (p : Cursor) (n : Nat) (cs : List Char) : Bool :=
  (p.rest[n]?.map cs.contains).getD false

/-- Passes over `n` characters of the line. -/
def skip (p : Cursor) (n : Nat) : Cursor :=
  { p with rest := p.rest.drop n, index := p.index + n, column := p.column + n }

/-- Reads the longest row of characters that satisfy `f`, none of which ends a line. -/
def takeWhile (p : Cursor) (f : Char → Bool) : List Char × Cursor :=
  let row := p.rest.takeWhile f
  (row, p.skip row.length)

/-- Goes to the next line over `n` characters. -/
def nextLine (p : Cursor) (n : Nat) : Cursor :=
  { rest := p.rest.drop n, index := p.index + n, line := p.line + 1, column := 0 }

/-- Reads the end of a line, if there is one, and gives what it stands for. -/
def readBreak (p : Cursor) : List Char × Cursor :=
  match p.rest with
  | '\r' :: '\n' :: _ => (['\n'], p.nextLine 2)
  | c :: _ =>
    if c = '\u2028' || c = '\u2029' then ([c], p.nextLine 1)
    else if isBreak c then (['\n'], p.nextLine 1)
    else ([], p)
  | [] => ([], p)

/-- Passes over the end of a line. -/
def skipBreak (p : Cursor) : Cursor := p.readBreak.2

/-- Whether a mark of three equal characters stands at the start of a line. -/
def looksAtMark (p : Cursor) (c : Char) : Bool :=
  p.column == 0 && p.looksAt 0 c && p.looksAt 1 c && p.looksAt 2 c && p.endsWord 3

/-- Whether a document starts or ends here. -/
def atDocumentMark (p : Cursor) : Bool := p.looksAtMark '-' || p.looksAtMark '.'

/-- The fault of a text that cannot go on as it does here. -/
def fault (p : Cursor) : Fault := .malformed p.line p.column

/-- Requires a condition to hold here. -/
def require (p : Cursor) (condition : Bool) : Except Fault Unit :=
  if condition then .ok () else .error p.fault

end Cursor

end Reimage.Yaml
