/-
  Writing records as YAML documents.

  A text is written plain unless it would not read back as that text: then in single quotes if those
  can hold it, else in double quotes. A text with line feeds is a literal block if a block can hold
  it. Keys that are long or span lines stand behind a question mark.

  * `Shape` says which of these forms can hold a text;
  * `Tree.document` writes a record.
-/
import Reimage.Text.Utf8
import Reimage.Yaml.Cursor
import Reimage.Yaml.Scalar

namespace Reimage.Yaml

/-! ## What can hold a text -/

/-- A character that can be written as itself. -/
def isPrintable (c : Char) : Bool :=
  let n := c.toNat
  n == 10 || (0x20 ≤ n && n ≤ 0x7E) || (0xA0 ≤ n && n ≤ 0xFFFD && n != 0xFEFF)

/-- Whether a word ends before the rest of a text. -/
def endsWord : List Char → Bool
  | [] => true
  | c :: _ => isGap c || isBreak c || c == '\x00'

/-- Whether the first character of a text means something there. -/
def startsWithIndicator : List Char → Bool
  | [] => false
  | c :: rest =>
    ['#', ',', '[', ']', '\x7b', '\x7d', '&', '*', '!', '|', '>', '\x27', '\x22', '%', '@',
      '\x60'].contains c
    || ((c == '?' || c == ':' || c == '-') && endsWord rest)

/-- Whether a later character means something: a colon at the end of a word or a number sign at the
    start of one. `before` is the character in front. -/
def holdsIndicator (before : Char) : List Char → Bool
  | [] => false
  | c :: rest =>
    (c == ':' && endsWord rest) || (c == '#' && endsWord [before]) || holdsIndicator c rest

/-- Whether a text might be taken for something else than a plain text. -/
def hasIndicators (s : List Char) : Bool :=
  ['-', '-', '-'].isPrefixOf s || ['.', '.', '.'].isPrefixOf s || startsWithIndicator s
    || match s with
      | [] => false
      | c :: rest => holdsIndicator c rest

/-- Whether somewhere in a text a character with `f` is followed by one with `g`. -/
def hasPair (f g : Char → Bool) : List Char → Bool
  | a :: b :: rest => (f a && g b) || hasPair f g (b :: rest)
  | _ => false

/-- Whether the first or the last character of a text satisfies `f`. -/
def hasOuter (f : Char → Bool) (s : List Char) : Bool :=
  (s.head?.map f).getD false || (s.getLast?.map f).getD false

def isSpace (c : Char) : Bool := c == ' '

/-- Whether a text needs escapes: it has a character that cannot be written as itself, or a space at
    the end of a line. -/
def needsEscapes (s : List Char) : Bool := s.any (!isPrintable ·) || hasPair isSpace isBreak s

/-- Whether single quotes can hold a text. -/
def fitsSingleQuotes (s : List Char) : Bool := !needsEscapes s && !hasPair isBreak isSpace s

/-- Whether a text can be written plain. -/
def fitsPlain (s : List Char) : Bool :=
  !needsEscapes s && !s.any isBreak && !hasOuter isSpace s && !hasIndicators s

/-- Whether a block can hold a text. -/
def fitsBlock (s : List Char) : Bool :=
  !needsEscapes s && !(s.getLast?.map isSpace).getD false

/-- The form a text is written in. -/
inductive Form
  | plain
  | singleQuoted
  | doubleQuoted
  | literal
  deriving DecidableEq, Repr

/-- The form of a text. -/
def Form.ofText (s : String) : Form :=
  let cs := s.toList
  if cs.contains '\n' then if fitsBlock cs then .literal else .doubleQuoted
  else if !isTyped s && fitsPlain cs then .plain
  else if fitsSingleQuotes cs then .singleQuoted
  else .doubleQuoted

/-! ## Scalars -/

/-- Some upper case hexadecimal digits of a number. -/
def upperHex (digits n : Nat) : List Char :=
  let row := Nat.toDigits 16 n
  (List.replicate (digits - row.length) '0' ++ row).map Char.toUpper

/-- The letter of a short escape. -/
def escapeLetter? (c : Char) : Option Char :=
  [('\x00', '0'), ('\x07', 'a'), ('\x08', 'b'), ('\t', 't'), ('\n', 'n'), ('\x0b', 'v'),
    ('\x0c', 'f'), ('\r', 'r'), ('\x1b', 'e'), ('\x22', '\x22'), ('\\', '\\'), ('\u0085', 'N'),
    ('\u00a0', '_'), ('\u2028', 'L'), ('\u2029', 'P')].lookup c

/-- The escape of a character. -/
def escape (c : Char) : List Char :=
  match escapeLetter? c with
  | some letter => ['\\', letter]
  | none =>
    let n := c.toNat
    if n ≤ 0xFF then '\\' :: 'x' :: upperHex 2 n
    else if n ≤ 0xFFFF then '\\' :: 'u' :: upperHex 4 n
    else '\\' :: 'U' :: upperHex 8 n

/-- A text in double quotes. -/
def doubleQuoted (s : List Char) : List Char :=
  let char := fun c =>
    if !isPrintable c || isBreak c || c == '\x22' || c == '\\' then escape c else [c]
  '\x22' :: s.flatMap char ++ ['\x22']

/-- Indents each line of a text that does not start with its end; `fresh` says that a line starts
    here. With `always` the end of the text counts as a line. -/
def indentLines (indent : Nat) (always : Bool) : (fresh : Bool) → List Char → List Char
  | fresh, [] => if fresh && always then List.replicate indent ' ' else []
  | fresh, c :: rest =>
    if isBreak c then c :: indentLines indent always true rest
    else (if fresh && !isSpace c || fresh && !always then List.replicate indent ' ' else [])
      ++ c :: indentLines indent always false rest

/-- A text in single quotes. -/
def singleQuoted (indent : Nat) (s : List Char) : List Char :=
  let quoted := s.flatMap fun c => if c = '\x27' then ['\x27', '\x27'] else [c]
  '\x27' :: indentLines indent true false quoted ++ ['\x27']

/-- The head of a literal block: the width of the indentation where the text starts with white
    space, and what becomes of the line ends after it. -/
def literalHead (s : List Char) : List Char :=
  let width := if (s.head?.map fun c => isSpace c || isBreak c).getD false then ['2'] else []
  let chomping := match s.reverse with
    | [] => ['-']
    | last :: before =>
      if !isBreak last then ['-']
      else match before with
        | [] => ['+']
        | c :: _ => if isBreak c then ['+'] else []
  '|' :: width ++ chomping

/-- A text as a literal block whose lines are indented by `indent`. -/
def literal (indent : Nat) (s : List Char) : List Char :=
  literalHead s ++ '\n' :: indentLines indent false true s

/-! ## Records -/

/-- A value of a record. -/
inductive Tree where
  /-- A scalar that is plain as it is. -/
  | plain (text : String)
  | text (text : String)
  | record (fields : List (String × Tree))
  deriving Inhabited

/-- A text in a record that is indented by `indent`. -/
def textAt (indent : Nat) (s : String) : List Char :=
  let inner := indent + 2
  match Form.ofText s with
  | .plain => s.toList
  | .singleQuoted => singleQuoted inner s.toList
  | .doubleQuoted => doubleQuoted s.toList
  | .literal => literal inner s.toList

/-- Ends a line, unless the text just ended one. -/
def endLine (s : List Char) : List Char :=
  if (s.getLast?.map isBreak).getD false then s else s ++ ['\n']

/-- The longest key, in bytes, that stands in front of its value without a question mark. -/
def simpleKeyLength : Nat := 128

/-- Whether a key stands in front of its value without a question mark. -/
def isSimpleKey (s : String) : Bool :=
  !s.toList.any isBreak && decide ((Text.Utf8.ofString s).length ≤ simpleKeyLength)

/-- A key with the mark after it. -/
def keyAt (indent : Nat) (s : String) : List Char :=
  let margin := List.replicate indent ' '
  if isSimpleKey s then margin ++ textAt indent s ++ [':']
  else endLine (margin ++ '?' :: ' ' :: textAt indent s) ++ margin ++ [':']

mutual

/-- A value after the colon of its key. -/
def Tree.valueAt (indent : Nat) : Tree → List Char
  | .plain text => endLine (' ' :: text.toList)
  | .text text => endLine (' ' :: textAt indent text)
  | .record [] => [' ', '\x7b', '\x7d', '\n']
  | .record (f :: fs) => '\n' :: fieldsAt (indent + 2) (f :: fs)

/-- The fields of a record, a line or more each. -/
def fieldsAt (indent : Nat) : List (String × Tree) → List Char
  | [] => []
  | (key, value) :: rest => keyAt indent key ++ value.valueAt indent ++ fieldsAt indent rest

end

/-- A record as a document. -/
def document (fields : List (String × Tree)) : String :=
  String.ofList (if fields.isEmpty then ['\x7b', '\x7d', '\n'] else fieldsAt 0 fields)

end Reimage.Yaml
