/-
  The tokens of a YAML text.

  Two kinds of tokens stand for no characters of the text. A block collection starts where a line is
  indented further than before and ends where one is indented less; and the sign that something is a
  key is usually its colon, which comes after the key. Such a key must stand on one line and be no
  longer than 1024 characters.

  * `Scanner` is the state between two tokens;
  * `scan` gives all tokens of a text.
-/
import Reimage.Yaml.Lexeme

namespace Reimage.Yaml

/-- How a scalar is written. -/
inductive Style
  | plain
  | singleQuoted
  | doubleQuoted
  | literal
  | folded
  deriving DecidableEq, Repr, Inhabited

inductive Token
  | directive (d : Directive)
  | documentStart
  | documentEnd
  | blockSequenceStart
  | blockMappingStart
  | blockEnd
  | flowSequenceStart
  | flowSequenceEnd
  | flowMappingStart
  | flowMappingEnd
  | blockEntry
  | flowEntry
  | key
  | value
  | alias (name : String)
  | anchor (name : String)
  | tag (tag : WrittenTag)
  | scalar (style : Style) (text : String)
  deriving DecidableEq, Repr, Inhabited

/-- A place where a key may have started. -/
structure PossibleKey where
  start : Cursor
  /-- Whether nothing but a key can stand there. -/
  required : Bool
  /-- How many tokens stand before it. -/
  number : Nat

/-- The state between two tokens. -/
structure Scanner where
  cursor : Cursor
  /-- The tokens so far, the last one first. -/
  tokens : List Token := []
  count : Nat := 0
  /-- The indentation of the innermost block collection, -1 outside of all. -/
  indent : Int := -1
  /-- The indentations around it. -/
  outer : List Int := []
  /-- Whether a key may start here. -/
  keyAllowed : Bool := true
  /-- For the text outside of brackets and each open bracket, the innermost first, where a key may
      have started. -/
  keys : List (Option PossibleKey) := [none]

namespace Scanner

/-- Whether a bracket is open. -/
def inFlow (s : Scanner) : Bool := decide (1 < s.keys.length)

def push (s : Scanner) (t : Token) : Scanner :=
  { s with tokens := t :: s.tokens, count := s.count + 1 }

/-- Puts a token behind the first `number` ones. -/
def insert (s : Scanner) (number : Nat) (t : Token) : Scanner :=
  let behind := s.count - number
  { s with tokens := s.tokens.take behind ++ t :: s.tokens.drop behind, count := s.count + 1 }

/-- The longest key whose colon may come after it. -/
def maxKeyLength : Nat := 1024

/-- Drops a possible key that became too long or ended its line. -/
def freshKey (p : Cursor) : Option PossibleKey → Except Fault (Option PossibleKey)
  | none => .ok none
  | some k =>
    if k.start.line < p.line || k.start.index + maxKeyLength < p.index then
      if k.required then .error p.fault else .ok none
    else .ok (some k)

/-- Drops the possible keys that are none any more. -/
def dropStaleKeys (s : Scanner) : Except Fault Scanner := do
  .ok { s with keys := ← s.keys.mapM (freshKey s.cursor) }

/-- Gives up the innermost possible key. -/
def dropKey (s : Scanner) : Except Fault Scanner :=
  match s.keys with
  | some k :: keys =>
    if k.required then .error s.cursor.fault else .ok { s with keys := none :: keys }
  | _ => .ok s

/-- Notes that a key may start here. -/
def saveKey (s : Scanner) : Except Fault Scanner := do
  if !s.keyAllowed then .ok s
  else
    let required := !s.inFlow && decide (s.indent = s.cursor.column)
    let s' ← s.dropKey
    .ok { s' with keys := some ⟨s.cursor, required, s.count⟩ :: s'.keys.drop 1 }

/-- Starts a block collection if `column` is right of the indentation, behind `number` tokens. -/
def indentTo (s : Scanner) (column number : Nat) (t : Token) : Scanner :=
  if !s.inFlow && decide (s.indent < column) then
    { s.insert number t with indent := column, outer := s.indent :: s.outer }
  else s

/-- Ends block collections, at most `n`, until the indentation is no more than `column`. -/
def outdentLoop (column : Int) : (n : Nat) → Scanner → Scanner
  | 0, s => s
  | n + 1, s =>
    if s.indent ≤ column then s
    else
      let s := s.push .blockEnd
      match s.outer with
      | [] => { s with indent := -1 }
      | i :: outer => outdentLoop column n { s with indent := i, outer := outer }

/-- Ends the block collections that are indented further than `column`. -/
def outdentTo (s : Scanner) (column : Int) : Scanner :=
  if s.inFlow then s else outdentLoop column (s.outer.length + 1) s

/-! ## White space between tokens -/

/-- Passes over white space and comments. A new line outside of brackets may start with a key. -/
def toToken (inFlow : Bool) : (fuel : Nat) → (keyAllowed : Bool) → Cursor → Bool × Cursor
  | 0, keyAllowed, p => (keyAllowed, p)
  | fuel + 1, keyAllowed, p =>
    let p := if p.index == 0 && p.looksAt 0 '\uFEFF' then p.skip 1 else p
    let p := (p.takeWhile fun c => c == ' ' || (c == '\t' && (inFlow || !keyAllowed))).2
    let p := if p.looksAt 0 '#' then (p.takeWhile (!isBreak ·)).2 else p
    if (p.rest.head?.map isBreak).getD false then
      toToken inFlow fuel (keyAllowed || !inFlow) p.skipBreak
    else (keyAllowed, p)

/-! ## Tokens -/

/-- Passes over `n` characters for a token, after which a key may start or not. -/
def take (s : Scanner) (n : Nat) (keyAllowed : Bool) (t : Token) : Scanner :=
  { s.push t with cursor := s.cursor.skip n, keyAllowed := keyAllowed }

/-- The start or end of a document. -/
def takeDocumentMark (s : Scanner) (t : Token) : Except Fault Scanner := do
  .ok ((← (s.outdentTo (-1)).dropKey).take 3 false t)

/-- A directive. -/
def takeDirective (s : Scanner) : Except Fault Scanner := do
  let s ← (s.outdentTo (-1)).dropKey
  let (d, p) ← Yaml.directive s.cursor
  .ok { s.push (.directive d) with cursor := p, keyAllowed := false }

/-- An opening bracket. -/
def openFlow (s : Scanner) (t : Token) : Except Fault Scanner := do
  let s ← s.saveKey
  .ok ({ s with keys := none :: s.keys }.take 1 true t)

/-- A closing bracket. -/
def closeFlow (s : Scanner) (t : Token) : Except Fault Scanner := do
  let s ← s.dropKey
  .ok ({ s with keys := if s.inFlow then s.keys.drop 1 else s.keys }.take 1 false t)

/-- A comma. -/
def takeFlowEntry (s : Scanner) : Except Fault Scanner := do
  .ok ((← s.dropKey).take 1 true .flowEntry)

/-- The dash of a sequence. -/
def takeBlockEntry (s : Scanner) : Except Fault Scanner := do
  s.cursor.require (s.inFlow || s.keyAllowed)
  let s ← (s.indentTo s.cursor.column s.count .blockSequenceStart).dropKey
  .ok (s.take 1 true .blockEntry)

/-- The question mark of a key. -/
def takeKey (s : Scanner) : Except Fault Scanner := do
  s.cursor.require (s.inFlow || s.keyAllowed)
  let s ← (s.indentTo s.cursor.column s.count .blockMappingStart).dropKey
  .ok (s.take 1 (!s.inFlow) .key)

/-- The colon of a value, which may show that something before was a key. -/
def takeValue (s : Scanner) : Except Fault Scanner := do
  match s.keys with
  | some k :: keys =>
    let s := (s.insert k.number .key).indentTo k.start.column k.number .blockMappingStart
    .ok ({ s with keys := none :: keys }.take 1 false .value)
  | _ =>
    s.cursor.require (s.inFlow || s.keyAllowed)
    let s := s.indentTo s.cursor.column s.count .blockMappingStart
    .ok (s.take 1 (!s.inFlow) .value)

/-- A piece of text that may be a key or belong to one. -/
def takePiece (s : Scanner) (read : Cursor → Except Fault (Token × Cursor)) :
    Except Fault Scanner := do
  let s ← s.saveKey
  let (t, p) ← read s.cursor
  .ok { s.push t with cursor := p, keyAllowed := false }

/-- A quoted scalar. -/
def takeQuoted (s : Scanner) (single : Bool) : Except Fault Scanner :=
  s.takePiece fun p => (quoted single p).map fun (text, q) =>
    (.scalar (if single then .singleQuoted else .doubleQuoted) (String.ofList text), q)

/-- A block scalar, which cannot be a key. -/
def takeBlock (s : Scanner) (literal : Bool) : Except Fault Scanner := do
  let s ← s.dropKey
  let (text, p) ← block literal s.indent s.cursor
  let t := Token.scalar (if literal then .literal else .folded) (String.ofList text)
  .ok { s.push t with cursor := p, keyAllowed := true }

/-- A plain scalar. -/
def takePlain (s : Scanner) : Except Fault Scanner := do
  let s ← s.saveKey
  let (text, broken, p) ← plain s.inFlow (s.indent + 1) s.cursor
  .ok { s.push (.scalar .plain (String.ofList text)) with cursor := p, keyAllowed := broken }

/-- A character that means something at the start of a token. -/
def isIndicator (c : Char) : Bool :=
  ['-', '?', ':', ',', '[', ']', '\x7b', '\x7d', '#', '&', '*', '!', '|', '>', '\x27', '\x22', '%',
    '@', '\x60'].contains c

/-- Whether a plain scalar starts here. -/
def startsPlain (s : Scanner) (c : Char) : Bool :=
  let p := s.cursor
  !(p.endsWord 0 || isIndicator c)
    || (c == '-' && !((p.rest[1]?.map isGap).getD false))
    || (!s.inFlow && (c == '?' || c == ':') && !p.endsWord 1)

/-- Reads the token at the cursor. -/
def takeToken (s : Scanner) (c : Char) : Except Fault Scanner :=
  let p := s.cursor
  if p.column == 0 && c == '%' then s.takeDirective
  else if p.looksAtMark '-' then s.takeDocumentMark .documentStart
  else if p.looksAtMark '.' then s.takeDocumentMark .documentEnd
  else if c == '[' then s.openFlow .flowSequenceStart
  else if c == '\x7b' then s.openFlow .flowMappingStart
  else if c == ']' then s.closeFlow .flowSequenceEnd
  else if c == '\x7d' then s.closeFlow .flowMappingEnd
  else if c == ',' then s.takeFlowEntry
  else if c == '-' && p.endsWord 1 then s.takeBlockEntry
  else if c == '?' && (s.inFlow || p.endsWord 1) then s.takeKey
  else if c == ':' && (s.inFlow || p.endsWord 1) then s.takeValue
  else if c == '*' then
    s.takePiece fun p => (anchorName p).map fun (name, q) => (.alias name, q)
  else if c == '&' then
    s.takePiece fun p => (anchorName p).map fun (name, q) => (.anchor name, q)
  else if c == '!' then
    s.takePiece fun p => (tag s.inFlow p).map fun (t, q) => (.tag t, q)
  else if c == '|' && !s.inFlow then s.takeBlock true
  else if c == '>' && !s.inFlow then s.takeBlock false
  else if c == '\x27' then s.takeQuoted true
  else if c == '\x22' then s.takeQuoted false
  else if s.startsPlain c then s.takePlain
  else .error p.fault

/-- Reads tokens to the end of the text. -/
def run : (fuel : Nat) → Scanner → Except Fault Scanner
  | 0, s => .error s.cursor.fault
  | fuel + 1, s => do
    let (keyAllowed, p) := toToken s.inFlow (s.cursor.rest.length + 1) s.keyAllowed s.cursor
    let s ← { s with keyAllowed := keyAllowed, cursor := p }.dropStaleKeys
    let s := s.outdentTo p.column
    match p.rest with
    | [] => (s.outdentTo (-1)).dropKey
    | c :: _ => run fuel (← s.takeToken c)

end Scanner

/-- The tokens of a text. -/
def scan (text : List Char) : Except Fault (List Token) := do
  let text := match text with
    | '\uFEFF' :: rest => rest
    | _ => text
  if !text.all isAllowed then .error .badCharacter
  else
    let s ← Scanner.run (text.length + 1) { cursor := { rest := text } }
    .ok s.tokens.reverse

end Reimage.Yaml
