/-
  The pieces of a YAML text whose form does not depend on where they stand: scalars in each of their
  five styles, names, tags and directives.

  * `Gap` is white space between two words of a scalar. Within a line it stands for itself; one
    line end stands for a space, and further ones for themselves;
  * `plain`, `quoted` and `block` read the text of a scalar.
-/
import Reimage.Text.Hex
import Reimage.Yaml.Cursor

namespace Reimage.Yaml

/-! ## Gaps -/

/-- White space in a scalar. -/
structure Gap where
  /-- Whether a line ended. -/
  broken : Bool := false
  /-- The white space of a gap within a line. -/
  spaces : List Char := []
  /-- What the first line end stands for. -/
  first : List Char := []
  /-- What the other line ends stand for. -/
  more : List Char := []

/-- What a gap stands for. -/
def Gap.text (g : Gap) : List Char :=
  if !g.broken then g.spaces
  else if g.first.head? == some '\n' then if g.more.isEmpty then [' '] else g.more
  else g.first ++ g.more

/-- Reads a gap on. On a new line no tab may stand left of `indent`. -/
def readGap (indent : Int) : (fuel : Nat) → Gap → Cursor → Except Fault (Gap × Cursor)
  | 0, g, p => .ok (g, p)
  | fuel + 1, g, p =>
    match p.rest with
    | [] => .ok (g, p)
    | c :: _ =>
      if isGap c then
        if g.broken && c == '\t' && decide ((p.column : Int) < indent) then .error p.fault
        else readGap indent fuel
          (if g.broken then g else { g with spaces := g.spaces ++ [c] }) (p.skip 1)
      else if isBreak c then
        let (text, q) := p.readBreak
        readGap indent fuel
          (if g.broken then { g with more := g.more ++ text }
            else { broken := true, first := text, more := g.more }) q
      else .ok (g, p)

/-! ## Plain scalars -/

/-- A character that ends a plain scalar inside brackets. -/
def endsFlowWord (c : Char) : Bool :=
  c == ',' || c == '[' || c == ']' || c == '\x7b' || c == '\x7d'

/-- Reads a word of a plain scalar, up to a gap or the end of the scalar. -/
def plainWord (inFlow : Bool) : (fuel : Nat) → List Char → Cursor →
    Except Fault (List Char × Cursor)
  | 0, word, p => .ok (word, p)
  | fuel + 1, word, p =>
    match p.rest with
    | [] => .ok (word, p)
    | c :: _ =>
      if p.endsWord 0 then .ok (word, p)
      else if inFlow && c == ':' && (p.looksAtAny 1 [',', '?', '[', ']', '\x7b', '\x7d']) then
        .error p.fault
      else if (c == ':' && p.endsWord 1) || (inFlow && endsFlowWord c) then .ok (word, p)
      else plainWord inFlow fuel (word ++ [c]) (p.skip 1)

/-- Reads a plain scalar on, after `text` and a gap. Gives also whether a line ended after it. -/
def plainFrom (inFlow : Bool) (indent : Int) : (fuel : Nat) → List Char → Gap → Cursor →
    Except Fault (List Char × Bool × Cursor)
  | 0, text, g, p => .ok (text, g.broken, p)
  | fuel + 1, text, g, p =>
    if p.atDocumentMark || p.looksAt 0 '#' then .ok (text, g.broken, p)
    else do
      let (word, q) ← plainWord inFlow (p.rest.length + 1) [] p
      if word.isEmpty then .ok (text, g.broken, q)
      else
        let text := text ++ g.text ++ word
        if !q.endsWord 0 || q.rest.isEmpty then .ok (text, false, q)
        else
          let (g, q) ← readGap indent (q.rest.length + 1) {} q
          if !inFlow && decide ((q.column : Int) < indent) then .ok (text, g.broken, q)
          else plainFrom inFlow indent fuel text g q

/-- Reads a plain scalar whose further lines stand at `indent` or right of it. -/
def plain (inFlow : Bool) (indent : Int) (p : Cursor) :
    Except Fault (List Char × Bool × Cursor) :=
  plainFrom inFlow indent (p.rest.length + 1) [] {} p

/-! ## Quoted scalars -/

/-- The character of a one-letter escape. -/
def shortEscape? (c : Char) : Option Char :=
  match c with
  | '0' => some '\x00'
  | 'a' => some '\x07'
  | 'b' => some '\x08'
  | 't' | '\t' => some '\t'
  | 'n' => some '\n'
  | 'v' => some '\x0b'
  | 'f' => some '\x0c'
  | 'r' => some '\r'
  | 'e' => some '\x1b'
  | ' ' | '\x22' | '/' | '\\' => some c
  | 'N' => some '\u0085'
  | '_' => some '\u00a0'
  | 'L' => some '\u2028'
  | 'P' => some '\u2029'
  | _ => none

/-- How many hexadecimal digits follow the letter of an escape. -/
def escapeLength? (c : Char) : Option Nat :=
  if c = 'x' then some 2 else if c = 'u' then some 4 else if c = 'U' then some 8 else none

/-- Reads the escape after a backslash: its character and length. -/
def escape? : List Char → Option (Char × Nat)
  | [] => none
  | c :: rest =>
    match shortEscape? c with
    | some d => some (d, 1)
    | none => do
      let n ← escapeLength? c
      let value ← if rest.length < n then none else Text.readHex? 0 (rest.take n)
      if value.isValidChar then some (Char.ofNat value, n + 1) else none

/-- Reads a part of a quoted scalar up to a gap or its end. Gives also whether a backslash joined it
    to the next line. -/
def quotedPart (single : Bool) : (fuel : Nat) → List Char → Cursor →
    Except Fault (List Char × Bool × Cursor)
  | 0, part, p => .ok (part, false, p)
  | fuel + 1, part, p =>
    match p.rest with
    | [] => .ok (part, false, p)
    | c :: rest =>
      if p.endsWord 0 then .ok (part, false, p)
      else if single && c == '\x27' then
        if p.looksAt 1 '\x27' then quotedPart single fuel (part ++ [c]) (p.skip 2)
        else .ok (part, false, p)
      else if !single && c == '\x22' then .ok (part, false, p)
      else if !single && c == '\\' then
        if p.endsLine 1 && !rest.isEmpty then .ok (part, true, (p.skip 1).skipBreak)
        else match escape? rest with
          | none => .error p.fault
          | some (d, n) => quotedPart single fuel (part ++ [d]) (p.skip (n + 1))
      else quotedPart single fuel (part ++ [c]) (p.skip 1)

/-- Reads a quoted scalar on, after its opening quote and `text`. -/
def quotedFrom (single : Bool) : (fuel : Nat) → List Char → Cursor →
    Except Fault (List Char × Cursor)
  | 0, _, p => .error p.fault
  | fuel + 1, text, p => do
    p.require (!p.atDocumentMark && !p.rest.isEmpty)
    let (part, joined, q) ← quotedPart single (p.rest.length + 1) [] p
    if q.looksAt 0 (if single then '\x27' else '\x22') then .ok (text ++ part, q.skip 1)
    else
      let (g, q) ← readGap 0 (q.rest.length + 1) { broken := joined } q
      quotedFrom single fuel (text ++ part ++ g.text) q

/-- Reads a quoted scalar. -/
def quoted (single : Bool) (p : Cursor) : Except Fault (List Char × Cursor) :=
  quotedFrom single (p.rest.length + 1) [] (p.skip 1)

/-! ## Block scalars -/

/-- What becomes of the line ends at the end of a block scalar. -/
inductive Chomping
  | strip
  /-- The first one stays. -/
  | clip
  | keep
  deriving DecidableEq, Repr

def chomping? (c : Char) : Option Chomping :=
  if c = '+' then some .keep else if c = '-' then some .strip else none

/-- The head of a block scalar: what its two optional signs say, in either order. -/
structure BlockHead where
  chomping : Chomping := .clip
  /-- The width of the indentation, if it is given. -/
  width : Option Nat := none

/-- Reads one sign of a head. -/
def BlockHead.sign (h : BlockHead) (p : Cursor) : Except Fault (BlockHead × Cursor) :=
  match p.rest with
  | [] => .ok (h, p)
  | c :: _ =>
    match chomping? c with
    | some k => .ok ({ h with chomping := k }, p.skip 1)
    | none =>
      if c = '0' then .error p.fault
      else if c.isDigit then
        .ok ({ h with width := some (c.toNat - '0'.toNat) }, p.skip 1)
      else .ok (h, p)

/-- Reads the signs of a head: one, or two of different kinds. -/
def BlockHead.read (p : Cursor) : Except Fault (BlockHead × Cursor) := do
  let (h, q) ← BlockHead.sign {} p
  let wantsWidth := (p.rest.head?.bind chomping?).isSome
  let goesOn := match q.rest with
    | [] => false
    | c :: _ => q.index != p.index && (if wantsWidth then c.isDigit else (chomping? c).isSome)
  if goesOn then h.sign q else .ok (h, q)

/-- Reads the rest of a head line: white space and a comment. -/
def afterHead (p : Cursor) : Except Fault Cursor := do
  let q := (p.takeWhile isGap).2
  let q := if q.looksAt 0 '#' then (q.takeWhile (!isBreak ·)).2 else q
  q.require (q.endsLine 0)
  .ok q.skipBreak

/-- Reads indentation and empty lines. Gives the widest indentation and what the line ends stand
    for. With `indent` 0 the indentation is not known yet. -/
def blockGap (indent : Nat) : (fuel : Nat) → (widest : Nat) → List Char → Cursor →
    Except Fault (Nat × List Char × Cursor)
  | 0, widest, breaks, p => .ok (widest, breaks, p)
  | fuel + 1, widest, breaks, p => do
    let spaces := (p.rest.takeWhile (· == ' ')).length
    let q := p.skip (if indent = 0 then spaces else min spaces (indent - p.column))
    let widest := max widest q.column
    q.require !((indent = 0 || q.column < indent) && q.looksAt 0 '\t')
    match q.rest with
    | [] => .ok (widest, breaks, q)
    | c :: _ =>
      if isBreak c then
        let (text, q) := q.readBreak
        blockGap indent fuel widest (breaks ++ text) q
      else .ok (widest, breaks, q)

/-- What a folded scalar has read: its text, the last line end, the empty lines after it, and
    whether the last line began with white space. -/
structure Folding where
  text : List Char := []
  last : List Char := []
  empty : List Char := []
  indented : Bool := false

/-- The text before another line, which is `indented` or not. -/
def Folding.join (literal : Bool) (f : Folding) (indented : Bool) : List Char :=
  if !literal && f.last.head? == some '\n' && !f.indented && !indented then
    f.text ++ (if f.empty.isEmpty then [' '] else []) ++ f.empty
  else f.text ++ f.last ++ f.empty

/-- Reads the lines of a block scalar. -/
def blockLines (literal : Bool) (indent : Nat) : (fuel : Nat) → Folding → Cursor →
    Except Fault (Folding × Cursor)
  | 0, f, p => .ok (f, p)
  | fuel + 1, f, p =>
    if p.column != indent || p.rest.isEmpty then .ok (f, p)
    else do
      let indented := (p.rest.head?.map isGap).getD false
      let (line, q) := p.takeWhile (!isBreak ·)
      let text := f.join literal indented ++ line
      let (last, q) := q.readBreak
      let (_, empty, q) ← blockGap indent (q.rest.length + 1) 0 [] q
      blockLines literal indent fuel ⟨text, last, empty, indented⟩ q

/-- Reads a block scalar inside a collection that is indented to `outer`. -/
def block (literal : Bool) (outer : Int) (p : Cursor) : Except Fault (List Char × Cursor) := do
  let (head, q) ← BlockHead.read (p.skip 1)
  let q ← afterHead q
  let given := match head.width with
    | none => 0
    | some n => if 0 ≤ outer then outer.toNat + n else n
  let (widest, empty, q) ← blockGap given (q.rest.length + 1) 0 [] q
  let indent := if given = 0 then max (max widest (outer + 1).toNat) 1 else given
  let (f, q) ← blockLines literal indent (q.rest.length + 1) { empty := empty } q
  .ok (match head.chomping with
    | .strip => f.text
    | .clip => f.text ++ f.last
    | .keep => f.text ++ f.last ++ f.empty, q)

/-! ## Names, tags and directives -/

/-- Reads the name after the sign of an anchor or an alias. -/
def anchorName (p : Cursor) : Except Fault (String × Cursor) := do
  let (name, q) := (p.skip 1).takeWhile isWord
  q.require (!name.isEmpty
    && (q.endsWord 0 || q.looksAtAny 0 ['?', ':', ',', ']', '\x7d', '%', '@', '\x60']))
  .ok (String.ofList name, q)

/-- A character that stands for itself in a tag. -/
def isTagChar (whole : Bool) (c : Char) : Bool :=
  isWord c
    || [';', '/', '?', ':', '@', '&', '=', '+', '$', '.', '!', '~', '*', '\x27', '(', ')'].contains c
    || (whole && [',', '[', ']'].contains c)

/-- The number of bytes in the character that starts with byte `n`. -/
def encodedLength? (n : Nat) : Option Nat :=
  if n < 0x80 then some 1
  else if n / 0x20 = 6 then some 2
  else if n / 0x10 = 14 then some 3
  else if n / 8 = 30 then some 4
  else none

/-- Reads a byte written as a percent sign and two digits. -/
def percentByte? : List Char → Option Nat
  | '%' :: a :: b :: _ => Text.readHex? 0 [a, b]
  | _ => none

/-- Reads the further bytes of a character. -/
def percentTail? : (count value : Nat) → List Char → Option Nat
  | 0, value, _ => some value
  | count + 1, value, s => do
    let n ← percentByte? s
    if n / 0x40 = 2 then percentTail? count (value * 64 + n % 64) (s.drop 3) else none

/-- Reads a character that is written byte by byte. -/
def percentChar? (s : List Char) : Option (Char × Nat) := do
  let n ← percentByte? s
  let length ← encodedLength? n
  let lead := if length = 1 then n else n % Nat.pow 2 (7 - length)
  let value ← percentTail? (length - 1) lead (s.drop 3)
  some (Char.ofNat value, 3 * length)

/-- Reads the text of a tag. -/
def tagText (whole : Bool) : (fuel : Nat) → List Char → Cursor →
    Except Fault (List Char × Cursor)
  | 0, text, p => .ok (text, p)
  | fuel + 1, text, p =>
    match p.rest with
    | [] => .ok (text, p)
    | c :: _ =>
      if isTagChar whole c then tagText whole fuel (text ++ [c]) (p.skip 1)
      else if c == '%' then
        match percentChar? p.rest with
        | none => .error p.fault
        | some (d, n) => tagText whole fuel (text ++ [d]) (p.skip n)
      else .ok (text, p)

/-- Reads the handle in front of a tag, `!`, `!!` or a name between two signs. -/
def tagHandle (directive : Bool) (p : Cursor) : Except Fault (List Char × Cursor) := do
  p.require (p.looksAt 0 '!')
  let (name, q) := (p.skip 1).takeWhile isWord
  if q.looksAt 0 '!' then .ok ('!' :: name ++ ['!'], q.skip 1)
  else
    q.require (!directive || name.isEmpty)
    .ok ('!' :: name, q)

/-- A tag as it is written. -/
structure WrittenTag where
  handle : String
  suffix : String
  deriving DecidableEq, Repr, Inhabited

/-- Reads a tag that does not stand in angle brackets. -/
def shortTag (p : Cursor) : Except Fault (WrittenTag × Cursor) := do
  let (handle, q) ← tagHandle false p
  if handle.length ≥ 2 && handle.getLast? == some '!' then
    let (suffix, r) ← tagText false (q.rest.length + 1) [] q
    r.require !suffix.isEmpty
    .ok (⟨String.ofList handle, String.ofList suffix⟩, r)
  else
    let (suffix, r) ← tagText false (q.rest.length + 1) (handle.drop 1) q
    .ok (if suffix.isEmpty then ⟨"", "!"⟩ else ⟨"!", String.ofList suffix⟩, r)

/-- Reads a tag. -/
def tag (inFlow : Bool) (p : Cursor) : Except Fault (WrittenTag × Cursor) := do
  let (t, q) ←
    if p.looksAt 1 '<' then do
      let (name, q) ← tagText true (p.rest.length + 1) [] (p.skip 2)
      q.require (!name.isEmpty && q.looksAt 0 '>')
      Except.ok ((⟨"", String.ofList name⟩ : WrittenTag), q.skip 1)
    else shortTag p
  q.require (q.endsWord 0 || (inFlow && q.looksAt 0 ','))
  .ok (t, q)

/-- A directive in front of a document. -/
inductive Directive
  | version (major minor : Nat)
  /-- A handle and what it stands for. -/
  | handle (handle start : String)
  deriving DecidableEq, Repr, Inhabited

/-- Reads a number of up to nine digits. -/
def versionNumber (p : Cursor) : Except Fault (Nat × Cursor) := do
  let (digits, q) := p.takeWhile Char.isDigit
  q.require (!digits.isEmpty && digits.length ≤ 9)
  .ok (digits.foldl (fun n c => n * 10 + (c.toNat - '0'.toNat)) 0, q)

/-- Reads what follows the name of a directive. -/
def directiveBody (name : List Char) (p : Cursor) : Except Fault (Directive × Cursor) := do
  let q := (p.takeWhile isGap).2
  if name = ['Y', 'A', 'M', 'L'] then
    let (major, q) ← versionNumber q
    q.require (q.looksAt 0 '.')
    let (minor, q) ← versionNumber (q.skip 1)
    .ok (.version major minor, q)
  else if name = ['T', 'A', 'G'] then
    let (handle, q) ← tagHandle true q
    q.require ((q.rest.head?.map isGap).getD false)
    let q := (q.takeWhile isGap).2
    let (start, q) ← tagText true (q.rest.length + 1) [] q
    q.require (!start.isEmpty && q.endsWord 0)
    .ok (.handle (String.ofList handle) (String.ofList start), q)
  else .error p.fault

/-- Reads a directive and the rest of its line. -/
def directive (p : Cursor) : Except Fault (Directive × Cursor) := do
  let (name, q) := (p.skip 1).takeWhile isWord
  q.require (!name.isEmpty && q.endsWord 0)
  let (d, q) ← directiveBody name q
  .ok (d, ← afterHead q)

end Reimage.Yaml
