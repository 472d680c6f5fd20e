/-
  YAML documents as trees.

  A node is a scalar, a sequence, a mapping, or an alias that names an earlier node of the document.
  A mapping keeps its entries in the order they are written, also those whose keys are equal.

  `Document.parse` reads a text that holds exactly one document.
-/
import Reimage.Yaml.Token

namespace Reimage.Yaml

inductive Node where
  | scalar (style : Style) (tag : Option String) (text : String)
  | sequence (items : List Node)
  | mapping (entries : List (Node × Node))
  /-- The node with the anchor of this number. -/
  | alias (target : Nat)
  deriving Inhabited

namespace Node

/-- A node that is not written at all. -/
def empty (tag : Option String := none) : Node := scalar .plain tag ""

end Node

/-- A document. -/
structure Document where
  root : Node
  /-- The nodes that have an anchor, by number. -/
  anchors : List (Nat × Node)
  deriving Inhabited

/-- The node that is meant: an alias means the node it names. -/
def Document.resolve (d : Document) : Node → Node
  | .alias target => (d.anchors.lookup target).getD .empty
  | n => n

/-! ## Reading -/

/-- The state while a document is read. -/
structure Reader where
  tokens : List Token
  /-- What tag handles stand for. -/
  handles : List (String × String) := []
  /-- The number of each anchor, the latest first. -/
  names : List (String × Nat) := []
  anchors : List (Nat × Node) := []
  deriving Inhabited

/-- A step of reading. -/
abbrev Reading := StateT Reader (Except Fault)

namespace Reading

/-- The next token. -/
def next? : Reading (Option Token) := do return (← get).tokens.head?

def skip : Reading Unit := modify fun r => { r with tokens := r.tokens.drop 1 }

/-- Whether the next token is one of some, the end counting as one of them. -/
def atAny (ts : List Token) : Reading Bool := do
  return match ← next? with
    | none => true
    | some t => ts.contains t

/-- Passes over a token if it comes next, and tells whether it did. -/
def accept (t : Token) : Reading Bool := do
  if (← next?) == some t then
    skip
    return true
  else return false

/-- The text cannot go on as it does. -/
def refuse {α : Type} : Reading α := throw (.unexpected "another token")

/-- Requires a token. -/
def expect (t : Token) : Reading Unit := do
  if !(← accept t) then refuse

/-- The tag that is meant by a written one. -/
def resolveTag (t : WrittenTag) : Reading String := do
  if t.handle.isEmpty then return t.suffix
  else match (← get).handles.lookup t.handle with
    | some start => return start ++ t.suffix
    | none => throw (.unknownTagHandle t.handle)

/-- What may stand before a node. -/
structure Properties where
  anchor : Option Nat := none
  tag : Option String := none

/-- Gives an anchor its number. -/
def newAnchor (name : String) : Reading Nat := do
  let number := (← get).names.length
  modify fun r => { r with names := (name, number) :: r.names }
  return number

/-- Reads an anchor, if there is one. -/
def anchor? : Reading (Option String) := do
  match ← next? with
  | some (.anchor name) =>
    skip
    return some name
  | _ => return none

/-- Reads a tag, if there is one. -/
def tag? : Reading (Option String) := do
  match ← next? with
  | some (.tag t) =>
    skip
    return some (← resolveTag t)
  | _ => return none

/-- Reads an anchor and a tag, in either order. -/
def properties : Reading Properties := do
  let before ← anchor?
  let tag ← tag?
  let name ← match before with
    | some name => pure (some name)
    | none => anchor?
  match name with
  | none => return { tag := tag }
  | some name => return { anchor := some (← newAnchor name), tag := tag }

/-- Remembers a node under its anchor. -/
def keep (p : Properties) (n : Node) : Reading Node := do
  if let some number := p.anchor then
    modify fun r => { r with anchors := (number, n) :: r.anchors }
  return n

/-- The number of the anchor an alias names. -/
def target (name : String) : Reading Nat := do
  match (← get).names.lookup name with
  | some number => return number
  | none => throw (.unknownAnchor name)

/-- A node of which only the properties are written. -/
def bare (p : Properties) : Reading Node := do
  if p.anchor.isNone && p.tag.isNone then refuse else keep p (.empty p.tag)

/-- Reads a comma between two items; the first has none before it. -/
def comma (first : Bool) : Reading Unit := do
  if !first then expect .flowEntry

mutual

/-- Reads a node. A block collection may start only with `block`, and a sequence that is not
    indented only with `indentless`. The first argument of each of these functions bounds the
    depth of recursion. -/
def node : (fuel : Nat) → (block indentless : Bool) → Reading Node
  | 0, _, _ => refuse
  | fuel + 1, block, indentless => do
    if let some (.alias name) ← next? then
      skip
      return .alias (← target name)
    let p ← properties
    match ← next? with
    | some .blockEntry =>
      if indentless then keep p (.sequence (← indentlessItems fuel)) else bare p
    | some (.scalar style text) =>
      skip
      keep p (.scalar style p.tag text)
    | some .flowSequenceStart =>
      skip
      keep p (.sequence (← flowItems fuel true))
    | some .flowMappingStart =>
      skip
      keep p (.mapping (← flowEntries fuel true))
    | some .blockSequenceStart =>
      if block then
        skip
        keep p (.sequence (← blockItems fuel))
      else bare p
    | some .blockMappingStart =>
      if block then
        skip
        keep p (.mapping (← blockEntries fuel))
      else bare p
    | _ => bare p

/-- Reads a node unless one of some tokens comes next; an unwritten node is empty. -/
def nodeUnless : (fuel : Nat) → List Token → (block indentless : Bool) → Reading Node
  | 0, _, _, _ => refuse
  | fuel + 1, ends, block, indentless => do
    if ← atAny ends then return .empty else node fuel block indentless

/-- Reads the items of a block sequence. -/
def blockItems : (fuel : Nat) → Reading (List Node)
  | 0 => refuse
  | fuel + 1 => do
    if ← accept .blockEntry then
      let item ← nodeUnless fuel [.blockEntry, .blockEnd] true false
      return item :: (← blockItems fuel)
    else
      expect .blockEnd
      return []

/-- Reads the items of a sequence that stands in a mapping without being indented. -/
def indentlessItems : (fuel : Nat) → Reading (List Node)
  | 0 => refuse
  | fuel + 1 => do
    if ← accept .blockEntry then
      let item ← nodeUnless fuel [.blockEntry, .key, .value, .blockEnd] true false
      return item :: (← indentlessItems fuel)
    else return []

/-- Reads the entries of a block mapping. -/
def blockEntries : (fuel : Nat) → Reading (List (Node × Node))
  | 0 => refuse
  | fuel + 1 => do
    if ← accept .key then
      let k ← nodeUnless fuel [.key, .value, .blockEnd] true true
      let v ← if ← accept .value then
          nodeUnless fuel [.key, .value, .blockEnd] true true
        else pure .empty
      return (k, v) :: (← blockEntries fuel)
    else
      expect .blockEnd
      return []

/-- Reads the items of a sequence in brackets. -/
def flowItems : (fuel : Nat) → (first : Bool) → Reading (List Node)
  | 0, _ => refuse
  | fuel + 1, first => do
    if ← accept .flowSequenceEnd then return []
    comma first
    if ← accept .flowSequenceEnd then return []
    let item ← if ← accept .key then flowPair fuel else node fuel false false
    return item :: (← flowItems fuel false)

/-- Reads a mapping of one entry that stands in a sequence without brackets of its own. -/
def flowPair : (fuel : Nat) → Reading Node
  | 0 => refuse
  | fuel + 1 => do
    let unwritten ← atAny [.value, .flowEntry, .flowSequenceEnd]
    let k ← if unwritten then
        -- The token that shows this is passed over.
        skip
        pure .empty
      else node fuel false false
    let v ← if ← accept .value then
        nodeUnless fuel [.flowEntry, .flowSequenceEnd] false false
      else pure .empty
    return .mapping [(k, v)]

/-- Reads the entries of a mapping in brackets. -/
def flowEntries : (fuel : Nat) → (first : Bool) → Reading (List (Node × Node))
  | 0, _ => refuse
  | fuel + 1, first => do
    if ← accept .flowMappingEnd then return []
    comma first
    if ← accept .flowMappingEnd then return []
    if ← accept .key then
      let k ← nodeUnless fuel [.value, .flowEntry, .flowMappingEnd] false false
      let v ← if ← accept .value then
          nodeUnless fuel [.flowEntry, .flowMappingEnd] false false
        else pure .empty
      return (k, v) :: (← flowEntries fuel false)
    else
      let k ← node fuel false false
      return (k, .empty) :: (← flowEntries fuel false)

end

/-! ## Documents -/

/-- The handles that need no directive. -/
def standardHandles : List (String × String) := [("!", "!"), ("!!", "tag:yaml.org,2002:")]

/-- Takes the directives in front of a document: at most one version, which must be known, and each
    handle once. -/
def directives : (fuel : Nat) → (versioned : Bool) → List (String × String) →
    Reading (List (String × String))
  | 0, _, handles => pure handles
  | fuel + 1, versioned, handles => do
    match ← next? with
    | some (.directive (.version major minor)) =>
      if versioned || major != 1 || (minor != 1 && minor != 2) then refuse
      else
        skip
        directives fuel true handles
    | some (.directive (.handle handle start)) =>
      if (handles.lookup handle).isSome then refuse
      else
        skip
        directives fuel versioned ((handle, start) :: handles)
    | _ => return handles

/-- Reads the document at the start of the text. Directives need a mark before the document. -/
def document : Reading Node := do
  let fuel := 4 * (← get).tokens.length + 8
  match ← next? with
  | none => throw .noDocument
  | some (.directive _) | some .documentStart =>
    let handles ← directives fuel false []
    modify fun r => { r with handles := handles ++ standardHandles }
    expect .documentStart
    nodeUnless fuel [.documentStart, .documentEnd] true false
  | some _ =>
    modify fun r => { r with handles := standardHandles }
    node fuel true false

end Reading

/-- Reads a text that holds one document. -/
def Document.parse (text : List Char) : Except Fault Document := do
  let tokens ← scan text
  let (root, r) ← Reading.document.run { tokens := tokens }
  if r.tokens.all (· == .documentEnd) then .ok ⟨root, r.anchors⟩
  else .error .severalDocuments

end Reimage.Yaml
