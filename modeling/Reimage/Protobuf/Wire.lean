/-
  The wire format of protocol buffers.

  A message is a sequence of fields, each a key (field number and wire type) and a value.

  * `varint`, `key` and `lengthDelimited` write;
  * `readVarint`, `readKey`, `readBytes` read from the start of a byte sequence and give what
    follows, so reading what was written gives back the value and the bytes after it;
  * `skipField` passes over the value of an unknown field; groups may be nested, up to a budget.
-/
namespace Reimage.Protobuf

/-- Why bytes are no message. -/
inductive DecodeError
  | invalidVarint
  | invalidKey
  | invalidWireType
  | invalidTag
  | wrongWireType
  | truncated
  | unmatchedGroupEnd
  | nestedTooDeep
  | invalidUtf8
  deriving DecidableEq, Repr, Inhabited

/-- The fault in words. -/
def DecodeError.message : DecodeError → String
  | .invalidVarint => "invalid varint"
  | .invalidKey => "invalid key value"
  | .invalidWireType => "invalid wire type value"
  | .invalidTag => "invalid tag value: 0"
  | .wrongWireType => "invalid wire type for a known field"
  | .truncated => "buffer underflow"
  | .unmatchedGroupEnd => "unexpected end group tag"
  | .nestedTooDeep => "recursion limit reached"
  | .invalidUtf8 => "invalid string value: data is not UTF-8 encoded"

/-- How the value of a field is written. -/
inductive WireType
  | varint
  | fixed64
  | lengthDelimited
  | groupStart
  | groupEnd
  | fixed32
  deriving DecidableEq, Repr, Inhabited

namespace WireType

def number : WireType → Nat
  | varint => 0
  | fixed64 => 1
  | lengthDelimited => 2
  | groupStart => 3
  | groupEnd => 4
  | fixed32 => 5

def ofNumber? (n : Nat) : Option WireType :=
  [varint, fixed64, lengthDelimited, groupStart, groupEnd, fixed32].find? fun w => w.number == n

end WireType

/-- The outcome of reading. A reader that starts at a byte sequence gives a value and the bytes
    after it. -/
abbrev Decoded (α : Type) := Except DecodeError α

/-! ## Writing -/

/-- Seven bits a byte, the lowest first; every byte but the last has its high bit set. `fuel` bounds
    the number of bytes. -/
def varintBytes : (fuel n : Nat) → List UInt8
  | 0, _ => []
  | fuel + 1, n =>
    if n < 128 then [UInt8.ofNat n]
    else UInt8.ofNat (n % 128 + 128) :: varintBytes fuel (n / 128)

/-- A number below `2 ^ 64`. -/
def varint (n : Nat) : List UInt8 := varintBytes 10 n

/-- The key of a field. -/
def key (tag : Nat) (w : WireType) : List UInt8 := varint (tag * 8 + w.number)

/-- A field that holds bytes. -/
def lengthDelimited (tag : Nat) (bytes : List UInt8) : List UInt8 :=
  key tag .lengthDelimited ++ varint bytes.length ++ bytes

/-! ## Reading -/

/-- Reads the byte number `count` and later ones of a varint whose earlier bytes are worth
    `value`. There are at most ten bytes, and the tenth holds a single bit. -/
def readVarintFrom : (left count value : Nat) → List UInt8 → Decoded (Nat × List UInt8)
  | 0, _, _, _ => .error .invalidVarint
  | _ + 1, _, _, [] => .error .invalidVarint
  | left + 1, count, value, b :: rest =>
    let value := value + b.toNat % 128 * Nat.pow 2 (7 * count)
    if b.toNat < 128 then
      if count = 9 ∧ 2 ≤ b.toNat then .error .invalidVarint else .ok (value, rest)
    else readVarintFrom left (count + 1) value rest

/-- Reads a varint. -/
def readVarint (bytes : List UInt8) : Decoded (Nat × List UInt8) := readVarintFrom 10 0 0 bytes

/-- Reads the key of a field: its number, which is not 0, and its wire type. -/
def readKey (bytes : List UInt8) : Decoded ((Nat × WireType) × List UInt8) := do
  let (k, rest) ← readVarint bytes
  if Nat.pow 2 32 ≤ k then .error .invalidKey
  else match WireType.ofNumber? (k % 8) with
    | none => .error .invalidWireType
    | some w => if k / 8 = 0 then .error .invalidTag else .ok ((k / 8, w), rest)

/-- Reads `n` bytes. -/
def readExactly (n : Nat) (bytes : List UInt8) : Decoded (List UInt8 × List UInt8) :=
  if bytes.length < n then .error .truncated else .ok (bytes.take n, bytes.drop n)

/-- Reads a length and that many bytes. -/
def readBytes (bytes : List UInt8) : Decoded (List UInt8 × List UInt8) := do
  let (n, rest) ← readVarint bytes
  readExactly n rest

/-- How deep messages and groups may be nested. -/
def nestingLimit : Nat := 100

mutual

/-- Passes over the value of an unknown field. `budget` is what is left of the nesting limit, and
    `fuel` bounds the number of fields. -/
def skipField : (fuel budget tag : Nat) → WireType → List UInt8 → Decoded (List UInt8)
  | 0, _, _, _, _ => .error .truncated
  | _ + 1, 0, _, _, _ => .error .nestedTooDeep
  | _ + 1, _ + 1, _, .varint, bytes => (readVarint bytes).map (·.2)
  | _ + 1, _ + 1, _, .fixed64, bytes => (readExactly 8 bytes).map (·.2)
  | _ + 1, _ + 1, _, .fixed32, bytes => (readExactly 4 bytes).map (·.2)
  | _ + 1, _ + 1, _, .lengthDelimited, bytes => (readBytes bytes).map (·.2)
  | _ + 1, _ + 1, _, .groupEnd, _ => .error .unmatchedGroupEnd
  | fuel + 1, budget + 1, tag, .groupStart, bytes => skipGroup fuel budget tag bytes

/-- Passes over the fields of a group up to the end that belongs to it. -/
def skipGroup : (fuel budget tag : Nat) → List UInt8 → Decoded (List UInt8)
  | 0, _, _, _ => .error .truncated
  | fuel + 1, budget, tag, bytes => do
    let ((inner, w), rest) ← readKey bytes
    if w = .groupEnd then
      if inner = tag then .ok rest else .error .unmatchedGroupEnd
    else
      let rest ← skipField fuel budget inner w rest
      skipGroup fuel budget tag rest

end

/-- Reads the fields of a message one after the other: `field` takes what was read so far, the
    field's number and wire type and the bytes after its key. `fuel` bounds the number of fields. -/
def readFields {μ : Type}
    (field : μ → Nat → WireType → List UInt8 → Decoded (μ × List UInt8)) :
    (fuel : Nat) → μ → List UInt8 → Decoded μ
  | _, m, [] => .ok m
  | 0, _, _ :: _ => .error .truncated
  | fuel + 1, m, b :: bytes => do
    let ((tag, w), rest) ← readKey (b :: bytes)
    let (m, rest) ← field m tag w rest
    readFields field fuel m rest

/-- Reads a message; every field takes at least one byte. -/
def readMessage {μ : Type}
    (field : μ → Nat → WireType → List UInt8 → Decoded (μ × List UInt8)) (start : μ)
    (bytes : List UInt8) : Decoded μ :=
  readFields field bytes.length start bytes

/-- Keeps what was read and passes over an unknown field. -/
def ignoreField {μ : Type} (budget : Nat) (m : μ) (tag : Nat) (w : WireType)
    (bytes : List UInt8) : Decoded (μ × List UInt8) :=
  (skipField (2 * bytes.length + 2) budget tag w bytes).map fun rest => (m, rest)

/-- Reads the bytes of a length-delimited field. -/
def readPayload (w : WireType) (bytes : List UInt8) : Decoded (List UInt8 × List UInt8) :=
  if w = .lengthDelimited then readBytes bytes else .error .wrongWireType

end Reimage.Protobuf
