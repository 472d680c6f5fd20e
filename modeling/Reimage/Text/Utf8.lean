/-
  UTF-8 byte sequences.

  * `encode` writes characters as bytes;
  * `decode?` reads a well-formed byte sequence and refuses any other;
  * `lossy` reads any byte sequence: each maximal invalid part becomes one replacement character
    (the Unicode practice of "maximal subparts").

  `next` reads one character. It is the only place that knows which bytes may follow which.
-/
namespace Reimage.Text.Utf8

/-- The bytes of a text. -/
def encode (s : List Char) : List UInt8 := s.flatMap String.utf8EncodeChar

/-- The bytes of a text. -/
def ofString (s : String) : List UInt8 := encode s.toList

/-- A lead byte: its own bits, the range of the second byte, and how many bytes follow in all. -/
structure Lead where
  bits : Nat
  low : Nat
  high : Nat
  following : Nat

/-- The lead bytes of two, three and four byte sequences. The narrowed ranges of the second byte
    leave out overlong forms, surrogates and values past the last code point. -/
def lead? (b : UInt8) : Option Lead :=
  let n := b.toNat
  if 0xC2 ≤ n && n ≤ 0xDF then some ⟨n - 0xC0, 0x80, 0xBF, 1⟩
  else if n = 0xE0 then some ⟨0, 0xA0, 0xBF, 2⟩
  else if n = 0xED then some ⟨0xD, 0x80, 0x9F, 2⟩
  else if 0xE1 ≤ n && n ≤ 0xEF then some ⟨n - 0xE0, 0x80, 0xBF, 2⟩
  else if n = 0xF0 then some ⟨0, 0x90, 0xBF, 3⟩
  else if 0xF1 ≤ n && n ≤ 0xF3 then some ⟨n - 0xF0, 0x80, 0xBF, 3⟩
  else if n = 0xF4 then some ⟨4, 0x80, 0x8F, 3⟩
  else none

/-- Reads `count` continuation bytes, of which the first must lie between `low` and `high`.
    Answers the value, or none if a byte is missing or wrong, and how many bytes were right. -/
def continuation (count value low high : Nat) (bytes : List UInt8) : Option Nat × Nat :=
  match count, bytes with
  | 0, _ => (some value, 0)
  | _ + 1, [] => (none, 0)
  | count + 1, b :: rest =>
    if low ≤ b.toNat && b.toNat ≤ high then
      let (result, used) := continuation count (value * 64 + (b.toNat - 0x80)) 0x80 0xBF rest
      (result, used + 1)
    else (none, 0)

/-- Reads one character whose first byte is `b`: the character, or none for an invalid part, and
    the number of bytes after `b` that belong to it. -/
def next (b : UInt8) (rest : List UInt8) : Option Char × Nat :=
  if b.toNat < 0x80 then (some (Char.ofNat b.toNat), 0)
  else match lead? b with
    | none => (none, 0)
    | some l =>
      let (value, used) := continuation l.following l.bits l.low l.high rest
      (value.map Char.ofNat, used)

/-- Reads a byte sequence that may be anything. -/
def lossyChars : List UInt8 → List Char
  | [] => []
  | b :: rest =>
    let step := next b rest
    step.1.getD '\uFFFD' :: lossyChars (rest.drop step.2)
termination_by bytes => bytes.length
decreasing_by simp only [List.length_drop, List.length_cons]; omega

/-- Reads a byte sequence that may be anything. -/
def lossy (bytes : List UInt8) : String := String.ofList (lossyChars bytes)

/-- Reads a well-formed byte sequence. -/
def decode? : List UInt8 → Option (List Char)
  | [] => some []
  | b :: rest =>
    let step := next b rest
    match step.1 with
    | none => none
    | some c => (decode? (rest.drop step.2)).map (c :: ·)
termination_by bytes => bytes.length
decreasing_by simp only [List.length_drop, List.length_cons]; omega

/-- Reads a well-formed byte sequence. -/
def toString? (bytes : List UInt8) : Option String := (decode? bytes).map String.ofList

end Reimage.Text.Utf8
