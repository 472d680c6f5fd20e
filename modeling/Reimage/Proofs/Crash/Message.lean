/-
  Reading a crash message gives back what was written.

  * `reads_textField`, `reads_bytesField`, `readNested_of_reads`: of a field, in any message;
  * `Remark.reads_encode`, `Info.reads_encode` and so on: of each kind of message, field by field;
  * `Message.decode_encode`: of a whole crash message.

  Lengths are written as numbers below `2 ^ 64`, so this is about messages that are shorter.
-/
import Reimage.Crash.Message
import Reimage.Proofs.Protobuf.Wire
import Reimage.Proofs.Text.Utf8

namespace Reimage.Crash

open Protobuf

section

variable {μ : Type} {field : μ → Nat → WireType → List UInt8 → Decoded (μ × List UInt8)}
  {m m' : μ} {tag : Nat}

/-! ## Fields -/

theorem length_le_lengthDelimited (tag : Nat) (bytes : List UInt8) :
    bytes.length ≤ (lengthDelimited tag bytes).length := by
  simp only [lengthDelimited, List.length_append]
  omega

/-- A field of bytes is read if its bytes are taken by `field`. Nothing is written for no bytes, so
    taking them must change nothing. -/
theorem reads_bytesField {bytes : List UInt8} (h₁ : 0 < tag) (h₂ : tag < 2 ^ 29)
    (hlen : (bytesField tag bytes).length < 2 ^ 64)
    (hread : ∀ input rest, readPayload .lengthDelimited input = .ok (bytes, rest) →
      field m tag .lengthDelimited input = .ok (m', rest))
    (hempty : bytes = [] → m' = m) : Reads field m (bytesField tag bytes) m' := by
  cases bytes with
  | nil =>
    rw [hempty rfl]
    exact .nil m
  | cons b bytes =>
    refine .lengthDelimited h₁ h₂ fun rest => hread _ _ (readPayload_lengthDelimited ?_ rest)
    exact (length_le_lengthDelimited tag _).trans_lt hlen

theorem ofString_eq_nil {text : String} (h : Text.Utf8.ofString text = []) : text = "" := by
  have hread := Text.Utf8.toString?_ofString text
  rw [h] at hread
  simpa [Text.Utf8.toString?, Text.Utf8.decode?] using hread.symm

theorem reads_textField {text : String} (h₁ : 0 < tag) (h₂ : tag < 2 ^ 29)
    (hlen : (textField tag text).length < 2 ^ 64)
    (hread : ∀ input rest, readText .lengthDelimited input = .ok (text, rest) →
      field m tag .lengthDelimited input = .ok (m', rest))
    (hempty : text = "" → m' = m) : Reads field m (textField tag text) m' := by
  refine reads_bytesField h₁ h₂ hlen (fun input rest h => hread input rest ?_)
    fun h => hempty (ofString_eq_nil h)
  simp only [readText, h, bind, Except.bind, Text.Utf8.toString?_ofString]

/-- A message inside a message. -/
theorem readNested_of_reads {start : μ} {bytes : List UInt8} (h : Reads field start bytes m)
    (hlen : bytes.length < 2 ^ 64) (rest : List UInt8) :
    readNested field start .lengthDelimited (varint bytes.length ++ bytes ++ rest) =
      .ok (m, rest) := by
  rw [readNested, readPayload_lengthDelimited hlen]
  show (do
    let m ← Protobuf.readMessage field start bytes
    .ok (m, rest)) = _
  rw [h.readMessage]
  rfl

end

/-! ## Messages -/

theorem Remark.reads_encode (budget : Nat) (r : Remark) (hlen : r.encode.length < 2 ^ 64) :
    Reads (Remark.field budget) {} r.encode r := by
  simp only [Remark.encode, List.length_append] at hlen
  have hkey : Reads (Remark.field budget) {} (textField 1 r.key) { key := r.key } :=
    reads_textField (by decide) (by decide) (by omega)
      (fun input rest h => by rw [Remark.field, h]; rfl) fun h => by rw [h]
  have htext : Reads (Remark.field budget) { key := r.key } (textField 2 r.text) r :=
    reads_textField (by decide) (by decide) (by omega)
      (fun input rest h => by rw [Remark.field, h]; rfl) fun h => by rw [← h]
  exact hkey.append htext

theorem Info.reads_remarks (budget : Nat) (i : Info) (rs : List Remark)
    (hlen : (rs.flatMap fun r => lengthDelimited 7 r.encode).length < 2 ^ 64) :
    Reads (Info.field budget) i (rs.flatMap fun r => lengthDelimited 7 r.encode)
      { i with remarks := i.remarks ++ rs } := by
  induction rs generalizing i with
  | nil =>
    rw [List.append_nil]
    exact .nil i
  | cons r rs ih =>
    rw [List.flatMap_cons, List.length_append] at hlen
    have hr : r.encode.length < 2 ^ 64 :=
      (length_le_lengthDelimited 7 _).trans_lt (by omega)
    have hfirst : Reads (Info.field budget) i (lengthDelimited 7 r.encode)
        { i with remarks := i.remarks ++ [r] } := by
      refine .lengthDelimited (by decide) (by decide) fun rest => ?_
      rw [Info.field, readNested_of_reads (Remark.reads_encode _ r hr) hr]
      rfl
    have hrest := ih { i with remarks := i.remarks ++ [r] } (by omega)
    rw [List.append_assoc, List.singleton_append] at hrest
    exact hfirst.append hrest

theorem Info.reads_encode (budget : Nat) (i : Info) (hlen : i.encode.length < 2 ^ 64) :
    Reads (Info.field budget) {} i.encode i := by
  simp only [Info.encode, List.length_append] at hlen
  have h₁ : Reads (Info.field budget) {} (textField 1 i.execName) { execName := i.execName } :=
    reads_textField (by decide) (by decide) (by omega)
      (fun input rest h => by rw [Info.field, h]; rfl) fun h => by rw [h]
  have h₂ : Reads (Info.field budget) { execName := i.execName } (textField 2 i.prog)
      { execName := i.execName, prog := i.prog } :=
    reads_textField (by decide) (by decide) (by omega)
      (fun input rest h => by rw [Info.field, h]; rfl) fun h => by rw [h]
  have h₃ : Reads (Info.field budget) { execName := i.execName, prog := i.prog }
      (textField 3 i.version) { execName := i.execName, prog := i.prog, version := i.version } :=
    reads_textField (by decide) (by decide) (by omega)
      (fun input rest h => by rw [Info.field, h]; rfl) fun h => by rw [h]
  have h₄ : Reads (Info.field budget)
      { execName := i.execName, prog := i.prog, version := i.version } (textField 4 i.sig)
      { execName := i.execName, prog := i.prog, version := i.version, sig := i.sig } :=
    reads_textField (by decide) (by decide) (by omega)
      (fun input rest h => by rw [Info.field, h]; rfl) fun h => by rw [h]
  have h₅ : Reads (Info.field budget)
      { execName := i.execName, prog := i.prog, version := i.version, sig := i.sig }
      (textField 5 i.inProgressIntegrationTest) { i with collector := "", remarks := [] } :=
    reads_textField (by decide) (by decide) (by omega)
      (fun input rest h => by rw [Info.field, h]; rfl) fun h => by rw [h]
  have h₆ : Reads (Info.field budget) { i with collector := "", remarks := [] }
      (textField 6 i.collector) { i with remarks := [] } :=
    reads_textField (by decide) (by decide) (by omega)
      (fun input rest h => by rw [Info.field, h]; rfl) fun h => by rw [h]
  have h₇ := Info.reads_remarks budget { i with remarks := [] } i.remarks (by omega)
  exact (((((h₁.append h₂).append h₃).append h₄).append h₅).append h₆).append h₇

theorem Blob.reads_encode (budget : Nat) (b : Blob) (hlen : b.encode.length < 2 ^ 64) :
    Reads (Blob.field budget) {} b.encode b := by
  simp only [Blob.encode, List.length_append] at hlen
  have h₁ : Reads (Blob.field budget) {} (textField 1 b.key) { key := b.key } :=
    reads_textField (by decide) (by decide) (by omega)
      (fun input rest h => by rw [Blob.field, h]; rfl) fun h => by rw [h]
  have h₂ : Reads (Blob.field budget) { key := b.key } (bytesField 2 b.blob)
      { b with filename := "" } :=
    reads_bytesField (by decide) (by decide) (by omega)
      (fun input rest h => by rw [Blob.field, h]; rfl) fun h => by rw [h]
  have h₃ : Reads (Blob.field budget) { b with filename := "" } (textField 3 b.filename) b :=
    reads_textField (by decide) (by decide) (by omega)
      (fun input rest h => by rw [Blob.field, h]; rfl) fun h => by rw [← h]
  exact (h₁.append h₂).append h₃

theorem CoreDump.reads_encode (budget : Nat) (c : CoreDump) (hlen : c.encode.length < 2 ^ 64) :
    Reads (CoreDump.field budget) {} c.encode c := by
  simp only [CoreDump.encode, List.length_append] at hlen
  have h₁ : Reads (CoreDump.field budget) {} (textField 1 c.filename)
      { filename := c.filename } :=
    reads_textField (by decide) (by decide) (by omega)
      (fun input rest h => by rw [CoreDump.field, h]; rfl) fun h => by rw [h]
  have h₂ : Reads (CoreDump.field budget) { filename := c.filename } (bytesField 2 c.blob) c :=
    reads_bytesField (by decide) (by decide) (by omega)
      (fun input rest h => by rw [CoreDump.field, h]; rfl) fun h => by rw [← h]
  exact h₁.append h₂

/-- The payload of a message that has none yet. -/
theorem Payload.reads_encode (budget : Nat) (id : Int64) (p : Payload)
    (hlen : p.encode.length < 2 ^ 64) :
    Reads (Message.field budget) ⟨id, none⟩ p.encode ⟨id, some p⟩ := by
  cases p with
  | crash i =>
    have hi := (length_le_lengthDelimited 2 i.encode).trans_lt hlen
    refine .lengthDelimited (by decide) (by decide) fun rest => ?_
    rw [Message.field, readNested_of_reads (Info.reads_encode _ i hi) hi]
    rfl
  | blob b =>
    have hb := (length_le_lengthDelimited 3 b.encode).trans_lt hlen
    refine .lengthDelimited (by decide) (by decide) fun rest => ?_
    rw [Message.field, readNested_of_reads (Blob.reads_encode _ b hb) hb]
    rfl
  | core c =>
    have hc := (length_le_lengthDelimited 4 c.encode).trans_lt hlen
    refine .lengthDelimited (by decide) (by decide) fun rest => ?_
    rw [Message.field, readNested_of_reads (CoreDump.reads_encode _ c hc) hc]
    rfl

theorem Message.reads_crashId (budget : Nat) (id : Int64) :
    Reads (Message.field budget) {}
      (if id = 0 then [] else key 1 .varint ++ varint id.toUInt64.toNat) ⟨id, none⟩ := by
  split
  · rename_i h
    rw [h]
    exact .nil _
  · refine .one (by decide) (by decide) fun rest => ?_
    simp only [Message.field, readVarint_varint id.toUInt64.toNat_lt, Except.map,
      UInt64.ofNat_toNat, Int64.toInt64_toUInt64, if_true]

/-- **What was written is read back.** -/
theorem Message.decode_encode (m : Message) (hlen : m.encode.length < 2 ^ 64) :
    Message.decode m.encode = .ok m := by
  obtain ⟨id, payload⟩ := m
  rw [Message.encode, List.length_append] at hlen
  have hid := Message.reads_crashId nestingLimit id
  refine Reads.readMessage (hid.append ?_)
  cases payload with
  | none => exact .nil _
  | some p => exact Payload.reads_encode _ id p (by simp only at hlen; omega)

end Reimage.Crash
