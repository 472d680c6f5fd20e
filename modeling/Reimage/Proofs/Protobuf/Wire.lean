/-
  Reading the wire format gives back what was written.

  * `readVarint_varint`, `readKey_key`, `readPayload_lengthDelimited`: of each piece of a field,
    whatever follows it;
  * `Reads`: bytes that are read as fields and turn one message into another. `Reads.append` puts
    them together, and `Reads.readMessage` is about a whole message.
-/
import Mathlib.Tactic.Ring
import Reimage.Protobuf.Wire

namespace Reimage.Protobuf

/-! ## Pieces of a field -/

/-- The induction is on the bytes that may still come. The bound leaves a single bit for the
    tenth. -/
theorem readVarintFrom_varintBytes (left count value n : Nat) (rest : List UInt8)
    (hc : left + 1 + count = 10) (hn : n * 2 ^ (7 * count) < 2 ^ 64) :
    readVarintFrom (left + 1) count value (varintBytes (left + 1) n ++ rest) =
      .ok (value + n * 2 ^ (7 * count), rest) := by
  induction left generalizing count value n with
  | zero =>
    obtain rfl : count = 9 := by omega
    have hn2 : n < 2 := by omega
    have hb : (UInt8.ofNat n).toNat = n := by
      rw [UInt8.toNat_ofNat']
      omega
    rw [varintBytes, if_pos (by omega), List.cons_append, List.nil_append, readVarintFrom, hb,
      if_pos (by omega), if_neg (by omega), Nat.mod_eq_of_lt (by omega)]
    rfl
  | succ left ih =>
    rw [varintBytes]
    by_cases h : n < 128
    · have hb : (UInt8.ofNat n).toNat = n := by
        rw [UInt8.toNat_ofNat']
        omega
      rw [if_pos h, List.cons_append, List.nil_append, readVarintFrom, hb, if_pos h,
        if_neg (by omega), Nat.mod_eq_of_lt h]
      rfl
    · have hb : (UInt8.ofNat (n % 128 + 128)).toNat = n % 128 + 128 := by
        rw [UInt8.toNat_ofNat']
        omega
      have hpow : 2 ^ (7 * (count + 1)) = 128 * 2 ^ (7 * count) := by ring
      have hsum : n % 128 * 2 ^ (7 * count) + n / 128 * 2 ^ (7 * (count + 1)) =
          n * 2 ^ (7 * count) := by
        rw [hpow, ← Nat.mul_assoc, ← Nat.add_mul, Nat.mod_add_div']
      rw [if_neg h, List.cons_append, readVarintFrom, hb, if_neg (by omega), Nat.add_mod_right,
        Nat.mod_mod, Nat.pow_eq, ih (count + 1) _ (n / 128) (by omega) (by omega), Nat.add_assoc,
        hsum]

theorem readVarint_varint {n : Nat} (hn : n < 2 ^ 64) (rest : List UInt8) :
    readVarint (varint n ++ rest) = .ok (n, rest) := by
  have h := readVarintFrom_varintBytes 9 0 0 n rest rfl (by simpa using hn)
  simpa [readVarint, varint] using h

theorem varint_ne_nil (n : Nat) : varint n ≠ [] := by
  rw [varint, varintBytes]
  split <;> simp

theorem WireType.ofNumber?_number (w : WireType) : WireType.ofNumber? w.number = some w := by
  cases w <;> rfl

theorem WireType.number_lt (w : WireType) : w.number < 8 := by
  cases w <;> decide

theorem readKey_key {tag : Nat} {w : WireType} (h₁ : 0 < tag) (h₂ : tag < 2 ^ 29)
    (rest : List UInt8) : readKey (key tag w ++ rest) = .ok ((tag, w), rest) := by
  have hw := w.number_lt
  rw [readKey, key, readVarint_varint (by omega)]
  show (if Nat.pow 2 32 ≤ tag * 8 + w.number then _ else _) = _
  rw [if_neg (by rw [Nat.pow_eq]; omega), show (tag * 8 + w.number) % 8 = w.number by omega,
    w.ofNumber?_number, show (tag * 8 + w.number) / 8 = tag by omega]
  exact if_neg (by omega)

theorem readPayload_lengthDelimited {bytes : List UInt8} (h : bytes.length < 2 ^ 64)
    (rest : List UInt8) :
    readPayload .lengthDelimited (varint bytes.length ++ bytes ++ rest) = .ok (bytes, rest) := by
  rw [readPayload, if_pos rfl, readBytes, List.append_assoc, readVarint_varint h]
  show readExactly bytes.length (bytes ++ rest) = _
  rw [readExactly, if_neg (by simp), List.take_left, List.drop_left]

/-! ## Fields -/

section

variable {μ : Type} {field : μ → Nat → WireType → List UInt8 → Decoded (μ × List UInt8)}
  {m m' m'' : μ} {u v : List UInt8}

/-- Bytes that are read as fields which turn `m` into `m'`, whatever follows. -/
def Reads (field : μ → Nat → WireType → List UInt8 → Decoded (μ × List UInt8)) (m : μ)
    (u : List UInt8) (m' : μ) : Prop :=
  ∀ fuel rest, (u ++ rest).length ≤ fuel →
    ∃ left, rest.length ≤ left ∧
      readFields field fuel m (u ++ rest) = readFields field left m' rest

theorem Reads.nil (m : μ) : Reads field m [] m := fun fuel _ h => ⟨fuel, h, rfl⟩

theorem Reads.append (hu : Reads field m u m') (hv : Reads field m' v m'') :
    Reads field m (u ++ v) m'' := by
  intro fuel rest h
  rw [List.append_assoc] at h ⊢
  obtain ⟨left, hl, h₁⟩ := hu fuel (v ++ rest) h
  obtain ⟨left', hl', h₂⟩ := hv left rest hl
  exact ⟨left', hl', h₁.trans h₂⟩

/-- What is read is the whole message. -/
theorem Reads.readMessage (h : Reads field m u m') : readMessage field m u = .ok m' := by
  obtain ⟨left, -, h⟩ := h u.length [] (by simp)
  rw [List.append_nil] at h
  rw [Protobuf.readMessage, h, readFields]

/-- A field is read if its value is, after its key. -/
theorem Reads.one {tag : Nat} {w : WireType} (h₁ : 0 < tag) (h₂ : tag < 2 ^ 29)
    (h : ∀ rest, field m tag w (v ++ rest) = .ok (m', rest)) :
    Reads field m (key tag w ++ v) m' := by
  intro fuel rest hlen
  have hkey := readKey_key (w := w) h₁ h₂ (v ++ rest)
  obtain ⟨b, bs, hb⟩ := List.exists_cons_of_ne_nil (varint_ne_nil (tag * 8 + w.number))
  rw [← key] at hb
  rw [List.append_assoc, hb] at hlen ⊢
  rw [hb] at hkey
  simp only [List.cons_append, List.length_cons, List.length_append] at hlen
  obtain ⟨fuel, rfl⟩ : ∃ n, fuel = n + 1 := ⟨fuel - 1, by omega⟩
  refine ⟨fuel, by omega, ?_⟩
  rw [List.cons_append, readFields, ← List.cons_append, hkey]
  show (field m tag w (v ++ rest) >>= fun r => readFields field fuel r.1 r.2) = _
  rw [h]
  rfl

theorem Reads.lengthDelimited {tag : Nat} {bytes : List UInt8} (h₁ : 0 < tag) (h₂ : tag < 2 ^ 29)
    (h : ∀ rest, field m tag .lengthDelimited (varint bytes.length ++ bytes ++ rest) =
      .ok (m', rest)) : Reads field m (lengthDelimited tag bytes) m' := by
  rw [Protobuf.lengthDelimited, List.append_assoc]
  exact .one h₁ h₂ h

end

end Reimage.Protobuf
