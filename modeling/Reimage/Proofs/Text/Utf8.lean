/-
  Reading UTF-8 gives back what was written.

  * `next_two`, `next_three`, `next_four`: sequences of more than one byte, by their digits to the
    base 64;
  * `next_encodeChar`: the bytes of a character are read as that character, whatever follows;
  * `decode?_encode`, `toString?_ofString`: so are those of a whole text.
-/
import Mathlib.Tactic.IntervalCases
import Reimage.Text.Utf8

namespace Reimage.Text.Utf8

/-! ## Sequences of bytes -/

theorem lead?_two {q : Nat} (h₁ : 2 ≤ q) (h₂ : q < 32) :
    lead? (UInt8.ofNat (q + 192)) = some ⟨q, 0x80, 0xBF, 1⟩ := by
  interval_cases q <;> rfl

theorem lead?_three {q : Nat} (h : q < 16) :
    lead? (UInt8.ofNat (q + 224)) =
      some ⟨q, if q = 0 then 0xA0 else 0x80, if q = 13 then 0x9F else 0xBF, 2⟩ := by
  interval_cases q <;> rfl

theorem lead?_four {q : Nat} (h : q < 5) :
    lead? (UInt8.ofNat (q + 240)) =
      some ⟨q, if q = 0 then 0x90 else 0x80, if q = 4 then 0x8F else 0xBF, 3⟩ := by
  interval_cases q <;> rfl

theorem next_of_lead {n : Nat} {rest : List UInt8} {l : Lead} (h₁ : 0x80 ≤ n) (h₂ : n < 256)
    (hl : lead? (UInt8.ofNat n) = some l) :
    next (UInt8.ofNat n) rest =
      ((continuation l.following l.bits l.low l.high rest).1.map Char.ofNat,
        (continuation l.following l.bits l.low l.high rest).2) := by
  have hn : (UInt8.ofNat n).toNat = n := by
    rw [UInt8.toNat_ofNat']
    omega
  rw [next, hn, if_neg (by omega), hl]

theorem continuation_cons {count value low high x : Nat} (rest : List UInt8) (hx : x < 64)
    (hlow : low ≤ x + 128) (hhigh : x + 128 ≤ high) :
    continuation (count + 1) value low high (UInt8.ofNat (x + 128) :: rest) =
      ((continuation count (value * 64 + x) 0x80 0xBF rest).1,
        (continuation count (value * 64 + x) 0x80 0xBF rest).2 + 1) := by
  have hb : (UInt8.ofNat (x + 128)).toNat = x + 128 := by
    rw [UInt8.toNat_ofNat']
    omega
  rw [continuation, hb, if_pos (by simp [hlow, hhigh]), Nat.add_sub_cancel]

theorem next_two {q x : Nat} (rest : List UInt8) (h₁ : 2 ≤ q) (h₂ : q < 32) (hx : x < 64) :
    next (UInt8.ofNat (q + 192)) (UInt8.ofNat (x + 128) :: rest) =
      (some (Char.ofNat (q * 64 + x)), 1) := by
  rw [next_of_lead (by omega) (by omega) (lead?_two h₁ h₂)]
  simp only
  rw [continuation_cons _ hx (by omega) (by omega), continuation]
  rfl

/-- A first digit 0 leaves no room for values with a shorter sequence, and 13 none for
    surrogates. -/
theorem next_three {q x y : Nat} (rest : List UInt8) (hq : q < 16) (hx : x < 64) (hy : y < 64)
    (hlow : q = 0 → 32 ≤ x) (hhigh : q = 13 → x < 32) :
    next (UInt8.ofNat (q + 224)) (UInt8.ofNat (x + 128) :: UInt8.ofNat (y + 128) :: rest) =
      (some (Char.ofNat ((q * 64 + x) * 64 + y)), 2) := by
  rw [next_of_lead (by omega) (by omega) (lead?_three hq)]
  simp only
  rw [continuation_cons _ hx (by split <;> omega) (by split <;> omega),
    continuation_cons _ hy (by omega) (by omega), continuation]
  rfl

/-- A first digit 4 leaves no room for values past the last code point. -/
theorem next_four {q x y z : Nat} (rest : List UInt8) (hq : q < 5) (hx : x < 64) (hy : y < 64)
    (hz : z < 64) (hlow : q = 0 → 16 ≤ x) (hhigh : q = 4 → x < 16) :
    next (UInt8.ofNat (q + 240)) (UInt8.ofNat (x + 128) :: UInt8.ofNat (y + 128) ::
        UInt8.ofNat (z + 128) :: rest) =
      (some (Char.ofNat (((q * 64 + x) * 64 + y) * 64 + z)), 3) := by
  rw [next_of_lead (by omega) (by omega) (lead?_four hq)]
  simp only
  rw [continuation_cons _ hx (by split <;> omega) (by split <;> omega),
    continuation_cons _ hy (by omega) (by omega), continuation_cons _ hz (by omega) (by omega),
    continuation]
  rfl

/-! ## Characters -/

/-- The bytes of a character are read as that character. -/
theorem next_encodeChar (c : Char) (rest : List UInt8) :
    ∃ b u, String.utf8EncodeChar c = b :: u ∧ next b (u ++ rest) = (some c, u.length) := by
  have hc : Char.ofNat c.val.toNat = c := Char.ofNat_toNat c
  have hv : c.val.toNat < 0xD800 ∨ 0xDFFF < c.val.toNat ∧ c.val.toNat < 0x110000 := c.valid
  generalize hn : c.val.toNat = v at hc hv
  rw [String.utf8EncodeChar, hn]
  by_cases h₁ : v ≤ 0x7F
  · refine ⟨_, _, if_pos h₁, ?_⟩
    have hb : (UInt8.ofNat v).toNat = v := by
      rw [UInt8.toNat_ofNat']
      omega
    rw [next, hb, if_pos (by omega), hc]
    rfl
  rw [if_neg h₁]
  by_cases h₂ : v ≤ 0x7FF
  · refine ⟨_, _, if_pos h₂, (next_two rest (by omega) (by omega) (by omega)).trans ?_⟩
    rw [show v / 64 % 32 * 64 + v % 64 = v by omega, hc]
    rfl
  rw [if_neg h₂]
  by_cases h₃ : v ≤ 0xFFFF
  · refine ⟨_, _, if_pos h₃, (next_three rest (by omega) (by omega) (by omega) (by omega)
      (by omega)).trans ?_⟩
    rw [show (v / 4096 % 16 * 64 + v / 64 % 64) * 64 + v % 64 = v by omega, hc]
    rfl
  · refine ⟨_, _, if_neg h₃, (next_four rest (by omega) (by omega) (by omega) (by omega)
      (by omega) (by omega)).trans ?_⟩
    rw [show ((v / 262144 % 8 * 64 + v / 4096 % 64) * 64 + v / 64 % 64) * 64 + v % 64 = v by omega,
      hc]
    rfl

/-! ## Texts -/

/-- **What was written is read back.** -/
theorem decode?_encode (s : List Char) : decode? (encode s) = some s := by
  induction s with
  | nil => rw [encode, List.flatMap_nil, decode?]
  | cons c s ih =>
    obtain ⟨b, u, hbu, hnext⟩ := next_encodeChar c (encode s)
    rw [encode, List.flatMap_cons, ← encode, hbu, List.cons_append, decode?, hnext]
    simp [ih]

theorem toString?_ofString (s : String) : toString? (ofString s) = some s := by
  rw [toString?, ofString, decode?_encode, Option.map_some, String.ofList_toList]

end Reimage.Text.Utf8
