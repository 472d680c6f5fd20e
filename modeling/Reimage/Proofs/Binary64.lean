/-
  A decimal that is written for a number reads back as that number.

  * `ofRatio_mul_right`, `ofDigits_mul_pow`: what a number is nearest to depends on the value alone,
    not on how the fraction or the decimal is spelled;
  * `ofRatio_magnitude`: a number is the nearest to its own value;
  * `ofDigits_shortest`: so the digits that are chosen for a number stand for it;
  * `ofUnsigned?_layout`: each of the layouts is read as the digits it was made from;
  * `ofDecimal?_decimal`: the whole way.
-/
import Mathlib.Data.Nat.Log
import Mathlib.Tactic.Ring
import Reimage.Binary64
import Reimage.Proofs.Text.Numeral

namespace Reimage.Binary64

/-! ## Rounding depends on the value alone -/

theorem roundHalfEven_mul_right (num den : Nat) {k : Nat} (hk : 0 < k) :
    roundHalfEven (num * k) (den * k) = roundHalfEven num den := by
  have hdouble : 2 * (num % den * k) = 2 * (num % den) * k := (Nat.mul_assoc _ _ _).symm
  have heq : (2 * (num % den) * k == den * k) = (2 * (num % den) == den) := by
    rw [Bool.eq_iff_iff, beq_iff_eq, beq_iff_eq]
    exact Nat.mul_left_inj (Nat.ne_of_gt hk)
  simp only [roundHalfEven, Nat.mul_div_mul_right _ _ hk, Nat.mul_mod_mul_right, hdouble, heq,
    Nat.mul_lt_mul_right hk]

/-- An exact quotient is not rounded. -/
theorem roundHalfEven_mul (q : Nat) {den : Nat} (hden : 0 < den) :
    roundHalfEven (q * den) den = q := by
  simp only [roundHalfEven, Nat.mul_div_cancel _ hden, Nat.mul_mod_left]
  rw [if_neg]
  simp only [Nat.mul_zero, Bool.or_eq_true, decide_eq_true_eq, Bool.and_eq_true, beq_iff_eq]
  omega

theorem nearest_mul_right (num den : Nat) {k : Nat} (hk : 0 < k) :
    nearest (num * k) (den * k) = nearest num den := by
  have hscaled (n : Nat) : num * k * n = num * n * k := Nat.mul_right_comm _ _ _
  have hden (n : Nat) : den * k * n = den * n * k := Nat.mul_right_comm _ _ _
  simp only [nearest, hscaled, Nat.mul_div_mul_right _ _ hk, hden, roundHalfEven_mul_right _ _ hk]

theorem ofRatio_mul_right (negative : Bool) (num den : Nat) {k : Nat} (hk : 0 < k) :
    ofRatio negative (num * k) (den * k) = ofRatio negative num den := by
  have hzero : num * k = 0 ↔ num = 0 := by
    rw [Nat.mul_eq_zero]
    omega
  simp only [ofRatio, hzero, nearest_mul_right _ _ hk]

theorem length_toDigits_mul_ten {d : Nat} (hd : d ≠ 0) :
    (Nat.toDigits 10 (d * 10)).length = (Nat.toDigits 10 d).length + 1 := by
  rw [Nat.toDigits_of_base_le (by decide) (by omega), List.length_append,
    Nat.mul_div_cancel _ (by decide), List.length_singleton]

theorem ofDigits_mul_ten (negative : Bool) (d : Nat) (e : Int) :
    ofDigits negative (d * 10) e = ofDigits negative d (e + 1) := by
  by_cases hd : d = 0
  · simp [ofDigits, hd]
  have hd' : d * 10 ≠ 0 := by omega
  have horder : e + ((Nat.toDigits 10 d).length + 1 : Nat) = e + 1 + (Nat.toDigits 10 d).length := by
    omega
  have hratio : (if 0 ≤ e then ofRatio negative (d * 10 * Nat.pow 10 e.toNat) 1
      else ofRatio negative (d * 10) (Nat.pow 10 (-e).toNat)) =
      if 0 ≤ e + 1 then ofRatio negative (d * Nat.pow 10 (e + 1).toNat) 1
      else ofRatio negative d (Nat.pow 10 (-(e + 1)).toNat) := by
    by_cases hpos : 0 ≤ e
    · obtain ⟨n, rfl⟩ := Int.eq_ofNat_of_zero_le hpos
      have hpow : d * 10 * Nat.pow 10 n = d * Nat.pow 10 (n + 1) := by
        simp only [Nat.pow_eq]
        ring
      rw [if_pos hpos, if_pos (by omega), Int.toNat_natCast, hpow]
      rfl
    · obtain ⟨n, hn⟩ : ∃ n : Nat, -e = n + 1 := ⟨(-e - 1).toNat, by omega⟩
      have hpow : Nat.pow 10 (n + 1) = Nat.pow 10 n * 10 := rfl
      have he : (-e).toNat = n + 1 := by omega
      rw [if_neg hpos, he, hpow, ofRatio_mul_right _ _ _ (by decide)]
      by_cases hzero : 0 ≤ e + 1
      · have hn : n = 0 := by omega
        have he' : (e + 1).toNat = 0 := by omega
        rw [if_pos hzero, he', hn]
        simp
      · have he' : (-(e + 1)).toNat = n := by omega
        rw [if_neg hzero, he']
  simp only [ofDigits, hd, hd', if_false, length_toDigits_mul_ten hd, horder, hratio]

/-- Zeros may move from the digits to the exponent. -/
theorem ofDigits_mul_pow (negative : Bool) (d k : Nat) (e : Int) :
    ofDigits negative (d * 10 ^ k) e = ofDigits negative d (e + k) := by
  induction k generalizing e with
  | zero => simp
  | succ k ih =>
    rw [Nat.pow_succ, ← Nat.mul_assoc, ofDigits_mul_ten, ih]
    congr 1
    omega

/-! ## A number is the nearest to its own value -/

theorem toNat_ofParts {magnitude : Nat} (h : magnitude < 2 ^ 63) (negative : Bool) :
    (ofParts negative magnitude).bits.toNat = (if negative then 2 ^ 63 else 0) + magnitude := by
  simp only [ofParts, UInt64.toNat_ofNat', Nat.pow_eq]
  split <;> omega

/-- A number is put together from its sign and the rest. -/
theorem ofParts_isNegative (x : Binary64) :
    ofParts x.isNegative (x.bits.toNat % 2 ^ 63) = x := by
  have hlt : x.bits.toNat < 2 ^ 64 := x.bits.toNat_lt
  have hsign : (if x.isNegative then 2 ^ 63 else 0) + x.bits.toNat % 2 ^ 63 = x.bits.toNat := by
    simp only [isNegative, Nat.pow_eq, beq_iff_eq]
    split <;> omega
  simp only [ofParts, Nat.pow_eq, hsign, UInt64.ofNat_toNat]

theorem bitLength_eq {n k : Nat} (h₁ : 2 ^ k ≤ n) (h₂ : n < 2 ^ (k + 1)) :
    bitLength n = k + 1 := by
  have hn : n ≠ 0 := by
    have := Nat.two_pow_pos k
    omega
  rw [bitLength, if_neg hn, (Nat.log2_eq_iff hn).2 ⟨h₁, h₂⟩]

theorem bitLength_le {n k : Nat} (h : n < 2 ^ k) : bitLength n ≤ k := by
  by_cases hn : n = 0
  · simp [bitLength, hn]
  · rw [bitLength, if_neg hn]
    exact (Nat.log2_lt hn).2 h

/-- A significand of 53 bits and an exponent are kept as they are. -/
theorem nearest_significand {m e : Nat} (hlt : m < 2 ^ 53) (hnormal : e = 0 ∨ 2 ^ 52 ≤ m) :
    nearest (m * 2 ^ e) (2 ^ unitBits) = e * 2 ^ 52 + m := by
  have hunit := Nat.two_pow_pos unitBits
  have hshift : bitLength (m * 2 ^ e) - 53 = e := by
    rcases hnormal with rfl | hnormal
    · have := bitLength_le hlt
      rw [Nat.pow_zero, Nat.mul_one]
      omega
    · have hlow : 2 ^ (52 + e) ≤ m * 2 ^ e := by
        rw [Nat.pow_add]
        exact Nat.mul_le_mul_right _ hnormal
      have hhigh : m * 2 ^ e < 2 ^ (52 + e + 1) := by
        rw [Nat.add_right_comm, Nat.pow_add]
        exact Nat.mul_lt_mul_of_pos_right hlt (Nat.two_pow_pos e)
      rw [bitLength_eq hlow hhigh]
      omega
  have hround : roundHalfEven (m * 2 ^ e * 2 ^ unitBits) (2 ^ unitBits * 2 ^ e) = m := by
    rw [Nat.mul_assoc, Nat.mul_comm (2 ^ e)]
    exact roundHalfEven_mul m (Nat.mul_pos hunit (Nat.two_pow_pos _))
  simp only [nearest, Nat.pow_eq, Nat.mul_div_cancel _ hunit, hshift, hround]
  split
  next h => rw [h, Nat.zero_mul, Nat.zero_add]
  · rfl

theorem ofRatio_significand (negative : Bool) {m e : Nat} (hm : m ≠ 0) (hlt : m < 2 ^ 53)
    (hnormal : e = 0 ∨ 2 ^ 52 ≤ m) (hword : e * 2 ^ 52 + m < 2047 * 2 ^ 52) :
    ofRatio negative (m * 2 ^ e) (2 ^ unitBits) = ofParts negative (e * 2 ^ 52 + m) := by
  have hnum : m * 2 ^ e ≠ 0 := Nat.mul_ne_zero hm (Nat.ne_of_gt (Nat.two_pow_pos e))
  rw [ofRatio, if_neg hnum, nearest_significand hlt hnormal, ofWord]
  exact if_neg (Nat.not_le.2 hword)

theorem ofRatio_magnitude {x : Binary64} (hsign : x.bits.toNat < 2 ^ 63)
    (hfinite : x.isFinite = true) (hx : x.bits.toNat ≠ 0) :
    ofRatio false (x.magnitude.1 * 2 ^ x.magnitude.2) (2 ^ unitBits) = x := by
  have hexponent : x.bits.toNat / 2 ^ 52 % 2 ^ 11 = x.bits.toNat / 2 ^ 52 := by omega
  have hbound : x.bits.toNat / 2 ^ 52 ≠ 2047 := by
    simp only [isFinite, exponentBits, Nat.pow_eq, hexponent] at hfinite
    exact ne_of_beq_false (by simpa using hfinite)
  have hparts : ofParts false x.bits.toNat = x := by
    simp [ofParts]
  have hmagnitude : x.magnitude =
      if x.bits.toNat / 2 ^ 52 = 0 then (x.bits.toNat % 2 ^ 52, 0)
      else (x.bits.toNat % 2 ^ 52 + 2 ^ 52, x.bits.toNat / 2 ^ 52 - 1) := by
    simp only [magnitude, exponentBits, fractionBits, Nat.pow_eq, hexponent]
  rw [hmagnitude]
  split
  next h =>
    rw [ofRatio_significand false (by omega) (by omega) (Or.inl rfl) (by omega), Nat.zero_mul,
      Nat.zero_add, Nat.mod_eq_of_lt (by omega), hparts]
  next h =>
    have hword : (x.bits.toNat / 2 ^ 52 - 1) * 2 ^ 52 + (x.bits.toNat % 2 ^ 52 + 2 ^ 52) =
        x.bits.toNat := by omega
    rw [ofRatio_significand false (by omega) (by omega) (Or.inr (by omega)) (by omega), hword,
      hparts]

/-! ## The shortest decimal -/

theorem infinity_eq (negative : Bool) : infinity negative = ofParts negative (2047 * 2 ^ 52) := by
  rw [infinity, Nat.pow_eq]

/-- The sign changes nothing else. -/
theorem ofRatio_signed (num den : Nat) :
    ∃ w < 2 ^ 63, ∀ negative, ofRatio negative num den = ofParts negative w := by
  unfold ofRatio ofWord
  by_cases hnum : num = 0
  · exact ⟨0, by decide, fun _ => if_pos hnum⟩
  by_cases hlarge : 2047 * Nat.pow 2 52 ≤ nearest num den
  · refine ⟨2047 * 2 ^ 52, by decide, fun negative => ?_⟩
    rw [if_neg hnum, if_pos hlarge, infinity_eq]
  · have hlt : nearest num den < 2047 * 2 ^ 52 := Nat.not_le.1 hlarge
    refine ⟨nearest num den, by omega, fun negative => ?_⟩
    rw [if_neg hnum, if_neg hlarge]

theorem ofDigits_signed (d : Nat) (e : Int) :
    ∃ w < 2 ^ 63, ∀ negative, ofDigits negative d e = ofParts negative w := by
  simp only [ofDigits]
  by_cases hd : d = 0
  · exact ⟨0, by decide, fun _ => if_pos hd⟩
  simp only [if_neg hd]
  by_cases hlarge : 400 < e + (Nat.toDigits 10 d).length
  · exact ⟨2047 * 2 ^ 52, by decide, fun negative => by rw [if_pos hlarge, infinity_eq]⟩
  simp only [if_neg hlarge]
  by_cases hsmall : e + (Nat.toDigits 10 d).length < -400
  · exact ⟨0, by decide, fun _ => if_pos hsmall⟩
  simp only [if_neg hsmall]
  by_cases he : 0 ≤ e
  · simp only [if_pos he]
    exact ofRatio_signed _ _
  · simp only [if_neg he]
    exact ofRatio_signed _ _

theorem ofDigits_eq_ofParts {d : Nat} {e : Int} {w : Nat} (hw : w < 2 ^ 63)
    (h : ofDigits false d e = ofParts false w) (negative : Bool) :
    ofDigits negative d e = ofParts negative w := by
  obtain ⟨w', hw', hsigned⟩ := ofDigits_signed d e
  have heq := congrArg (fun x : Binary64 => x.bits.toNat) ((hsigned false).symm.trans h)
  simp only [toNat_ofParts hw', toNat_ofParts hw, Bool.false_eq_true, if_false, Nat.zero_add] at heq
  rw [hsigned, heq]

theorem magnitude_lt {x : Binary64} (hfinite : x.isFinite = true) :
    x.magnitude.1 < 2 ^ 53 ∧ x.magnitude.2 ≤ 2045 := by
  have hexponent : x.exponentBits ≠ 2047 := by simpa [isFinite] using hfinite
  have hlt : x.exponentBits < 2 ^ 11 := Nat.mod_lt _ (by decide)
  have hfraction : x.fractionBits < 2 ^ 52 := Nat.mod_lt _ (by decide)
  unfold magnitude
  split
  · exact ⟨by omega, by omega⟩
  · simp only [Nat.pow_eq]
    exact ⟨by omega, by omega⟩

theorem mul_two_pow_lt {m m' e e' : Nat} (hm : m < m') (he : e ≤ e') : m * 2 ^ e < m' * 2 ^ e' :=
  Nat.mul_lt_mul_of_lt_of_le hm (Nat.pow_le_pow_right (by decide) he) (Nat.two_pow_pos _)

/-- A fraction of a power of two as a decimal, if its order is not far outside the range. -/
theorem ofDigits_mul_five_pow {num n : Nat} (hnum : num ≠ 0) (hn : 0 < n)
    (hlow : 10 ^ (n - 401) ≤ num * 5 ^ n) (hhigh : num * 5 ^ n < 10 ^ (n + 400)) :
    ofDigits false (num * 5 ^ n) (-n) = ofRatio false num (2 ^ n) := by
  have hsplit : 10 ^ n = 2 ^ n * 5 ^ n := Nat.mul_pow 2 5 n
  have hfive : 0 < 5 ^ n := Nat.pow_pos (by decide)
  have hdigits : num * 5 ^ n ≠ 0 := Nat.mul_ne_zero hnum (Nat.ne_of_gt hfive)
  have hlength : (Nat.toDigits 10 (num * 5 ^ n)).length ≤ n + 400 :=
    (Nat.length_toDigits_le_iff (by decide) (by omega)).2 hhigh
  have hlength' : n - 401 < (Nat.toDigits 10 (num * 5 ^ n)).length := by
    by_cases hzero : n - 401 = 0
    · rw [hzero]
      exact Nat.length_toDigits_pos
    · refine Nat.not_le.1 fun h => ?_
      rw [Nat.length_toDigits_le_iff (by decide) (by omega)] at h
      omega
  have hexponent : (- -(n : Int)).toNat = n := by omega
  rw [ofDigits, if_neg hdigits]
  simp only
  rw [if_neg (by omega), if_neg (by omega), if_neg (by omega), hexponent, Nat.pow_eq, hsplit,
    ofRatio_mul_right _ _ _ hfive]

/-- **The digits that are chosen for a number stand for it.** -/
theorem ofDigits_shortest {x : Binary64} (hsign : x.bits.toNat < 2 ^ 63)
    (hfinite : x.isFinite = true) (hx : x.bits.toNat ≠ 0) :
    ofDigits false x.shortest.1 x.shortest.2 = x := by
  simp only [shortest]
  split
  next found h =>
    exact eq_of_beq (List.find?_some (p := fun y : Nat × Int => ofDigits false y.1 y.2 == x) h)
  · have hratio := ofRatio_magnitude hsign hfinite hx
    obtain ⟨hm, he⟩ := magnitude_lt hfinite
    have hnum : x.magnitude.1 * 2 ^ x.magnitude.2 ≠ 0 := by
      intro h
      rw [h, ofRatio, if_pos rfl] at hratio
      rw [← hratio] at hx
      exact hx (toNat_ofParts (by decide) false)
    have hlt := mul_two_pow_lt hm he
    have hlow : 10 ^ (unitBits - 401) ≤ x.magnitude.1 * 2 ^ x.magnitude.2 * 5 ^ unitBits := by
      have hpow : 10 ^ (unitBits - 401) ≤ 5 ^ unitBits := by decide +kernel
      exact Nat.le_trans hpow (Nat.le_mul_of_pos_left _ (Nat.pos_of_ne_zero hnum))
    have hhigh : x.magnitude.1 * 2 ^ x.magnitude.2 * 5 ^ unitBits < 10 ^ (unitBits + 400) := by
      have hpow : 2 ^ 53 * 2 ^ 2045 * 5 ^ unitBits < 10 ^ (unitBits + 400) := by decide +kernel
      exact Nat.lt_of_le_of_lt (Nat.mul_le_mul_right _ (Nat.le_of_lt hlt)) hpow
    exact (ofDigits_mul_five_pow hnum (by decide +kernel) hlow hhigh).trans hratio

/-! ## Reading a layout -/

theorem digitsValue_eq (s : List Char) : digitsValue s = Nat.ofDigitChars 10 s 0 := by
  rw [digitsValue, Nat.ofDigitChars_eq_foldl]
  congr 1
  funext n c
  rw [Nat.mul_comm]

theorem digitsValue_toDigits (d : Nat) : digitsValue (Nat.toDigits 10 d) = d := by
  rw [digitsValue_eq, Nat.ofDigitChars_ten_toDigits]

theorem digitsValue_append_zeros (s : List Char) (k : Nat) :
    digitsValue (s ++ List.replicate k '0') = digitsValue s * 10 ^ k := by
  rw [digitsValue_eq, digitsValue_eq, Nat.ofDigitChars_append, Nat.ofDigitChars_replicate_zero,
    Nat.mul_comm]

theorem digitsValue_zeros_append (s : List Char) (k : Nat) :
    digitsValue (List.replicate k '0' ++ s) = digitsValue s := by
  rw [digitsValue_eq, digitsValue_eq, Nat.ofDigitChars_append, Nat.ofDigitChars_replicate_zero,
    Nat.mul_zero]

/-- Decimal digits, at least one. -/
theorem isNumeral_iff {s : List Char} :
    isNumeral s = true ↔ s ≠ [] ∧ ∀ c ∈ s, c.isDigit = true := by
  have hdigit (c : Char) : ('0' ≤ c && c ≤ '9') = c.isDigit := by
    rw [Bool.eq_iff_iff]
    simp [Char.isDigit, Char.le_def]
  simp [isNumeral, hdigit]

theorem isNumeral_toDigits (d : Nat) : isNumeral (Nat.toDigits 10 d) = true :=
  isNumeral_iff.2 ⟨Nat.toDigits_ne_nil, fun _ => Nat.isDigit_of_mem_toDigits (by decide) (by decide)⟩

theorem isMark_of_isDigit {c : Char} (h : c.isDigit = true) : isMark c = false := by
  have he : c ≠ 'e' := by rintro rfl; cases h
  have hE : c ≠ 'E' := by rintro rfl; cases h
  simp [isMark, he, hE]

theorem ne_point_of_isDigit {c : Char} (h : c.isDigit = true) : (c != '.') = true := by
  have hpoint : c ≠ '.' := by rintro rfl; cases h
  simp [hpoint]

/-- The parts of decimal notation are found: the digits on both sides of the point, of which there
    are none after it if there is no point, and the exponent. -/
theorem ofUnsigned?_eq (negative : Bool) (whole part : List Char) {point tail : List Char} {k : Int}
    (hdigits : isNumeral (whole ++ part) = true) (hpoint : point = ['.'] ∨ point = [] ∧ part = [])
    (htail : ∀ c ∈ tail.head?, isMark c = true) (hk : exponent? tail = some k) :
    ofUnsigned? negative (whole ++ point ++ part ++ tail) =
      some (ofDigits negative (digitsValue (whole ++ part)) (k - part.length)) := by
  have hall := (isNumeral_iff.1 hdigits).2
  have hmantissa : ∀ c ∈ whole ++ point ++ part, (!isMark c) = true := by
    intro c hc
    simp only [List.mem_append] at hc
    rw [Bool.not_eq_true']
    rcases hc with (hc | hc) | hc
    · exact isMark_of_isDigit (hall c (List.mem_append_left _ hc))
    · rcases hpoint with rfl | ⟨rfl, -⟩
      · rw [List.mem_singleton.1 hc]
        rfl
      · exact absurd hc (List.not_mem_nil)
    · exact isMark_of_isDigit (hall c (List.mem_append_right _ hc))
  have hwhole : ∀ c ∈ whole, (c != '.') = true := fun c hc =>
    ne_point_of_isDigit (hall c (List.mem_append_left _ hc))
  have htake : tail.takeWhile (!isMark ·) = [] := by
    cases tail with
    | nil => rfl
    | cons c tail => exact List.takeWhile_cons_of_neg (by simp [htail c rfl])
  have hdrop : tail.dropWhile (!isMark ·) = tail := by
    cases tail with
    | nil => rfl
    | cons c tail => exact List.dropWhile_cons_of_neg (by simp [htail c rfl])
  have hsplit : (point ++ part).takeWhile (· != '.') = [] ∧
      ((point ++ part).dropWhile (· != '.')).drop 1 = part := by
    rcases hpoint with rfl | ⟨rfl, rfl⟩
    · exact ⟨rfl, rfl⟩
    · exact ⟨rfl, rfl⟩
  have hbefore : (whole ++ point ++ part ++ tail).takeWhile (!isMark ·) = whole ++ (point ++ part) := by
    rw [List.takeWhile_append_of_pos hmantissa, htake, List.append_nil, List.append_assoc]
  have hafter : (whole ++ point ++ part ++ tail).dropWhile (!isMark ·) = tail := by
    rw [List.dropWhile_append_of_pos hmantissa, hdrop]
  simp only [ofUnsigned?, hbefore, hafter, hk, Option.map_some, List.takeWhile_append_of_pos hwhole,
    hsplit.1, List.dropWhile_append_of_pos hwhole, hsplit.2, List.append_nil, hdigits, Bool.not_true,
    Bool.false_eq_true, if_false]

/-- A digit is no sign. -/
theorem takeSign_of_isDigit {c : Char} (hc : c.isDigit = true) (rest : List Char) :
    takeSign (c :: rest) = (false, c :: rest) := by
  have hminus : c ≠ '-' := by rintro rfl; cases hc
  have hplus : c ≠ '+' := by rintro rfl; cases hc
  rw [takeSign]
  · exact fun _ h => hminus (List.cons.inj h).1
  · exact fun _ h => hplus (List.cons.inj h).1

/-- An exponent is read as what it was written for. -/
theorem exponent?_toString (k : Int) : exponent? ('e' :: (toString k).toList) = some k := by
  rw [Text.toList_toString_int, Text.toList_toString, Text.toList_toString]
  split
  next h =>
    have hsign : takeSign (Nat.toDigits 10 k.toNat) = (false, Nat.toDigits 10 k.toNat) := by
      obtain ⟨hne, hall⟩ := isNumeral_iff.1 (isNumeral_toDigits k.toNat)
      obtain ⟨c, rest, hcons⟩ := List.exists_cons_of_ne_nil hne
      rw [hcons]
      exact takeSign_of_isDigit (hall c (hcons ▸ List.mem_cons_self)) rest
    simp only [exponent?, hsign, isNumeral_toDigits, if_true, digitsValue_toDigits,
      Bool.false_eq_true, if_false, Int.toNat_of_nonneg h]
  next h =>
    have hk : -((-k).toNat : Int) = k := by omega
    simp only [exponent?, takeSign, isNumeral_toDigits, if_true, digitsValue_toDigits, hk]

theorem isNumeral_append_zeros {digits : List Char} (h : isNumeral digits = true) (n : Nat) :
    isNumeral (digits ++ List.replicate n '0') = true := by
  obtain ⟨hne, hall⟩ := isNumeral_iff.1 h
  refine isNumeral_iff.2 ⟨List.append_ne_nil_of_left_ne_nil hne _,
    List.forall_mem_append.2 ⟨hall, ?_⟩⟩
  intro c hc
  rw [List.eq_of_mem_replicate hc]
  rfl

theorem isNumeral_zeros_append {digits : List Char} (h : isNumeral digits = true) (n : Nat) :
    isNumeral (List.replicate n '0' ++ digits) = true := by
  obtain ⟨hne, hall⟩ := isNumeral_iff.1 h
  refine isNumeral_iff.2 ⟨List.append_ne_nil_of_right_ne_nil _ hne,
    List.forall_mem_append.2 ⟨?_, hall⟩⟩
  intro c hc
  rw [List.eq_of_mem_replicate hc]
  rfl

/-- **A layout is read as the digits it was made from.** -/
theorem ofUnsigned?_layout (negative : Bool) (d : Nat) (e : Int) :
    ofUnsigned? negative (layout d e) = some (ofDigits negative d e) := by
  have hnumeral := isNumeral_toDigits d
  have hvalue := digitsValue_toDigits d
  have hzero : ∀ c ∈ ([] : List Char).head?, isMark c = true := nofun
  have hmark (s : List Char) : ∀ c ∈ ('e' :: s).head?, isMark c = true := by
    rintro c ⟨⟩
    rfl
  unfold layout
  generalize Nat.toDigits 10 d = digits at hnumeral hvalue
  have hne : digits ≠ [] := (isNumeral_iff.1 hnumeral).1
  simp only [Bool.and_eq_true, decide_eq_true_eq]
  split_ifs with h₁ h₂ h₃
  · -- The digits end at the point or before it: zeros move from the exponent to the digits.
    have hzeros : digits ++ List.replicate e.toNat '0' ++ ['0'] =
        digits ++ List.replicate (e.toNat + 1) '0' := by
      rw [List.append_assoc, List.replicate_succ']
    have hdigits : isNumeral (digits ++ List.replicate e.toNat '0' ++ ['0']) = true := by
      rw [hzeros]
      exact isNumeral_append_zeros hnumeral _
    have hread := ofUnsigned?_eq negative _ _ hdigits (Or.inl rfl) hzero (k := 0) rfl
    have he : (0 - ((['0'] : List Char).length : Int)) + (e.toNat + 1 : Nat) = e := by
      simp only [List.length_singleton]
      omega
    rw [hzeros, digitsValue_append_zeros, ofDigits_mul_pow, hvalue, he, List.append_nil] at hread
    simpa using hread
  · -- The point is among the digits.
    have hpart : (digits.drop (e + digits.length).toNat).length = -e := by
      rw [List.length_drop]
      omega
    have hdigits : isNumeral (digits.take (e + digits.length).toNat ++
        digits.drop (e + digits.length).toNat) = true := by
      rwa [List.take_append_drop]
    have hread := ofUnsigned?_eq negative _ _ hdigits (Or.inl rfl) hzero (k := 0) rfl
    rw [List.take_append_drop, hvalue, hpart, List.append_nil, Int.zero_sub, Int.neg_neg] at hread
    simpa using hread
  · -- The point is in front of the digits.
    have hzeros : ['0'] ++ (List.replicate (-(e + digits.length)).toNat '0' ++ digits) =
        List.replicate ((-(e + digits.length)).toNat + 1) '0' ++ digits := by
      rw [List.replicate_succ]
      rfl
    have hdigits : isNumeral
        (['0'] ++ (List.replicate (-(e + digits.length)).toNat '0' ++ digits)) = true := by
      rw [hzeros]
      exact isNumeral_zeros_append hnumeral _
    have hread := ofUnsigned?_eq negative _ _ hdigits (Or.inl rfl) hzero (k := 0) rfl
    have he : 0 - ((List.replicate (-(e + digits.length)).toNat '0' ++ digits).length : Int) = e := by
      rw [List.length_append, List.length_replicate]
      omega
    rw [hzeros, digitsValue_zeros_append, hvalue, he, List.append_nil] at hread
    simpa using hread
  · -- An exponent.
    match digits with
    | [] => exact absurd rfl hne
    | [digit] =>
      have hread := ofUnsigned?_eq negative [digit] [] hnumeral (Or.inr ⟨rfl, rfl⟩) (hmark _)
        (exponent?_toString (e + 1 - 1))
      have he : e + 1 - 1 - (([] : List Char).length : Int) = e := by
        simp only [List.length_nil]
        omega
      rw [he, List.append_nil, List.append_nil, hvalue] at hread
      exact hread
    | digit :: d' :: others =>
      have hread := ofUnsigned?_eq negative [digit] (d' :: others) hnumeral (Or.inl rfl) (hmark _)
        (exponent?_toString (e + (digit :: d' :: others).length - 1))
      have he : e + ((digit :: d' :: others).length : Int) - 1 - (d' :: others).length = e := by
        simp only [List.length_cons]
        omega
      have hdigits : digitsValue ([digit] ++ d' :: others) = d := hvalue
      rw [he, hdigits] at hread
      exact hread

/-! ## The whole way -/

theorem withoutTrailingZeros_eq (fuel d : Nat) (e : Int) :
    ∃ k : Nat, d = (withoutTrailingZeros fuel (d, e)).1 * 10 ^ k ∧
      (withoutTrailingZeros fuel (d, e)).2 = e + k := by
  induction fuel generalizing d e with
  | zero => exact ⟨0, by simp [withoutTrailingZeros], by simp [withoutTrailingZeros]⟩
  | succ fuel ih =>
    rw [withoutTrailingZeros]
    split
    next h =>
      obtain ⟨k, hd, he⟩ := ih (d / 10) (e + 1)
      simp only [Bool.and_eq_true, beq_iff_eq] at h
      refine ⟨k + 1, ?_, by omega⟩
      rw [Nat.pow_succ, ← Nat.mul_assoc, ← hd]
      omega
    · exact ⟨0, by simp, by simp⟩

/-- A layout starts with a digit. -/
theorem exists_layout_cons (d : Nat) (e : Int) :
    ∃ c rest, layout d e = c :: rest ∧ c.isDigit = true := by
  obtain ⟨hne, hall⟩ := isNumeral_iff.1 (isNumeral_toDigits d)
  unfold layout
  generalize Nat.toDigits 10 d = digits at hne hall
  obtain ⟨c, rest, rfl⟩ := List.exists_cons_of_ne_nil hne
  have hc := hall c List.mem_cons_self
  simp only [Bool.and_eq_true, decide_eq_true_eq]
  split_ifs with h₁ h₂ h₃
  · exact ⟨c, _, rfl, hc⟩
  · obtain ⟨n, hn⟩ : ∃ n, (e + (c :: rest).length).toNat = n + 1 :=
      ⟨(e + (c :: rest).length).toNat - 1, by omega⟩
    rw [hn]
    exact ⟨c, _, rfl, hc⟩
  · exact ⟨'0', _, rfl, rfl⟩
  · cases rest with
    | nil => exact ⟨c, _, rfl, hc⟩
    | cons d rest => exact ⟨c, _, rfl, hc⟩

/-- A character of a decimal. -/
def isDecimalChar (c : Char) : Bool := c.isDigit || c == '.' || c == 'e' || c == '-'

theorem all_append {f : Char → Bool} {s t : List Char} (h : ∀ c ∈ s, f c = true)
    (h' : ∀ c ∈ t, f c = true) : ∀ c ∈ s ++ t, f c = true :=
  fun c hc => (List.mem_append.1 hc).elim (h c) (h' c)

/-- Decimals hold no other characters. -/
theorem isDecimalChar_of_mem_layout (d : Nat) (e : Int) : ∀ c ∈ layout d e, isDecimalChar c = true := by
  have hdigit {c : Char} (h : c.isDigit = true) : isDecimalChar c = true := by simp [isDecimalChar, h]
  have hdigits : ∀ c ∈ Nat.toDigits 10 d, isDecimalChar c = true := fun c hc =>
    hdigit (Nat.isDigit_of_mem_toDigits (by decide) (by decide) hc)
  have hzeros (n : Nat) : ∀ c ∈ List.replicate n '0', isDecimalChar c = true := by
    intro c hc
    rw [List.eq_of_mem_replicate hc]
    rfl
  have hpower (k : Int) : ∀ c ∈ (toString k).toList, isDecimalChar c = true := by
    intro c hc
    rcases Text.mem_toString_int hc with h | rfl
    · exact hdigit (by simpa [Text.isDigit, Char.isDigit, Char.le_def] using h)
    · rfl
  unfold layout
  simp only
  split_ifs
  · exact all_append (all_append hdigits (hzeros _)) (List.all_eq_true.1 rfl)
  · exact all_append (fun c hc => hdigits c (List.mem_of_mem_take hc))
      (List.forall_mem_cons.2 ⟨rfl, fun c hc => hdigits c (List.mem_of_mem_drop hc)⟩)
  · exact all_append (all_append (List.all_eq_true.1 rfl) (hzeros _)) hdigits
  · generalize Nat.toDigits 10 d = digits at hdigits
    match digits, hdigits with
    | [], _ => exact hpower _
    | [c], h => exact all_append h (List.forall_mem_cons.2 ⟨rfl, hpower _⟩)
    | c :: c' :: rest, h =>
      obtain ⟨hc, hrest⟩ := List.forall_mem_cons.1 h
      exact List.forall_mem_cons.2 ⟨hc, List.forall_mem_cons.2 ⟨rfl,
        all_append hrest (List.forall_mem_cons.2 ⟨rfl, hpower _⟩)⟩⟩

theorem ofDecimal?_signed (negative : Bool) {c : Char} {rest : List Char} (hc : c.isDigit = true) :
    ofDecimal? ((if negative then ['-'] else []) ++ c :: rest) = ofUnsigned? negative (c :: rest) := by
  cases negative with
  | false => simp [ofDecimal?, takeSign_of_isDigit hc]
  | true => rfl

/-- **The decimal that is written for a finite number reads back as that number.** -/
theorem ofDecimal?_decimal {x : Binary64} (h : x.isFinite = true) :
    ofDecimal? x.decimal = some x := by
  have hx := ofParts_isNegative x
  have hw : x.bits.toNat % 2 ^ 63 < 2 ^ 63 := Nat.mod_lt _ (by decide)
  have hbits := toNat_ofParts hw false
  simp only [Bool.false_eq_true, if_false, Nat.zero_add] at hbits
  simp only [decimal, Nat.pow_eq]
  split
  next hzero =>
    have hw0 : x.bits.toNat % 2 ^ 63 = 0 := by
      rw [← hbits, hzero]
      rfl
    have hread : ofUnsigned? x.isNegative ['0', '.', '0'] = some (ofParts x.isNegative 0) :=
      ofUnsigned?_layout x.isNegative 0 0
    rw [hw0] at hx
    rw [ofDecimal?_signed _ rfl, hread, hx]
  next hzero =>
    have hnonzero : (ofParts false (x.bits.toNat % 2 ^ 63)).bits.toNat ≠ 0 := by
      intro h
      exact hzero (UInt64.toNat_inj.1 h)
    have hfinite : (ofParts false (x.bits.toNat % 2 ^ 63)).isFinite = true := by
      simp only [isFinite, exponentBits, hbits, Nat.pow_eq] at h ⊢
      rwa [show x.bits.toNat % 2 ^ 63 / 2 ^ 52 % 2 ^ 11 = x.bits.toNat / 2 ^ 52 % 2 ^ 11 by omega]
    have hshortest := ofDigits_shortest (by rwa [hbits]) hfinite hnonzero
    obtain ⟨k, hd, he⟩ := withoutTrailingZeros_eq 800
      (ofParts false (x.bits.toNat % 2 ^ 63)).shortest.1
      (ofParts false (x.bits.toNat % 2 ^ 63)).shortest.2
    rw [hd, ofDigits_mul_pow, ← he] at hshortest
    obtain ⟨c, rest, hcons, hc⟩ := exists_layout_cons _ _
    rw [hcons, ofDecimal?_signed _ hc, ← hcons, ofUnsigned?_layout,
      ofDigits_eq_ofParts hw hshortest, hx]

end Reimage.Binary64
