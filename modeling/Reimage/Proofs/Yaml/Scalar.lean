/-
  Numbers that are written as plain scalars read back.

  * `readUnsigned?_toString`: an unsigned integer below the limit;
  * `readFloat?_floatText`: a floating point number, infinite or not.
-/
import Reimage.Proofs.Binary64
import Reimage.Yaml.Scalar

namespace Reimage.Yaml

/-! ## Integers -/

/-- A digit is no sign. -/
theorem after_of_isDigit {c : Char} (hc : c.isDigit = true) (rest : List Char) :
    afterPlus (c :: rest) = c :: rest ∧ afterSign (c :: rest) = c :: rest := by
  have hminus : c ≠ '-' := by rintro rfl; cases hc
  have hplus : c ≠ '+' := by rintro rfl; cases hc
  constructor
  · rw [afterPlus]
    exact fun _ h => hplus (List.cons.inj h).1
  · rw [afterSign]
    · exact fun _ h => hminus (List.cons.inj h).1
    · exact fun _ h => hplus (List.cons.inj h).1

theorem readMarked?_of_ne {limit : Nat} {s : List Char} (h : ∀ c rest, s ≠ '0' :: c :: rest) :
    readMarked? limit s = none := by
  unfold readMarked?
  split
  · exact absurd rfl (h _ _)
  · rfl

theorem digit?_ten {c : Char} (h : c.isDigit = true) : digit? 10 c = some (c.toNat - '0'.toNat) := by
  have hrange : ('0' ≤ c && c ≤ '9') = true := by
    simpa [Char.isDigit, Char.le_def] using h
  have hlt : c.toNat - '0'.toNat < 10 := by
    simp only [Bool.and_eq_true, decide_eq_true_eq] at hrange
    have : c.toNat ≤ 57 := hrange.2
    simp only [show '0'.toNat = 48 from rfl]
    omega
  rw [digit?, Text.hexDigit?, if_pos hrange, Option.bind_some, if_pos hlt]

theorem readBase?_ten {digits : List Char} (h : ∀ c ∈ digits, c.isDigit = true) (n : Nat) :
    readBase? 10 n digits = some (Nat.ofDigitChars 10 digits n) := by
  induction digits generalizing n with
  | nil => rfl
  | cons c digits ih =>
    obtain ⟨hc, hrest⟩ := List.forall_mem_cons.1 h
    rw [readBase?, digit?_ten hc, Option.bind_some, ih hrest, Nat.ofDigitChars_cons, Nat.mul_comm]

/-- An unsigned integer reads back as the number it was written for, if it is below the limit. -/
theorem readUnsigned?_toString {limit n : Nat} (h : n < limit) :
    readUnsigned? limit (toString n).toList = some n := by
  rw [Text.toList_toString]
  have hall : ∀ c ∈ Nat.toDigits 10 n, c.isDigit = true := fun _ =>
    Nat.isDigit_of_mem_toDigits (by decide) (by decide)
  have hvalue : Nat.ofDigitChars 10 (Nat.toDigits 10 n) 0 = n := Nat.ofDigitChars_ten_toDigits
  have hzero : ∀ c rest, Nat.toDigits 10 n ≠ '0' :: c :: rest := fun _ _ => Text.not_zero_cons
  obtain ⟨d, rest, hcons⟩ := List.exists_cons_of_ne_nil (Nat.toDigits_ne_nil (n := n) (b := 10))
  rw [hcons] at hall hvalue hzero ⊢
  obtain ⟨hplus, hsign⟩ := after_of_isDigit (hall d List.mem_cons_self) rest
  have hpadded : isPadded (d :: rest) = false := by
    rw [isPadded, hsign]
    cases rest with
    | nil => rfl
    | cons c rest =>
      have hd : d ≠ '0' := by
        rintro rfl
        exact hzero c rest rfl
      simp [hd]
  rw [readUnsigned?, hplus, readMarked?_of_ne hzero, hpadded]
  simp only [Bool.false_eq_true, if_false]
  rw [readNumber?, readBase?_ten hall, hvalue, Option.bind_some, if_pos h]
  rfl

/-! ## Floating point numbers -/

/-- A decimal has a digit after its sign. -/
theorem exists_decimal (x : Binary64) : ∃ c rest,
    x.decimal = (if x.isNegative then ['-'] else []) ++ c :: rest ∧ c.isDigit = true ∧
      ∀ d ∈ c :: rest, Binary64.isDecimalChar d = true := by
  simp only [Binary64.decimal]
  split
  · exact ⟨'0', _, rfl, rfl, List.all_eq_true.1 rfl⟩
  · obtain ⟨c, rest, hcons, hc⟩ := Binary64.exists_layout_cons _ _
    exact ⟨c, rest, by rw [hcons], hc, hcons ▸ Binary64.isDecimalChar_of_mem_layout _ _⟩

theorem eq_infinity {x : Binary64} (hfinite : x.isFinite = false) (hnan : x.isNaN = false) :
    x = .infinity x.isNegative := by
  have hexponent : x.bits.toNat / 2 ^ 52 % 2 ^ 11 = 2047 := by
    simpa [Binary64.isFinite, Binary64.exponentBits, Nat.pow_eq] using hfinite
  have hfraction : x.bits.toNat / 2 ^ 52 % 2 ^ 11 = 2047 → x.bits.toNat % 2 ^ 52 = 0 := by
    simpa [Binary64.isNaN, Binary64.exponentBits, Binary64.fractionBits, Nat.pow_eq] using hnan
  have hfraction := hfraction hexponent
  have hword : x.bits.toNat % 2 ^ 63 = 2047 * 2 ^ 52 := by omega
  rw [Binary64.infinity_eq, ← hword, Binary64.ofParts_isNegative]

theorem contains_ofList {ts : List String} {l : List Char} (h : ∀ t ∈ ts, t.toList ≠ l) :
    ts.contains (String.ofList l) = false := by
  rw [List.contains_eq_mem, decide_eq_false_iff_not]
  exact fun hmem => h _ hmem String.toList_ofList

/-- A decimal is no spelling of an infinity or of what is no number. -/
theorem readFloat?_decimal {x : Binary64} (h : x.isFinite = true) :
    readFloat? x.decimal = some x := by
  have hread := Binary64.ofDecimal?_decimal h
  obtain ⟨c, rest, hcons, hc, -⟩ := exists_decimal x
  have hpoint : '.' ≠ c := by rintro rfl; cases hc
  have hplus : '+' ≠ c := by rintro rfl; cases hc
  have hminus : '-' ≠ c := by rintro rfl; cases hc
  obtain ⟨hafter, -⟩ := after_of_isDigit hc rest
  have hhead : (some c == some '+') = false := beq_false_of_ne fun h => hplus (Option.some.inj h).symm
  rw [hcons] at hread ⊢
  cases hsign : x.isNegative with
  | false =>
    rw [hsign] at hread
    simp only [Bool.false_eq_true, if_false, List.nil_append] at hread ⊢
    have hinf : [".inf", ".Inf", ".INF"].contains (String.ofList (c :: rest)) = false :=
      contains_ofList (by simp [hpoint])
    have hminf : ["-.inf", "-.Inf", "-.INF"].contains (String.ofList (c :: rest)) = false :=
      contains_ofList (by simp [hminus])
    have hnan : [".nan", ".NaN", ".NAN"].contains (String.ofList (c :: rest)) = false :=
      contains_ofList (by simp [hpoint])
    simp only [readFloat?, List.head?_cons, hafter, hhead, hinf, hminf, hnan, hread, h,
      Bool.false_and, Bool.false_eq_true, if_false, Option.bind_some, if_true]
  | true =>
    rw [hsign] at hread
    simp only [if_true, List.singleton_append] at hread ⊢
    have hinf : [".inf", ".Inf", ".INF"].contains (String.ofList ('-' :: c :: rest)) = false :=
      contains_ofList (by simp)
    have hminf : ["-.inf", "-.Inf", "-.INF"].contains (String.ofList ('-' :: c :: rest)) = false :=
      contains_ofList (by simp [hpoint])
    have hnan : [".nan", ".NaN", ".NAN"].contains (String.ofList ('-' :: c :: rest)) = false :=
      contains_ofList (by simp)
    have hplus : (some '-' == some '+') = false := rfl
    have hafter : afterPlus ('-' :: c :: rest) = '-' :: c :: rest := rfl
    simp only [readFloat?, List.head?_cons, hafter, hplus, hinf, hminf, hnan, hread, h,
      Bool.false_and, Bool.false_eq_true, if_false, Option.bind_some, if_true]

/-- A number reads back as what it was written for. -/
theorem readFloat?_floatText {x : Binary64} (h : x.isNaN = false) :
    readFloat? (floatText x).toList = some x := by
  simp only [floatText, h, Bool.false_eq_true, if_false]
  split
  next hfinite => rw [String.toList_ofList, readFloat?_decimal hfinite]
  next hfinite =>
    have hx := eq_infinity (Bool.eq_false_iff.2 hfinite) h
    split
    next hsign =>
      rw [hsign] at hx
      rw [hx]
      rfl
    next hsign =>
      rw [Bool.eq_false_iff.2 hsign] at hx
      rw [hx]
      rfl

end Reimage.Yaml
