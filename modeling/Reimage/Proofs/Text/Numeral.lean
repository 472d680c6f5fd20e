/-
  Numbers in decimal.

  * `isDigit_of_mem_toString`, `mem_toString_int`: what is written of a number are digits, and a
    minus sign if it is negative;
  * `not_zero_cons`: no zero stands in front of other digits;
  * `readNumeral_toString`: a number below the limit is read as what it was written for;
  * `toString_inj`, `toString_int_inj`: so different numbers are written differently.
-/
import Reimage.Text.Numeral

namespace Reimage.Text

theorem toList_toString (n : Nat) : (toString n).toList = Nat.toDigits 10 n := by
  rw [Nat.toString_eq_repr, Nat.repr_eq_ofList_toDigits, String.toList_ofList]

/-- What is written of a number are digits. -/
theorem isDigit_of_mem_toString {n : Nat} {c : Char} (h : c ∈ (toString n).toList) :
    isDigit c = true := by
  rw [toList_toString] at h
  exact Nat.isDigit_of_mem_toDigits (by decide) (by decide) h

theorem le_ofDigitChars (digits : List Char) (n : Nat) : n ≤ Nat.ofDigitChars 10 digits n := by
  induction digits generalizing n with
  | nil => exact Nat.le_refl n
  | cons c digits ih =>
    rw [Nat.ofDigitChars_cons]
    exact Nat.le_trans (by omega) (ih _)

/-- The first digit of a number is not zero. The induction goes from a number to what is left of it
    without its last digit. -/
theorem toDigits_ne_zero_cons {n : Nat} (hn : 0 < n) (rest : List Char) :
    Nat.toDigits 10 n ≠ '0' :: rest := by
  induction n using Nat.strongRecOn generalizing rest with
  | ind n ih =>
    intro h
    rcases Nat.lt_or_ge n 10 with hlt | hle
    · have hdigit : ∀ d < 10, 0 < d → Nat.digitChar d ≠ '0' := by decide
      rw [Nat.toDigits_of_lt_base hlt] at h
      exact hdigit n hlt hn (List.cons.inj h).1
    · obtain ⟨c, digits, hcons⟩ :=
        List.exists_cons_of_ne_nil (Nat.toDigits_ne_nil (n := n / 10) (b := 10))
      rw [Nat.toDigits_of_base_le (by decide) hle, hcons, List.cons_append] at h
      exact ih (n / 10) (by omega) (by omega) digits ((List.cons.inj h).1 ▸ hcons)

/-- No zero stands in front of other digits. -/
theorem not_zero_cons {n : Nat} {c : Char} {rest : List Char} :
    Nat.toDigits 10 n ≠ '0' :: c :: rest := by
  rcases Nat.eq_zero_or_pos n with rfl | hn
  · rw [Nat.toDigits_zero]
    nofun
  · exact toDigits_ne_zero_cons hn _

/-- Digits are read as the number they stand for, if that is below the limit. -/
theorem readDigits_eq {limit n : Nat} {digits : List Char}
    (hdigits : ∀ c ∈ digits, isDigit c = true) (h : Nat.ofDigitChars 10 digits n < limit) :
    readDigits limit n digits = .ok (Nat.ofDigitChars 10 digits n) := by
  induction digits generalizing n with
  | nil => rfl
  | cons c digits ih =>
    obtain ⟨hc, hrest⟩ := List.forall_mem_cons.1 hdigits
    have hnext : n * 10 + (c.toNat - '0'.toNat) = 10 * n + (c.toNat - '0'.toNat) := by
      rw [Nat.mul_comm]
    rw [Nat.ofDigitChars_cons] at h ⊢
    have hlt := Nat.lt_of_le_of_lt (le_ofDigitChars digits _) h
    simp only [readDigits, hc, Bool.not_true, Bool.false_eq_true, if_false, hnext]
    rw [if_neg (Nat.not_le.2 hlt), ih hrest h]

/-- **A number is read as what it was written for**, if it is below the limit. -/
theorem readNumeral_toString {limit n : Nat} (h : n < limit) :
    readNumeral limit (toString n).toList = .ok n := by
  have hdigits : ∀ c ∈ (toString n).toList, isDigit c = true := fun c => isDigit_of_mem_toString
  have hn : Nat.ofDigitChars 10 (toString n).toList 0 = n := by
    rw [toList_toString]
    exact Nat.ofDigitChars_toDigits (by decide) (by decide)
  have hread : readDigits limit 0 _ = _ := readDigits_eq hdigits (by rwa [hn])
  rw [hn] at hread
  unfold readNumeral
  split
  · rename_i hnil
    rw [toList_toString] at hnil
    exact absurd hnil Nat.toDigits_ne_nil
  · rename_i hplus
    rw [hplus] at hdigits
    exact absurd (hdigits '+' (List.mem_singleton_self _)) (by decide)
  · rename_i digits hplus
    rw [hplus] at hdigits
    exact absurd (hdigits '+' List.mem_cons_self) (by decide)
  · exact hread

/-- Different numbers are written differently. -/
theorem toString_inj {m n : Nat} (h : toString m = toString n) : m = n := by
  have hread := readNumeral_toString (Nat.lt_add_one_of_le (Nat.le_max_left m n))
  rw [h, readNumeral_toString (Nat.lt_add_one_of_le (Nat.le_max_right m n))] at hread
  exact (Except.ok.inj hread).symm

/-! ## Numbers with a sign -/

theorem toList_toString_int (n : Int) : (toString n).toList =
    if 0 ≤ n then (toString n.toNat).toList else '-' :: (toString (-n).toNat).toList := by
  rw [Int.toString_eq_repr, Int.repr_eq_if]
  split
  · rw [Nat.toString_eq_repr]
  · rw [Nat.toString_eq_repr, String.toList_append]
    rfl

theorem mem_toString_int {n : Int} {c : Char} (h : c ∈ (toString n).toList) :
    isDigit c = true ∨ c = '-' := by
  rw [toList_toString_int] at h
  split at h
  · exact Or.inl (isDigit_of_mem_toString h)
  · rcases List.mem_cons.1 h with rfl | h
    · exact Or.inr rfl
    · exact Or.inl (isDigit_of_mem_toString h)

theorem toString_int_inj {m n : Int} (h : toString m = toString n) : m = n := by
  have hsign : ∀ k l : Nat, (toString k).toList ≠ '-' :: (toString l).toList := by
    intro k l he
    have hminus : '-' ∈ (toString k).toList := he ▸ List.mem_cons_self
    exact absurd (isDigit_of_mem_toString hminus) (by decide)
  have hlist := congrArg String.toList h
  rw [toList_toString_int, toList_toString_int] at hlist
  split at hlist <;> split at hlist
  · have := toString_inj (String.toList_inj.1 hlist)
    omega
  · exact absurd hlist (hsign _ _)
  · exact absurd hlist.symm (hsign _ _)
  · have := toString_inj (String.toList_inj.1 (List.cons.inj hlist).2)
    omega

end Reimage.Text
