/-
  Trimming, cutting once and cutting into lines.

  * `trimChars_pad`: white space around a text does not matter to trimming, and
    `trimChars_of_ends`: a text that neither begins nor ends with white space is left as it is;
  * `containsChars_iff`: what occurs in a text is a part of it;
  * `splitOnceChars_eq_some_iff`: where a text is cut at the first of some character;
  * `lineChars_cons`: a line that is ended is the first of the lines.
-/
import Mathlib.Data.List.DropRight
import Reimage.Text.Blank

namespace Reimage.Text

/-! ## Trimming -/

/-- A text of white space. -/
def Blank (s : List Char) : Prop := ∀ c ∈ s, isBlank c = true

instance (s : List Char) : Decidable (Blank s) := List.decidableBAll _ _

theorem dropEndWhile_append {p : Char → Bool} {s v : List Char} (hv : ∀ c ∈ v, p c = true) :
    dropEndWhile p (s ++ v) = dropEndWhile p s := by
  rw [dropEndWhile, List.reverse_append, List.dropWhile_append_of_pos (by simpa using hv),
    dropEndWhile]

/-- A text that does not end with what would be dropped stays. -/
theorem dropEndWhile_concat {p : Char → Bool} {s : List Char} {c : Char} (h : p c = false) :
    dropEndWhile p (s ++ [c]) = s ++ [c] :=
  List.rdropWhile_concat_neg p s c (by simp [h])

/-- White space around a text does not matter. -/
theorem trimChars_pad {u s v : List Char} (hu : Blank u) (hv : Blank v) :
    trimChars (u ++ s ++ v) = trimChars s := by
  rw [List.append_assoc, trimChars, List.dropWhile_append_of_pos hu, List.dropWhile_append]
  split
  · rename_i hs
    rw [trimChars, List.isEmpty_iff.1 hs, List.dropWhile_eq_nil_iff.2 hv]
  · rw [dropEndWhile_append hv, trimChars]

/-- A text that neither begins nor ends with white space is left as it is. -/
theorem trimChars_of_ends {s u v : List Char} {c d : Char} (hfirst : s = c :: u)
    (hlast : s = v ++ [d]) (hc : isBlank c = false) (hd : isBlank d = false) :
    trimChars s = s := by
  have hdrop : s.dropWhile isBlank = s := by
    rw [hfirst]
    exact List.dropWhile_cons_of_neg (by simp [hc])
  rw [trimChars, hdrop, hlast]
  exact dropEndWhile_concat hd

/-- What trimming removes is white space around the text. -/
theorem exists_trimChars (s : List Char) :
    ∃ u v, s = u ++ trimChars s ++ v ∧ Blank u ∧ Blank v := by
  refine ⟨s.takeWhile isBlank, (s.dropWhile isBlank).rtakeWhile isBlank, ?_, ?_, ?_⟩
  · rw [List.append_assoc]
    conv_lhs => rw [← List.takeWhile_append_dropWhile (p := isBlank) (l := s),
      ← List.rdropWhile_append_rtakeWhile (p := isBlank) (l := s.dropWhile isBlank)]
    rfl
  · exact fun c hc => List.mem_takeWhile_imp hc
  · exact fun c hc => List.mem_rtakeWhile_imp hc

/-- A carriage return at the end is white space. -/
theorem trimChars_dropReturn (s : List Char) : trimChars (dropReturn s) = trimChars s := by
  rw [dropReturn]
  split
  · rename_i rest h
    have hs : s = rest.reverse ++ ['\r'] := by
      rw [← List.reverse_inj, h]
      simp
    rw [hs]
    exact (trimChars_pad (u := []) (by simp [Blank]) (by decide)).symm
  · rfl

/-! ## Occurrences -/

/-- A text occurs in another if it is a part of it. -/
theorem containsChars_iff {needle s : List Char} :
    containsChars needle s = true ↔ needle <:+: s := by
  induction s with
  | nil => simp [containsChars]
  | cons c s ih => rw [containsChars, Bool.or_eq_true, ih, List.isPrefixOf_iff_prefix,
      List.infix_cons_iff]

/-! ## Cutting once -/

variable {sep : Char} {s u v : List Char}

/-- A text is cut at the first occurrence. -/
theorem splitOnceChars_eq_some_iff :
    splitOnceChars sep s = some (u, v) ↔ s = u ++ sep :: v ∧ sep ∉ u := by
  induction s generalizing u with
  | nil => simp [splitOnceChars]
  | cons c s ih =>
    rw [splitOnceChars]
    split
    · rename_i hc
      subst hc
      cases u with
      | nil => simp [eq_comm]
      | cons d u =>
        refine iff_of_false (by simp) ?_
        rintro ⟨hs, hu⟩
        exact hu (by simp [(List.cons.inj hs).1])
    · rename_i hc
      rw [Option.map_eq_some_iff]
      constructor
      · rintro ⟨⟨u', v'⟩, h, he⟩
        cases he
        obtain ⟨rfl, hu⟩ := ih.1 h
        exact ⟨rfl, by simpa [Ne.symm hc] using hu⟩
      · rintro ⟨hs, hu⟩
        cases u with
        | nil => exact absurd (List.cons.inj hs).1 hc
        | cons d u =>
          obtain ⟨rfl, rfl⟩ := List.cons.inj hs
          exact ⟨(u, v), ih.2 ⟨rfl, fun h => hu (List.mem_cons_of_mem _ h)⟩, rfl⟩

/-! ## Lines -/

theorem splitChars_ne_nil (sep : Char) (s : List Char) : splitChars sep s ≠ [] := by
  cases s with
  | nil => simp [splitChars]
  | cons c s =>
    rw [splitChars]
    split
    · simp
    · split <;> simp

theorem splitChars_of_notMem (h : sep ∉ s) : splitChars sep s = [s] := by
  induction s with
  | nil => rfl
  | cons c s ih =>
    rw [List.mem_cons, not_or] at h
    rw [splitChars, if_neg (Ne.symm h.1), ih h.2]

theorem splitChars_append (h : sep ∉ u) :
    splitChars sep (u ++ sep :: v) = u :: splitChars sep v := by
  induction u with
  | nil => simp [splitChars]
  | cons c u ih =>
    rw [List.mem_cons, not_or] at h
    rw [List.cons_append, splitChars, if_neg (Ne.symm h.1), ih h.2]

/-- A line that is ended is the first of the lines. -/
theorem lineChars_cons (h : '\n' ∉ u) :
    lineChars (u ++ '\n' :: v) = dropReturn u :: lineChars v := by
  rw [lineChars, splitChars_append h, lineChars]
  obtain ⟨part, parts, hparts⟩ := List.exists_cons_of_ne_nil (splitChars_ne_nil '\n' v)
  rw [hparts]
  rfl

/-- A line that is not ended is the only one, unless it is empty. -/
theorem lineChars_of_notMem (h : '\n' ∉ u) : lineChars u = if u = [] then [] else [u] := by
  rw [lineChars, splitChars_of_notMem h]
  cases u <;> rfl

end Reimage.Text
