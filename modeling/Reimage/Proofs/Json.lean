/-
  What is a JSON document, and that each one is read.

  The notation leaves a writer free: white space between the parts, and escapes inside of strings.
  So a value has many texts. The relations here tell them all, from the text that is left to the
  text that is left after the value.

  * `Chars`: the characters of a string, in any way they can be written;
  * `Writes`: a value, with all that may stand in it;
  * `Writes.read`: the reader reads every value, and no more;
  * `Document.parse?`: so it reads every document;
  * `Plain.document_text`: what the writer writes on one line is one.
-/
import Mathlib.Data.List.Basic
import Reimage.Json
import Reimage.Proofs.Text.Numeral

namespace Reimage.Json

/-! ## White space -/

/-- White space, and then `rest`. -/
def Spaced (s rest : List Char) : Prop := ∃ w, s = w ++ rest ∧ ∀ c ∈ w, isSpace c = true

theorem Spaced.refl (s : List Char) : Spaced s s := ⟨[], rfl, nofun⟩

theorem Spaced.skipSpace {s rest : List Char} {c : Char} (h : Spaced s (c :: rest))
    (hc : isSpace c = false) : skipSpace s = c :: rest := by
  obtain ⟨w, rfl, hw⟩ := h
  rw [Json.skipSpace, List.dropWhile_append_of_pos hw, List.dropWhile_cons_of_neg (by simp [hc])]

theorem Spaced.skipSpace_nil {s : List Char} (h : Spaced s []) : Json.skipSpace s = [] := by
  obtain ⟨w, rfl, hw⟩ := h
  rw [Json.skipSpace, List.dropWhile_append_of_pos hw, List.dropWhile_nil]

/-! ## Strings -/

/-- A unit that is a character by itself. -/
def Whole (n : Nat) : Prop := isHigh n = false ∧ isLow n = false

/-- `Chars t s rest`: after the opening quote of a string, `t` writes the characters `s` and the
    closing quote, and then comes `rest`. -/
inductive Chars : List Char → List Char → List Char → Prop
  | done (rest : List Char) : Chars ('\x22' :: rest) [] rest
  /-- A character that stands for itself. -/
  | plain {c : Char} {t s rest : List Char} : 0x20 ≤ c.toNat → c ≠ '\x22' → c ≠ '\\' →
    Chars t s rest → Chars (c :: t) (c :: s) rest
  | short {e c : Char} {t s rest : List Char} : shortEscape? e = some c →
    Chars t s rest → Chars ('\\' :: e :: t) (c :: s) rest
  | unit {a b c d : Char} {n : Nat} {t s rest : List Char} : hexUnit? a b c d = some n → Whole n →
    Chars t s rest → Chars ('\\' :: 'u' :: a :: b :: c :: d :: t) (Char.ofNat n :: s) rest
  /-- A character that takes two units. -/
  | pair {a b c d a' b' c' d' : Char} {high low : Nat} {t s rest : List Char} :
    hexUnit? a b c d = some high → isHigh high = true →
    hexUnit? a' b' c' d' = some low → isLow low = true → Chars t s rest →
    Chars ('\\' :: 'u' :: a :: b :: c :: d :: '\\' :: 'u' :: a' :: b' :: c' :: d' :: t)
      (Char.ofNat (0x10000 + (high - 0xD800) * 0x400 + (low - 0xDC00)) :: s) rest

/-- A unit that is a character spells it, whatever comes next. -/
theorem spell_unit {n : Nat} (h : Whole n) (ps : List Piece) :
    spell (.unit n :: ps) = (spell ps).map (Char.ofNat n :: ·) := by
  obtain ⟨hhigh, hlow⟩ := h
  match ps with
  | [] | .char _ :: _ | .unit _ :: _ => simp [spell, hhigh, hlow]

/-- The reader takes the characters of a string, and stops at its closing quote. -/
theorem Chars.pieces {t s rest : List Char} (h : Chars t s rest) :
    ∃ ps, Json.pieces t = some (ps, rest) ∧ spell ps = some s := by
  induction h with
  | done rest => exact ⟨[], by simp [Json.pieces], rfl⟩
  | @plain c t s rest hc hquote hslash _ ih =>
    obtain ⟨ps, hps, hs⟩ := ih
    refine ⟨.char c :: ps, ?_, by simp [spell, hs]⟩
    have hcontrol : ¬ c.toNat < 0x20 := Nat.not_lt.2 hc
    rw [Json.pieces]
    · simp [hcontrol, hslash, hps]
    · exact hquote
    · exact fun _ _ _ _ _ h _ => hslash h
    · exact fun _ _ h _ => hslash h
  | @short e c t s rest he _ ih =>
    obtain ⟨ps, hps, hs⟩ := ih
    have hu : e ≠ 'u' := by
      rintro rfl
      cases he
    refine ⟨.char c :: ps, ?_, by simp [spell, hs]⟩
    rw [Json.pieces]
    · simp [he, hps]
    · exact fun _ _ _ _ _ h _ => hu h
  | @unit a b c d n t s rest hn hwhole _ ih =>
    obtain ⟨ps, hps, hs⟩ := ih
    exact ⟨.unit n :: ps, by simp [Json.pieces, hn, hps], by simp [spell_unit hwhole, hs]⟩
  | @pair a b c d a' b' c' d' high low t s rest hn hhigh hm hlow _ ih =>
    obtain ⟨ps, hps, hs⟩ := ih
    exact ⟨.unit high :: .unit low :: ps, by simp [Json.pieces, hn, hm, hps],
      by simp [spell, hhigh, hlow, hs]⟩

/-! ## Numbers -/

/-- Digits, at least one. -/
def Digits (ds : List Char) : Prop := ds ≠ [] ∧ ∀ c ∈ ds, c.isDigit = true

/-- Digits without a zero in front. -/
inductive Integer : List Char → Prop
  | zero : Integer ['0']
  | digits {c : Char} {ds : List Char} : c ≠ '0' → Digits (c :: ds) → Integer (c :: ds)

inductive Fraction : List Char → Prop
  | none : Fraction []
  | digits {ds : List Char} : Digits ds → Fraction ('.' :: ds)

inductive Exponent : List Char → Prop
  | none : Exponent []
  | digits {mark : Char} {sign ds : List Char} : mark = 'e' ∨ mark = 'E' →
    sign = [] ∨ sign = ['+'] ∨ sign = ['-'] → Digits ds → Exponent (mark :: (sign ++ ds))

/-- A number as it is written. -/
inductive Numeral : List Char → Prop
  | mk {sign whole part power : List Char} : sign = [] ∨ sign = ['-'] → Integer whole →
    Fraction part → Exponent power → Numeral (sign ++ (whole ++ (part ++ power)))

theorem integer_toString (n : Nat) : Integer (toString n).toList := by
  have hdigits : Digits (toString n).toList := by
    refine ⟨?_, fun _ => Text.isDigit_of_mem_toString⟩
    rw [Text.toList_toString]
    exact Nat.toDigits_ne_nil
  obtain ⟨c, ds, hcons⟩ := List.exists_cons_of_ne_nil hdigits.1
  rw [hcons] at hdigits ⊢
  by_cases hc : c = '0'
  · subst hc
    cases ds with
    | nil => exact .zero
    | cons d ds => exact absurd (Text.toList_toString n ▸ hcons) Text.not_zero_cons
  · exact .digits hc hdigits

/-- Integers are written as numbers. -/
theorem numeral_toString (n : Int) : Numeral (toString n).toList := by
  have hsigned {sign : List Char} (hsign : sign = [] ∨ sign = ['-']) (m : Nat) :
      Numeral (sign ++ (toString m).toList) := by
    simpa using Numeral.mk hsign (integer_toString m) .none .none
  rw [Text.toList_toString_int]
  split
  · exact hsigned (.inl rfl) _
  · exact hsigned (.inr rfl) _

/-- What a number cannot go on with. -/
def Ends (rest : List Char) : Prop :=
  ∀ c ∈ rest.head?, c.isDigit = false ∧ c ≠ '.' ∧ c ≠ 'e' ∧ c ≠ 'E'

theorem Ends.not_digit {rest : List Char} (h : Ends rest) : ∀ c ∈ rest.head?, c.isDigit = false :=
  fun c hc => (h c hc).1

theorem Digits.exists_cons {ds : List Char} (h : Digits ds) :
    ∃ c rest, ds = c :: rest ∧ c.isDigit = true := by
  obtain ⟨c, rest, rfl⟩ := List.exists_cons_of_ne_nil h.1
  exact ⟨c, rest, rfl, h.2 c List.mem_cons_self⟩

theorem digits1?_append {ds rest : List Char} (h : Digits ds)
    (hrest : ∀ c ∈ rest.head?, c.isDigit = false) : digits1? (ds ++ rest) = some rest := by
  obtain ⟨c, ds', rfl, hc⟩ := h.exists_cons
  have hstop : rest.dropWhile Char.isDigit = rest := by
    cases rest with
    | nil => rfl
    | cons d rest => exact List.dropWhile_cons_of_neg (by simp [hrest d rfl])
  rw [List.cons_append, digits1?, if_pos hc, ← List.cons_append,
    List.dropWhile_append_of_pos h.2, hstop]

/-- A mark is no digit. -/
theorem Exponent.not_digit {power rest : List Char} (h : Exponent power) (hrest : Ends rest) :
    ∀ c ∈ (power ++ rest).head?, c.isDigit = false := by
  cases h with
  | none => exact hrest.not_digit
  | digits hmark =>
    intro c hc
    cases Option.some.inj hc
    rcases hmark with rfl | rfl <;> rfl

theorem Fraction.not_digit {part power rest : List Char} (h : Fraction part)
    (hpower : Exponent power) (hrest : Ends rest) :
    ∀ c ∈ (part ++ (power ++ rest)).head?, c.isDigit = false := by
  cases h with
  | none => exact hpower.not_digit hrest
  | digits _ =>
    intro c hc
    cases Option.some.inj hc
    rfl

theorem Exponent.afterPower? {power rest : List Char} (h : Exponent power) (hrest : Ends rest) :
    Json.afterPower? (power ++ rest) = some rest := by
  cases h with
  | none =>
    cases rest with
    | nil => rfl
    | cons c rest =>
      obtain ⟨-, -, he, hE⟩ := hrest c rfl
      simp [Json.afterPower?, he, hE]
  | digits hmark hsign hds =>
    have hread := digits1?_append hds hrest.not_digit
    obtain ⟨c, ds, rfl, hc⟩ := hds.exists_cons
    have hplus : c ≠ '+' := by rintro rfl; cases hc
    have hminus : c ≠ '-' := by rintro rfl; cases hc
    rcases hmark with rfl | rfl <;> rcases hsign with rfl | rfl | rfl <;>
      simpa [Json.afterPower?, hplus, hminus] using hread

theorem Fraction.afterPart? {part power rest : List Char} (h : Fraction part)
    (hpower : Exponent power) (hrest : Ends rest) :
    Json.afterPart? (part ++ (power ++ rest)) = some (power ++ rest) := by
  cases h with
  | none =>
    cases hpower with
    | none =>
      cases rest with
      | nil => rfl
      | cons c rest =>
        obtain ⟨-, hpoint, -⟩ := hrest c rfl
        simp [Json.afterPart?, hpoint]
    | digits hmark => rcases hmark with rfl | rfl <;> rfl
  | digits hds => exact digits1?_append hds (hpower.not_digit hrest)

theorem Integer.afterWhole? {whole rest : List Char} (h : Integer whole)
    (hrest : ∀ c ∈ rest.head?, c.isDigit = false) : Json.afterWhole? (whole ++ rest) = some rest := by
  cases h with
  | zero => rfl
  | digits hzero hds =>
    rw [← digits1?_append hds hrest, List.cons_append, Json.afterWhole?]
    exact fun _ h => hzero (List.cons.inj h).1

theorem Integer.exists_cons {whole : List Char} (h : Integer whole) :
    ∃ c rest, whole = c :: rest ∧ c.isDigit = true := by
  cases h with
  | zero => exact ⟨_, _, rfl, rfl⟩
  | digits _ hds => exact ⟨_, _, rfl, hds.2 _ List.mem_cons_self⟩

/-- The reader finds the end of a number. -/
theorem Numeral.afterNumber? {t rest : List Char} (h : Numeral t) (hrest : Ends rest) :
    Json.afterNumber? (t ++ rest) = some rest := by
  obtain @⟨sign, whole, part, power, hsign, hwhole, hpart, hpower⟩ := h
  have hdigit := hpart.not_digit hpower hrest
  have hafter : afterSign (sign ++ (whole ++ (part ++ (power ++ rest)))) =
      whole ++ (part ++ (power ++ rest)) := by
    rcases hsign with rfl | rfl
    · obtain ⟨c, ds, rfl, hc⟩ := hwhole.exists_cons
      have hminus : c ≠ '-' := by rintro rfl; cases hc
      simp [afterSign, hminus]
    · rfl
  have hnone : ((part ++ (power ++ rest)).head?.map Char.isDigit).getD false = false := by
    cases hhead : (part ++ (power ++ rest)).head? with
    | none => rfl
    | some c => exact hdigit c hhead
  simp only [Json.afterNumber?, List.append_assoc, hafter, hwhole.afterWhole? hdigit,
    Option.bind_some, hnone, Bool.false_eq_true, if_false, hpart.afterPart? hpower hrest,
    hpower.afterPower? hrest]

/-! ## Values -/

/-- What can be written: a value, or what is in a pair of brackets with the closing one. -/
inductive Part
  | value (v : Json)
  | items (vs : List Json)
  | members (ms : List (Option (List Char) × Json))

/-- `Writes t p rest`: `t` writes the part `p`, with or without white space before it, and then
    comes `rest`. -/
inductive Writes : List Char → Part → List Char → Prop
  | space {c : Char} {t rest : List Char} {v : Json} : isSpace c = true →
    Writes t (.value v) rest → Writes (c :: t) (.value v) rest
  | null (rest : List Char) : Writes ('n' :: 'u' :: 'l' :: 'l' :: rest) (.value null) rest
  | true (rest : List Char) : Writes ('t' :: 'r' :: 'u' :: 'e' :: rest) (.value (bool true)) rest
  | false (rest : List Char) :
    Writes ('f' :: 'a' :: 'l' :: 's' :: 'e' :: rest) (.value (bool false)) rest
  | number {t rest : List Char} : Numeral t → Ends rest →
    Writes (t ++ rest) (.value (number t)) rest
  | string {t s rest : List Char} : Chars t s rest →
    Writes ('\x22' :: t) (.value (string (some s))) rest
  | emptyArray {t rest : List Char} : Spaced t (']' :: rest) →
    Writes ('[' :: t) (.value (array [])) rest
  | array {t rest : List Char} {vs : List Json} : Writes t (.items vs) rest →
    Writes ('[' :: t) (.value (array vs)) rest
  | lastItem {t u rest : List Char} {v : Json} : Writes t (.value v) u →
    Spaced u (']' :: rest) → Writes t (.items [v]) rest
  | item {t u w rest : List Char} {v : Json} {vs : List Json} : Writes t (.value v) u →
    Spaced u (',' :: w) → Writes w (.items vs) rest → Writes t (.items (v :: vs)) rest
  | emptyObject {t rest : List Char} : Spaced t ('\x7d' :: rest) →
    Writes ('\x7b' :: t) (.value (object [])) rest
  | object {t rest : List Char} {ms : List (Option (List Char) × Json)} :
    Writes t (.members ms) rest → Writes ('\x7b' :: t) (.value (object ms)) rest
  | lastMember {t u k w x y rest : List Char} {v : Json} : Spaced t ('\x22' :: u) → Chars u k w →
    Spaced w (':' :: x) → Writes x (.value v) y → Spaced y ('\x7d' :: rest) →
    Writes t (.members [(some k, v)]) rest
  | member {t u k w x y z rest : List Char} {v : Json} {ms : List (Option (List Char) × Json)} :
    Spaced t ('\x22' :: u) → Chars u k w → Spaced w (':' :: x) → Writes x (.value v) y →
    Spaced y (',' :: z) → Writes z (.members ms) rest → Writes t (.members ((some k, v) :: ms)) rest

/-- A document: a value with nothing but white space around it. -/
def Document (s : List Char) (v : Json) : Prop := ∃ rest, Writes s (.value v) rest ∧ Spaced rest []

theorem Spaced.length_le {s rest : List Char} (h : Spaced s rest) : rest.length ≤ s.length := by
  obtain ⟨w, rfl, -⟩ := h
  simp

theorem Spaced.length_lt {s rest : List Char} {c : Char} (h : Spaced s (c :: rest)) :
    rest.length < s.length :=
  h.length_le

theorem Chars.length_lt {t s rest : List Char} (h : Chars t s rest) : rest.length < t.length := by
  induction h <;>
  · simp only [List.length_cons] at *
    omega

/-- What a number starts with. -/
theorem Numeral.exists_cons {t : List Char} (h : Numeral t) :
    ∃ c rest, t = c :: rest ∧ (c = '-' ∨ c.isDigit = true) := by
  obtain ⟨rfl | rfl, hwhole, -, -⟩ := h
  · obtain ⟨c, ds, rfl, hc⟩ := hwhole.exists_cons
    exact ⟨c, _, rfl, Or.inr hc⟩
  · exact ⟨'-', _, rfl, Or.inl rfl⟩

/-- A character that a number starts with is none of those that mean something else. -/
theorem ne_of_isStart {c d : Char} (hc : c = '-' ∨ c.isDigit = true)
    (hd : (d == '-' || d.isDigit) = false) : c ≠ d := by
  rintro rfl
  simp only [Bool.or_eq_false_iff, beq_eq_false_iff_ne] at hd
  rcases hc with hc | hc
  · exact hd.1 hc
  · exact absurd hc (by simp [hd.2])

theorem isSpace_of_isStart {c : Char} (hc : c = '-' ∨ c.isDigit = true) : isSpace c = false := by
  simp [isSpace, ne_of_isStart hc (d := ' ') rfl, ne_of_isStart hc (d := '\n') rfl,
    ne_of_isStart hc (d := '\t') rfl, ne_of_isStart hc (d := '\r') rfl]

/-- Every part takes up some of the text. -/
theorem Writes.length_lt {t rest : List Char} {p : Part} (h : Writes t p rest) :
    rest.length < t.length := by
  induction h with
  | number h =>
    obtain ⟨c, u, rfl, -⟩ := h.exists_cons
    simp only [List.length_append, List.length_cons]
    omega
  | null | true | false | space | array | object =>
    simp only [List.length_cons]
    omega
  | string h => exact Nat.lt_succ_of_lt h.length_lt
  | emptyArray h | emptyObject h => exact Nat.lt_succ_of_lt h.length_lt
  | lastItem _ hend ih => exact Nat.lt_trans hend.length_lt ih
  | item _ hcomma _ ih ihs => exact Nat.lt_trans ihs (Nat.lt_trans hcomma.length_lt ih)
  | lastMember hquote hkey hcolon _ hend ih =>
    have := hquote.length_lt
    have := hkey.length_lt
    have := hcolon.length_lt
    have := hend.length_lt
    omega
  | member hquote hkey hcolon _ hcomma _ ih ihs =>
    have := hquote.length_lt
    have := hkey.length_lt
    have := hcolon.length_lt
    have := hcomma.length_lt
    omega

/-- What a value starts with, after white space. -/
theorem Writes.exists_head {t rest : List Char} {v : Json} (h : Writes t (.value v) rest) :
    ∃ c u, skipSpace t = c :: u ∧ c ≠ ']' ∧ c ≠ '\x7d' := by
  generalize hp : Part.value v = p at h
  induction h with
  | @space c t _ _ hc _ ih =>
    have hskip : skipSpace (c :: t) = skipSpace t := List.dropWhile_cons_of_pos hc
    rw [hskip]
    exact ih hp
  | @number t rest h =>
    obtain ⟨c, u, rfl, hc⟩ := h.exists_cons
    refine ⟨c, u ++ rest, ?_, ne_of_isStart hc rfl, ne_of_isStart hc rfl⟩
    rw [List.cons_append, skipSpace, List.dropWhile_cons_of_neg (by simp [isSpace_of_isStart hc])]
  | null | true | false | string | emptyArray | array | emptyObject | object =>
    exact ⟨_, _, rfl, by decide, by decide⟩
  | lastItem | item | lastMember | member => cases hp

/-- Items start with a value. -/
theorem Writes.exists_firstItem {t rest : List Char} {vs : List Json}
    (h : Writes t (.items vs) rest) : ∃ c u, skipSpace t = c :: u ∧ c ≠ ']' ∧ c ≠ '\x7d' := by
  cases h with
  | lastItem h => exact h.exists_head
  | item h => exact h.exists_head

/-- Members start with a key. -/
theorem Writes.exists_quote {t rest : List Char} {ms : List (Option (List Char) × Json)}
    (h : Writes t (.members ms) rest) : ∃ u, skipSpace t = '\x22' :: u := by
  cases h with
  | lastMember hquote => exact ⟨_, hquote.skipSpace rfl⟩
  | member hquote => exact ⟨_, hquote.skipSpace rfl⟩

/-! ## Reading -/

/-- White space before a value does not count. -/
theorem value?_space {c : Char} (hc : isSpace c = true) (fuel : Nat) (t : List Char) :
    value? fuel (c :: t) = value? fuel t := by
  have hskip : skipSpace (c :: t) = skipSpace t := List.dropWhile_cons_of_pos hc
  cases fuel with
  | zero => rfl
  | succ fuel => rw [value?, value?, hskip]

theorem value?_number {t rest : List Char} (h : Numeral t) (hrest : Ends rest) (fuel : Nat) :
    value? (fuel + 1) (t ++ rest) = some (number t, rest) := by
  have hread := h.afterNumber? hrest
  obtain ⟨c, u, rfl, hc⟩ := h.exists_cons
  have htake : (c :: (u ++ rest)).take ((c :: (u ++ rest)).length - rest.length) = c :: u := by
    rw [← List.cons_append, List.length_append, Nat.add_sub_cancel, List.take_left]
  rw [List.cons_append] at hread ⊢
  rw [value?, skipSpace, List.dropWhile_cons_of_neg (by simp [isSpace_of_isStart hc])]
  split
  case h_7 d w _ _ _ _ _ _ heq =>
    cases heq
    rw [if_pos (by simpa using hc), hread]
    simp only [Option.bind_eq_bind, Option.bind_some, htake]
  case h_8 heq => cases heq
  all_goals
    rename_i heq
    exact absurd (List.cons.inj heq).1 (ne_of_isStart hc rfl)

/-- The reader reads a part, and gives what comes after it. -/
def Part.Read (fuel : Nat) (t : List Char) : Part → List Char → Prop
  | .value v, rest => value? fuel t = some (v, rest)
  | .items vs, rest => items? fuel t = some (vs, rest)
  | .members ms, rest => members? fuel t = some (ms, rest)

/-- **The reader reads every value.** The fuel is enough if it is as much as the value is long: each
    bracket pays for what is in it. -/
theorem Writes.read {t rest : List Char} {p : Part} (h : Writes t p rest) {fuel : Nat}
    (hfuel : t.length ≤ fuel + rest.length) : p.Read fuel t rest := by
  induction h generalizing fuel with
  | space hc h ih =>
    simp only [List.length_cons] at hfuel
    rw [Part.Read, value?_space hc]
    exact ih (by omega)
  | null | true | false =>
    simp only [List.length_cons] at hfuel
    obtain ⟨fuel, rfl⟩ : ∃ n, fuel = n + 1 := ⟨fuel - 1, by omega⟩
    rfl
  | number h hrest =>
    obtain ⟨c, u, rfl, -⟩ := h.exists_cons
    simp only [List.length_append, List.length_cons] at hfuel
    obtain ⟨fuel, rfl⟩ : ∃ n, fuel = n + 1 := ⟨fuel - 1, by omega⟩
    exact value?_number h hrest fuel
  | string h =>
    have hlt := h.length_lt
    simp only [List.length_cons] at hfuel
    obtain ⟨fuel, rfl⟩ : ∃ n, fuel = n + 1 := ⟨fuel - 1, by omega⟩
    obtain ⟨ps, hps, hs⟩ := h.pieces
    simp [Part.Read, value?, skipSpace, isSpace, hps, hs]
  | emptyArray h | emptyObject h =>
    have hlt := h.length_lt
    have hskip := h.skipSpace rfl
    simp only [skipSpace] at hskip
    simp only [List.length_cons] at hfuel
    obtain ⟨fuel, rfl⟩ : ∃ n, fuel = n + 1 := ⟨fuel - 1, by omega⟩
    simp [Part.Read, value?, skipSpace, isSpace, hskip]
  | array h ih =>
    have hlt := h.length_lt
    simp only [List.length_cons] at hfuel
    obtain ⟨fuel, rfl⟩ : ∃ n, fuel = n + 1 := ⟨fuel - 1, by omega⟩
    have hvs := @ih fuel (by omega)
    obtain ⟨c, u, hskip, hc, -⟩ := h.exists_firstItem
    simp only [skipSpace] at hskip
    simp only [Part.Read] at hvs ⊢
    simp [value?, skipSpace, isSpace, hskip, hc, hvs]
  | lastItem h hend ih =>
    have hlt := hend.length_lt
    have hlt' := h.length_lt
    obtain ⟨fuel, rfl⟩ : ∃ n, fuel = n + 1 := ⟨fuel - 1, by omega⟩
    have hv := @ih fuel (by omega)
    simp only [Part.Read] at hv ⊢
    simp [items?, hv, hend.skipSpace rfl]
  | item h hcomma hs ih ihs =>
    have hlt := hcomma.length_lt
    have hlt' := h.length_lt
    have hlt'' := hs.length_lt
    obtain ⟨fuel, rfl⟩ : ∃ n, fuel = n + 1 := ⟨fuel - 1, by omega⟩
    have hv := @ih fuel (by omega)
    have hvs := @ihs fuel (by omega)
    simp only [Part.Read] at hv hvs ⊢
    simp [items?, hv, hvs, hcomma.skipSpace rfl]
  | object h ih =>
    have hlt := h.length_lt
    simp only [List.length_cons] at hfuel
    obtain ⟨fuel, rfl⟩ : ∃ n, fuel = n + 1 := ⟨fuel - 1, by omega⟩
    have hms := @ih fuel (by omega)
    obtain ⟨u, hskip⟩ := h.exists_quote
    simp only [skipSpace] at hskip
    simp only [Part.Read] at hms ⊢
    simp [value?, skipSpace, isSpace, hskip, hms]
  | lastMember hquote hkey hcolon h hend ih =>
    have hq := hquote.length_lt
    have hk := hkey.length_lt
    have hc := hcolon.length_lt
    have he := hend.length_lt
    have hlt := h.length_lt
    obtain ⟨fuel, rfl⟩ : ∃ n, fuel = n + 1 := ⟨fuel - 1, by omega⟩
    obtain ⟨ps, hps, hs⟩ := hkey.pieces
    have hv := @ih fuel (by omega)
    simp only [Part.Read] at hv ⊢
    simp [members?, hquote.skipSpace rfl, hps, hs, hcolon.skipSpace rfl, hv, hend.skipSpace rfl]
  | member hquote hkey hcolon h hcomma hms ih ihms =>
    have hq := hquote.length_lt
    have hk := hkey.length_lt
    have hc := hcolon.length_lt
    have he := hcomma.length_lt
    have hlt := h.length_lt
    have hlt' := hms.length_lt
    obtain ⟨fuel, rfl⟩ : ∃ n, fuel = n + 1 := ⟨fuel - 1, by omega⟩
    obtain ⟨ps, hps, hs⟩ := hkey.pieces
    have hv := @ih fuel (by omega)
    have hvs := @ihms fuel (by omega)
    simp only [Part.Read] at hv hvs ⊢
    simp [members?, hquote.skipSpace rfl, hps, hs, hcolon.skipSpace rfl, hv, hvs,
      hcomma.skipSpace rfl]

/-- **The reader reads every document.** -/
theorem Document.parse? {s : List Char} {v : Json} (h : Document s v) : Json.parse? s = some v := by
  obtain ⟨rest, hv, hrest⟩ := h
  have hread : value? (s.length + 1) s = some (v, rest) := hv.read (by omega)
  simp [Json.parse?, hread, hrest.skipSpace_nil]

/-! ## Writing -/

/-- The unit of a control character, as the writer spells it. -/
theorem hexUnit?_hexByte (n : Nat) (h : n < 0x20) :
    hexUnit? '0' '0' (Nat.digitChar (n / 16)) (Nat.digitChar (n % 16)) = some n := by
  revert n
  decide

/-- A character as the writer writes it is one that is read. -/
theorem chars_stringChar {t s rest : List Char} (c : Char) (h : Chars t s rest) :
    Chars (stringChar c ++ t) (c :: s) rest := by
  have short (e : Char) (he : shortEscape? e = some c) : Chars ('\\' :: e :: t) (c :: s) rest :=
    .short he h
  unfold stringChar
  split_ifs with h₁ h₂ h₃ h₄ h₅ h₆ h₇ hcontrol
  iterate 7
    · subst c
      exact short _ rfl
  · have hwhole : Whole c.toNat := by
      simp only [Whole, isHigh, isLow, Bool.and_eq_false_iff, decide_eq_false_iff_not]
      omega
    have hunit := Chars.unit (hexUnit?_hexByte _ hcontrol) hwhole h
    rwa [Char.ofNat_toNat] at hunit
  · exact .plain (Nat.not_lt.1 hcontrol) h₁ h₂ h

/-- The writer's strings are among those that are read. -/
theorem chars_stringText (s rest : List Char) :
    Chars (s.flatMap stringChar ++ '\x22' :: rest) s rest := by
  induction s with
  | nil => exact .done rest
  | cons c s ih =>
    rw [List.flatMap_cons, List.append_assoc]
    exact chars_stringChar c ih

theorem stringText_append (s rest : List Char) :
    stringText s ++ rest = '\x22' :: (s.flatMap stringChar ++ '\x22' :: rest) := by
  simp [stringText]

/-- A part whose strings are texts and whose numbers are numbers. -/
inductive Plain : Part → Prop
  | null : Plain (.value null)
  | bool (b : Bool) : Plain (.value (bool b))
  | number {t : List Char} : Numeral t → Plain (.value (number t))
  | string (s : List Char) : Plain (.value (string (some s)))
  | emptyArray : Plain (.value (array []))
  | array {vs : List Json} : Plain (.items vs) → Plain (.value (array vs))
  | lastItem {v : Json} : Plain (.value v) → Plain (.items [v])
  | item {v : Json} {vs : List Json} : Plain (.value v) → Plain (.items vs) →
    Plain (.items (v :: vs))
  | emptyObject : Plain (.value (object []))
  | object {ms : List (Option (List Char) × Json)} : Plain (.members ms) →
    Plain (.value (object ms))
  | lastMember (k : List Char) {v : Json} : Plain (.value v) → Plain (.members [(some k, v)])
  | member (k : List Char) {v : Json} {ms : List (Option (List Char) × Json)} :
    Plain (.value v) → Plain (.members ms) → Plain (.members ((some k, v) :: ms))

/-- The text of a part, with its closing bracket if it has one. -/
def Part.text : Part → List Char
  | .value v => v.text
  | .items vs => itemsText vs ++ [']']
  | .members ms => membersText ms ++ ['\x7d']

theorem ends_cons {c : Char} (h : c = ',' ∨ c = ']' ∨ c = '\x7d') (rest : List Char) :
    Ends (c :: rest) := by
  intro d hd
  cases hd
  rcases h with rfl | rfl | rfl <;> decide

theorem itemsText_cons {v : Json} {vs : List Json} (h : vs ≠ []) :
    itemsText (v :: vs) = text v ++ ',' :: itemsText vs := by
  cases vs with
  | nil => exact absurd rfl h
  | cons w vs => rw [itemsText]

theorem membersText_cons {k : Option (List Char)} {v : Json}
    {ms : List (Option (List Char) × Json)} (h : ms ≠ []) :
    membersText ((k, v) :: ms) = stringText (k.getD []) ++ ':' :: text v ++ ',' :: membersText ms := by
  cases ms with
  | nil => exact absurd rfl h
  | cons m ms => rw [membersText]

theorem Plain.items_ne_nil {vs : List Json} (h : Plain (.items vs)) : vs ≠ [] := by
  cases h <;> exact List.cons_ne_nil _ _

theorem Plain.members_ne_nil {ms : List (Option (List Char) × Json)} (h : Plain (.members ms)) :
    ms ≠ [] := by
  cases h <;> exact List.cons_ne_nil _ _

/-- The writer writes a part that is read. -/
theorem Plain.writes_text {p : Part} (h : Plain p) {rest : List Char} (hrest : Ends rest) :
    Writes (p.text ++ rest) p rest := by
  induction h generalizing rest with
  | null => exact .null rest
  | bool b =>
    cases b with
    | false => exact .false rest
    | true => exact .true rest
  | number h => exact .number h hrest
  | string s =>
    rw [Part.text, text, stringText_append]
    exact .string (chars_stringText s rest)
  | emptyArray => exact .emptyArray (Spaced.refl _)
  | array _ ih =>
    simpa [Part.text, text] using Writes.array (ih hrest)
  | lastItem _ ih =>
    have hv := ih (ends_cons (c := ']') (by decide) rest)
    simpa [Part.text, itemsText] using hv.lastItem (Spaced.refl _)
  | @item v vs _ hvs ih ihs =>
    have hv := ih (ends_cons (c := ',') (by decide) (Part.text (.items vs) ++ rest))
    simpa [Part.text, itemsText_cons hvs.items_ne_nil] using hv.item (Spaced.refl _) (ihs hrest)
  | emptyObject => exact .emptyObject (Spaced.refl _)
  | object _ ih =>
    simpa [Part.text, text] using Writes.object (ih hrest)
  | lastMember k _ ih =>
    have hv := ih (ends_cons (c := '\x7d') (by decide) rest)
    have := Writes.lastMember (Spaced.refl _) (chars_stringText k _) (Spaced.refl _) hv
      (Spaced.refl _)
    simpa [Part.text, membersText, stringText] using this
  | @member k v ms _ hms ih ihs =>
    have hv := ih (ends_cons (c := ',') (by decide) (Part.text (.members ms) ++ rest))
    have := Writes.member (Spaced.refl _) (chars_stringText k _) (Spaced.refl _) hv
      (Spaced.refl _) (ihs hrest)
    simpa [Part.text, membersText_cons hms.members_ne_nil, stringText] using this

/-- **What is written on one line is read back**, whatever the strings hold. -/
theorem Plain.document_text {v : Json} (h : Plain (.value v)) : Document v.text v := by
  have hend : Ends [] := nofun
  exact ⟨[], by simpa [Part.text] using h.writes_text hend, Spaced.refl _⟩

/-- So is an integer. -/
theorem parse?_ofInt (n : Int) : Json.parse? (ofInt n).text = some (ofInt n) :=
  (Plain.number (numeral_toString n)).document_text.parse?

end Reimage.Json
