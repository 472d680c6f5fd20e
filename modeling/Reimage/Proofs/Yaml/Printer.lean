/-
  The forms that the writer chooses for a text can hold it.

  * `words_of_fitsPlain`: a text that is written plain is a row of words;
  * `body_singleQuoted`, `body_doubleQuoted`: what stands between the quotes writes the text.
-/
import Reimage.Proofs.Yaml.Lexeme
import Reimage.Proofs.Yaml.Scalar
import Reimage.Yaml.Printer
import Reimage.Yaml.Token

namespace Reimage.Yaml

/-! ## Plain texts -/

theorem isGap_of_isPrintable {c : Char} (h : isPrintable c = true) : isGap c = (c == ' ') := by
  have htab : c ≠ '\t' := by
    rintro rfl
    cases h
  simp [isGap, htab]

theorem not_endsWord {s : List Char} (h : endsWord s = false) :
    ∃ c rest, s = c :: rest ∧ isGap c = false ∧ isBreak c = false := by
  cases s with
  | nil => cases h
  | cons c rest =>
    simp only [endsWord, Bool.or_eq_false_iff] at h
    exact ⟨c, rest, rfl, h.1.1, h.1.2⟩

/-- A character in front of the first word. -/
theorem Words.cons_char {c d : Char} {s : List Char} (h : Words (d :: s)) (hgap : isGap c = false)
    (hbreak : isBreak c = false) : Words (c :: d :: s) := by
  have hword {w : List Char} (hw : Word w) : Word (c :: w) := by
    refine ⟨List.cons_ne_nil _ _, List.forall_mem_cons.2 ⟨⟨hgap, hbreak⟩, hw.solid⟩, ?_⟩
    obtain ⟨e, w, rfl⟩ := List.exists_cons_of_ne_nil hw.ne_nil
    simpa using hw.last
  generalize d :: s = t at h
  cases h with
  | word hw => exact .word (hword hw)
  | cons n hw hs hhead => exact .cons n (hword hw) hs hhead

/-- A text without white space at its end, and without a sign that means something, is a row of
    words, maybe with spaces in front. -/
theorem exists_words {s : List Char} (hne : s ≠ [])
    (hwhite : ∀ c ∈ s, isGap c = (c == ' ') ∧ isBreak c = false) (hlast : s.getLast? ≠ some ' ')
    (before : Char) (hsigns : holdsIndicator before s = false) :
    (s.head? ≠ some ' ' → Words s) ∧ (s.head? = some ' ' → ∃ n t,
      s = List.replicate (n + 1) ' ' ++ t ∧ Words t ∧ t.head? ≠ some '#') := by
  induction s generalizing before with
  | nil => exact absurd rfl hne
  | cons c s ih =>
    obtain ⟨⟨hgap, hbreak⟩, hwhite⟩ := List.forall_mem_cons.1 hwhite
    simp only [holdsIndicator, Bool.or_eq_false_iff] at hsigns
    obtain ⟨⟨hcolon, -⟩, hsigns⟩ := hsigns
    have hword (hc : c ≠ ' ') (hend : endsWord s = true) : Word [c] := by
      refine ⟨List.cons_ne_nil _ _, ?_, ?_⟩
      · simpa [hgap, hbreak] using hc
      · intro h
        obtain rfl : c = ':' := by simpa using h
        simp [hend] at hcolon
    cases s with
    | nil =>
      refine ⟨fun hc => .word (hword (by simpa using hc) rfl), fun hc => ?_⟩
      exact absurd hc hlast
    | cons d s =>
      obtain ⟨hwords, hspaces⟩ := ih (List.cons_ne_nil _ _) hwhite (by simpa using hlast) c hsigns
      by_cases hd : d = ' '
      · subst hd
        obtain ⟨n, t, ht, hwords, hhead⟩ := hspaces rfl
        constructor
        · intro hc
          rw [ht]
          exact .cons n (hword (by simpa using hc) rfl) hwords hhead
        · rintro ⟨⟩
          exact ⟨n + 1, t, by rw [ht, List.replicate_succ (n := n + 1), List.cons_append], hwords,
            hhead⟩
      · have hwords := hwords (by simpa using hd)
        constructor
        · intro hc
          exact hwords.cons_char (by simpa [hgap] using hc) hbreak
        · rintro ⟨⟩
          refine ⟨0, d :: s, rfl, hwords, ?_⟩
          rintro ⟨⟩
          cases hsigns

/-- A text that can be written plain. -/
structure Plain (s : List Char) : Prop where
  words : Words s
  printable : ∀ c ∈ s, isPrintable c = true
  breaks : ∀ c ∈ s, isBreak c = false
  indicator : startsWithIndicator s = false
  dashes : ¬ ['-', '-', '-'] <+: s
  dots : ¬ ['.', '.', '.'] <+: s

/-- A plain text is not taken for a comment. -/
theorem Plain.head_ne_sharp {s : List Char} (hs : Plain s) : s.head? ≠ some '#' := by
  intro h
  have hindicator := hs.indicator
  cases s with
  | nil => cases h
  | cons c s =>
    cases h
    cases hindicator

theorem plain_of_fitsPlain {s : List Char} (h : fitsPlain s = true) (hne : s ≠ []) : Plain s := by
  simp only [fitsPlain, needsEscapes, hasIndicators, Bool.and_eq_true, Bool.not_eq_true',
    Bool.or_eq_false_iff, List.any_eq_false, Bool.not_eq_true, Bool.not_eq_false] at h
  obtain ⟨⟨⟨⟨hprintable, -⟩, hbreaks⟩, houter⟩, ⟨⟨⟨hdash, hdot⟩, hindicator⟩, hsigns⟩⟩ := h
  obtain ⟨c, s, rfl⟩ := List.exists_cons_of_ne_nil hne
  have hwhite : ∀ d ∈ c :: s, isGap d = (d == ' ') ∧ isBreak d = false := fun d hd =>
    ⟨isGap_of_isPrintable (hprintable d hd), hbreaks d hd⟩
  simp only [hasOuter, Bool.or_eq_false_iff] at houter
  have hhead : c ≠ ' ' := by
    simpa [isSpace] using houter.1
  have hlast : (c :: s).getLast? ≠ some ' ' := by
    intro h
    simp [h, isSpace] at houter
  have hall : holdsIndicator ' ' (c :: s) = false := by
    simp only [startsWithIndicator, Bool.or_eq_false_iff, Bool.and_eq_false_iff] at hindicator
    have hsharp : c ≠ '#' := by
      rintro rfl
      exact absurd hindicator.1 (by decide)
    have hcolon : (c == ':' && endsWord s) = false := by
      rcases hindicator.2 with h | h
      · simp [h.1.2]
      · simp [h]
    simp [holdsIndicator, hcolon, hsharp, hsigns]
  refine ⟨(exists_words hne hwhite hlast ' ' hall).1 (by simpa using hhead), hprintable, hbreaks,
    hindicator, ?_, ?_⟩
  · rwa [← List.isPrefixOf_iff_prefix, Bool.not_eq_true]
  · rwa [← List.isPrefixOf_iff_prefix, Bool.not_eq_true]

/-- A single word can be written plain, unless it starts with a sign that means something. -/
theorem plain_word {s : List Char} (hne : s ≠ [])
    (h : ∀ c ∈ s, isPrintable c = true ∧ isGap c = false ∧ isBreak c = false ∧ c ≠ ':')
    (hindicator : startsWithIndicator s = false) (hdashes : ¬ ['-', '-', '-'] <+: s)
    (hdots : ¬ ['.', '.', '.'] <+: s) : Plain s where
  words := .word ⟨hne, fun c hc => ⟨(h c hc).2.1, (h c hc).2.2.1⟩, fun hlast =>
    (h ':' (List.mem_of_getLast? hlast)).2.2.2 rfl⟩
  printable c hc := (h c hc).1
  breaks c hc := (h c hc).2.2.1
  indicator := hindicator
  dashes := hdashes
  dots := hdots

theorem word_of_isDecimalChar {c : Char} (h : Binary64.isDecimalChar c = true) :
    isPrintable c = true ∧ isGap c = false ∧ isBreak c = false ∧ c ≠ ':' := by
  simp only [Binary64.isDecimalChar, Bool.or_eq_true, beq_iff_eq] at h
  rcases h with ((hdigit | rfl) | rfl) | rfl
  · have hne {d : Char} (hd : d.isDigit = false) : c ≠ d := by
      rintro rfl
      rw [hd] at hdigit
      cases hdigit
    have hprintable : isPrintable c = true := by
      simp only [Char.isDigit, Bool.and_eq_true, decide_eq_true_eq, ge_iff_le,
        UInt32.le_iff_toNat_le] at hdigit
      have hlow : 48 ≤ c.toNat := hdigit.1
      have hhigh : c.toNat ≤ 57 := hdigit.2
      simp only [isPrintable, Bool.or_eq_true, Bool.and_eq_true, decide_eq_true_eq]
      omega
    refine ⟨hprintable, ?_, ?_, hne rfl⟩
    · simp [isGap, hne (d := ' ') rfl, hne (d := '\t') rfl]
    · simp [isBreak, hne (d := '\n') rfl, hne (d := '\r') rfl, hne (d := '\u0085') rfl,
        hne (d := '\u2028') rfl, hne (d := '\u2029') rfl]
  all_goals decide

/-- A number can be written plain. -/
theorem plain_decimal (negative : Bool) {c : Char} {rest : List Char} (hc : c.isDigit = true)
    (h : ∀ d ∈ c :: rest, Binary64.isDecimalChar d = true) :
    Plain ((if negative then ['-'] else []) ++ c :: rest) := by
  obtain ⟨-, hgap, hbreak, -⟩ := word_of_isDecimalChar (h c List.mem_cons_self)
  have hne {d : Char} (hd : d.isDigit = false) : c ≠ d := by
    rintro rfl
    rw [hd] at hc
    cases hc
  have hdash : '-' ≠ c := (hne (d := '-') rfl).symm
  have hdot : '.' ≠ c := (hne (d := '.') rfl).symm
  cases negative with
  | false =>
    refine plain_word (List.cons_ne_nil _ _) (fun d hd => word_of_isDecimalChar (h d hd)) ?_ ?_ ?_
    · simp [startsWithIndicator, hne]
    · simp [hdash]
    · simp [hdot]
  | true =>
    have hall : ∀ d ∈ '-' :: c :: rest, Binary64.isDecimalChar d = true :=
      List.forall_mem_cons.2 ⟨rfl, h⟩
    refine plain_word (List.cons_ne_nil _ _) (fun d hd => word_of_isDecimalChar (hall d hd)) ?_ ?_ ?_
    · simp [startsWithIndicator, endsWord, hgap, hbreak, hne]
    · simp [hdash]
    · simp

/-- So can what else is written for a number. -/
theorem plain_floatText {x : Binary64} (h : x.isNaN = false) : Plain (floatText x).toList := by
  simp only [floatText, h, Bool.false_eq_true, if_false]
  split_ifs
  · obtain ⟨c, rest, hcons, hc, hall⟩ := exists_decimal x
    rw [String.toList_ofList, hcons]
    exact plain_decimal _ hc hall
  · exact plain_word (by decide) (by simp [isPrintable, isGap, isBreak]) (by decide) (by decide)
      (by decide)
  · exact plain_word (by decide) (by simp [isPrintable, isGap, isBreak]) (by decide) (by decide)
      (by decide)

theorem plain_toString (n : Nat) : Plain (toString n).toList := by
  have hall : ∀ c ∈ (toString n).toList, c.isDigit = true := by
    rw [Text.toList_toString]
    exact fun _ => Nat.isDigit_of_mem_toDigits (by decide) (by decide)
  have hne : (toString n).toList ≠ [] := by
    rw [Text.toList_toString]
    exact Nat.toDigits_ne_nil
  obtain ⟨c, rest, hcons⟩ := List.exists_cons_of_ne_nil hne
  rw [hcons] at hall ⊢
  exact plain_decimal false (hall c List.mem_cons_self) fun d hd => by
    simp [Binary64.isDecimalChar, hall d hd]

/-! ## Between quotes -/

theorem SpellsAll.solid {single : Bool} {t w : List Char} (h : SpellsAll single t w) : Solid t := by
  cases h with
  | nil => exact nofun
  | cons hu _ =>
    obtain ⟨d, v, rfl, hgap, hbreak⟩ := hu.exists_cons
    rintro _ ⟨⟩
    exact ⟨hgap, hbreak⟩

/-- A character in front. -/
theorem Body.cons_char {single : Bool} {u t s : List Char} {c : Char} (h : Body single t s)
    (hu : Spells single u c) : Body single (u ++ t) (c :: s) := by
  cases h with
  | row ht => exact .row (ht.cons hu)
  | spaces n ht hsolid h =>
    rw [← List.append_assoc, ← List.cons_append]
    exact .spaces n (ht.cons hu) hsolid h
  | lines n ht hb hne hbs hsolid h =>
    rw [← List.append_assoc, ← List.cons_append]
    exact .lines n (ht.cons hu) hb hne hbs hsolid h

/-- A space in front, which is one of several if there are more. -/
theorem Body.cons_space {single : Bool} {t s : List Char} (h : Body single t s)
    (hbreak : ∀ c ∈ t.head?, isBreak c = false) : Body single (' ' :: t) (' ' :: s) := by
  have start {t s : List Char} (hsolid : Solid t) (h : Body single t s) :
      Body single (' ' :: t) (' ' :: s) := .spaces 0 .nil hsolid h
  cases h with
  | row ht => exact start ht.solid (.row ht)
  | @spaces t w t' s n ht hsolid h =>
    cases ht with
    | nil => exact .spaces (n + 1) .nil hsolid h
    | cons hu ht =>
      refine start ?_ (.spaces n (ht.cons hu) hsolid h)
      obtain ⟨d, v, rfl, hd⟩ := hu.exists_cons
      rintro _ ⟨⟩
      exact hd
  | lines n ht hb hne hbs hsolid h =>
    cases ht with
    | nil =>
      have := hbreak _ rfl
      rw [hb.isBreak] at this
      cases this
    | cons hu ht =>
      refine start ?_ (.lines n (ht.cons hu) hb hne hbs hsolid h)
      obtain ⟨d, v, rfl, hd⟩ := hu.exists_cons
      rintro _ ⟨⟩
      exact hd

/-- The end of a line in front of an indented line. -/
theorem Body.cons_line {single : Bool} {t s : List Char} (h : Body single t s) (hsolid : Solid t)
    (n : Nat) {b : Char} (hb : LineEnd b) (hne : b ≠ '\n') :
    Body single (b :: (List.replicate (n + 1) ' ' ++ t)) (b :: s) :=
  .lines n .nil hb hne (by simp : ∀ b ∈ ([] : List Char), LineEnd b) hsolid h

/-- The end of a line in front of another one. -/
theorem Body.cons_lineEnd {single : Bool} {t s : List Char} (h : Body single t s)
    (hbreak : ∃ c ∈ t.head?, isBreak c = true) {b : Char} (hb : LineEnd b) (hne : b ≠ '\n') :
    Body single (b :: t) (b :: s) := by
  obtain ⟨c, hc, hbreak⟩ := hbreak
  have hrow {u t w : List Char} {d : Char} (hu : Spells single u d) (ht : SpellsAll single t w)
      (rest : List Char) : c ∉ (u ++ t ++ rest).head? := by
    obtain ⟨e, v, rfl, -, he⟩ := hu.exists_cons
    rintro ⟨⟩
    rw [hbreak] at he
    cases he
  cases h with
  | row ht =>
    cases ht with
    | nil => cases hc
    | cons hu ht => exact absurd (by simpa using hc) (hrow hu ht [])
  | spaces n ht hsolid h =>
    cases ht with
    | nil =>
      cases hc
      cases hbreak
    | cons hu ht => exact absurd hc (hrow hu ht _)
  | @lines t w bs t' s b' n ht hb' hne' hbs hsolid h =>
    cases ht with
    | nil => exact .lines n .nil hb hne (List.forall_mem_cons.2 ⟨hb', hbs⟩) hsolid h
    | cons hu ht => exact absurd hc (hrow hu ht _)

/-- A text, if each of its characters but the spaces is spelled in some way. -/
theorem body_flatMap {single : Bool} {spell : Char → List Char} (hspace : spell ' ' = [' '])
    {s : List Char} (hspell : ∀ c ∈ s, c ≠ ' ' → Spells single (spell c) c) :
    Body single (s.flatMap spell) s := by
  induction s with
  | nil => exact .row .nil
  | cons c s ih =>
    obtain ⟨hc, hrest⟩ := List.forall_mem_cons.1 hspell
    rw [List.flatMap_cons]
    by_cases hcs : c = ' '
    · subst hcs
      rw [hspace]
      refine (ih hrest).cons_space ?_
      cases s with
      | nil => exact nofun
      | cons d s =>
        by_cases hd : d = ' '
        · subst hd
          rw [List.flatMap_cons, hspace]
          rintro _ ⟨⟩
          rfl
        · obtain ⟨e, v, hev, he⟩ := (hrest d List.mem_cons_self hd).exists_cons
          rw [List.flatMap_cons, hev]
          rintro _ ⟨⟩
          exact he.2
    · exact (ih hrest).cons_char (hc hcs)

/-! ## Texts in double quotes -/

/-- A character as it stands between double quotes. -/
def doubleQuotedChar (c : Char) : List Char :=
  if !isPrintable c || isBreak c || c == '\x22' || c == '\\' then escape c else [c]

theorem doubleQuoted_eq (s : List Char) :
    doubleQuoted s = '\x22' :: (s.flatMap doubleQuotedChar ++ ['\x22']) := rfl

/-- A short escape is read as its character. -/
theorem shortEscape?_of_letter {c letter : Char} (h : escapeLetter? c = some letter) :
    shortEscape? letter = some c ∧ isBreak letter = false := by
  rw [escapeLetter?, List.lookup_eq_some_iff] at h
  obtain ⟨before, after, htable, -⟩ := h
  have hall : ∀ e ∈ before ++ (c, letter) :: after,
      shortEscape? e.2 = some e.1 ∧ isBreak e.2 = false := by
    rw [← htable]
    decide
  exact hall (c, letter) (by simp)

theorem hexDigit?_upper : ∀ d < 16, Text.hexDigit? (Nat.digitChar d).toUpper = some d := by
  decide

theorem readHex?_append (value : Nat) (s t : List Char) :
    Text.readHex? value (s ++ t) = (Text.readHex? value s).bind fun v => Text.readHex? v t := by
  induction s generalizing value with
  | nil => rfl
  | cons c s ih =>
    simp only [List.cons_append, Text.readHex?]
    cases Text.hexDigit? c with
    | none => rfl
    | some d => simp [ih]

theorem readHex?_zeros (k : Nat) : Text.readHex? 0 (List.replicate k '0') = some 0 := by
  induction k with
  | zero => rfl
  | succ k ih => simpa [List.replicate_succ, Text.readHex?, Text.hexDigit?] using ih

theorem readHex?_toDigits (n : Nat) :
    Text.readHex? 0 ((Nat.toDigits 16 n).map Char.toUpper) = some n := by
  induction n using Nat.strongRecOn with
  | _ n ih =>
    rw [Nat.toDigits_eq_if (by decide)]
    split
    next h => simp [Text.readHex?, hexDigit?_upper n h]
    next h =>
      rw [List.map_append, readHex?_append, ih (n / 16) (by omega)]
      simp [Text.readHex?, hexDigit?_upper (n % 16) (Nat.mod_lt _ (by decide))]
      omega

theorem readHex?_upperHex (digits n : Nat) : Text.readHex? 0 (upperHex digits n) = some n := by
  rw [upperHex, List.map_append, List.map_replicate, readHex?_append]
  have hzero : '0'.toUpper = '0' := rfl
  rw [hzero, readHex?_zeros]
  exact readHex?_toDigits n

theorem length_upperHex {digits n : Nat} (hdigits : 0 < digits) (h : n < 16 ^ digits) :
    (upperHex digits n).length = digits := by
  have hle := (Nat.length_toDigits_le_iff (by decide) hdigits).2 h
  simp only [upperHex, List.length_map, List.length_append, List.length_replicate]
  omega

/-- An escape by number is read as its character. -/
theorem escape?_upperHex {letter : Char} {digits : Nat} {c : Char}
    (hshort : shortEscape? letter = none) (hlength : escapeLength? letter = some digits)
    (hdigits : 0 < digits) (h : c.toNat < 16 ^ digits) (rest : List Char) :
    escape? (letter :: (upperHex digits c.toNat ++ rest)) = some (c, digits + 1) := by
  have hupper := length_upperHex hdigits h
  have hvalid : c.toNat.isValidChar := c.valid
  have hle : ¬ (upperHex digits c.toNat ++ rest).length < digits := by
    rw [List.length_append]
    omega
  have htake : (upperHex digits c.toNat ++ rest).take digits = upperHex digits c.toNat :=
    List.take_left' hupper
  simp [escape?, hshort, hlength, htake, readHex?_upperHex, hvalid, hupper]

theorem spells_upperHex {letter : Char} {digits : Nat} {c : Char}
    (hbreak : isBreak letter = false) (hshort : shortEscape? letter = none)
    (hlength : escapeLength? letter = some digits) (hdigits : 0 < digits)
    (h : c.toNat < 16 ^ digits) :
    Spells false ('\\' :: letter :: upperHex digits c.toNat) c := by
  refine .escape rfl hbreak fun rest => ?_
  rw [length_upperHex hdigits h]
  exact escape?_upperHex hshort hlength hdigits h rest

theorem toNat_lt_hex (c : Char) : c.toNat < 16 ^ 8 := by
  have hvalid : c.toNat < 0xD800 ∨ 0xDFFF < c.toNat ∧ c.toNat < 0x110000 := c.valid
  omega

theorem spells_escape (c : Char) : Spells false (escape c) c := by
  unfold escape
  split
  next letter h =>
    obtain ⟨hread, hbreak⟩ := shortEscape?_of_letter h
    exact .escape rfl hbreak fun rest => by simp [escape?, hread]
  next h =>
    simp only
    split_ifs with h₁ h₂
    · exact spells_upperHex rfl rfl rfl (by decide) (by omega)
    · exact spells_upperHex rfl rfl rfl (by decide) (by omega)
    · exact spells_upperHex rfl rfl rfl (by decide) (toNat_lt_hex c)

theorem spells_doubleQuotedChar {c : Char} (hc : c ≠ ' ') : Spells false (doubleQuotedChar c) c := by
  unfold doubleQuotedChar
  split
  · exact spells_escape c
  next h =>
    simp only [Bool.or_eq_true, Bool.not_eq_true', beq_iff_eq, not_or, Bool.not_eq_false,
      Bool.not_eq_true] at h
    obtain ⟨⟨⟨hprintable, hbreak⟩, hquote⟩, hslash⟩ := h
    exact .self (by simpa [isGap_of_isPrintable hprintable] using hc) hbreak hquote fun _ => hslash

/-- What stands between double quotes writes the text, whatever it holds. -/
theorem body_doubleQuoted (s : List Char) : Body false (s.flatMap doubleQuotedChar) s :=
  body_flatMap rfl fun _ _ => spells_doubleQuotedChar

/-! ## Texts in single quotes -/

/-- A character as it stands between single quotes. -/
def singleQuotedChar (c : Char) : List Char := if c = '\x27' then ['\x27', '\x27'] else [c]

theorem spells_singleQuotedChar {c : Char} (hprintable : isPrintable c = true) (hc : c ≠ ' ')
    (hbreak : isBreak c = false) : Spells true (singleQuotedChar c) c := by
  unfold singleQuotedChar
  split
  next h => exact h ▸ .doubled rfl
  next h => exact .self (by simpa [isGap_of_isPrintable hprintable] using hc) hbreak h nofun

theorem lineEnd_of_isPrintable {c : Char} (hprintable : isPrintable c = true)
    (hbreak : isBreak c = true) : LineEnd c := by
  have hreturn : c ≠ '\r' := by rintro rfl; cases hprintable
  have hnext : c ≠ '\u0085' := by rintro rfl; cases hprintable
  simpa [LineEnd, isBreak, hreturn, hnext, or_assoc] using hbreak

theorem indentLines_append (indent : Nat) (always : Bool) {u : List Char}
    (hu : ∀ c ∈ u, isBreak c = false) (rest : List Char) :
    indentLines indent always false (u ++ rest) = u ++ indentLines indent always false rest := by
  induction u with
  | nil => rfl
  | cons c u ih =>
    obtain ⟨hc, hu⟩ := List.forall_mem_cons.1 hu
    simp [indentLines, hc, ih hu]

theorem singleQuotedChar_breaks {c : Char} (h : isBreak c = false) :
    ∀ d ∈ singleQuotedChar c, isBreak d = false := by
  unfold singleQuotedChar
  split
  · simp [isBreak]
  · simpa using h

theorem exists_singleQuotedChar (c : Char) : ∃ rest, singleQuotedChar c = c :: rest := by
  unfold singleQuotedChar
  split
  next h => exact ⟨['\x27'], by rw [h]⟩
  · exact ⟨[], rfl⟩

/-- A line that starts with a text is indented. -/
theorem indentLines_fresh (indent : Nat) {c : Char} (hbreak : isBreak c = false)
    (hspace : isSpace c = false) (rest : List Char) :
    indentLines indent true true (c :: rest) =
      List.replicate indent ' ' ++ indentLines indent true false (c :: rest) := by
  simp [indentLines, hbreak, hspace]

theorem head?_indentLines (indent : Nat) {c : Char} (hbreak : isBreak c = false) (rest : List Char) :
    (indentLines indent true false (c :: rest)).head? = some c := by
  simp [indentLines, hbreak]

/-- A text without a pair has none at its start, and none after that. -/
theorem hasPair_cons_eq_false {f g : Char → Bool} {c : Char} {s : List Char} :
    hasPair f g (c :: s) = false ↔
      (∀ d ∈ s.head?, (f c && g d) = false) ∧ hasPair f g s = false := by
  cases s with
  | nil => simp [hasPair]
  | cons d s => simp [hasPair]

/-- The end of a line in front of a text between single quotes: the next line is indented unless it
    is empty. -/
theorem Body.cons_break {n : Nat} {s : List Char} (hprintable : ∀ c ∈ s, isPrintable c = true)
    (h : Body true (indentLines (n + 1) true false (s.flatMap singleQuotedChar)) s) {b : Char}
    (hb : LineEnd b) (hne : b ≠ '\n') (hnext : ∀ d ∈ s.head?, isSpace d = false) :
    Body true (b :: indentLines (n + 1) true true (s.flatMap singleQuotedChar)) (b :: s) := by
  cases s with
  | nil => simpa [indentLines] using h.cons_line (by simp [Solid, indentLines]) n hb hne
  | cons d s =>
    obtain ⟨v, hv⟩ := exists_singleQuotedChar d
    rw [List.flatMap_cons, hv, List.cons_append] at h ⊢
    cases hd : isBreak d with
    | true =>
      have hsame : indentLines (n + 1) true true (d :: (v ++ s.flatMap singleQuotedChar)) =
          indentLines (n + 1) true false (d :: (v ++ s.flatMap singleQuotedChar)) := by
        simp [indentLines, hd]
      rw [hsame]
      refine h.cons_lineEnd ⟨d, ?_, hd⟩ hb hne
      simp [indentLines, hd]
    | false =>
      rw [indentLines_fresh _ hd (hnext d rfl)]
      refine h.cons_line ?_ n hb hne
      rw [Solid, head?_indentLines _ hd]
      rintro _ ⟨⟩
      exact ⟨(isGap_of_isPrintable (hprintable d List.mem_cons_self)).trans (hnext d rfl), hd⟩

/-- What stands between single quotes writes the text, if it is one that they can hold. -/
theorem body_indentLines (n : Nat) {s : List Char} (hprintable : ∀ c ∈ s, isPrintable c = true)
    (hfeed : '\n' ∉ s) (hspace : hasPair isSpace isBreak s = false)
    (hbreak : hasPair isBreak isSpace s = false) :
    Body true (indentLines (n + 1) true false (s.flatMap singleQuotedChar)) s := by
  induction s with
  | nil => exact .row .nil
  | cons c s ih =>
    obtain ⟨hc, hprintable⟩ := List.forall_mem_cons.1 hprintable
    simp only [List.mem_cons, not_or] at hfeed
    obtain ⟨hafterSpace, hspace⟩ := hasPair_cons_eq_false.1 hspace
    obtain ⟨hafterBreak, hbreak⟩ := hasPair_cons_eq_false.1 hbreak
    have hrest := ih hprintable hfeed.2 hspace hbreak
    rw [List.flatMap_cons]
    cases hline : isBreak c with
    | true =>
      have hself : singleQuotedChar c = [c] := by
        have hquote : c ≠ '\x27' := by rintro rfl; cases hline
        rw [singleQuotedChar, if_neg hquote]
      rw [hself, List.singleton_append, indentLines, if_pos hline]
      exact hrest.cons_break hprintable (lineEnd_of_isPrintable hc hline) (Ne.symm hfeed.1)
        (by simpa [hline] using hafterBreak)
    | false =>
      rw [indentLines_append _ _ (singleQuotedChar_breaks hline)]
      by_cases hcs : c = ' '
      · subst hcs
        refine hrest.cons_space ?_
        cases s with
        | nil => exact nofun
        | cons d s =>
          have hd : isBreak d = false := by simpa [isSpace] using hafterSpace d rfl
          obtain ⟨v, hv⟩ := exists_singleQuotedChar d
          rw [List.flatMap_cons, hv, List.cons_append, head?_indentLines _ hd]
          rintro _ ⟨⟩
          exact hd
      · exact hrest.cons_char (spells_singleQuotedChar hc hcs hline)

/-! ## Texts in records -/

/-- The style of a form. -/
def Form.style : Form → Style
  | .plain => .plain
  | .singleQuoted => .singleQuoted
  | .doubleQuoted => .doubleQuoted
  | .literal => .literal

/-- The style of quoted scalars. -/
def quotedStyle (single : Bool) : Style := if single then .singleQuoted else .doubleQuoted

/-- `Held n s t style`: as a scalar of that style in a record that is indented by `n`, `t` is read as
    the text `s`. -/
inductive Held (n : Nat) (s : List Char) : List Char → Style → Prop
  | plain : Plain s → Held n s s .plain
  | quoted {single : Bool} {t : List Char} : Body single t s →
    Held n s (quote single :: (t ++ [quote single])) (quotedStyle single)
  | literal : s ≠ [] → (∀ c ∈ s, isPrintable c = true) → Held n s (literal (n + 2) s) .literal

/-- A text without characters that need escapes. -/
theorem printable_of_needsEscapes {s : List Char} (h : needsEscapes s = false) :
    ∀ c ∈ s, isPrintable c = true := by
  simp only [needsEscapes, Bool.or_eq_false_iff, List.any_eq_false, Bool.not_eq_true',
    Bool.not_eq_false] at h
  exact h.1

/-- **A text is written so that it is read as that text**, whatever it holds. -/
theorem held_textAt (n : Nat) (s : String) :
    Held n s.toList (textAt n s) (Form.ofText s).style := by
  have hbody : Body false (s.toList.flatMap doubleQuotedChar) s.toList := body_doubleQuoted s.toList
  unfold textAt Form.ofText
  simp only
  split_ifs with hfeed hblock hplain hsingle
  · simp only [fitsBlock, Bool.and_eq_true, Bool.not_eq_true'] at hblock
    refine .literal ?_ (printable_of_needsEscapes hblock.1)
    intro h
    simp [h] at hfeed
  · exact .quoted hbody
  · simp only [Bool.and_eq_true, Bool.not_eq_true'] at hplain
    have hne : s.toList ≠ [] := by
      intro h
      simp [isTyped, h] at hplain
    exact .plain (plain_of_fitsPlain hplain.2 hne)
  · simp only [fitsSingleQuotes, needsEscapes, Bool.and_eq_true, Bool.not_eq_true',
      Bool.or_eq_false_iff, List.any_eq_false, Bool.not_eq_false] at hsingle
    have hbody : Body true _ s.toList :=
      body_indentLines (n + 1) hsingle.1.1 (by simpa using hfeed) hsingle.1.2 hsingle.2
    exact .quoted hbody
  · exact .quoted hbody

theorem Held.ne_nil {n : Nat} {s t : List Char} {style : Style} (h : Held n s t style) : t ≠ [] := by
  cases h with
  | plain hs => exact hs.words.ne_nil
  | quoted _ | literal _ _ => exact List.cons_ne_nil _ _

theorem endLine_eq {t : List Char} (h : ∀ c ∈ t.getLast?, isBreak c = false) :
    endLine t = t ++ ['\n'] := by
  unfold endLine
  cases hlast : t.getLast? with
  | none => rfl
  | some c => simp [h c hlast]

theorem endLine_append (s : List Char) {t : List Char} (h : t ≠ []) :
    endLine (s ++ t) = s ++ endLine t := by
  unfold endLine
  rw [List.getLast?_append_of_ne_nil _ h]
  split
  · rfl
  · rw [List.append_assoc]

/-- A plain text does not end its line. -/
theorem Plain.endLine {s : List Char} (hs : Plain s) : endLine s = s ++ ['\n'] :=
  endLine_eq fun c hc => hs.breaks c (List.mem_of_getLast? hc)

/-- Nor does a quoted one. -/
theorem endLine_quoted (single : Bool) (t : List Char) :
    endLine (quote single :: (t ++ [quote single])) = quote single :: (t ++ [quote single]) ++ ['\n'] := by
  refine endLine_eq fun c hc => ?_
  rw [← List.cons_append, List.getLast?_append_of_ne_nil _ (List.cons_ne_nil _ _)] at hc
  cases hc
  cases single <;> rfl

/-! ## Texts on one line -/

theorem utf8Size_ofString (s : String) :
    (Text.Utf8.ofString s).length = (s.toList.map Char.utf8Size).sum := by
  simp [Text.Utf8.ofString, Text.Utf8.encode, List.length_flatMap]

theorem utf8Size_eq (c : Char) : c.utf8Size =
    if c.toNat ≤ 0x7F then 1 else if c.toNat ≤ 0x7FF then 2 else if c.toNat ≤ 0xFFFF then 3 else 4 :=
  rfl

/-- An escape is at most four times as long as the character in bytes. -/
theorem length_escape (c : Char) : (escape c).length ≤ 4 * c.utf8Size := by
  have hpos := c.utf8Size_pos
  unfold escape
  split
  · simp only [List.length_cons, List.length_nil]
    omega
  next h =>
    simp only
    split_ifs with h₁ h₂
    · rw [List.length_cons, List.length_cons, length_upperHex (by decide) (by omega)]
      omega
    · rw [List.length_cons, List.length_cons, length_upperHex (by decide) (by omega), utf8Size_eq]
      split_ifs <;> omega
    · rw [List.length_cons, List.length_cons,
        length_upperHex (by decide) (toNat_lt_hex c), utf8Size_eq]
      split_ifs <;> omega

theorem length_doubleQuotedChar (c : Char) : (doubleQuotedChar c).length ≤ 4 * c.utf8Size := by
  have hpos := c.utf8Size_pos
  unfold doubleQuotedChar
  split
  · exact length_escape c
  · simp
    omega

theorem length_singleQuotedChar (c : Char) : (singleQuotedChar c).length ≤ 4 * c.utf8Size := by
  have hpos := c.utf8Size_pos
  unfold singleQuotedChar
  split
  all_goals
    simp only [List.length_cons, List.length_nil]
    omega

theorem length_flatMap_le {spell : Char → List Char} (h : ∀ c, (spell c).length ≤ 4 * c.utf8Size)
    (s : List Char) : (s.flatMap spell).length ≤ 4 * (s.map Char.utf8Size).sum := by
  induction s with
  | nil => exact Nat.zero_le _
  | cons c s ih =>
    have hc := h c
    rw [List.flatMap_cons, List.length_append, List.map_cons, List.sum_cons]
    omega

theorem digitChar_printable : ∀ d < 16, isPrintable (Nat.digitChar d).toUpper = true ∧
    isBreak (Nat.digitChar d).toUpper = false := by
  decide

theorem upperHex_printable (digits n : Nat) :
    ∀ d ∈ upperHex digits n, isPrintable d = true ∧ isBreak d = false := by
  have hdigits (n : Nat) : ∀ d ∈ Nat.toDigits 16 n, isPrintable d.toUpper = true ∧
      isBreak d.toUpper = false := by
    induction n using Nat.strongRecOn with
    | _ n ih =>
      rw [Nat.toDigits_eq_if (by decide)]
      split
      next h => simpa using digitChar_printable n h
      next h =>
        intro d hd
        rcases List.mem_append.1 hd with hd | hd
        · exact ih (n / 16) (by omega) d hd
        · obtain rfl := List.mem_singleton.1 hd
          exact digitChar_printable (n % 16) (Nat.mod_lt _ (by decide))
  intro d hd
  obtain ⟨e, he, rfl⟩ := List.mem_map.1 hd
  rcases List.mem_append.1 he with he | he
  · obtain rfl := List.eq_of_mem_replicate he
    exact ⟨rfl, rfl⟩
  · exact hdigits n e he

theorem escapeLetter_printable {c letter : Char} (h : escapeLetter? c = some letter) :
    isPrintable letter = true ∧ isBreak letter = false := by
  rw [escapeLetter?, List.lookup_eq_some_iff] at h
  obtain ⟨before, after, htable, -⟩ := h
  have hall : ∀ e ∈ before ++ (c, letter) :: after, isPrintable e.2 = true ∧ isBreak e.2 = false := by
    rw [← htable]
    decide
  exact hall (c, letter) (by simp)

theorem escape_printable (c : Char) : ∀ d ∈ escape c, isPrintable d = true ∧ isBreak d = false := by
  have hslash : isPrintable '\\' = true ∧ isBreak '\\' = false := ⟨rfl, rfl⟩
  have hhex (letter : Char) (h : isPrintable letter = true ∧ isBreak letter = false) (digits : Nat) :
      ∀ d ∈ '\\' :: letter :: upperHex digits c.toNat, isPrintable d = true ∧ isBreak d = false :=
    List.forall_mem_cons.2 ⟨hslash, List.forall_mem_cons.2 ⟨h, upperHex_printable digits _⟩⟩
  unfold escape
  split
  next letter h => simpa using ⟨hslash, escapeLetter_printable h⟩
  · simp only
    split_ifs
    · exact hhex 'x' ⟨rfl, rfl⟩ 2
    · exact hhex 'u' ⟨rfl, rfl⟩ 4
    · exact hhex 'U' ⟨rfl, rfl⟩ 8

/-- What stands between double quotes is on one line. -/
theorem doubleQuotedChar_printable (c : Char) :
    ∀ d ∈ doubleQuotedChar c, isPrintable d = true ∧ isBreak d = false := by
  unfold doubleQuotedChar
  split
  · exact escape_printable c
  next h =>
    simp only [Bool.or_eq_true, Bool.not_eq_true', beq_iff_eq, not_or, Bool.not_eq_false,
      Bool.not_eq_true] at h
    simpa using h.1.1

theorem doubleQuoted_printable (s : List Char) :
    ∀ d ∈ doubleQuoted s, isPrintable d = true ∧ isBreak d = false := by
  have hquote : isPrintable '\x22' = true ∧ isBreak '\x22' = false := ⟨rfl, rfl⟩
  rw [doubleQuoted_eq]
  refine List.forall_mem_cons.2 ⟨hquote, List.forall_mem_append.2 ⟨fun d hd => ?_, ?_⟩⟩
  · obtain ⟨c, -, hdc⟩ := List.mem_flatMap.1 hd
    exact doubleQuotedChar_printable c d hdc
  · exact List.forall_mem_singleton.2 hquote

theorem mem_indentLines {indent : Nat} {always : Bool} {fresh : Bool} {s : List Char} :
    ∀ d ∈ indentLines indent always fresh s, d ∈ s ∨ d = ' ' := by
  induction s generalizing fresh with
  | nil =>
    intro d hd
    unfold indentLines at hd
    split at hd
    · exact Or.inr (List.eq_of_mem_replicate hd)
    · cases hd
  | cons c s ih =>
    intro d hd
    unfold indentLines at hd
    split at hd
    · rcases List.mem_cons.1 hd with rfl | hd
      · exact Or.inl List.mem_cons_self
      · exact (ih d hd).imp_left (List.mem_cons_of_mem _)
    · rcases List.mem_append.1 hd with hd | hd
      · split at hd
        · exact Or.inr (List.eq_of_mem_replicate hd)
        · cases hd
      · rcases List.mem_cons.1 hd with rfl | hd
        · exact Or.inl List.mem_cons_self
        · exact (ih d hd).imp_left (List.mem_cons_of_mem _)

theorem mem_singleQuotedChar {c d : Char} (h : d ∈ singleQuotedChar c) : d = c := by
  unfold singleQuotedChar at h
  split at h
  next hc => simpa [hc] using h
  · simpa using h

/-- What stands between single quotes holds the characters of the text, quotes and spaces. -/
theorem mem_singleQuoted {indent : Nat} {s : List Char} :
    ∀ d ∈ singleQuoted indent s, d ∈ s ∨ d = ' ' ∨ d = '\x27' := by
  intro d hd
  simp only [singleQuoted, List.cons_append, List.mem_cons, List.mem_append, List.not_mem_nil,
    or_false] at hd
  rcases hd with rfl | hd | rfl
  · exact Or.inr (Or.inr rfl)
  · rcases mem_indentLines d hd with hd | rfl
    · obtain ⟨c, hc, hdc⟩ := List.mem_flatMap.1 hd
      exact Or.inl (mem_singleQuotedChar hdc ▸ hc)
    · exact Or.inr (Or.inl rfl)
  · exact Or.inr (Or.inr rfl)

/-- The head of a block holds signs only. -/
theorem literalHead_printable (s : List Char) :
    ∀ d ∈ literalHead s, isPrintable d = true := by
  have hwidth : ∀ d ∈ (if (s.head?.map fun c => isSpace c || isBreak c).getD false then ['2'] else []),
      isPrintable d = true := by
    split <;> exact List.all_eq_true.1 rfl
  unfold literalHead
  refine List.forall_mem_cons.2 ⟨rfl, List.forall_mem_append.2 ⟨hwidth, ?_⟩⟩
  split
  · exact List.all_eq_true.1 rfl
  · split
    · exact List.all_eq_true.1 rfl
    · split
      · exact List.all_eq_true.1 rfl
      · split <;> exact List.all_eq_true.1 rfl

/-- A text is written with characters that can be written as themselves. -/
theorem textAt_printable (n : Nat) (s : String) : ∀ d ∈ textAt n s, isPrintable d = true := by
  have hdouble : ∀ d ∈ doubleQuoted s.toList, isPrintable d = true :=
    fun d hd => (doubleQuoted_printable s.toList d hd).1
  unfold textAt Form.ofText
  simp only
  split_ifs with hfeed hblock hplain hsingle
  · simp only [fitsBlock, Bool.and_eq_true, Bool.not_eq_true'] at hblock
    refine List.forall_mem_append.2 ⟨literalHead_printable _,
      List.forall_mem_cons.2 ⟨rfl, fun d hd => ?_⟩⟩
    rcases mem_indentLines d hd with hd | rfl
    · exact printable_of_needsEscapes hblock.1 d hd
    · rfl
  · exact hdouble
  · simp only [fitsPlain, Bool.and_eq_true, Bool.not_eq_true'] at hplain
    exact printable_of_needsEscapes hplain.2.1.1.1
  · simp only [fitsSingleQuotes, Bool.and_eq_true, Bool.not_eq_true'] at hsingle
    intro d hd
    rcases mem_singleQuoted d hd with hd | rfl | rfl
    · exact printable_of_needsEscapes hsingle.1 d hd
    · rfl
    · rfl
  · exact hdouble

/-- A text on one line is written on one line, which is not much longer. -/
theorem textAt_oneLine (n : Nat) {s : String} (h : ∀ c ∈ s.toList, isBreak c = false) :
    (∀ d ∈ textAt n s, isBreak d = false) ∧
      (textAt n s).length ≤ 4 * (Text.Utf8.ofString s).length + 2 := by
  have hfeed : s.toList.contains '\n' = false := by
    rw [List.contains_eq_mem, decide_eq_false_iff_not]
    intro hmem
    exact absurd (h _ hmem) (by decide)
  rw [utf8Size_ofString]
  unfold textAt Form.ofText
  simp only [hfeed, Bool.false_eq_true, if_false]
  split_ifs
  · refine ⟨h, ?_⟩
    have hself := @length_flatMap_le (fun c => [c]) (fun c => by
      have := c.utf8Size_pos
      simp only [List.length_cons, List.length_nil]
      omega) s.toList
    rw [List.flatMap_singleton'] at hself
    simp only
    omega
  · have hbreaks : ∀ d ∈ s.toList.flatMap singleQuotedChar, isBreak d = false := by
      intro d hd
      obtain ⟨c, hc, hdc⟩ := List.mem_flatMap.1 hd
      exact singleQuotedChar_breaks (h c hc) d hdc
    have hsame : singleQuoted (n + 2) s.toList =
        '\x27' :: (s.toList.flatMap singleQuotedChar ++ ['\x27']) := by
      have := indentLines_append (n + 2) true hbreaks []
      simp only [List.append_nil, indentLines, Bool.false_and, Bool.false_eq_true, if_false] at this
      rw [singleQuoted, List.cons_append]
      exact congrArg (fun t => '\x27' :: (t ++ ['\x27'])) this
    have hlength := length_flatMap_le length_singleQuotedChar s.toList
    constructor
    · intro d hd
      simp only [hsame, List.mem_cons, List.mem_append, List.not_mem_nil, or_false] at hd
      rcases hd with rfl | hd | rfl
      · rfl
      · exact hbreaks d hd
      · rfl
    · simp only [hsame, List.length_cons, List.length_append, List.length_nil]
      omega
  · have hlength := length_flatMap_le length_doubleQuotedChar s.toList
    constructor
    · exact fun d hd => (doubleQuoted_printable s.toList d hd).2
    · simp only [doubleQuoted_eq, List.length_cons, List.length_append, List.length_nil]
      omega

end Reimage.Yaml
