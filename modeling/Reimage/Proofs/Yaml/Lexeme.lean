/-
  What the writer writes of a text is read as that text.

  * `Words`: a row of words with spaces between them, which is how a plain text goes;
  * `plain_words`: a plain scalar is read up to the colon or the end of the line after it;
  * `Body`: the text between two quotes, with all that may stand in it;
  * `quoted_body`: a quoted scalar is read up to its closing quote.
-/
import Mathlib.Data.List.Basic
import Reimage.Yaml.Lexeme

namespace Reimage.Yaml

/-! ## Places -/

namespace Cursor

@[simp] theorem skip_rest (p : Cursor) (n : Nat) : (p.skip n).rest = p.rest.drop n := rfl
@[simp] theorem skip_index (p : Cursor) (n : Nat) : (p.skip n).index = p.index + n := rfl
@[simp] theorem skip_line (p : Cursor) (n : Nat) : (p.skip n).line = p.line := rfl
@[simp] theorem skip_column (p : Cursor) (n : Nat) : (p.skip n).column = p.column + n := rfl

@[simp] theorem skip_zero (p : Cursor) : p.skip 0 = p := rfl

@[simp] theorem skip_skip (p : Cursor) (m n : Nat) : (p.skip m).skip n = p.skip (m + n) := by
  simp [skip, List.drop_drop, Nat.add_assoc]

/-- What is left after a text that comes next. -/
theorem rest_skip_length {p : Cursor} {t rest : List Char} (h : p.rest = t ++ rest) :
    (p.skip t.length).rest = rest := by
  rw [skip_rest, h, List.drop_left]

theorem endsWord_zero {p : Cursor} {c : Char} {rest : List Char} (h : p.rest = c :: rest) :
    p.endsWord 0 = (isGap c || isBreak c) := by
  simp [endsWord, h]

theorem endsWord_one {p : Cursor} {c : Char} {rest : List Char} (h : p.rest = c :: rest) :
    p.endsWord 1 = ((rest.head?.map fun d => isGap d || isBreak d).getD true) := by
  cases rest <;> simp [endsWord, h]

theorem looksAt_zero {p : Cursor} {c : Char} {rest : List Char} (h : p.rest = c :: rest)
    (d : Char) : p.looksAt 0 d = (c == d) := by
  simp [looksAt, h]

/-- Marks stand at the start of a line only. -/
theorem atDocumentMark_of_column {p : Cursor} (h : p.column ≠ 0) : p.atDocumentMark = false := by
  simp [atDocumentMark, looksAtMark, h]

end Cursor

/-- Neither white space nor the end of a line comes next. -/
def Solid (s : List Char) : Prop := ∀ c ∈ s.head?, isGap c = false ∧ isBreak c = false

/-- `q` is on a line below `p`, behind `n` spaces and in front of `rest`. -/
structure Cursor.Below (p q : Cursor) (n : Nat) (rest : List Char) : Prop where
  rest : q.rest = rest
  column : q.column = n
  line : p.line < q.line
  index : p.index < q.index

/-! ## Gaps -/

theorem readGap_solid (indent : Int) {g : Gap} {p : Cursor} (h : Solid p.rest) (fuel : Nat) :
    readGap indent fuel g p = .ok (g, p) := by
  cases fuel with
  | zero => rfl
  | succ fuel =>
    unfold readGap
    split
    · rfl
    next c rest hp =>
      obtain ⟨hgap, hbreak⟩ := h c (by simp [hp])
      simp [hgap, hbreak]

/-- A space makes a gap longer, unless it stands at the start of a line. -/
theorem readGap_space (indent : Int) {p : Cursor} {rest : List Char} (hp : p.rest = ' ' :: rest)
    (g : Gap) (fuel : Nat) :
    readGap indent (fuel + 1) g p =
      readGap indent fuel (if g.broken then g else { g with spaces := g.spaces ++ [' '] })
        (p.skip 1) := by
  have hgap : isGap ' ' = true := rfl
  have htab : (' ' == '\t') = false := rfl
  rw [readGap, hp]
  simp only [hgap, if_true, htab, Bool.and_false, Bool.false_and, Bool.false_eq_true, if_false]

/-- Spaces within a line are kept. -/
theorem readGap_spaces (indent : Int) {n : Nat} {rest : List Char} (hrest : Solid rest)
    (spaces : List Char) {p : Cursor} (hp : p.rest = List.replicate n ' ' ++ rest) {fuel : Nat}
    (hfuel : n ≤ fuel) :
    readGap indent fuel { spaces := spaces } p =
      .ok ({ spaces := spaces ++ List.replicate n ' ' }, p.skip n) := by
  induction n generalizing spaces p fuel with
  | zero =>
    rw [readGap_solid indent (by simpa using hp ▸ hrest)]
    simp
  | succ n ih =>
    obtain ⟨fuel, rfl⟩ : ∃ k, fuel = k + 1 := ⟨fuel - 1, by omega⟩
    rw [List.replicate_succ, List.cons_append] at hp
    rw [readGap_space indent hp, if_neg Bool.false_ne_true,
      ih (spaces ++ [' ']) (by simp [hp]) (by omega), Cursor.skip_skip, Nat.add_comm 1 n]
    simp [List.replicate_succ]

/-- Spaces at the start of a line are not. -/
theorem readGap_indent (indent : Int) {n : Nat} {rest : List Char} (hrest : Solid rest) {g : Gap}
    (hg : g.broken = true) {p : Cursor} (hp : p.rest = List.replicate n ' ' ++ rest) {fuel : Nat}
    (hfuel : n ≤ fuel) : readGap indent fuel g p = .ok (g, p.skip n) := by
  induction n generalizing p fuel with
  | zero =>
    rw [readGap_solid indent (by simpa using hp ▸ hrest)]
    simp
  | succ n ih =>
    obtain ⟨fuel, rfl⟩ : ∃ k, fuel = k + 1 := ⟨fuel - 1, by omega⟩
    rw [List.replicate_succ, List.cons_append] at hp
    rw [readGap_space indent hp, if_pos hg, ih (by simp [hp]) (by omega), Cursor.skip_skip,
      Nat.add_comm 1 n]

/-- An end of a line that stands for itself. -/
def LineEnd (b : Char) : Prop := b = '\n' ∨ b = '\u2028' ∨ b = '\u2029'

theorem LineEnd.isBreak {b : Char} (h : LineEnd b) : isBreak b = true := by
  rcases h with rfl | rfl | rfl <;> rfl

theorem LineEnd.isGap {b : Char} (h : LineEnd b) : isGap b = false := by
  rcases h with rfl | rfl | rfl <;> rfl

theorem LineEnd.readBreak {b : Char} (h : LineEnd b) {p : Cursor} {rest : List Char}
    (hp : p.rest = b :: rest) : p.readBreak = ([b], p.nextLine 1) := by
  rcases h with rfl | rfl | rfl <;> simp [Cursor.readBreak, hp, Yaml.isBreak]

theorem nextLine_rest {p : Cursor} {b : Char} {rest : List Char} (hp : p.rest = b :: rest) :
    (p.nextLine 1).rest = rest := by
  simp [Cursor.nextLine, hp]

theorem Cursor.Below.of_nextLine {p q : Cursor} {n : Nat} {rest : List Char}
    (h : (p.nextLine 1).Below q n rest) : p.Below q n rest :=
  ⟨h.rest, h.column, Nat.lt_trans (Nat.lt_succ_self _) h.line,
    Nat.lt_trans (Nat.lt_succ_self _) h.index⟩

theorem Cursor.below_nextLine {p : Cursor} {b : Char} {n : Nat} {rest : List Char}
    (hp : p.rest = b :: (List.replicate n ' ' ++ rest)) :
    p.Below ((p.nextLine 1).skip n) n rest where
  rest := by simp [nextLine, hp]
  column := by simp [nextLine]
  line := by
    rw [skip_line]
    exact Nat.lt_succ_self _
  index := by
    simp only [skip_index, nextLine]
    omega

/-- Further ends of lines with nothing but indentation after them. -/
theorem readGap_more (indent : Int) {bs : List Char} (hbs : ∀ b ∈ bs, LineEnd b) {n : Nat}
    {rest : List Char} (hrest : Solid rest) {b : Char} {p : Cursor}
    (hp : p.rest = b :: (bs ++ (List.replicate n ' ' ++ rest))) (first more : List Char) {fuel : Nat}
    (hfuel : bs.length + n ≤ fuel) :
    ∃ q, readGap indent fuel { broken := true, first := first, more := more } (p.nextLine 1) =
      .ok ({ broken := true, first := first, more := more ++ bs }, q) ∧ p.Below q n rest := by
  induction bs generalizing b p more fuel with
  | nil =>
    refine ⟨_, ?_, Cursor.below_nextLine hp⟩
    rw [readGap_indent indent hrest rfl (nextLine_rest hp) (by simpa using hfuel), List.append_nil]
  | cons c bs ih =>
    obtain ⟨hc, hbs⟩ := List.forall_mem_cons.1 hbs
    simp only [List.length_cons] at hfuel
    obtain ⟨fuel, rfl⟩ : ∃ k, fuel = k + 1 := ⟨fuel - 1, by omega⟩
    have hnext : (p.nextLine 1).rest = c :: (bs ++ (List.replicate n ' ' ++ rest)) :=
      nextLine_rest hp
    obtain ⟨q, hq, hbelow⟩ := ih hbs hnext (more ++ [c])
      (show bs.length + n ≤ fuel by omega)
    refine ⟨q, ?_, hbelow.of_nextLine⟩
    rw [readGap, hnext]
    simp only [hc.isGap, Bool.false_eq_true, if_false, hc.isBreak, if_true, hc.readBreak hnext]
    rw [hq, List.append_assoc]
    rfl

/-- Ends of lines with nothing but indentation after them. -/
theorem readGap_lineEnds (indent : Int) {b : Char} {bs : List Char} (hb : LineEnd b)
    (hbs : ∀ b ∈ bs, LineEnd b) {n : Nat} {rest : List Char} (hrest : Solid rest) {p : Cursor}
    (hp : p.rest = b :: (bs ++ (List.replicate n ' ' ++ rest))) {fuel : Nat}
    (hfuel : bs.length + n < fuel) :
    ∃ q, readGap indent fuel {} p = .ok ({ broken := true, first := [b], more := bs }, q) ∧
      p.Below q n rest := by
  obtain ⟨fuel, rfl⟩ : ∃ k, fuel = k + 1 := ⟨fuel - 1, by omega⟩
  obtain ⟨q, hq, hbelow⟩ := readGap_more indent hbs hrest hp [b] [] (Nat.le_of_lt_succ hfuel)
  refine ⟨q, ?_, hbelow⟩
  rw [readGap, hp]
  simp only [hb.isGap, Bool.false_eq_true, if_false, hb.isBreak, if_true, hb.readBreak hp]
  exact hq

/-! ## Plain scalars -/

/-- A word of a plain scalar: what ends a line or a word, or is a colon at the end of a word, is not
    in it. -/
structure Word (w : List Char) : Prop where
  ne_nil : w ≠ []
  solid : ∀ c ∈ w, isGap c = false ∧ isBreak c = false
  last : w.getLast? ≠ some ':'

/-- Words with spaces between them. None but the first starts with the sign of a comment. -/
inductive Words : List Char → Prop
  | word {w : List Char} : Word w → Words w
  | cons {w s : List Char} (n : Nat) : Word w → Words s → s.head? ≠ some '#' →
    Words (w ++ (List.replicate (n + 1) ' ' ++ s))

/-- What a word can be followed by: white space, the end of the line, or a colon with one of these
    after it. -/
def Stops (rest : List Char) : Prop :=
  ∀ c ∈ rest.head?, isGap c = true ∨ isBreak c = true ∨
    c = ':' ∧ ∀ d ∈ rest.tail.head?, isGap d = true ∨ isBreak d = true

/-- A word is read to its end. -/
theorem plainWord_word {w : List Char} (hw : ∀ c ∈ w, isGap c = false ∧ isBreak c = false)
    (hlast : w.getLast? ≠ some ':') {rest : List Char} (hrest : Stops rest) {p : Cursor}
    (hp : p.rest = w ++ rest) (word : List Char) {fuel : Nat} (hfuel : w.length < fuel) :
    plainWord false fuel word p = .ok (word ++ w, p.skip w.length) := by
  induction w generalizing p word fuel with
  | nil =>
    obtain ⟨fuel, rfl⟩ : ∃ k, fuel = k + 1 := ⟨fuel - 1, by simp at hfuel; omega⟩
    rw [List.nil_append] at hp
    unfold plainWord
    split
    · simp
    next c r hc =>
      have hzero := Cursor.endsWord_zero hc
      have hone := Cursor.endsWord_one hc
      have hstop := hrest c (by rw [← hp, hc]; rfl)
      rw [← hp, hc] at hstop
      rcases hstop with hgap | hbreak | ⟨rfl, hafter⟩
      · simp [hzero, hgap]
      · simp [hzero, hbreak]
      · have hends : p.endsWord 1 = true := by
          rw [hone]
          cases r with
          | nil => rfl
          | cons d r => simpa using hafter d rfl
        simp [hends]
  | cons c w ih =>
    obtain ⟨fuel, rfl⟩ : ∃ k, fuel = k + 1 := ⟨fuel - 1, by omega⟩
    obtain ⟨⟨hgap, hbreak⟩, hw'⟩ := List.forall_mem_cons.1 hw
    rw [List.cons_append] at hp
    have hzero : p.endsWord 0 = false := by
      rw [Cursor.endsWord_zero hp, hgap, hbreak, Bool.or_self]
    have hcolon : (c == ':' && p.endsWord 1) = false := by
      rw [Bool.and_eq_false_iff, beq_eq_false_iff_ne]
      cases w with
      | nil => exact Or.inl fun h => hlast (by rw [h]; rfl)
      | cons d w =>
        obtain ⟨hgap', hbreak'⟩ := hw' d List.mem_cons_self
        right
        rw [Cursor.endsWord_one hp]
        simp [hgap', hbreak']
    have hlast' : w.getLast? ≠ some ':' := by
      cases w with
      | nil => simp
      | cons d w => simpa using hlast
    rw [plainWord, hp]
    simp only [hzero, Bool.false_eq_true, if_false, Bool.false_and, hcolon, Bool.or_self]
    rw [ih hw' hlast' (by simp [hp]) (word ++ [c]) (by simp at hfuel; omega), Cursor.skip_skip]
    simp [Nat.add_comm]

theorem Word.solid_append {w : List Char} (h : Word w) (rest : List Char) : Solid (w ++ rest) := by
  obtain ⟨c, w, rfl⟩ := List.exists_cons_of_ne_nil h.ne_nil
  rintro d ⟨⟩
  exact h.solid c List.mem_cons_self

theorem Words.solid_append {s : List Char} (h : Words s) (rest : List Char) : Solid (s ++ rest) := by
  cases h with
  | word hw => exact hw.solid_append rest
  | cons n hw => rw [List.append_assoc]; exact hw.solid_append _

theorem Words.ne_nil {s : List Char} (h : Words s) : s ≠ [] := by
  cases h with
  | word hw => exact hw.ne_nil
  | cons n hw => exact List.append_ne_nil_of_left_ne_nil hw.ne_nil _

theorem looksAt_of_head {p : Cursor} {s rest : List Char} {d : Char} (hp : p.rest = s ++ rest)
    (hne : s ≠ []) (hhead : s.head? ≠ some d) : p.looksAt 0 d = false := by
  obtain ⟨c, s, rfl⟩ := List.exists_cons_of_ne_nil hne
  rw [Cursor.looksAt_zero hp]
  exact beq_false_of_ne fun h => hhead (by rw [h]; rfl)

/-- One word of a plain scalar, and what is done after it. -/
theorem plainFrom_word {indent : Int} {w : List Char} (hw : Word w) (hhead : w.head? ≠ some '#')
    {rest : List Char} (hrest : Stops rest) {p : Cursor} (hp : p.rest = w ++ rest)
    (hmark : p.atDocumentMark = false) (text : List Char) (g : Gap) (fuel : Nat) :
    plainFrom false indent (fuel + 1) text g p =
      if !(p.skip w.length).endsWord 0 || rest.isEmpty then
        .ok (text ++ g.text ++ w, false, p.skip w.length)
      else (readGap indent (rest.length + 1) {} (p.skip w.length)).bind fun r =>
        if (r.2.column : Int) < indent then .ok (text ++ g.text ++ w, r.1.broken, r.2)
        else plainFrom false indent fuel (text ++ g.text ++ w) r.1 r.2 := by
  have hsharp := looksAt_of_head hp hw.ne_nil hhead
  have hfuel : w.length < p.rest.length + 1 := by
    rw [hp, List.length_append]
    omega
  have hword := plainWord_word hw.solid hw.last hrest hp [] hfuel
  have hempty : w.isEmpty = false := by simpa using hw.ne_nil
  have hleft : (p.skip w.length).rest = rest := Cursor.rest_skip_length hp
  rw [plainFrom, hmark, hsharp, hword]
  simp only [Bool.or_self, Bool.false_eq_true, if_false, bind, Except.bind, List.nil_append, hempty,
    hleft, decide_eq_true_eq, Bool.not_false, Bool.true_and]

/-- The words of a plain scalar are read one after the other, and the last one as a single one is. -/
theorem plainFrom_words {indent : Int} {s rest : List Char} (hs : Words s)
    (hhead : s.head? ≠ some '#')
    (result : List Char → Cursor → Except Fault (List Char × Bool × Cursor) → Prop)
    (hend : ∀ {w : List Char} {p : Cursor}, Word w → w.head? ≠ some '#' → p.rest = w ++ rest →
      p.atDocumentMark = false → ∀ text g fuel,
      result (text ++ g.text ++ w) (p.skip w.length) (plainFrom false indent (fuel + 1) text g p))
    {p : Cursor} (hp : p.rest = s ++ rest) (hmark : p.atDocumentMark = false)
    (hindent : indent ≤ p.column + 1) (text : List Char) (g : Gap) {fuel : Nat}
    (hfuel : s.length < fuel) :
    result (text ++ g.text ++ s) (p.skip s.length) (plainFrom false indent fuel text g p) := by
  induction hs generalizing p text g fuel with
  | word hw =>
    obtain ⟨fuel, rfl⟩ : ∃ k, fuel = k + 1 := ⟨fuel - 1, by omega⟩
    exact hend hw hhead hp hmark text g fuel
  | @cons w s n hw hs hhead' ih =>
    obtain ⟨fuel, rfl⟩ : ∃ k, fuel = k + 1 := ⟨fuel - 1, by omega⟩
    simp only [List.length_append, List.length_replicate] at hfuel
    rw [List.append_assoc, List.append_assoc] at hp
    have hhead : w.head? ≠ some '#' := by
      obtain ⟨c, w, rfl⟩ := List.exists_cons_of_ne_nil hw.ne_nil
      exact hhead
    have hwpos : 0 < w.length := List.length_pos_iff.2 hw.ne_nil
    have hleft : (p.skip w.length).rest = List.replicate (n + 1) ' ' ++ (s ++ rest) :=
      Cursor.rest_skip_length hp
    have hstops : Stops (List.replicate (n + 1) ' ' ++ (s ++ rest)) := by
      rintro c ⟨⟩
      exact Or.inl rfl
    have hends : (p.skip w.length).endsWord 0 = true := by
      rw [List.replicate_succ, List.cons_append] at hleft
      rw [Cursor.endsWord_zero hleft]
      rfl
    have hgap : readGap indent ((List.replicate (n + 1) ' ' ++ (s ++ rest)).length + 1) {}
        (p.skip w.length) = _ :=
      readGap_spaces indent (hs.solid_append rest) [] hleft (by simp; omega)
    rw [plainFrom_word hw hhead hstops hp hmark, hends, hgap]
    have hcolumn : ¬ ((((p.skip w.length).skip (n + 1)).column : Int) < indent) := by
      simp only [Cursor.skip_column]
      omega
    have hmark' : ((p.skip w.length).skip (n + 1)).atDocumentMark = false :=
      Cursor.atDocumentMark_of_column (by simp only [Cursor.skip_column]; omega)
    have hnext : ((p.skip w.length).skip (n + 1)).rest = s ++ rest := by
      rw [Cursor.skip_rest, hleft, List.drop_left' (by simp)]
    have hgo := ih hhead' hnext hmark' (by simp only [Cursor.skip_column]; omega) (text ++ g.text ++ w)
      { spaces := [] ++ List.replicate (n + 1) ' ' } (show s.length < fuel by omega)
    have htext : text ++ g.text ++ w ++ Gap.text { spaces := [] ++ List.replicate (n + 1) ' ' } ++ s =
        text ++ g.text ++ (w ++ (List.replicate (n + 1) ' ' ++ s)) := by
      simp [Gap.text]
    have hskip : ((p.skip w.length).skip (n + 1)).skip s.length =
        p.skip (w ++ (List.replicate (n + 1) ' ' ++ s)).length := by
      simp [Nat.add_assoc]
    have hempty : (List.replicate (n + 1) ' ' ++ (s ++ rest)).isEmpty = false := by
      simp [List.replicate_succ]
    rw [htext, hskip] at hgo
    simp only [Bool.not_true, hempty, Bool.or_self, Bool.false_eq_true, if_false, Except.bind,
      if_neg hcolumn]
    exact hgo

/-- A plain scalar before a colon. -/
theorem plain_colon {indent : Int} {s rest : List Char} (hs : Words s) (hhead : s.head? ≠ some '#')
    (hrest : ∀ c ∈ rest.head?, isGap c = true ∨ isBreak c = true) {p : Cursor}
    (hp : p.rest = s ++ ':' :: rest) (hmark : p.atDocumentMark = false)
    (hindent : indent ≤ p.column + 1) :
    plain false indent p = .ok (s, false, p.skip s.length) := by
  have hstops : Stops (':' :: rest) := by
    rintro c ⟨⟩
    exact Or.inr (Or.inr ⟨rfl, hrest⟩)
  refine plainFrom_words hs hhead (fun text q r => r = .ok (text, false, q)) ?_ hp hmark hindent []
    {} (by rw [hp, List.length_append]; omega)
  intro w p hw hhead hp hmark text g fuel
  have hends : (p.skip w.length).endsWord 0 = false :=
    Cursor.endsWord_zero (Cursor.rest_skip_length hp)
  rw [plainFrom_word hw hhead hstops hp hmark, hends]
  rfl

/-- A plain scalar at the end of a line, with a line that is indented less after it. -/
theorem plain_lineFeed {indent : Int} {s rest : List Char} (hs : Words s)
    (hhead : s.head? ≠ some '#') {n : Nat} (hrest : Solid rest) (hn : (n : Int) < indent) {p : Cursor}
    (hp : p.rest = s ++ '\n' :: (List.replicate n ' ' ++ rest)) (hmark : p.atDocumentMark = false)
    (hindent : indent ≤ p.column + 1) :
    ∃ q, plain false indent p = .ok (s, true, q) ∧ p.Below q n rest := by
  have hstops : Stops ('\n' :: (List.replicate n ' ' ++ rest)) := by
    rintro c ⟨⟩
    exact Or.inr (Or.inl rfl)
  have hend : ∀ {w : List Char} {p : Cursor}, Word w → w.head? ≠ some '#' →
      p.rest = w ++ '\n' :: (List.replicate n ' ' ++ rest) → p.atDocumentMark = false →
      ∀ text g fuel, ∃ q, plainFrom false indent (fuel + 1) text g p =
        .ok (text ++ g.text ++ w, true, q) ∧ (p.skip w.length).Below q n rest := by
    intro w p hw hhead hp hmark text g fuel
    have hleft := Cursor.rest_skip_length hp
    have hends : (p.skip w.length).endsWord 0 = true := Cursor.endsWord_zero hleft
    have hfuel : ([] : List Char).length + n < ('\n' :: (List.replicate n ' ' ++ rest)).length + 1 := by
      simp
      omega
    obtain ⟨q, hq, hbelow⟩ := readGap_lineEnds indent (Or.inl rfl)
      (by simp : ∀ b ∈ ([] : List Char), LineEnd b) hrest hleft hfuel
    have hcolumn : (q.column : Int) < indent := by
      rwa [hbelow.column]
    refine ⟨q, ?_, hbelow⟩
    rw [plainFrom_word hw hhead hstops hp hmark, hends, hq]
    simp only [Bool.not_true, List.isEmpty_cons, Bool.or_self, Bool.false_eq_true, if_false,
      Except.bind, if_pos hcolumn]
  obtain ⟨q, hq, hbelow⟩ := plainFrom_words hs hhead
    (fun text p r => ∃ q, r = .ok (text, true, q) ∧ p.Below q n rest) hend hp hmark hindent [] {}
    (by rw [hp, List.length_append]; omega : s.length < p.rest.length + 1)
  exact ⟨q, hq, ⟨hbelow.rest, hbelow.column, hbelow.line, Nat.lt_of_le_of_lt (by simp) hbelow.index⟩⟩

/-! ## Quoted scalars -/

/-- The quote around a quoted scalar. -/
def quote (single : Bool) : Char := if single then '\x27' else '\x22'

/-- `Spells single u c`: between quotes, `u` stands for the character `c`. -/
inductive Spells (single : Bool) : List Char → Char → Prop
  | self {c : Char} : isGap c = false → isBreak c = false → c ≠ quote single →
    (single = false → c ≠ '\\') → Spells single [c] c
  | doubled : single = true → Spells single ['\x27', '\x27'] '\x27'
  | escape {e c : Char} {u : List Char} : single = false → isBreak e = false →
    (∀ rest, escape? (e :: (u ++ rest)) = some (c, u.length + 1)) → Spells single ('\\' :: e :: u) c

/-- A row of characters. -/
inductive SpellsAll (single : Bool) : List Char → List Char → Prop
  | nil : SpellsAll single [] []
  | cons {u t w : List Char} {c : Char} : Spells single u c → SpellsAll single t w →
    SpellsAll single (u ++ t) (c :: w)

theorem Spells.exists_cons {single : Bool} {u : List Char} {c : Char} (h : Spells single u c) :
    ∃ d v, u = d :: v ∧ isGap d = false ∧ isBreak d = false := by
  cases h with
  | self hgap hbreak => exact ⟨_, _, rfl, hgap, hbreak⟩
  | doubled | escape => exact ⟨_, _, rfl, rfl, rfl⟩

/-- One character is read. -/
theorem Spells.quotedPart {single : Bool} {u : List Char} {c : Char} (h : Spells single u c)
    {p : Cursor} {rest : List Char} (hp : p.rest = u ++ rest) (part : List Char) (fuel : Nat) :
    quotedPart single (fuel + 1) part p =
      Yaml.quotedPart single fuel (part ++ [c]) (p.skip u.length) := by
  obtain ⟨d, v, rfl, hgap, hbreak⟩ := h.exists_cons
  rw [List.cons_append] at hp
  have hends : p.endsWord 0 = false := by
    rw [Cursor.endsWord_zero hp, hgap, hbreak, Bool.or_self]
  rw [Yaml.quotedPart, hp]
  simp only [hends, Bool.false_eq_true, if_false]
  cases h with
  | self _ _ hquote hslash =>
    cases single with
    | false =>
      have hquote : c ≠ '\x22' := hquote
      simp [hquote, hslash rfl]
    | true =>
      have hquote : c ≠ '\x27' := hquote
      simp [hquote]
  | doubled hsingle =>
    subst hsingle
    have hnext : p.looksAt 1 '\x27' = true := by simp [Cursor.looksAt, hp]
    simp [hnext]
  | escape hsingle hend hread =>
    subst hsingle
    rename_i e u
    have hline : p.endsLine 1 = false := by simp [Cursor.endsLine, hp, hend]
    have hread := hread rest
    rw [List.cons_append]
    simp [hline, hread]

/-- A row of characters is read up to white space or the closing quote. -/
theorem SpellsAll.quotedPart {single : Bool} {t w : List Char} (h : SpellsAll single t w)
    {p : Cursor} {rest : List Char} (hp : p.rest = t ++ rest) (part : List Char) {fuel : Nat}
    (hfuel : t.length < fuel)
    (hend : ∀ {q : Cursor}, q.rest = rest → ∀ part fuel,
      Yaml.quotedPart single (fuel + 1) part q = .ok (part, false, q)) :
    Yaml.quotedPart single fuel part p = .ok (part ++ w, false, p.skip t.length) := by
  induction h generalizing p part fuel with
  | nil =>
    obtain ⟨fuel, rfl⟩ : ∃ k, fuel = k + 1 := ⟨fuel - 1, by omega⟩
    rw [hend hp]
    simp
  | @cons u t w c hu _ ih =>
    obtain ⟨d, v, huv, -⟩ := hu.exists_cons
    have hpos : 0 < u.length := by simp [huv]
    rw [List.length_append] at hfuel
    obtain ⟨fuel, rfl⟩ : ∃ k, fuel = k + 1 := ⟨fuel - 1, by omega⟩
    rw [List.append_assoc] at hp
    rw [hu.quotedPart hp, ih (Cursor.rest_skip_length hp) (part ++ [c]) (by omega),
      Cursor.skip_skip, List.length_append]
    simp

/-- White space ends a row of characters. -/
theorem quotedPart_white {single : Bool} {p : Cursor} {c : Char} {rest : List Char}
    (hp : p.rest = c :: rest) (hc : isGap c = true ∨ isBreak c = true) (part : List Char)
    (fuel : Nat) : quotedPart single (fuel + 1) part p = .ok (part, false, p) := by
  have hends : p.endsWord 0 = true := by
    rw [Cursor.endsWord_zero hp, Bool.or_eq_true]
    exact hc
  rw [quotedPart, hp]
  simp [hends]

/-- The closing quote ends it, if no other quote follows one that could be doubled. -/
theorem quotedPart_quote {single : Bool} {p : Cursor} {rest : List Char}
    (hp : p.rest = quote single :: rest) (hrest : rest.head? ≠ some '\x27') (part : List Char)
    (fuel : Nat) : quotedPart single (fuel + 1) part p = .ok (part, false, p) := by
  have hends : p.endsWord 0 = false := by
    rw [Cursor.endsWord_zero hp]
    cases single <;> rfl
  rw [quotedPart, hp]
  cases single with
  | false => simp [hends, quote]
  | true =>
    have hnext : p.looksAt 1 '\x27' = false := by
      cases rest with
      | nil => simp [Cursor.looksAt, hp]
      | cons d rest => simpa [Cursor.looksAt, hp] using hrest
    simp [hends, quote, hnext]

/-- `Body single t s`: between quotes, `t` writes `s`. Spaces within a line stand for themselves, and
    so do some ends of lines, after which the next line is indented. -/
inductive Body (single : Bool) : List Char → List Char → Prop
  | row {t w : List Char} : SpellsAll single t w → Body single t w
  | spaces {t w t' s : List Char} (n : Nat) : SpellsAll single t w → Solid t' → Body single t' s →
    Body single (t ++ (List.replicate (n + 1) ' ' ++ t')) (w ++ (List.replicate (n + 1) ' ' ++ s))
  | lines {t w bs t' s : List Char} {b : Char} (n : Nat) : SpellsAll single t w → LineEnd b →
    b ≠ '\n' → (∀ b ∈ bs, LineEnd b) → Solid t' → Body single t' s →
    Body single (t ++ b :: (bs ++ (List.replicate (n + 1) ' ' ++ t'))) (w ++ (b :: bs ++ s))

/-- `q` is where a quoted scalar ends that goes on with `t` at `p`. -/
structure Closes (p : Cursor) (t : List Char) (q : Cursor) (rest : List Char) : Prop where
  rest : q.rest = rest
  index : p.index < q.index
  line : p.line ≤ q.line
  oneLine : (∀ c ∈ t, isBreak c = false) → q = p.skip (t.length + 1)

/-- A row of characters of a quoted scalar, and what is done after it. -/
theorem quotedFrom_row {single : Bool} {t w : List Char} (h : SpellsAll single t w) {p : Cursor}
    {rest : List Char} (hp : p.rest = t ++ rest) (hne : rest ≠ [])
    (hend : ∀ {q : Cursor}, q.rest = rest → ∀ part fuel,
      quotedPart single (fuel + 1) part q = .ok (part, false, q))
    (hcolumn : p.column ≠ 0) (text : List Char) (fuel : Nat) :
    quotedFrom single (fuel + 1) text p =
      if (p.skip t.length).looksAt 0 (quote single) then
        .ok (text ++ w, (p.skip t.length).skip 1)
      else (readGap 0 (rest.length + 1) {} (p.skip t.length)).bind fun r =>
        quotedFrom single fuel (text ++ w ++ r.1.text) r.2 := by
  have hmark := Cursor.atDocumentMark_of_column hcolumn
  have hempty : p.rest.isEmpty = false := by simp [hp, hne]
  have hfuel : t.length < p.rest.length + 1 := by
    rw [hp, List.length_append]
    omega
  have hpart := h.quotedPart hp [] hfuel hend
  have hleft : (p.skip t.length).rest = rest := Cursor.rest_skip_length hp
  rw [quotedFrom]
  simp only [Cursor.require, hmark, hempty, Bool.not_false, Bool.and_self, if_true, bind,
    Except.bind, hpart, List.nil_append, hleft]
  rfl

theorem looksAt_quote_white {single : Bool} {p : Cursor} {c : Char} {rest : List Char}
    (hp : p.rest = c :: rest) (hc : isGap c = true ∨ isBreak c = true) :
    p.looksAt 0 (quote single) = false := by
  rw [Cursor.looksAt_zero hp]
  refine beq_false_of_ne ?_
  rintro rfl
  cases single <;> exact hc.elim nofun nofun

theorem Solid.append_quote {t : List Char} (h : Solid t) (single : Bool) (rest : List Char) :
    Solid (t ++ quote single :: rest) := by
  cases t with
  | nil =>
    rintro c ⟨⟩
    cases single <;> exact ⟨rfl, rfl⟩
  | cons c t => exact h

/-- A quoted scalar is read to its closing quote. -/
theorem Body.quotedFrom {single : Bool} {t s : List Char} (h : Body single t s) {p : Cursor}
    {rest : List Char} (hp : p.rest = t ++ quote single :: rest) (hrest : rest.head? ≠ some '\x27')
    (hcolumn : p.column ≠ 0) (text : List Char) {fuel : Nat} (hfuel : t.length < fuel) :
    ∃ q, Yaml.quotedFrom single fuel text p = .ok (text ++ s, q) ∧ Closes p t q rest := by
  induction h generalizing p text fuel with
  | @row t w ht =>
    obtain ⟨fuel, rfl⟩ : ∃ k, fuel = k + 1 := ⟨fuel - 1, by omega⟩
    have hleft := Cursor.rest_skip_length hp
    have hquote : (p.skip t.length).looksAt 0 (quote single) = true := by
      rw [Cursor.looksAt_zero hleft, beq_self_eq_true]
    refine ⟨(p.skip t.length).skip 1, ?_, ?_, ?_, ?_, ?_⟩
    · rw [quotedFrom_row ht hp (by simp) (fun hq => quotedPart_quote hq hrest) hcolumn, hquote,
        if_pos rfl]
    · simp [hp]
    · simp only [Cursor.skip_index]
      omega
    · simp
    · intro _
      rw [Cursor.skip_skip]
  | @spaces t w t' s n ht hsolid _ ih =>
    obtain ⟨fuel, rfl⟩ : ∃ k, fuel = k + 1 := ⟨fuel - 1, by omega⟩
    simp only [List.length_append, List.length_replicate] at hfuel
    rw [List.append_assoc, List.append_assoc] at hp
    have hleft := Cursor.rest_skip_length hp
    have hcons : List.replicate (n + 1) ' ' ++ (t' ++ quote single :: rest) =
        ' ' :: (List.replicate n ' ' ++ (t' ++ quote single :: rest)) := by
      rw [List.replicate_succ, List.cons_append]
    have hquote : (p.skip t.length).looksAt 0 (quote single) = false :=
      looksAt_quote_white (hleft.trans hcons) (Or.inl rfl)
    have hgap : readGap 0 ((List.replicate (n + 1) ' ' ++ (t' ++ quote single :: rest)).length + 1) {}
        (p.skip t.length) = _ :=
      readGap_spaces 0 (hsolid.append_quote single rest) [] hleft (by simp; omega)
    have hnext : ((p.skip t.length).skip (n + 1)).rest = t' ++ quote single :: rest := by
      rw [Cursor.skip_rest, hleft, List.drop_left' (by simp)]
    obtain ⟨q, hq, hclose⟩ := ih hnext (by simp only [Cursor.skip_column]; omega)
      (text ++ w ++ Gap.text { spaces := [] ++ List.replicate (n + 1) ' ' })
      (show t'.length < fuel by omega)
    refine ⟨q, ?_, hclose.rest, Nat.lt_of_le_of_lt (by simp) hclose.index, hclose.line, ?_⟩
    · rw [quotedFrom_row ht hp (by simp)
        (fun hq => quotedPart_white (hq.trans hcons) (Or.inl rfl)) hcolumn, hquote, hgap]
      simp only [Bool.false_eq_true, if_false, Except.bind]
      rw [hq]
      simp [Gap.text]
    · intro hbreak
      rw [hclose.oneLine fun c hc => hbreak c (by simp [hc])]
      simp [Nat.add_assoc]
  | @lines t w bs t' s b n ht hb hne hbs hsolid _ ih =>
    obtain ⟨fuel, rfl⟩ : ∃ k, fuel = k + 1 := ⟨fuel - 1, by omega⟩
    simp only [List.length_append, List.length_cons, List.length_replicate] at hfuel
    have hp' : p.rest = t ++ b :: (bs ++ (List.replicate (n + 1) ' ' ++ (t' ++ quote single :: rest))) := by
      rw [hp]
      simp
    have hleft := Cursor.rest_skip_length hp'
    have hquote : (p.skip t.length).looksAt 0 (quote single) = false :=
      looksAt_quote_white hleft (Or.inr hb.isBreak)
    have hlength : bs.length + (n + 1) < (b :: (bs ++ (List.replicate (n + 1) ' ' ++
        (t' ++ quote single :: rest)))).length + 1 := by
      simp
      omega
    obtain ⟨r, hr, hbelow⟩ :=
      readGap_lineEnds 0 hb hbs (hsolid.append_quote single rest) hleft hlength
    obtain ⟨q, hq, hclose⟩ := ih hbelow.rest (by rw [hbelow.column]; omega)
      (text ++ w ++ Gap.text { broken := true, first := [b], more := bs })
      (show t'.length < fuel by omega)
    have hgap : Gap.text { broken := true, first := [b], more := bs } = b :: bs := by
      simp [Gap.text, hne]
    refine ⟨q, ?_, hclose.rest, Nat.lt_trans (Nat.lt_of_le_of_lt (by simp) hbelow.index) hclose.index,
      Nat.le_trans (Nat.le_of_lt hbelow.line) hclose.line, ?_⟩
    · rw [quotedFrom_row ht hp' (by simp)
        (fun hq => quotedPart_white hq (Or.inr hb.isBreak)) hcolumn, hquote, hr]
      simp only [Bool.false_eq_true, if_false, Except.bind]
      rw [hq, hgap]
      simp
    · intro hbreak
      have := hbreak b (by simp)
      rw [hb.isBreak] at this
      cases this

/-- **A quoted scalar is read as what it writes.** -/
theorem Body.quoted {single : Bool} {t s : List Char} (h : Body single t s) {p : Cursor}
    {rest : List Char} (hp : p.rest = quote single :: (t ++ quote single :: rest))
    (hrest : rest.head? ≠ some '\x27') :
    ∃ q, Yaml.quoted single p = .ok (s, q) ∧ Closes p (quote single :: t) q rest := by
  have hnext : (p.skip 1).rest = t ++ quote single :: rest := by simp [hp]
  have hfuel : t.length < p.rest.length + 1 := by
    rw [hp, List.length_cons, List.length_append]
    omega
  obtain ⟨q, hq, hclose⟩ := h.quotedFrom hnext hrest (by simp) [] hfuel
  refine ⟨q, hq, hclose.rest, Nat.lt_of_le_of_lt (by simp) hclose.index, hclose.line, ?_⟩
  intro hbreak
  rw [hclose.oneLine fun c hc => hbreak c (List.mem_cons_of_mem _ hc)]
  simp [Nat.add_comm]

end Reimage.Yaml
