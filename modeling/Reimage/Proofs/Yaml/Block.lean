/-
  A literal block is read as the text that was written as one.

  * `blockGap_breaks`: empty lines and an indentation;
  * `Block`: the lines of a block, the first one without its indentation, and the text they hold up
    to the ends of lines after it;
  * `Block.blockLines`: these lines are read as that text;
  * `exists_block`: every text is written as such lines;
  * `block_head`, `blockGap_literal`: the head of a block, and the gap in front of its first line;
  * `block_literal`: the whole way.
-/
import Reimage.Proofs.Yaml.Printer

namespace Reimage.Yaml

/-! ## Empty lines -/

/-- No line ends here. -/
def Flows (s : List Char) : Prop := ∀ c ∈ s.head?, isBreak c = false

theorem Solid.flows {s : List Char} (h : Solid s) : Flows s := fun c hc => (h c hc).2

/-- `q` is not before `p`, behind an indentation of `n` and in front of `rest`. -/
structure Cursor.Past (p q : Cursor) (n : Nat) (rest : List Char) : Prop where
  rest : q.rest = rest
  column : q.column = n
  line : p.line ≤ q.line
  index : p.index ≤ q.index

theorem Cursor.Past.trans {p q r : Cursor} {m n : Nat} {s t : List Char} (h : p.Past q n s)
    (h' : q.Past r m t) : p.Past r m t :=
  ⟨h'.rest, h'.column, Nat.le_trans h.line h'.line, Nat.le_trans h.index h'.index⟩

theorem Solid.looksAt_tab {rest : List Char} (h : Solid rest) {p : Cursor} (hp : p.rest = rest) :
    p.looksAt 0 '\t' = false := by
  cases rest with
  | nil =>
    rw [Cursor.looksAt, hp]
    rfl
  | cons c rest =>
    have hgap := (h c rfl).1
    simp only [isGap, Bool.or_eq_false_iff] at hgap
    rw [Cursor.looksAt_zero hp]
    exact hgap.2

theorem Solid.takeWhile_space {rest : List Char} (h : Solid rest) :
    rest.takeWhile (· == ' ') = [] := by
  cases rest with
  | nil => rfl
  | cons c rest =>
    have hgap := (h c rfl).1
    simp only [isGap, Bool.or_eq_false_iff] at hgap
    rw [List.takeWhile_cons_of_neg (by simp [hgap.1])]

theorem takeWhile_replicate (n : Nat) (rest : List Char) :
    ((List.replicate n ' ' ++ rest).takeWhile (· == ' ')).length =
      n + (rest.takeWhile (· == ' ')).length := by
  rw [List.takeWhile_append_of_pos (fun c hc => by rw [List.eq_of_mem_replicate hc]; rfl),
    List.length_append, List.length_replicate]

/-- What an indentation of `k` stands in front of, of the `n` that there could be: anything that is
    no end of a line if it is complete, and no white space if it is not. -/
def Indents (n k : Nat) (rest : List Char) : Prop :=
  Flows rest ∧ (k = n ∨ k < n ∧ Solid rest)

theorem Indents.spaces {n k : Nat} {rest : List Char} (h : Indents n k rest) :
    min ((List.replicate k ' ' ++ rest).takeWhile (· == ' ')).length n = k := by
  rw [takeWhile_replicate]
  rcases h.2 with rfl | ⟨hlt, hsolid⟩
  · omega
  · rw [hsolid.takeWhile_space, List.length_nil]
    omega

theorem blockGap_indents {n k : Nat} {rest : List Char} (h : Indents (n + 1) k rest) {p : Cursor}
    (hcolumn : p.column = 0) (hp : p.rest = List.replicate k ' ' ++ rest) (widest : Nat)
    (breaks : List Char) (fuel : Nat) :
    ∃ w, blockGap (n + 1) (fuel + 1) widest breaks p = .ok (w, breaks, p.skip k) := by
  have hspaces : min (p.rest.takeWhile (· == ' ')).length (n + 1 - p.column) = k := by
    rw [hp, hcolumn]
    exact h.spaces
  have hleft : (p.skip k).rest = rest := by
    rw [Cursor.skip_rest, hp, List.drop_left' (by simp)]
  have htab : (decide ((p.skip k).column < n + 1) && (p.skip k).looksAt 0 '\t') = false := by
    rcases h.2 with rfl | ⟨hlt, hsolid⟩
    · simp [hcolumn]
    · rw [hsolid.looksAt_tab hleft, Bool.and_false]
  refine ⟨max widest (p.skip k).column, ?_⟩
  rw [blockGap]
  simp only [Nat.add_one_ne_zero, if_false, hspaces, decide_false, Bool.false_or, htab,
    Cursor.require, Bool.not_false, if_true, bind, Except.bind]
  split
  · rfl
  next c r hc =>
    have hbreak : isBreak c = false := h.1 c (by rw [← hleft, hc]; rfl)
    simp [hbreak]

/-- Empty lines, and the indentation of the next one. -/
theorem blockGap_breaks {n k : Nat} {bs rest : List Char} (hbs : ∀ b ∈ bs, LineEnd b)
    (h : Indents (n + 1) k rest) {p : Cursor} (hcolumn : p.column = 0)
    (hp : p.rest = bs ++ (List.replicate k ' ' ++ rest)) (widest : Nat) (breaks : List Char)
    {fuel : Nat} (hfuel : bs.length < fuel) :
    ∃ w q, blockGap (n + 1) fuel widest breaks p = .ok (w, breaks ++ bs, q) ∧ p.Past q k rest := by
  induction bs generalizing p widest breaks fuel with
  | nil =>
    obtain ⟨fuel, rfl⟩ : ∃ j, fuel = j + 1 := ⟨fuel - 1, by omega⟩
    obtain ⟨w, hw⟩ := blockGap_indents h hcolumn hp widest breaks fuel
    refine ⟨w, p.skip k, by rw [hw, List.append_nil], ?_, ?_, Nat.le_refl _, ?_⟩
    · rw [Cursor.skip_rest, hp, List.nil_append, List.drop_left' (by simp)]
    · rw [Cursor.skip_column, hcolumn, Nat.zero_add]
    · rw [Cursor.skip_index]
      omega
  | cons b bs ih =>
    obtain ⟨hb, hbs⟩ := List.forall_mem_cons.1 hbs
    obtain ⟨fuel, rfl⟩ : ∃ j, fuel = j + 1 := ⟨fuel - 1, by omega⟩
    rw [List.cons_append] at hp
    have hspaces : (p.rest.takeWhile (· == ' ')).length = 0 := by
      have hne : (b == ' ') = false := by
        rcases hb with rfl | rfl | rfl <;> rfl
      rw [hp, List.takeWhile_cons_of_neg (by simp [hne]), List.length_nil]
    have htab : p.looksAt 0 '\t' = false := by
      rw [Cursor.looksAt_zero hp]
      rcases hb with rfl | rfl | rfl <;> rfl
    obtain ⟨w, q, hq, hpast⟩ := ih hbs (p := p.nextLine 1) rfl (nextLine_rest hp)
      (max widest p.column) (breaks ++ [b]) (by simpa using hfuel)
    refine ⟨w, q, ?_, hpast.rest, hpast.column, Nat.le_trans (Nat.le_succ _) hpast.line,
      Nat.le_trans (Nat.le_add_right _ _) hpast.index⟩
    rw [blockGap]
    simp only [Nat.add_one_ne_zero, if_false, hspaces, Nat.zero_min, Cursor.skip_zero, htab,
      Bool.and_false, Cursor.require, Bool.not_false, if_true, bind, Except.bind, hb.readBreak hp]
    rw [hp]
    simp only [hb.isBreak, if_true]
    rw [hq, List.append_assoc]
    rfl

/-! ## Lines -/

/-- `Block n t body ends`: `t` is the lines of a block that are indented by `n`, the first one without
    its indentation. Their text is `body` with the ends of lines `ends` after it; without these only
    the last line is ended. -/
inductive Block (n : Nat) : List Char → List Char → List Char → Prop
  | last {line : List Char} : line ≠ [] → (∀ c ∈ line, isBreak c = false) →
    Block n (line ++ ['\n']) line []
  | ended {line bs : List Char} {b : Char} : line ≠ [] → (∀ c ∈ line, isBreak c = false) →
    LineEnd b → (∀ b ∈ bs, LineEnd b) → Block n (line ++ b :: bs) line (b :: bs)
  | cons {line bs t body ends : List Char} {b : Char} : line ≠ [] →
    (∀ c ∈ line, isBreak c = false) → LineEnd b → (∀ b ∈ bs, LineEnd b) → Block n t body ends →
    Block n (line ++ b :: (bs ++ (List.replicate n ' ' ++ t))) (line ++ b :: (bs ++ body)) ends

/-- The text before another line. -/
def Folding.all (f : Folding) : List Char := f.text ++ f.last ++ f.empty

theorem Folding.join_literal (f : Folding) (indented : Bool) : f.join true indented = f.all := by
  simp [join, all]

/-- One line of a block, and what is done after it. -/
theorem blockLines_line {n : Nat} {line : List Char}
    (hline : ∀ c ∈ line, isBreak c = false) {b : Char} (hb : LineEnd b) {bs : List Char}
    (hbs : ∀ b ∈ bs, LineEnd b) {k : Nat} {rest : List Char} (hrest : Indents (n + 1) k rest)
    {p : Cursor} (hcolumn : p.column = n + 1)
    (hp : p.rest = line ++ b :: (bs ++ (List.replicate k ' ' ++ rest))) (f : Folding) (fuel : Nat) :
    ∃ q indented, blockLines true (n + 1) (fuel + 1) f p =
        blockLines true (n + 1) fuel ⟨f.all ++ line, [b], bs, indented⟩ q ∧ p.Past q k rest := by
  have hempty : p.rest.isEmpty = false := by simp [hp]
  have htake : p.takeWhile (!isBreak ·) = (line, p.skip line.length) := by
    have hrow : p.rest.takeWhile (!isBreak ·) = line := by
      rw [hp, List.takeWhile_append_of_pos (fun c hc => by simp [hline c hc]),
        List.takeWhile_cons_of_neg (by simp [hb.isBreak]), List.append_nil]
    simp [Cursor.takeWhile, hrow]
  have hleft := Cursor.rest_skip_length hp
  have hnext := nextLine_rest hleft
  have hfuel : bs.length < ((p.skip line.length).nextLine 1).rest.length + 1 := by
    rw [hnext, List.length_append]
    omega
  obtain ⟨w, q, hq, hpast⟩ := blockGap_breaks hbs hrest rfl hnext 0 [] hfuel
  refine ⟨q, (p.rest.head?.map isGap).getD false, ?_, hpast.rest, hpast.column,
    Nat.le_trans (Nat.le_succ _) hpast.line, Nat.le_trans ?_ hpast.index⟩
  · rw [blockLines]
    simp only [hcolumn, bne_self_eq_false, hempty, Bool.or_self, Bool.false_eq_true, if_false, htake,
      hb.readBreak hleft, bind, Except.bind]
    rw [hq]
    simp [Folding.join_literal]
  · simp only [Cursor.nextLine, Cursor.skip_index]
    omega

/-- A line that is not indented as far ends the block. -/
theorem blockLines_out {n : Nat} {p : Cursor} (h : p.column ≠ n) (f : Folding) (fuel : Nat) :
    blockLines true n fuel f p = .ok (f, p) := by
  cases fuel with
  | zero => rfl
  | succ fuel => simp [blockLines, h]

/-- The lines start as the text does. -/
theorem Block.head? {n : Nat} {t body ends : List Char} (h : Block n t body ends) (rest u : List Char) :
    (t ++ rest).head? = (body ++ u).head? := by
  cases h with
  | @last line hne | @ended line bs b hne | @cons line bs t body ends b hne =>
    obtain ⟨c, line, rfl⟩ := List.exists_cons_of_ne_nil hne
    rfl

theorem Block.flows {n : Nat} {t body ends : List Char} (h : Block n t body ends) (rest : List Char) :
    Flows (t ++ rest) := by
  rw [Flows, h.head? rest []]
  cases h with
  | @last line hne hline | @ended line bs b hne hline | @cons line bs t body ends b hne hline =>
    obtain ⟨c, line, rfl⟩ := List.exists_cons_of_ne_nil hne
    rintro _ ⟨⟩
    exact hline c List.mem_cons_self

/-- What was read of a block: its text, and apart from it the ends of lines after it. -/
structure Folding.Holds (f : Folding) (body ends : List Char) : Prop where
  text : f.text = body
  last : f.last.length = 1
  ends : f.last ++ f.empty = if ends = [] then ['\n'] else ends

/-- The lines of a block are read up to the line that is not indented as far. -/
theorem Block.blockLines {n : Nat} {t body ends : List Char} (h : Block (n + 1) t body ends) {k : Nat}
    {rest : List Char} (hrest : Solid rest) (hk : k < n + 1) {p : Cursor}
    (hcolumn : p.column = n + 1) (hp : p.rest = t ++ (List.replicate k ' ' ++ rest)) (f : Folding)
    {fuel : Nat} (hfuel : t.length < fuel) :
    ∃ f' q, Yaml.blockLines true (n + 1) fuel f p = .ok (f', q) ∧ f'.Holds (f.all ++ body) ends ∧
      p.Past q k rest := by
  obtain ⟨fuel, rfl⟩ : ∃ j, fuel = j + 1 := ⟨fuel - 1, by omega⟩
  have hafter : Indents (n + 1) k rest := ⟨hrest.flows, Or.inr ⟨hk, hrest⟩⟩
  induction h generalizing p f fuel with
  | @last line hne hline =>
    rw [List.append_assoc, List.singleton_append] at hp
    obtain ⟨q, indented, hq, hpast⟩ := blockLines_line hline (Or.inl rfl)
      (by simp : ∀ b ∈ ([] : List Char), LineEnd b) hafter hcolumn hp f fuel
    refine ⟨_, q, hq.trans (blockLines_out ?_ _ _), ⟨rfl, rfl, rfl⟩, hpast⟩
    rw [hpast.column]
    omega
  | @ended line bs b hne hline hb hbs =>
    rw [List.append_assoc, List.cons_append] at hp
    obtain ⟨q, indented, hq, hpast⟩ := blockLines_line hline hb hbs hafter hcolumn hp f fuel
    refine ⟨_, q, hq.trans (blockLines_out ?_ _ _), ⟨rfl, rfl, rfl⟩, hpast⟩
    rw [hpast.column]
    omega
  | @cons line bs t body ends b hne hline hb hbs ht ih =>
    simp only [List.append_assoc, List.cons_append] at hp
    have hnext : Indents (n + 1) (n + 1) (t ++ (List.replicate k ' ' ++ rest)) :=
      ⟨ht.flows _, Or.inl rfl⟩
    obtain ⟨q, indented, hq, hpast⟩ := blockLines_line hline hb hbs hnext hcolumn hp f fuel
    simp only [List.length_append, List.length_cons] at hfuel
    obtain ⟨fuel, rfl⟩ : ∃ j, fuel = j + 1 := ⟨fuel - 1, by omega⟩
    obtain ⟨f', r, hr, hholds, hpast'⟩ := ih hpast.column hpast.rest ⟨f.all ++ line, [b], bs, indented⟩
      fuel (by omega)
    refine ⟨f', r, hq.trans hr, ?_, hpast.trans hpast'⟩
    have htext : Folding.all ⟨f.all ++ line, [b], bs, indented⟩ ++ body =
        f.all ++ (line ++ b :: (bs ++ body)) := by
      simp [Folding.all]
    rwa [htext] at hholds

/-! ## What is written -/

theorem indentLines_breaks (indent : Nat) {bs : List Char} (hbs : ∀ b ∈ bs, isBreak b = true)
    (rest : List Char) :
    indentLines indent false true (bs ++ rest) = bs ++ indentLines indent false true rest := by
  induction bs with
  | nil => rfl
  | cons b bs ih =>
    obtain ⟨hb, hbs⟩ := List.forall_mem_cons.1 hbs
    simp [indentLines, hb, ih hbs]

theorem indentLines_flows (indent : Nat) {s : List Char} (hne : s ≠ []) (h : Flows s) :
    indentLines indent false true s =
      List.replicate indent ' ' ++ indentLines indent false false s := by
  obtain ⟨c, s, rfl⟩ := List.exists_cons_of_ne_nil hne
  simp [indentLines, h c rfl]

theorem indentLines_ne_nil (indent : Nat) (fresh : Bool) {s : List Char} (h : s ≠ []) :
    indentLines indent false fresh s ≠ [] := by
  obtain ⟨c, s, rfl⟩ := List.exists_cons_of_ne_nil h
  unfold indentLines
  split
  · exact List.cons_ne_nil _ _
  · exact List.append_ne_nil_of_right_ne_nil _ (List.cons_ne_nil _ _)

theorem endLine_ended {t : List Char} (hne : t ≠ []) (h : ∀ c ∈ t, isBreak c = true) :
    endLine t = t := by
  have hlast : isBreak (t.getLast hne) = true := h _ (List.getLast_mem hne)
  simp [endLine, List.getLast?_eq_getLast_of_ne_nil hne, hlast]

/-- Empty lines are written without an indentation. -/
theorem endLine_literal_breaks (indent : Nat) {bs : List Char} (hne : bs ≠ [])
    (hbs : ∀ b ∈ bs, isBreak b = true) :
    endLine (literal indent bs) = literalHead bs ++ '\n' :: bs := by
  have hlines : indentLines indent false true bs = bs := by
    have := indentLines_breaks indent hbs []
    rwa [List.append_nil, show indentLines indent false true [] = [] from rfl,
      List.append_nil] at this
  have hend := endLine_append (literalHead bs ++ ['\n']) hne
  rw [endLine_ended hne hbs, List.append_assoc] at hend
  rw [literal, hlines]
  exact hend

theorem endLine_literal (indent : Nat) {bs s : List Char} (hbs : ∀ b ∈ bs, isBreak b = true)
    (hne : s ≠ []) (hflows : Flows s) :
    endLine (literal indent (bs ++ s)) = literalHead (bs ++ s) ++ '\n' ::
      (bs ++ (List.replicate indent ' ' ++ endLine (indentLines indent false false s))) := by
  have hend := endLine_append (literalHead (bs ++ s) ++ '\n' :: (bs ++ List.replicate indent ' '))
    (indentLines_ne_nil indent false hne)
  simp only [List.append_assoc, List.cons_append] at hend
  rw [literal, indentLines_breaks indent hbs, indentLines_flows indent hne hflows]
  exact hend

/-- What a text is made of: a body that ends no line, and the ends of lines after it. -/
structure Ended (s body ends : List Char) : Prop where
  eq : s = body ++ ends
  ne_nil : body ≠ []
  last : ∀ c ∈ body.getLast?, isBreak c = false
  ends : ∀ b ∈ ends, LineEnd b

/-- A text up to the first character without `f`. -/
theorem exists_span (f : Char → Bool) (s : List Char) :
    ∃ u v, s = u ++ v ∧ (∀ c ∈ u, f c = true) ∧ ∀ c ∈ v.head?, f c = false := by
  induction s with
  | nil => exact ⟨[], [], rfl, by simp, nofun⟩
  | cons c s ih =>
    cases hc : f c with
    | true =>
      obtain ⟨u, v, rfl, hu, hv⟩ := ih
      exact ⟨c :: u, v, rfl, List.forall_mem_cons.2 ⟨hc, hu⟩, hv⟩
    | false =>
      refine ⟨[], c :: s, rfl, by simp, ?_⟩
      rintro _ ⟨⟩
      exact hc

/-- A text that starts with no end of a line is written as the lines of a block. -/
theorem exists_block (n : Nat) {s : List Char} (hne : s ≠ []) (hflows : Flows s)
    (hbreaks : ∀ c ∈ s, isBreak c = true → LineEnd c) :
    ∃ body ends, Block n (endLine (indentLines n false false s)) body ends ∧ Ended s body ends := by
  obtain ⟨m, hm⟩ : ∃ m, s.length ≤ m := ⟨_, Nat.le_refl _⟩
  induction m generalizing s with
  | zero => exact absurd (List.length_eq_zero_iff.1 (Nat.le_zero.1 hm)) hne
  | succ m ih =>
    obtain ⟨line, after, rfl, hline, hafter⟩ := exists_span (!isBreak ·) s
    have hline : ∀ c ∈ line, isBreak c = false := by simpa using hline
    have hnonempty : line ≠ [] := by
      rintro rfl
      cases after with
      | nil => exact hne rfl
      | cons b after =>
        have hb : isBreak b = false := hflows b rfl
        have hb' := hafter b rfl
        rw [hb] at hb'
        cases hb'
    have hlast : ∀ c ∈ line.getLast?, isBreak c = false := fun c hc =>
      hline c (List.mem_of_getLast? hc)
    rw [indentLines_append n false hline]
    cases after with
    | nil =>
      refine ⟨line, [], ?_, by simp, hnonempty, hlast, by simp⟩
      have hend : indentLines n false false [] = [] := rfl
      rw [hend, List.append_nil, endLine_eq hlast]
      exact .last hnonempty hline
    | cons b after =>
      have hb : isBreak b = true := by simpa using hafter b rfl
      have hbreaks := (List.forall_mem_append.1 hbreaks).2
      obtain ⟨hbEnd, hbreaks⟩ := List.forall_mem_cons.1 hbreaks
      obtain ⟨bs, rest, rfl, hbs, hrest⟩ := exists_span isBreak after
      obtain ⟨hbsEnd, hbreaks⟩ := List.forall_mem_append.1 hbreaks
      have hbsEnd : ∀ b ∈ bs, LineEnd b := fun b h => hbsEnd b h (hbs b h)
      have hwritten : indentLines n false false (b :: (bs ++ rest)) =
          b :: (bs ++ indentLines n false true rest) := by
        rw [indentLines, if_pos hb, indentLines_breaks n hbs]
      rw [hwritten]
      cases rest with
      | nil =>
        refine ⟨line, b :: bs, ?_, by simp, hnonempty, hlast,
          List.forall_mem_cons.2 ⟨hbEnd hb, hbsEnd⟩⟩
        have hend : indentLines n false true [] = [] := rfl
        have hall : ∀ c ∈ b :: bs, isBreak c = true := List.forall_mem_cons.2 ⟨hb, hbs⟩
        rw [hend, List.append_nil, endLine_append _ (List.cons_ne_nil _ _),
          endLine_ended (List.cons_ne_nil _ _) hall]
        exact .ended hnonempty hline (hbEnd hb) hbsEnd
      | cons c rest =>
        obtain ⟨body, ends, hblock, heq, hbody, hlast, hends⟩ := ih (List.cons_ne_nil c rest) hrest
          hbreaks (by simp at hm ⊢; omega)
        refine ⟨line ++ b :: (bs ++ body), ends, ?_, ?_, by simp, ?_, hends⟩
        · rw [indentLines_flows n (List.cons_ne_nil c rest) hrest]
          have hend := endLine_append (line ++ b :: (bs ++ List.replicate n ' '))
            (indentLines_ne_nil n false (List.cons_ne_nil c rest))
          simp only [List.append_assoc, List.cons_append] at hend
          rw [hend]
          exact .cons hnonempty hline (hbEnd hb) hbsEnd hblock
        · rw [heq]
          simp
        · rw [← List.cons_append, ← List.append_assoc, List.getLast?_append_of_ne_nil _ hbody]
          exact hlast

/-! ## Heads -/

/-- The sign for what becomes of the ends of lines after a block. -/
def Chomping.sign : Chomping → List Char
  | .strip => ['-']
  | .clip => []
  | .keep => ['+']

/-- The width of an indentation of two, if it is given. -/
def widthSign (wide : Bool) : List Char := if wide then ['2'] else []

theorem read_head (wide : Bool) (k : Chomping) {p : Cursor} {rest : List Char}
    (hp : p.rest = widthSign wide ++ (k.sign ++ '\n' :: rest)) :
    BlockHead.read p =
      .ok (⟨k, if wide then some 2 else none⟩, p.skip (widthSign wide ++ k.sign).length) := by
  cases wide <;> cases k <;>
    simp [widthSign, Chomping.sign] at hp <;>
    simp [BlockHead.read, BlockHead.sign, hp, chomping?, widthSign, Chomping.sign, bind, Except.bind]

theorem afterHead_lineFeed {p : Cursor} {rest : List Char} (hp : p.rest = '\n' :: rest) :
    afterHead p = .ok (p.nextLine 1) := by
  have hgap : (p.takeWhile isGap).2 = p := by
    have hrow : p.rest.takeWhile isGap = [] := by
      rw [hp, List.takeWhile_cons_of_neg (by decide)]
    simp [Cursor.takeWhile, hrow]
  have hsharp : p.looksAt 0 '#' = false := by
    rw [Cursor.looksAt_zero hp]
    rfl
  have hend : p.endsLine 0 = true := by
    simp [Cursor.endsLine, hp, isBreak]
  simp only [afterHead, hgap, hsharp, hend, Cursor.require, Bool.false_eq_true, if_false, if_true,
    bind, Except.bind, Cursor.skipBreak, LineEnd.readBreak (Or.inl rfl) hp]

/-- Whether a text starts with white space. -/
def startsWhite (s : List Char) : Bool := (s.head?.map fun c => isSpace c || isBreak c).getD false

/-- What a block gives of the text that was read. -/
def Chomping.cut (k : Chomping) (f : Folding) : List Char :=
  match k with
  | .strip => f.text
  | .clip => f.text ++ f.last
  | .keep => f.text ++ f.last ++ f.empty

/-- The head of a text with a body says what becomes of the ends of lines after it. -/
theorem literalHead_ended {before s body ends : List Char} (h : Ended s body ends) :
    ∃ k : Chomping, literalHead (before ++ s) = '|' :: (widthSign (startsWhite (before ++ s)) ++ k.sign) ∧
      ∀ f : Folding, f.Holds (before ++ body) ends → k.cut f = before ++ s := by
  obtain ⟨rfl, hne, hlast, hends⟩ := h
  have hbody : ∃ c u, body.reverse = c :: u ∧ isBreak c = false := by
    obtain ⟨c, u, hcons⟩ := List.exists_cons_of_ne_nil (List.reverse_ne_nil_iff.2 hne)
    refine ⟨c, u, hcons, hlast c ?_⟩
    rw [← List.head?_reverse, hcons]
    rfl
  obtain ⟨c, u, hreverse, hc⟩ := hbody
  rcases List.eq_nil_or_concat ends with rfl | ⟨es, b, rfl⟩
  · refine ⟨.strip, ?_, fun f hf => ?_⟩
    · simp [literalHead, startsWhite, widthSign, hreverse, hc, Chomping.sign]
    · rw [Chomping.cut, hf.text, List.append_nil]
  · have hb := (hends b (by simp)).isBreak
    rcases List.eq_nil_or_concat es with rfl | ⟨es, b', rfl⟩
    · refine ⟨.clip, ?_, fun f hf => ?_⟩
      · simp [literalHead, startsWhite, widthSign, hreverse, hc, hb, Chomping.sign]
      · obtain ⟨x, hx⟩ := List.length_eq_one_iff.1 hf.last
        have hlast := hf.ends
        rw [hx, if_neg (by simp)] at hlast
        obtain ⟨rfl, -⟩ := List.cons.inj hlast
        rw [Chomping.cut, hf.text, hx, List.append_assoc]
        rfl
    · have hb' := (hends b' (by simp)).isBreak
      refine ⟨.keep, ?_, fun f hf => ?_⟩
      · simp [literalHead, startsWhite, widthSign, hb, hb', Chomping.sign]
      · rw [Chomping.cut, List.append_assoc, hf.ends, hf.text, if_neg (by simp), List.append_assoc]

/-- So does the head of a text of nothing but ends of lines. -/
theorem literalHead_breaks {s : List Char} (hne : s ≠ []) (h : ∀ b ∈ s, LineEnd b) :
    literalHead s = '|' :: (widthSign (startsWhite s) ++ Chomping.keep.sign) := by
  rcases List.eq_nil_or_concat s with rfl | ⟨es, b, rfl⟩
  · exact absurd rfl hne
  have hb := (h b (by simp)).isBreak
  rcases List.eq_nil_or_concat es with rfl | ⟨es, b', rfl⟩
  · simp [literalHead, startsWhite, widthSign, hb, Chomping.sign]
  · have hb' := (h b' (by simp)).isBreak
    simp [literalHead, startsWhite, widthSign, hb, hb', Chomping.sign]

/-! ## Blocks -/

/-- The indentation of a first line that starts with a character other than white space. -/
theorem blockGap_first {n : Nat} {rest : List Char} (hrest : Solid rest) {p : Cursor}
    (hcolumn : p.column = 0) (hp : p.rest = List.replicate n ' ' ++ rest) (fuel : Nat) :
    blockGap 0 (fuel + 1) 0 [] p = .ok (n, [], p.skip n) := by
  have hspaces : (p.rest.takeWhile (· == ' ')).length = n := by
    rw [hp, takeWhile_replicate, hrest.takeWhile_space, List.length_nil, Nat.add_zero]
  have hleft : (p.skip n).rest = rest := by
    rw [Cursor.skip_rest, hp, List.drop_left' (by simp)]
  have htab := hrest.looksAt_tab hleft
  rw [blockGap]
  simp only [if_true, hspaces, decide_true, Bool.true_or, htab, Bool.and_false, Cursor.require,
    Bool.not_false, bind, Except.bind, Cursor.skip_column, hcolumn]
  split
  · simp
  next c r hc =>
    have hbreak : isBreak c = false := (hrest c (by rw [← hleft, hc]; rfl)).2
    simp [hbreak]

/-- A block is read by its head: first the empty lines and the indentation, then the lines. -/
theorem block_head {n : Nat} {wide : Bool} {k : Chomping} {after : List Char} {p : Cursor}
    (hp : p.rest = '|' :: (widthSign wide ++ (k.sign ++ '\n' :: after))) :
    ∃ q : Cursor, q.rest = after ∧ q.column = 0 ∧ p.line < q.line ∧ p.index < q.index ∧
      ∀ {w : Nat} {empty : List Char} {q' r : Cursor} {f : Folding},
        blockGap (if wide then n + 2 else 0) (after.length + 1) 0 [] q = .ok (w, empty, q') →
        (wide = false → w = n + 2) →
        blockLines true (n + 2) (q'.rest.length + 1) { empty := empty } q' = .ok (f, r) →
        block true n p = .ok (k.cut f, r) := by
  have hsigns : (p.skip 1).rest = widthSign wide ++ (k.sign ++ '\n' :: after) := by
    rw [Cursor.skip_rest, hp]
    rfl
  have hend : ((p.skip 1).skip (widthSign wide ++ k.sign).length).rest = '\n' :: after := by
    rw [← List.append_assoc] at hsigns
    exact Cursor.rest_skip_length hsigns
  have hnext := nextLine_rest hend
  refine ⟨_, hnext, rfl, Nat.lt_succ_self _, ?_, ?_⟩
  · simp only [Cursor.nextLine, Cursor.skip_index]
    omega
  intro w empty q' r f hgap hwide hlines
  simp only [block, bind, Except.bind, read_head wide k hsigns, afterHead_lineFeed hend, hnext]
  cases wide with
  | false =>
    obtain rfl := hwide rfl
    have hindent : max (max (n + 2) ((n : Int) + 1).toNat) 1 = n + 2 := by omega
    simp only [Bool.false_eq_true, if_false] at hgap ⊢
    rw [hgap]
    simp only [if_true, hindent, hlines]
    cases k <;> rfl
  | true =>
    have hgiven : (if (0 : Int) ≤ n then (n : Int).toNat + 2 else 2) = n + 2 := by
      rw [if_pos (Int.natCast_nonneg n)]
      rfl
    simp only [if_true] at hgap ⊢
    rw [hgiven, hgap]
    simp only [Nat.add_eq_zero_iff, OfNat.ofNat_ne_zero, and_false, if_false, hlines]
    cases k <;> rfl

theorem startsWhite_append {bs : List Char} (hne : bs ≠ []) (hbs : ∀ b ∈ bs, isBreak b = true)
    (s : List Char) : startsWhite (bs ++ s) = true := by
  obtain ⟨b, bs, rfl⟩ := List.exists_cons_of_ne_nil hne
  simp [startsWhite, hbs b List.mem_cons_self]

theorem eq_nil_of_startsWhite_append {bs s : List Char} (hbs : ∀ b ∈ bs, isBreak b = true)
    (h : startsWhite (bs ++ s) = false) : bs = [] := by
  by_contra hne
  rw [startsWhite_append hne hbs] at h
  cases h

/-- The gap in front of the first line. Either its indentation is given, or the line starts with no
    white space, and then no empty lines are before it. -/
theorem blockGap_literal {n : Nat} {bs s rest : List Char} (hbs : ∀ b ∈ bs, isBreak b = true)
    (hends : ∀ b ∈ bs, LineEnd b) (hflows : Flows rest)
    (hsolid : startsWhite (bs ++ s) = false → Solid rest) {p : Cursor} (hcolumn : p.column = 0)
    (hp : p.rest = bs ++ (List.replicate (n + 2) ' ' ++ rest)) :
    ∃ w q, blockGap (if startsWhite (bs ++ s) then n + 2 else 0)
        ((bs ++ (List.replicate (n + 2) ' ' ++ rest)).length + 1) 0 [] p = .ok (w, bs, q) ∧
      (startsWhite (bs ++ s) = false → w = n + 2) ∧ p.Past q (n + 2) rest := by
  cases hwhite : startsWhite (bs ++ s) with
  | true =>
    have hfuel : bs.length < (bs ++ (List.replicate (n + 2) ' ' ++ rest)).length + 1 := by
      rw [List.length_append]
      omega
    obtain ⟨w, q, hq, hpast⟩ := blockGap_breaks hends ⟨hflows, Or.inl rfl⟩ hcolumn hp 0 [] hfuel
    exact ⟨w, q, hq, nofun, hpast⟩
  | false =>
    obtain rfl := eq_nil_of_startsWhite_append hbs hwhite
    refine ⟨n + 2, p.skip (n + 2), blockGap_first (hsolid hwhite) hcolumn hp _, fun _ => rfl, ?_, ?_,
      Nat.le_refl _, Nat.le_add_right _ _⟩
    · rw [Cursor.skip_rest, hp, List.nil_append, List.drop_left' (by simp)]
    · rw [Cursor.skip_column, hcolumn, Nat.zero_add]

/-- A text of nothing but ends of lines is read from its block. -/
theorem block_breaks {bs : List Char} (hne : bs ≠ []) (hbs : ∀ b ∈ bs, isBreak b = true)
    (hends : ∀ b ∈ bs, LineEnd b) {n k : Nat} (hk : k ≤ n) {rest : List Char} (hrest : Solid rest)
    {p : Cursor} (hp : p.rest = endLine (literal (n + 2) bs) ++ (List.replicate k ' ' ++ rest)) :
    ∃ q, block true n p = .ok (bs, q) ∧ p.Below q k rest := by
  have hwhite := startsWhite_append hne hbs []
  rw [List.append_nil] at hwhite
  rw [endLine_literal_breaks (n + 2) hne hbs, literalHead_breaks hne hends, hwhite] at hp
  simp only [List.cons_append, List.append_assoc] at hp
  obtain ⟨q, hq, hcolumn, hline, hindex, hblock⟩ := block_head (n := n) hp
  have hless : Indents (n + 2) k rest := ⟨hrest.flows, Or.inr ⟨by omega, hrest⟩⟩
  have hfuel : bs.length < (bs ++ (List.replicate k ' ' ++ rest)).length + 1 := by
    rw [List.length_append]
    omega
  obtain ⟨w, r, hr, hpast⟩ := blockGap_breaks hends hless hcolumn hq 0 [] hfuel
  have hout : blockLines true (n + 2) (r.rest.length + 1) { empty := [] ++ bs } r =
      .ok ({ empty := [] ++ bs }, r) := blockLines_out (by rw [hpast.column]; omega) _ _
  exact ⟨r, hblock hr nofun hout, hpast.rest, hpast.column, Nat.lt_of_lt_of_le hline hpast.line,
    Nat.lt_of_lt_of_le hindex hpast.index⟩

/-- **A text is read from the literal block that is written for it.** -/
theorem block_literal {s : List Char} (hne : s ≠ []) (hprintable : ∀ c ∈ s, isPrintable c = true)
    {n k : Nat} (hk : k ≤ n) {rest : List Char} (hrest : Solid rest) {p : Cursor}
    (hp : p.rest = endLine (literal (n + 2) s) ++ (List.replicate k ' ' ++ rest)) :
    ∃ q, block true n p = .ok (s, q) ∧ p.Below q k rest := by
  have hends : ∀ c ∈ s, isBreak c = true → LineEnd c := fun c hc =>
    lineEnd_of_isPrintable (hprintable c hc)
  obtain ⟨bs, s, rfl, hbs, hflows⟩ := exists_span isBreak s
  have hbsEnd : ∀ b ∈ bs, LineEnd b := fun b hb => hends b (List.mem_append_left _ hb) (hbs b hb)
  by_cases hs : s = []
  · subst hs
    rw [List.append_nil] at hne hp ⊢
    exact block_breaks hne hbs hbsEnd hk hrest hp
  obtain ⟨body, ends, hlines, hended⟩ := exists_block (n + 2) hs hflows fun c hc =>
    hends c (List.mem_append_right _ hc)
  obtain ⟨chomping, hhead, hcut⟩ := @literalHead_ended bs s body ends hended
  rw [endLine_literal (n + 2) hbs hs hflows, hhead] at hp
  simp only [List.cons_append, List.append_assoc] at hp
  obtain ⟨q, hq, hcolumn, hline, hindex, hblock⟩ := block_head (n := n) hp
  generalize endLine (indentLines (n + 2) false false s) = t at hlines hp hq hblock
  have hsolid (hwhite : startsWhite (bs ++ s) = false) :
      Solid (t ++ (List.replicate k ' ' ++ rest)) := by
    obtain rfl := eq_nil_of_startsWhite_append hbs hwhite
    obtain ⟨c, u, rfl⟩ := List.exists_cons_of_ne_nil hs
    have hc : isSpace c = false ∧ isBreak c = false := by simpa [startsWhite] using hwhite
    rw [Solid, hlines.head? _ ends, ← hended.eq]
    rintro _ ⟨⟩
    exact ⟨(isGap_of_isPrintable (hprintable c (by simp))).trans hc.1, hc.2⟩
  obtain ⟨w, r, hr, hw, hpast⟩ := blockGap_literal hbs hbsEnd (hlines.flows _) hsolid hcolumn hq
  have hfuel : t.length < r.rest.length + 1 := by
    rw [hpast.rest, List.length_append]
    omega
  obtain ⟨f, u, hu, hholds, hpast'⟩ := hlines.blockLines hrest (by omega) hpast.column hpast.rest
    { empty := bs } hfuel
  have htext : Folding.all { empty := bs } = bs := rfl
  rw [htext] at hholds
  refine ⟨u, ?_, hpast'.rest, hpast'.column,
    Nat.lt_of_lt_of_le hline (Nat.le_trans hpast.line hpast'.line),
    Nat.lt_of_lt_of_le hindex (Nat.le_trans hpast.index hpast'.index)⟩
  rw [hblock hr hw hu, hcut f hholds]

end Reimage.Yaml
