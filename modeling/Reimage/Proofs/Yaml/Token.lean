/-
  The scanner reads the tokens of a record that was written.

  A token is read from a place where the white space before it is passed over and no possible key is
  too old. The scanner comes from one such place to the next.

  * `Scanner.settle`, `Scanner.resume`: the two halves of a step, before and after that place;
  * `Scanner.Leads`: from one place to another, in fewer steps than characters;
-/
import Reimage.Proofs.Yaml.Block
import Reimage.Yaml.Token

namespace Reimage.Yaml

/-! ## What a token starts with -/

/-- What comes next is neither white space nor a comment. -/
def Starts (s : List Char) : Prop := Solid s ∧ s.head? ≠ some '#'

theorem starts_nil : Starts [] := ⟨by simp [Solid], by simp⟩

theorem starts_cons {c : Char} (hgap : isGap c = false) (hbreak : isBreak c = false) (hc : c ≠ '#')
    (rest : List Char) : Starts (c :: rest) := by
  refine ⟨?_, fun h => hc (Option.some.inj h)⟩
  rintro _ ⟨⟩
  exact ⟨hgap, hbreak⟩

theorem Held.starts {n : Nat} {s t : List Char} {style : Style} (h : Held n s t style)
    (rest : List Char) : Starts (t ++ rest) := by
  cases h with
  | plain hs =>
    refine ⟨hs.words.solid_append rest, ?_⟩
    rw [List.head?_append_of_ne_nil _ hs.words.ne_nil]
    exact hs.head_ne_sharp
  | @quoted single t _ => cases single <;> exact starts_cons rfl rfl (by decide) _
  | literal _ _ => exact starts_cons rfl rfl (by decide) _

theorem Held.starts_endLine {n : Nat} {s t : List Char} {style : Style} (h : Held n s t style)
    (rest : List Char) : Starts (endLine t ++ rest) := by
  unfold endLine
  split
  · exact h.starts rest
  · rw [List.append_assoc]
    exact h.starts _

/-- A key without the margin in front of it. -/
def keyText (n : Nat) (s : String) : List Char :=
  if isSimpleKey s then textAt n s ++ [':']
  else '?' :: ' ' :: (endLine (textAt n s) ++ (List.replicate n ' ' ++ [':']))

theorem keyAt_eq (n : Nat) (s : String) :
    keyAt n s = List.replicate n ' ' ++ keyText n s := by
  have hne := (held_textAt n s).ne_nil
  unfold keyAt keyText
  simp only
  split_ifs
  · rw [List.append_assoc]
  · have hline := endLine_append (List.replicate n ' ' ++ ['?', ' ']) hne
    simp only [List.append_assoc, List.cons_append, List.nil_append] at hline
    rw [hline]
    simp

theorem starts_keyText (n : Nat) (s : String) (rest : List Char) :
    Starts (keyText n s ++ rest) := by
  unfold keyText
  split_ifs
  · rw [List.append_assoc]
    exact (held_textAt n s).starts _
  · exact starts_cons rfl rfl (by decide) _

/-- The fields of a record without the margin in front of them. -/
def fieldsText (n : Nat) : List (String × Tree) → List Char
  | [] => []
  | (key, value) :: rest => keyText n key ++ (value.valueAt n ++ fieldsAt n rest)

theorem fieldsAt_cons (n : Nat) (e : String × Tree) (rest : List (String × Tree)) :
    fieldsAt n (e :: rest) = List.replicate n ' ' ++ fieldsText n (e :: rest) := by
  rw [fieldsAt, keyAt_eq n, fieldsText, List.append_assoc, List.append_assoc]

/-- White space stands between a colon and its value. -/
theorem valueAt_head (n : Nat) (v : Tree) :
    ∃ c rest, v.valueAt n = c :: rest ∧ (isGap c = true ∨ isBreak c = true) := by
  have hline (s : List Char) : ∃ rest, endLine (' ' :: s) = ' ' :: rest := by
    unfold endLine
    split
    · exact ⟨s, rfl⟩
    · exact ⟨s ++ ['\n'], rfl⟩
  match v with
  | .plain text =>
    obtain ⟨rest, hrest⟩ := hline text.toList
    exact ⟨' ', rest, by rw [Tree.valueAt, hrest], Or.inl rfl⟩
  | .text text =>
    obtain ⟨rest, hrest⟩ := hline (textAt n text)
    exact ⟨' ', rest, by rw [Tree.valueAt, hrest], Or.inl rfl⟩
  | .record [] => exact ⟨' ', ['\x7b', '\x7d', '\n'], by rw [Tree.valueAt], Or.inl rfl⟩
  | .record (f :: fs) =>
    exact ⟨'\n', fieldsAt (n + 2) (f :: fs), by rw [Tree.valueAt], Or.inr rfl⟩

mutual

/-- The tokens of a value. -/
def Tree.tokens : Tree → List Token
  | .plain text => [.scalar .plain text]
  | .text text => [.scalar (Form.ofText text).style text]
  | .record [] => [.flowMappingStart, .flowMappingEnd]
  | .record (f :: fs) => .blockMappingStart :: (fieldTokens (f :: fs) ++ [.blockEnd])

/-- The tokens of the fields of a record. -/
def fieldTokens : List (String × Tree) → List Token
  | [] => []
  | (key, value) :: rest =>
    .key :: .scalar (Form.ofText key).style key :: .value :: (value.tokens ++ fieldTokens rest)

end

/-- A value whose scalars other than texts are such that they can be written plain. -/
inductive Tree.Fits : Tree → Prop
  | plain {text : String} : Plain text.toList → Fits (.plain text)
  | text (text : String) : Fits (.text text)
  | record {fields : List (String × Tree)} : (∀ e ∈ fields, Fits e.2) → Fits (.record fields)

/-! ## Characters of a record -/

/-- All characters can be written as themselves. -/
def Printable (s : List Char) : Prop := ∀ c ∈ s, isPrintable c = true

theorem Printable.append {s t : List Char} (h : Printable s) (h' : Printable t) :
    Printable (s ++ t) := fun c hc => (List.mem_append.1 hc).elim (h c) (h' c)

theorem printable_replicate (n : Nat) : Printable (List.replicate n ' ') := by
  intro c hc
  rw [List.eq_of_mem_replicate hc]
  rfl

theorem Printable.endLine {s : List Char} (h : Printable s) : Printable (endLine s) := by
  unfold Yaml.endLine
  split
  · exact h
  · exact h.append (by simp [Printable, isPrintable])

theorem printable_keyAt (n : Nat) (s : String) : Printable (keyAt n s) := by
  have htext : Printable (textAt n s) := textAt_printable n s
  have hmargin := printable_replicate n
  unfold keyAt
  simp only
  split_ifs
  · exact (hmargin.append htext).append (by simp [Printable, isPrintable])
  · have hline : Printable ('?' :: ' ' :: textAt n s) :=
      List.forall_mem_cons.2 ⟨rfl, List.forall_mem_cons.2 ⟨rfl, htext⟩⟩
    exact ((hmargin.append hline).endLine.append hmargin).append (by simp [Printable, isPrintable])

theorem printable_fieldsAt {n : Nat} {fields : List (String × Tree)}
    (hvalues : ∀ e ∈ fields, Printable (e.2.valueAt n)) : Printable (fieldsAt n fields) := by
  induction fields with
  | nil => exact fun _ => nofun
  | cons e fields ih =>
    obtain ⟨hvalue, hvalues⟩ := List.forall_mem_cons.1 hvalues
    rw [fieldsAt]
    exact ((printable_keyAt n e.1).append hvalue).append (ih hvalues)

theorem Tree.Fits.printable {v : Tree} (h : v.Fits) (n : Nat) : Printable (v.valueAt n) := by
  induction h generalizing n with
  | plain htext =>
    rw [Tree.valueAt]
    exact Printable.endLine (List.forall_mem_cons.2 ⟨rfl, htext.printable⟩)
  | text text =>
    rw [Tree.valueAt]
    exact Printable.endLine (List.forall_mem_cons.2 ⟨rfl, textAt_printable n text⟩)
  | @record fields _ ih =>
    cases fields with
    | nil =>
      rw [Tree.valueAt]
      simp [Printable, isPrintable]
    | cons f fields =>
      rw [Tree.valueAt]
      exact List.forall_mem_cons.2 ⟨rfl, printable_fieldsAt fun e he => ih e he (n + 2)⟩

theorem isAllowed_of_isPrintable {c : Char} (h : isPrintable c = true) : isAllowed c = true := by
  simp only [isPrintable, isAllowed, Bool.or_eq_true, Bool.and_eq_true, beq_iff_eq,
    decide_eq_true_eq] at h ⊢
  omega

/-! ## Places -/

/-- `q` is right of column `n`, behind `p` and in front of `rest`. -/
structure Cursor.Behind (p q : Cursor) (n : Nat) (rest : List Char) : Prop where
  rest : q.rest = rest
  column : n < q.column
  line : p.line ≤ q.line
  index : p.index < q.index

theorem Cursor.Behind.below {p q r : Cursor} {m n : Nat} {s t : List Char}
    (h : Cursor.Behind p q n s) (h' : q.Below r m t) : p.Below r m t :=
  ⟨h'.rest, h'.column, Nat.lt_of_le_of_lt h.line h'.line, Nat.lt_trans h.index h'.index⟩

theorem Cursor.Below.trans {p q r : Cursor} {m n : Nat} {s t : List Char} (h : p.Below q n s)
    (h' : q.Below r m t) : p.Below r m t :=
  ⟨h'.rest, h'.column, Nat.lt_trans h.line h'.line, Nat.lt_trans h.index h'.index⟩

namespace Scanner

/-! ## White space between tokens -/

theorem takeWhile_spaces {f : Char → Bool} (hspace : f ' ' = true) {n : Nat} {rest : List Char}
    (hrest : ∀ c ∈ rest.head?, f c = false) {p : Cursor}
    (hp : p.rest = List.replicate n ' ' ++ rest) : (p.takeWhile f).2 = p.skip n := by
  have htake : p.rest.takeWhile f = List.replicate n ' ' := by
    rw [hp, List.takeWhile_append_of_pos (fun c hc => by rw [List.eq_of_mem_replicate hc, hspace])]
    cases rest with
    | nil => simp
    | cons c rest => rw [List.takeWhile_cons_of_neg (by simp [hrest c rfl]), List.append_nil]
  simp [Cursor.takeWhile, htake]

/-- No byte order mark stands at the start of the text. -/
def Unmarked (p : Cursor) : Prop := p.index = 0 → p.looksAt 0 '\uFEFF' = false

/-- Spaces in front of a token. -/
theorem toToken_spaces (inFlow keyAllowed : Bool) {n : Nat} {rest : List Char} (hrest : Starts rest)
    {p : Cursor} (hp : p.rest = List.replicate n ' ' ++ rest) (hmark : Unmarked p) (fuel : Nat) :
    toToken inFlow (fuel + 1) keyAllowed p = (keyAllowed, p.skip n) := by
  have hbom : (p.index == 0 && p.looksAt 0 '\uFEFF') = false := by
    rw [Bool.and_eq_false_iff, beq_eq_false_iff_ne]
    by_cases h : p.index = 0
    · exact Or.inr (hmark h)
    · exact Or.inl h
  have hskip : (p.takeWhile fun c => c == ' ' || (c == '\t' && (inFlow || !keyAllowed))).2 = p.skip n := by
    refine takeWhile_spaces rfl ?_ hp
    intro c hc
    have hgap := (hrest.1 c hc).1
    simp only [isGap, Bool.or_eq_false_iff] at hgap
    simp [hgap.1, hgap.2]
  have hleft : (p.skip n).rest = rest := by
    rw [Cursor.skip_rest, hp, List.drop_left' (by simp)]
  have hsharp : (p.skip n).looksAt 0 '#' = false := by
    cases rest with
    | nil =>
      rw [Cursor.looksAt, hleft]
      rfl
    | cons c rest =>
      rw [Cursor.looksAt_zero hleft]
      exact beq_false_of_ne fun h => hrest.2 (by rw [h]; rfl)
  have hbreak : ((p.skip n).rest.head?.map isBreak).getD false = false := by
    rw [hleft]
    cases rest with
    | nil => rfl
    | cons c rest => exact (hrest.1 c rfl).2
  simp only [toToken, hbom, hskip, hsharp, hbreak, Bool.false_eq_true, if_false]

theorem unmarked_of_pos {p : Cursor} (h : 0 < p.index) : Unmarked p := fun h' => by omega

/-- The end of a line in front of a token. -/
theorem toToken_lineFeed (keyAllowed : Bool) {n : Nat} {rest : List Char} (hrest : Starts rest)
    {p : Cursor} (hp : p.rest = '\n' :: (List.replicate n ' ' ++ rest)) (fuel : Nat) :
    toToken false (fuel + 2) keyAllowed p = (true, (p.nextLine 1).skip n) := by
  have hbom : (p.index == 0 && p.looksAt 0 '\uFEFF') = false := by
    rw [Cursor.looksAt_zero hp]
    simp
  have hfirst : ∀ c ∈ p.rest.head?, (c == ' ' || (c == '\t' && (false || !keyAllowed))) = false := by
    rw [hp]
    rintro _ ⟨⟩
    rfl
  have hskip : (p.takeWhile fun c => c == ' ' || (c == '\t' && (false || !keyAllowed))).2 = p := by
    rw [takeWhile_spaces (n := 0) rfl hfirst rfl, Cursor.skip_zero]
  have hsharp : p.looksAt 0 '#' = false := by
    rw [Cursor.looksAt_zero hp]
    rfl
  have hbreak : (p.rest.head?.map isBreak).getD false = true := by
    rw [hp]
    rfl
  have hnext : p.skipBreak = p.nextLine 1 := by
    rw [Cursor.skipBreak, LineEnd.readBreak (Or.inl rfl) hp]
  have hindex : 0 < (p.nextLine 1).index := Nat.succ_pos _
  rw [toToken]
  simp only [hbom, hskip, hsharp, hbreak, Bool.false_eq_true, if_false, if_true, hnext,
    Bool.not_false, Bool.or_true]
  exact toToken_spaces false true hrest (nextLine_rest hp) (unmarked_of_pos hindex) fuel

/-! ## From one token to the next -/

/-- The first half of a step: white space is passed over, and keys that are too old are dropped. -/
def settle (s : Scanner) : Except Fault Scanner :=
  { s with
    keyAllowed := (toToken s.inFlow (s.cursor.rest.length + 1) s.keyAllowed s.cursor).1
    cursor := (toToken s.inFlow (s.cursor.rest.length + 1) s.keyAllowed s.cursor).2 }.dropStaleKeys

/-- The second half of a step, and all further ones: collections are ended and a token is read. -/
def resume (fuel : Nat) (s : Scanner) : Except Fault Scanner :=
  match s.cursor.rest with
  | [] => ((s.outdentTo s.cursor.column).outdentTo (-1)).dropKey
  | c :: _ => ((s.outdentTo s.cursor.column).takeToken c).bind (run fuel)

theorem cursor_of_dropStaleKeys {s s' : Scanner} (h : s.dropStaleKeys = .ok s') :
    s'.cursor = s.cursor := by
  unfold dropStaleKeys at h
  cases hkeys : s.keys.mapM (freshKey s.cursor) with
  | error e => rw [hkeys] at h; cases h
  | ok keys => rw [hkeys] at h; cases h; rfl

theorem run_of_settle {s s' : Scanner} (h : s.settle = .ok s') (fuel : Nat) :
    run (fuel + 1) s = resume fuel s' := by
  have hcursor := cursor_of_dropStaleKeys h
  unfold settle at h
  simp only at hcursor
  cases hrest : s'.cursor.rest with
  | nil =>
    simp only [resume, hrest]
    rw [hcursor] at hrest ⊢
    simp only [run, bind, Except.bind, h, hrest]
  | cons c rest =>
    simp only [resume, hrest]
    rw [hcursor] at hrest ⊢
    simp only [run, bind, Except.bind, h, hrest]

/-- From the place of `s` the scanner comes to that of `s'`, in no more steps than there are characters
    between them. -/
def Leads (s s' : Scanner) : Prop :=
  ∃ k, k + s'.cursor.rest.length ≤ s.cursor.rest.length ∧ ∀ fuel, resume (fuel + k) s = resume fuel s'

/-- From `t`, with the white space still in front of it, the scanner comes to the place of `s'`. -/
def Arrives (t s' : Scanner) : Prop :=
  ∃ k, k + s'.cursor.rest.length ≤ t.cursor.rest.length ∧
    ∀ fuel, run (fuel + k + 1) t = resume fuel s'

theorem Leads.trans {s s' s'' : Scanner} (h : Leads s s') (h' : Leads s' s'') : Leads s s'' := by
  obtain ⟨k, hk, hrun⟩ := h
  obtain ⟨k', hk', hrun'⟩ := h'
  refine ⟨k' + k, by omega, fun fuel => ?_⟩
  rw [← Nat.add_assoc, hrun, hrun']

theorem Arrives.trans {t s s' : Scanner} (h : Arrives t s) (h' : Leads s s') : Arrives t s' := by
  obtain ⟨k, hk, hrun⟩ := h
  obtain ⟨k', hk', hrun'⟩ := h'
  refine ⟨k' + k, by omega, fun fuel => ?_⟩
  rw [← Nat.add_assoc, hrun, hrun']

theorem Arrives.of_settle {t s : Scanner} (h : t.settle = .ok s)
    (hlength : s.cursor.rest.length ≤ t.cursor.rest.length) : Arrives t s :=
  ⟨0, by omega, run_of_settle h⟩

/-- One token. -/
theorem Arrives.leads {s t s' : Scanner} (h : Arrives t s') {c : Char} {rest : List Char}
    (hrest : s.cursor.rest = c :: rest)
    (htake : (s.outdentTo s.cursor.column).takeToken c = .ok t)
    (hlength : t.cursor.rest.length < s.cursor.rest.length) : Leads s s' := by
  obtain ⟨k, hk, hrun⟩ := h
  refine ⟨k + 1, by omega, fun fuel => ?_⟩
  rw [resume, hrest, ← hrun]
  simp only [htake, Except.bind]
  rfl

/-! ## Outside of brackets -/

/-- The scanner outside of brackets. -/
def outside (p : Cursor) (ts : List Token) (indent : Int) (outer : List Int) (keyAllowed : Bool)
    (key : Option PossibleKey) : Scanner :=
  { cursor := p, tokens := ts, count := ts.length, indent := indent, outer := outer
    keyAllowed := keyAllowed, keys := [key] }

section Outside

variable {p : Cursor} {ts : List Token} {i : Int} {o : List Int} {keyAllowed : Bool}
  {key key' : Option PossibleKey}

@[simp] theorem outside_cursor : (outside p ts i o keyAllowed key).cursor = p := rfl

@[simp] theorem outside_indent : (outside p ts i o keyAllowed key).indent = i := rfl

@[simp] theorem outside_inFlow : (outside p ts i o keyAllowed key).inFlow = false := rfl

/-- Spaces are passed over. -/
theorem arrives_spaces {n : Nat} {rest : List Char} (hrest : Starts rest)
    (hp : p.rest = List.replicate n ' ' ++ rest) (hmark : Unmarked p)
    (hkey : freshKey (p.skip n) key = .ok key') :
    Arrives (outside p ts i o keyAllowed key) (outside (p.skip n) ts i o keyAllowed key') := by
  have htoken := toToken_spaces false keyAllowed hrest hp hmark p.rest.length
  refine .of_settle ?_ (by simp)
  rw [settle, outside_inFlow]
  simp only [outside, htoken, dropStaleKeys, List.mapM_cons, List.mapM_nil, hkey, bind, Except.bind,
    pure, Except.pure]

/-- The end of a line is passed over. -/
theorem arrives_lineFeed {n : Nat} {rest : List Char} (hrest : Starts rest)
    (hp : p.rest = '\n' :: (List.replicate n ' ' ++ rest))
    (hkey : freshKey ((p.nextLine 1).skip n) key = .ok key') :
    Arrives (outside p ts i o keyAllowed key) (outside ((p.nextLine 1).skip n) ts i o true key') := by
  have hlength : p.rest.length + 1 = (List.replicate n ' ' ++ rest).length + 2 := by
    rw [hp, List.length_cons]
  have htoken := toToken_lineFeed keyAllowed hrest hp (List.replicate n ' ' ++ rest).length
  have hshorter : (outside ((p.nextLine 1).skip n) ts i o true key').cursor.rest.length ≤
      (outside p ts i o keyAllowed key).cursor.rest.length := by
    simp only [outside, Cursor.skip_rest, Cursor.nextLine, List.length_drop]
    omega
  refine .of_settle ?_ hshorter
  rw [settle, outside_inFlow]
  simp only [outside, hlength, htoken, dropStaleKeys, List.mapM_cons, List.mapM_nil, hkey, bind,
    Except.bind, pure, Except.pure]

theorem freshKey_below {q : Cursor} {k : PossibleKey} (hline : k.start.line < q.line)
    (hrequired : k.required = false) : freshKey q (some k) = .ok none := by
  simp [freshKey, hline, hrequired]

theorem freshKey_near {q : Cursor} {k : PossibleKey} (hline : q.line ≤ k.start.line)
    (hindex : q.index ≤ k.start.index + maxKeyLength) : freshKey q (some k) = .ok (some k) := by
  rw [freshKey, if_neg]
  simp only [Bool.or_eq_true, decide_eq_true_eq, not_or]
  omega

theorem outdentTo_le {column : Int} (h : i ≤ column) :
    (outside p ts i o keyAllowed key).outdentTo column = outside p ts i o keyAllowed key := by
  rw [outdentTo, outside_inFlow]
  simp only [Bool.false_eq_true, if_false, outdentLoop]
  exact if_pos h

/-- A line that is indented less ends the innermost collection. -/
theorem outdentTo_lt {column j : Int} (h : column < i) :
    (outside p ts i (j :: o) keyAllowed key).outdentTo column =
      (outside p (.blockEnd :: ts) j o keyAllowed key).outdentTo column := by
  have hnot : ¬ i ≤ column := by omega
  rw [outdentTo, outdentTo, outside_inFlow, outside_inFlow]
  simp only [Bool.false_eq_true, if_false]
  rw [outdentLoop]
  simp only [outside, hnot, if_false, push, List.length_cons]

theorem resume_lt {j : Int} (h : (p.column : Int) < i) (fuel : Nat) :
    resume fuel (outside p ts i (j :: o) keyAllowed key) =
      resume fuel (outside p (.blockEnd :: ts) j o keyAllowed key) := by
  have houtdent : (outside p ts i (j :: o) keyAllowed key).outdentTo p.column = _ := outdentTo_lt h
  unfold resume
  rw [outside_cursor, outside_cursor, houtdent]

/-- One token of a line that is indented far enough. -/
theorem Arrives.leads_outside {t s' : Scanner} (h : Arrives t s') {c : Char} {rest : List Char}
    (hp : p.rest = c :: rest) (hi : i ≤ p.column)
    (htake : (outside p ts i o keyAllowed key).takeToken c = .ok t)
    (hlength : t.cursor.rest.length < p.rest.length) :
    Leads (outside p ts i o keyAllowed key) s' := by
  refine h.leads hp ?_ hlength
  rwa [outside_cursor, outdentTo_le hi]

/-- Where a key may start, the place is noted. -/
theorem saveKey_outside :
    (outside p ts i o keyAllowed none).saveKey = .ok (outside p ts i o keyAllowed
      (if keyAllowed then some ⟨p, decide (i = p.column), ts.length⟩ else none)) := by
  cases keyAllowed with
  | false => rfl
  | true => rfl

/-! ## Tokens -/

theorem looksAtMark_of_ne {c d : Char} {rest : List Char} (hp : p.rest = c :: rest) (h : c ≠ d) :
    p.looksAtMark d = false := by
  simp [Cursor.looksAtMark, Cursor.looksAt_zero hp, beq_false_of_ne h]

/-- The colon after a key. -/
theorem takeToken_colon {rest : List Char} (hp : p.rest = ':' :: rest) (hend : p.endsWord 1 = true) :
    (outside p ts i o keyAllowed key).takeToken ':' =
      (outside p ts i o keyAllowed key).takeValue := by
  have hdash := looksAtMark_of_ne hp (by decide : ':' ≠ '-')
  have hdot := looksAtMark_of_ne hp (by decide : ':' ≠ '.')
  simp only [takeToken, outside_cursor, hdash, hdot, hend]
  simp

theorem takeToken_question {rest : List Char} (hp : p.rest = '?' :: rest)
    (hend : p.endsWord 1 = true) :
    (outside p ts i o keyAllowed key).takeToken '?' =
      (outside p ts i o keyAllowed key).takeKey := by
  have hdash := looksAtMark_of_ne hp (by decide : '?' ≠ '-')
  have hdot := looksAtMark_of_ne hp (by decide : '?' ≠ '.')
  simp only [takeToken, outside_cursor, hdash, hdot, hend]
  simp

theorem takeToken_quote {single : Bool} {rest : List Char} (hp : p.rest = quote single :: rest) :
    (outside p ts i o keyAllowed key).takeToken (quote single) =
      (outside p ts i o keyAllowed key).takeQuoted single := by
  have hdash := looksAtMark_of_ne hp (by cases single <;> decide : quote single ≠ '-')
  have hdot := looksAtMark_of_ne hp (by cases single <;> decide : quote single ≠ '.')
  simp only [takeToken, outside_cursor, hdash, hdot]
  cases single <;> simp [quote]

theorem takeToken_bar {rest : List Char} (hp : p.rest = '|' :: rest) :
    (outside p ts i o keyAllowed key).takeToken '|' =
      (outside p ts i o keyAllowed key).takeBlock true := by
  have hdash := looksAtMark_of_ne hp (by decide : '|' ≠ '-')
  have hdot := looksAtMark_of_ne hp (by decide : '|' ≠ '.')
  simp only [takeToken, outside_cursor, hdash, hdot, outside_inFlow]
  simp

/-- A plain scalar starts with a character that means nothing else there. -/
theorem takeToken_plain {c : Char} {s rest : List Char} (hs : Plain (c :: s))
    (hp : p.rest = c :: (s ++ rest)) (hdash : p.looksAtMark '-' = false)
    (hdot : p.looksAtMark '.' = false) :
    (outside p ts i o keyAllowed key).takeToken c =
      (outside p ts i o keyAllowed key).takePlain := by
  obtain ⟨hgap, hbreak⟩ := hs.words.solid_append [] c rfl
  have hindicator := hs.indicator
  simp only [startsWithIndicator, Bool.or_eq_false_iff, Bool.and_eq_false_iff] at hindicator
  obtain ⟨hsigns, hword⟩ := hindicator
  simp only [List.contains_cons, List.contains_nil, Bool.or_eq_false_iff, beq_eq_false_iff_ne] at hsigns
  obtain ⟨hsharp, hcomma, hopen, hclose, hbrace, hbrace', hand, hstar, hbang, hbar, hfold, hsingle,
    hdouble, hpercent, hat, hback, -⟩ := hsigns
  have hends : p.endsWord 0 = false := by
    rw [Cursor.endsWord_zero hp, hgap, hbreak, Bool.or_self]
  -- A dash, a question mark or a colon is followed by a word.
  have hafter (hc : c = '-' ∨ c = '?' ∨ c = ':') :
      p.endsWord 1 = false ∧ ((p.rest[1]?.map isGap).getD false) = false := by
    obtain ⟨d, s', rfl, hd⟩ : ∃ d s', s = d :: s' ∧ isGap d = false ∧ isBreak d = false := by
      rcases hword with h | h
      · rcases hc with rfl | rfl | rfl <;> simp at h
      · exact not_endsWord h
    constructor
    · rw [Cursor.endsWord_one hp]
      simp [hd.1, hd.2]
    · simp [hp, hd.1]
  have hstarts : (outside p ts i o keyAllowed key).startsPlain c = true := by
    simp only [startsPlain, outside_cursor, hends, outside_inFlow, Bool.false_or, Bool.not_false,
      Bool.true_and]
    by_cases hc : c = '-' ∨ c = '?' ∨ c = ':'
    · obtain ⟨hone, hnext⟩ := hafter hc
      rcases hc with rfl | rfl | rfl <;> simp [hone, hnext]
    · simp only [not_or] at hc
      have hnot : isIndicator c = false := by
        simp [isIndicator, *]
      simp [hnot]
  have hdashWord : (c == '-' && p.endsWord 1) = false := by
    by_cases hc : c = '-'
    · simp [(hafter (Or.inl hc)).1]
    · simp [hc]
  have hquestion : (c == '?' && p.endsWord 1) = false := by
    by_cases hc : c = '?'
    · simp [(hafter (Or.inr (Or.inl hc))).1]
    · simp [hc]
  have hcolon : (c == ':' && p.endsWord 1) = false := by
    by_cases hc : c = ':'
    · simp [(hafter (Or.inr (Or.inr hc))).1]
    · simp [hc]
  simp only [takeToken, outside_cursor, outside_inFlow, hstarts, hdash, hdot, hdashWord,
    Bool.false_or, hquestion, hcolon, if_true, Bool.false_eq_true, if_false, beq_iff_eq,
    Bool.and_eq_true, hcomma, hopen, hclose, hbrace, hbrace', hand, hstar, hbang, hbar, hfold,
    hsingle, hdouble, hpercent, and_false, false_and]

/-- A text that does not start with a mark is none. -/
theorem looksAtMark_of_prefix {s rest : List Char} {c d : Char} (hs : ¬ [d, d, d] <+: s) (hc : c ≠ d)
    (hp : p.rest = s ++ c :: rest) : p.looksAtMark d = false := by
  match s with
  | [] => simp [Cursor.looksAtMark, Cursor.looksAt, hp, hc]
  | [_] => simp [Cursor.looksAtMark, Cursor.looksAt, hp, hc]
  | [_, _] => simp [Cursor.looksAtMark, Cursor.looksAt, hp, hc]
  | x :: y :: z :: s =>
    by_contra h
    simp only [Cursor.looksAtMark, Cursor.looksAt, hp, Bool.not_eq_false, Bool.and_eq_true,
      beq_iff_eq, List.cons_append, List.getElem?_cons_zero, List.getElem?_cons_succ,
      Option.some.injEq] at h
    obtain ⟨⟨⟨⟨-, rfl⟩, rfl⟩, rfl⟩, -⟩ := h
    exact hs ⟨s, rfl⟩

theorem takePlain_outside {text : List Char} {broken : Bool} {q : Cursor}
    (h : plain false (i + 1) p = .ok (text, broken, q)) :
    (outside p ts i o keyAllowed none).takePlain =
      .ok (outside q (.scalar .plain (String.ofList text) :: ts) i o broken
        (if keyAllowed then some ⟨p, decide (i = p.column), ts.length⟩ else none)) := by
  simp only [takePlain, saveKey_outside, bind, Except.bind, outside_inFlow, outside_indent,
    outside_cursor, h]
  rfl

theorem takeQuoted_outside {single : Bool} {text : List Char} {q : Cursor}
    (h : quoted single p = .ok (text, q)) :
    (outside p ts i o keyAllowed none).takeQuoted single =
      .ok (outside q (.scalar (quotedStyle single) (String.ofList text) :: ts) i o false
        (if keyAllowed then some ⟨p, decide (i = p.column), ts.length⟩ else none)) := by
  simp only [takeQuoted, takePiece, saveKey_outside, bind, Except.bind, outside_cursor, h]
  rfl

/-- A block scalar ends with its last line, and what comes next is at the start of a line. -/
theorem takeBlock_outside {text : List Char} {q : Cursor} (h : block true i p = .ok (text, q)) :
    (outside p ts i o keyAllowed none).takeBlock true =
      .ok (outside q (.scalar .literal (String.ofList text) :: ts) i o true none) := by
  have hdrop : (outside p ts i o keyAllowed none).dropKey = .ok (outside p ts i o keyAllowed none) :=
    rfl
  simp only [takeBlock, hdrop, bind, Except.bind, outside_indent, outside_cursor, h]
  rfl

/-! ## Texts as values -/

/-- A key that would have to be on a line above is none. -/
theorem freshKey_value {q : Cursor} (hcolumn : i < p.column) (hline : p.line < q.line) :
    freshKey q (if keyAllowed then some ⟨p, decide (i = p.column), ts.length⟩ else none) =
      .ok none := by
  cases keyAllowed with
  | false => rfl
  | true =>
    refine freshKey_below hline ?_
    simp only [decide_eq_false_iff_not]
    omega

theorem leads_plain {s : List Char} (hs : Plain s) {m n : Nat} {rest : List Char}
    (hrest : Starts rest) (hm : m ≤ n) (hcolumn : n < p.column)
    (hp : p.rest = s ++ '\n' :: (List.replicate m ' ' ++ rest)) :
    ∃ q, Leads (outside p ts n o keyAllowed none)
        (outside q (.scalar .plain (String.ofList s) :: ts) n o true none) ∧ p.Below q m rest := by
  have hdash := looksAtMark_of_prefix hs.dashes (by decide : '\n' ≠ '-') hp
  have hdot := looksAtMark_of_prefix hs.dots (by decide : '\n' ≠ '.') hp
  have hmark : p.atDocumentMark = false := by simp [Cursor.atDocumentMark, hdash, hdot]
  obtain ⟨q, hq, hbelow⟩ := plain_lineFeed hs.words hs.head_ne_sharp hrest.1
    (by omega : (m : Int) < n + 1) hp hmark (by omega)
  have hindex : 0 < q.index := Nat.lt_of_le_of_lt (Nat.zero_le _) hbelow.index
  have harrives : Arrives
      (outside q (.scalar .plain (String.ofList s) :: ts) n o true
        (if keyAllowed then some ⟨p, decide ((n : Int) = p.column), ts.length⟩ else none))
      (outside q (.scalar .plain (String.ofList s) :: ts) n o true none) :=
    arrives_spaces (n := 0) hrest hbelow.rest (unmarked_of_pos hindex)
      (freshKey_value (Int.ofNat_lt.2 hcolumn) hbelow.line)
  obtain ⟨c, s, rfl⟩ := List.exists_cons_of_ne_nil hs.words.ne_nil
  refine ⟨q, harrives.leads_outside hp (by omega) ?_ ?_, hbelow⟩
  · rw [takeToken_plain hs hp hdash hdot, takePlain_outside hq]
  · simp only [outside, hp, hbelow.rest, List.length_append, List.length_cons]
    omega

/-- A quoted text up to the end of its line. -/
theorem leads_quoted {single : Bool} {t s : List Char} (ht : Body single t s) {m n : Nat}
    {rest : List Char} (hrest : Starts rest) (hcolumn : n < p.column)
    (hp : p.rest = quote single :: (t ++ quote single :: '\n' :: (List.replicate m ' ' ++ rest))) :
    ∃ q, Leads (outside p ts n o keyAllowed none)
        (outside q (.scalar (quotedStyle single) (String.ofList s) :: ts) n o true none) ∧
      p.Below q m rest := by
  obtain ⟨q, hq, hclose⟩ := ht.quoted hp (by simp)
  have hbelow := Cursor.below_nextLine hclose.rest
  have hline : p.line < ((q.nextLine 1).skip m).line := Nat.lt_of_le_of_lt hclose.line hbelow.line
  have harrives : Arrives
      (outside q (.scalar (quotedStyle single) (String.ofList s) :: ts) n o false
        (if keyAllowed then some ⟨p, decide ((n : Int) = p.column), ts.length⟩ else none))
      (outside ((q.nextLine 1).skip m) (.scalar (quotedStyle single) (String.ofList s) :: ts) n o
        true none) :=
    arrives_lineFeed hrest hclose.rest (freshKey_value (Int.ofNat_lt.2 hcolumn) hline)
  refine ⟨_, harrives.leads_outside hp (by omega) ?_ ?_, hbelow.rest, hbelow.column, hline,
    Nat.lt_trans hclose.index hbelow.index⟩
  · rw [takeToken_quote hp, takeQuoted_outside hq]
  · simp only [outside, hp, hclose.rest, List.length_append, List.length_cons]
    omega

/-- A block up to the end of its last line. -/
theorem leads_literal {s : List Char} (hne : s ≠ []) (hprintable : ∀ c ∈ s, isPrintable c = true)
    {m n : Nat} {rest : List Char} (hrest : Starts rest) (hm : m ≤ n) (hcolumn : n < p.column)
    (hp : p.rest = endLine (literal (n + 2) s) ++ (List.replicate m ' ' ++ rest)) :
    ∃ q, Leads (outside p ts n o keyAllowed none)
        (outside q (.scalar .literal (String.ofList s) :: ts) n o true none) ∧ p.Below q m rest := by
  obtain ⟨q, hq, hbelow⟩ := block_literal hne hprintable hm hrest.1 hp
  have hindex : 0 < q.index := Nat.lt_of_le_of_lt (Nat.zero_le _) hbelow.index
  have harrives : Arrives (outside q (.scalar .literal (String.ofList s) :: ts) n o true none)
      (outside q (.scalar .literal (String.ofList s) :: ts) n o true none) :=
    arrives_spaces (n := 0) hrest hbelow.rest (unmarked_of_pos hindex) rfl
  obtain ⟨r, hr⟩ : ∃ r, endLine (literal (n + 2) s) = '|' :: r := by
    have hbody : literal (n + 2) s = ['|'] ++ (literal (n + 2) s).tail := rfl
    unfold endLine
    split
    · exact ⟨_, hbody⟩
    · exact ⟨_, congrArg (· ++ ['\n']) hbody⟩
  rw [hr, List.cons_append] at hp
  refine ⟨q, harrives.leads_outside hp (by omega) ?_ ?_, hbelow⟩
  · rw [takeToken_bar hp, takeBlock_outside hq]
  · simp only [outside, hp, hbelow.rest, List.length_append, List.length_cons]
    omega

/-- A text up to the end of its line, or of the last one it is on. -/
theorem leads_text {n : Nat} {s t : List Char} {style : Style} (ht : Held n s t style) {m : Nat}
    {rest : List Char} (hrest : Starts rest) (hm : m ≤ n) (hcolumn : n < p.column)
    (hp : p.rest = endLine t ++ (List.replicate m ' ' ++ rest)) :
    ∃ q, Leads (outside p ts n o keyAllowed none)
        (outside q (.scalar style (String.ofList s) :: ts) n o true none) ∧ p.Below q m rest := by
  cases ht with
  | plain hs =>
    rw [hs.endLine, List.append_assoc, List.singleton_append] at hp
    exact leads_plain hs hrest hm hcolumn hp
  | quoted hbody =>
    rw [endLine_quoted, List.append_assoc, List.singleton_append, List.cons_append,
      List.append_assoc, List.singleton_append] at hp
    exact leads_quoted hbody hrest hcolumn hp
  | literal hne hprintable => exact leads_literal hne hprintable hrest hm hcolumn hp

/-! ## Texts as keys -/

/-- The tokens after which the mapping at a column is entered: it starts there if the column is
    right of the indentation. -/
def entering (i : Int) (n : Nat) (ts : List Token) : List Token :=
  if i < n then .blockMappingStart :: ts else ts

/-- The indentations around the mapping at a column. -/
def around (i : Int) (n : Nat) (o : List Int) : List Int := if i < n then i :: o else o

/-- A text on one line with a colon after it. -/
theorem takeToken_oneLine {n : Nat} {s t : List Char} {style : Style} (ht : Held n s t style)
    (hbreaks : ∀ c ∈ t, isBreak c = false) {rest : List Char}
    (hrest : ∀ c ∈ rest.head?, isGap c = true ∨ isBreak c = true) (hcolumn : i ≤ p.column)
    {c : Char} {r : List Char} (hc : p.rest = c :: r) (hp : p.rest = t ++ ':' :: rest) :
    (outside p ts i o true none).takeToken c =
      .ok (outside (p.skip t.length) (.scalar style (String.ofList s) :: ts) i o false
        (some ⟨p, decide (i = p.column), ts.length⟩)) := by
  cases ht with
  | plain hs =>
    have hdash := looksAtMark_of_prefix hs.dashes (by decide : ':' ≠ '-') hp
    have hdot := looksAtMark_of_prefix hs.dots (by decide : ':' ≠ '.') hp
    have hmark : p.atDocumentMark = false := by simp [Cursor.atDocumentMark, hdash, hdot]
    have hread := plain_colon hs.words hs.head_ne_sharp hrest hp hmark
      (by omega : i + 1 ≤ p.column + 1)
    obtain ⟨d, s, rfl⟩ := List.exists_cons_of_ne_nil hs.words.ne_nil
    obtain ⟨rfl, -⟩ := List.cons.inj (hc.symm.trans hp)
    rw [takeToken_plain hs hp hdash hdot, takePlain_outside hread]
    rfl
  | @quoted single t hbody =>
    rw [List.cons_append, List.append_assoc, List.singleton_append] at hp
    obtain ⟨rfl, -⟩ := List.cons.inj (hc.symm.trans hp)
    obtain ⟨q, hq, hclose⟩ := hbody.quoted hp (by simp)
    have hq' : q = p.skip (quote single :: (t ++ [quote single])).length := by
      rw [hclose.oneLine fun c hc => hbreaks c ?_]
      · simp
      · rw [← List.cons_append]
        exact List.mem_append_left _ hc
    subst hq'
    rw [takeToken_quote hp, takeQuoted_outside hq]
    rfl
  | literal _ _ =>
    -- A block is not on one line.
    have hbreak : isBreak '\n' = false := hbreaks '\n' (by simp [literal])
    cases hbreak

/-- The colon after a key that was noted: the key is marked, and maybe a mapping starts with it. -/
theorem takeValue_noted {k : Cursor} {required : Bool} {text : Token} (hk : i ≤ k.column) :
    (outside p (text :: ts) i o keyAllowed (some ⟨k, required, ts.length⟩)).takeValue =
      .ok (outside (p.skip 1) (.value :: text :: .key :: entering i k.column ts) k.column
        (around i k.column o) false none) := by
  have hkey : ts.length + 1 - ts.length = 1 := by omega
  have hstart : ts.length + 1 + 1 - ts.length = 2 := by omega
  by_cases h : i < k.column
  · simp [takeValue, outside, insert, indentTo, inFlow, push, take, entering, around, h, hkey, hstart]
  · obtain rfl : i = k.column := by omega
    simp [takeValue, outside, insert, indentTo, inFlow, push, take, entering, around, hkey]

/-- The colon after a key behind a question mark. -/
theorem takeValue_marked :
    (outside p ts p.column o true none).takeValue =
      .ok (outside (p.skip 1) (.value :: ts) p.column o true none) := by
  simp [takeValue, outside, indentTo, inFlow, push, take, Cursor.require, bind, Except.bind]

/-- The question mark in front of a key. -/
theorem takeKey_outside (h : i ≤ p.column) :
    (outside p ts i o true none).takeKey =
      .ok (outside (p.skip 1) (.key :: entering i p.column ts) p.column (around i p.column o) true
        none) := by
  by_cases h' : i < p.column
  · simp [takeKey, outside, insert, indentTo, inFlow, push, take, Cursor.require, dropKey, bind,
      Except.bind, entering, around, h']
  · obtain rfl : i = p.column := by omega
    simp [takeKey, outside, indentTo, inFlow, push, take, Cursor.require, dropKey, bind, Except.bind,
      entering, around]

/-- The colon after a key is a word of its own. -/
theorem endsWord_colon {rest : List Char} (hp : p.rest = ':' :: rest)
    (hrest : ∀ c ∈ rest.head?, isGap c = true ∨ isBreak c = true) : p.endsWord 1 = true := by
  rw [Cursor.endsWord_one hp]
  cases rest with
  | nil => rfl
  | cons d rest => simpa using hrest d rfl

/-- A key in front of its value. -/
theorem leads_simpleKey {s : String} (hsimple : isSimpleKey s = true)
    (hi : i ≤ p.column) {rest : List Char}
    (hrest : ∀ c ∈ rest.head?, isGap c = true ∨ isBreak c = true)
    (hp : p.rest = textAt p.column s ++ ':' :: rest) :
    ∃ q, Cursor.Behind p q p.column rest ∧ ∀ s',
      Arrives (outside q (.value :: .scalar (Form.ofText s).style s :: .key ::
        entering i p.column ts) p.column (around i p.column o) false none) s' →
      Leads (outside p ts i o true none) s' := by
  simp only [isSimpleKey, Bool.and_eq_true, Bool.not_eq_true', List.any_eq_false, Bool.not_eq_true,
    decide_eq_true_eq] at hsimple
  have hbytes : (Text.Utf8.ofString s).length ≤ 128 := hsimple.2
  obtain ⟨hbreaks, hlength⟩ := textAt_oneLine p.column hsimple.1
  have hheld := held_textAt p.column s
  generalize textAt p.column s = t at *
  obtain ⟨c, t', ht⟩ := List.exists_cons_of_ne_nil hheld.ne_nil
  have hc : p.rest = c :: (t' ++ ':' :: rest) := by rw [hp, ht, List.cons_append]
  have hpos : 0 < t.length := List.length_pos_iff.2 hheld.ne_nil
  have hleft : (p.skip t.length).rest = ':' :: rest := Cursor.rest_skip_length hp
  have hbehind : Cursor.Behind p ((p.skip t.length).skip 1) p.column rest := by
    refine ⟨?_, ?_, Nat.le_refl _, ?_⟩
    · rw [Cursor.skip_rest, hleft]
      rfl
    · simp only [Cursor.skip_column]
      omega
    · simp only [Cursor.skip_index]
      omega
  refine ⟨_, hbehind, fun s' hs' => ?_⟩
  -- The colon shows that the text is a key, and the text is short enough for that.
  have hcolon : Leads (outside (p.skip t.length) (.scalar (Form.ofText s).style s :: ts) i o false
      (some ⟨p, decide (i = p.column), ts.length⟩)) s' := by
    have hindent : i ≤ (p.skip t.length).column := by
      rw [Cursor.skip_column]
      omega
    refine hs'.leads_outside hleft hindent ?_ ?_
    · rw [takeToken_colon hleft (endsWord_colon hleft hrest), takeValue_noted hi]
    · simp only [outside, hbehind.rest, hleft, List.length_cons]
      omega
  have htext : Arrives (outside (p.skip t.length) (.scalar (Form.ofText s).style s :: ts) i o false
      (some ⟨p, decide (i = p.column), ts.length⟩)) s' := by
    have hstarts : Starts (':' :: rest) := starts_cons rfl rfl (by decide) _
    refine (arrives_spaces (n := 0) hstarts hleft ?_ ?_).trans hcolon
    · refine unmarked_of_pos ?_
      rw [Cursor.skip_index]
      omega
    · refine freshKey_near (Nat.le_refl _) ?_
      simp only [Cursor.skip_index, maxKeyLength]
      omega
  refine htext.leads_outside hc hi ?_ ?_
  · rw [takeToken_oneLine hheld hbreaks hrest hi hc hp, String.ofList_toList]
  · simp only [outside, hleft, hp, List.length_append, List.length_cons]
    omega

/-- A key behind a question mark, whose colon is on a line of its own. -/
theorem leads_markedKey {s : String} (hi : i ≤ p.column) {rest : List Char}
    (hrest : ∀ c ∈ rest.head?, isGap c = true ∨ isBreak c = true)
    (hp : p.rest = '?' :: ' ' :: (endLine (textAt p.column s) ++
      (List.replicate p.column ' ' ++ ':' :: rest))) :
    ∃ q, Cursor.Behind p q p.column rest ∧ ∀ s',
      Arrives (outside q (.value :: .scalar (Form.ofText s).style s :: .key ::
        entering i p.column ts) p.column (around i p.column o) true none) s' →
      Leads (outside p ts i o true none) s' := by
  have hheld := held_textAt p.column s
  have hstarts : Starts (':' :: rest) := starts_cons rfl rfl (by decide) _
  have htext : (p.skip 2).rest = endLine (textAt p.column s) ++
      (List.replicate p.column ' ' ++ ':' :: rest) := by
    rw [Cursor.skip_rest, hp]
    rfl
  have hleads : ∃ q, Leads (outside (p.skip 2) (.key :: entering i p.column ts) p.column
        (around i p.column o) true none)
      (outside q (.scalar (Form.ofText s).style s :: .key :: entering i p.column ts) p.column
        (around i p.column o) true none) ∧ (p.skip 2).Below q p.column (':' :: rest) := by
    simpa using leads_text hheld hstarts (Nat.le_refl _) (by simp) htext
  obtain ⟨q, hq, hbelow⟩ := hleads
  have hindex : p.index < q.index := Nat.lt_of_le_of_lt (Nat.le_add_right _ _) hbelow.index
  have hbehind : Cursor.Behind p (q.skip 1) p.column rest := by
    refine ⟨?_, ?_, Nat.le_of_lt hbelow.line, ?_⟩
    · rw [Cursor.skip_rest, hbelow.rest]
      rfl
    · rw [Cursor.skip_column, hbelow.column]
      omega
    · rw [Cursor.skip_index]
      omega
  refine ⟨_, hbehind, fun s' hs' => ?_⟩
  have hcolon : Leads (outside q (.scalar (Form.ofText s).style s :: .key :: entering i p.column ts)
      p.column (around i p.column o) true none) s' := by
    refine hs'.leads_outside hbelow.rest (Int.ofNat_le.2 (Nat.le_of_eq hbelow.column.symm)) ?_ ?_
    · rw [takeToken_colon hbelow.rest (endsWord_colon hbelow.rest hrest), ← hbelow.column,
        takeValue_marked]
    · simp only [outside, hbehind.rest, hbelow.rest, List.length_cons]
      omega
  have hspace : Arrives (outside (p.skip 1) (.key :: entering i p.column ts) p.column
      (around i p.column o) true none) s' := by
    have hline : (p.skip 1).rest = List.replicate 1 ' ' ++ (endLine (textAt p.column s) ++
        (List.replicate p.column ' ' ++ ':' :: rest)) := by
      rw [Cursor.skip_rest, hp]
      rfl
    have hstart : Starts (endLine (textAt p.column s) ++
        (List.replicate p.column ' ' ++ ':' :: rest)) := hheld.starts_endLine _
    have hskip : (p.skip 1).skip 1 = p.skip 2 := Cursor.skip_skip p 1 1
    rw [← hskip] at hq
    exact (arrives_spaces hstart hline (unmarked_of_pos (by simp)) rfl).trans (hq.trans hcolon)
  have hquestion : p.endsWord 1 = true := by
    rw [Cursor.endsWord_one hp]
    rfl
  refine hspace.leads_outside hp hi ?_ ?_
  · rw [takeToken_question hp hquestion, takeKey_outside hi]
  · simp only [outside, Cursor.skip_rest, hp, List.length_drop, List.length_cons]
    omega

/-- A key. -/
theorem leads_key {s : String} (hi : i ≤ p.column) {rest : List Char}
    (hrest : ∀ c ∈ rest.head?, isGap c = true ∨ isBreak c = true)
    (hp : p.rest = keyText p.column s ++ rest) :
    ∃ q marked, Cursor.Behind p q p.column rest ∧ ∀ s',
      Arrives (outside q (.value :: .scalar (Form.ofText s).style s :: .key ::
        entering i p.column ts) p.column (around i p.column o) marked none) s' →
      Leads (outside p ts i o true none) s' := by
  unfold keyText at hp
  split_ifs at hp with hsimple
  · rw [List.append_assoc, List.singleton_append] at hp
    obtain ⟨q, hq⟩ := leads_simpleKey hsimple hi hrest hp
    exact ⟨q, false, hq⟩
  · simp only [List.cons_append, List.append_assoc, List.nil_append] at hp
    obtain ⟨q, hq⟩ := leads_markedKey hi hrest hp
    exact ⟨q, true, hq⟩

/-! ## Values -/

/-- The scanner inside of a pair of brackets. -/
def inside (p : Cursor) (ts : List Token) (indent : Int) (outer : List Int)
    (key : Option PossibleKey) : Scanner :=
  { outside p ts indent outer true none with keys := [none, key] }

theorem arrives_inside {rest : List Char} (hrest : Starts rest) (hp : p.rest = rest)
    (hindex : 0 < p.index) (hkey : freshKey p key = .ok key') :
    Arrives (inside p ts i o key) (inside p ts i o key') := by
  have htoken := toToken_spaces (n := 0) true true hrest hp (unmarked_of_pos hindex) p.rest.length
  have hflow : (inside p ts i o key).inFlow = true := rfl
  have hnone : freshKey p none = .ok none := rfl
  refine .of_settle ?_ (Nat.le_refl _)
  rw [settle, hflow]
  simp only [inside, outside, htoken, dropStaleKeys, List.mapM_cons, List.mapM_nil, hnone, hkey,
    bind, Except.bind, pure, Except.pure, Cursor.skip_zero]

theorem takeToken_openBrace {rest : List Char} (hp : p.rest = '\x7b' :: rest) :
    (outside p ts i o keyAllowed none).takeToken '\x7b' =
      .ok (inside (p.skip 1) (.flowMappingStart :: ts) i o
        (if keyAllowed then some ⟨p, decide (i = p.column), ts.length⟩ else none)) := by
  have hdash := looksAtMark_of_ne hp (by decide : '\x7b' ≠ '-')
  have hdot := looksAtMark_of_ne hp (by decide : '\x7b' ≠ '.')
  have hopen : (outside p ts i o keyAllowed none).takeToken '\x7b' =
      (outside p ts i o keyAllowed none).openFlow .flowMappingStart := by
    simp only [takeToken, outside_cursor, hdash, hdot]
    simp
  rw [hopen]
  simp only [openFlow, saveKey_outside, bind, Except.bind]
  rfl

theorem takeToken_closeBrace {rest : List Char} (hp : p.rest = '\x7d' :: rest) :
    (inside p ts i o key).takeToken '\x7d' =
      .ok (outside (p.skip 1) (.flowMappingEnd :: ts) i o false key) := by
  have hdash := looksAtMark_of_ne hp (by decide : '\x7d' ≠ '-')
  have hdot := looksAtMark_of_ne hp (by decide : '\x7d' ≠ '.')
  have hclose : (inside p ts i o key).takeToken '\x7d' =
      (inside p ts i o key).closeFlow .flowMappingEnd := by
    simp only [takeToken, show (inside p ts i o key).cursor = p from rfl, hdash, hdot]
    simp
  rw [hclose]
  rfl

/-- The brackets of a record without fields. -/
theorem leads_braces {m : Nat} {rest : List Char} (hrest : Starts rest) (hcolumn : i < p.column)
    (hp : p.rest = '\x7b' :: '\x7d' :: '\n' :: (List.replicate m ' ' ++ rest)) :
    ∃ q, Leads (outside p ts i o keyAllowed none)
      (outside q (.flowMappingEnd :: .flowMappingStart :: ts) i o true none) ∧ p.Below q m rest := by
  have hclose : (p.skip 1).rest = '\x7d' :: '\n' :: (List.replicate m ' ' ++ rest) := by
    rw [Cursor.skip_rest, hp]
    rfl
  have hfeed : ((p.skip 1).skip 1).rest = '\n' :: (List.replicate m ' ' ++ rest) := by
    rw [Cursor.skip_rest, hclose]
    rfl
  have hbelow := Cursor.below_nextLine hfeed
  generalize hkey : (if keyAllowed then
    some (PossibleKey.mk p (decide (i = p.column)) ts.length) else none) = key
  have hline : p.line < ((((p.skip 1).skip 1).nextLine 1).skip m).line := hbelow.line
  have hindex : p.index < ((((p.skip 1).skip 1).nextLine 1).skip m).index :=
    Nat.lt_trans (by simp only [Cursor.skip_index]; omega) hbelow.index
  have hstale : freshKey ((((p.skip 1).skip 1).nextLine 1).skip m) key = .ok none := by
    rw [← hkey]
    exact freshKey_value hcolumn hline
  have hfresh : freshKey (p.skip 1) key = .ok key := by
    rw [← hkey]
    split_ifs
    · exact freshKey_near (Nat.le_refl _) (by simp [maxKeyLength])
    · rfl
  have hstarts : Starts ('\x7d' :: '\n' :: (List.replicate m ' ' ++ rest)) :=
    starts_cons rfl rfl (by decide) _
  have hend : Leads (inside (p.skip 1) (.flowMappingStart :: ts) i o key)
      (outside ((((p.skip 1).skip 1).nextLine 1).skip m)
        (.flowMappingEnd :: .flowMappingStart :: ts) i o true none) := by
    have hnext : Arrives (outside ((p.skip 1).skip 1) (.flowMappingEnd :: .flowMappingStart :: ts) i o
        false key) (outside ((((p.skip 1).skip 1).nextLine 1).skip m)
          (.flowMappingEnd :: .flowMappingStart :: ts) i o true none) :=
      arrives_lineFeed hrest hfeed hstale
    refine hnext.leads hclose ?_ ?_
    · rw [show (inside (p.skip 1) (.flowMappingStart :: ts) i o key).outdentTo
          (inside (p.skip 1) (.flowMappingStart :: ts) i o key).cursor.column =
          inside (p.skip 1) (.flowMappingStart :: ts) i o key from rfl, takeToken_closeBrace hclose]
    · simp only [inside, outside, hclose, hfeed, List.length_cons]
      omega
  refine ⟨_, ((arrives_inside hstarts hclose (by simp) hfresh).trans hend).leads_outside hp
    (by omega) ?_ ?_, hbelow.rest, hbelow.column, hline, hindex⟩
  · rw [takeToken_openBrace hp, hkey]
  · simp only [inside, outside, hclose, hp, List.length_cons]
    omega

/-- A value after its colon is read to the end of its last line. -/
def ReadsValue (n : Nat) (v : Tree) : Prop :=
  ∀ {p : Cursor} {ts : List Token} {o : List Int} {keyAllowed : Bool} {m : Nat} {rest : List Char},
    Starts rest → m ≤ n → n < p.column → 0 < p.index →
    p.rest = v.valueAt n ++ (List.replicate m ' ' ++ rest) →
    ∃ q, Arrives (outside p ts n o keyAllowed none)
        (outside q (v.tokens.reverse ++ ts) n o true none) ∧ p.Below q m rest

/-- A text after a space. -/
theorem arrives_text {n : Nat} {s t : List Char} {style : Style} (ht : Held n s t style) {m : Nat}
    {rest : List Char} (hrest : Starts rest) (hm : m ≤ n) (hcolumn : n < p.column)
    (hindex : 0 < p.index)
    (hp : p.rest = endLine (' ' :: t) ++ (List.replicate m ' ' ++ rest)) :
    ∃ q, Arrives (outside p ts n o keyAllowed none)
        (outside q (.scalar style (String.ofList s) :: ts) n o true none) ∧ p.Below q m rest := by
  have hend : endLine (' ' :: t) = ' ' :: endLine t := endLine_append [' '] ht.ne_nil
  have hspace : p.rest = List.replicate 1 ' ' ++ (endLine t ++ (List.replicate m ' ' ++ rest)) := by
    rw [hp, hend]
    rfl
  have hnext : (p.skip 1).rest = endLine t ++ (List.replicate m ' ' ++ rest) := by
    rw [Cursor.skip_rest, hspace]
    rfl
  have hstarts : Starts (endLine t ++ (List.replicate m ' ' ++ rest)) := ht.starts_endLine _
  obtain ⟨q, hq, hbelow⟩ := leads_text ht hrest hm (by rw [Cursor.skip_column]; omega) hnext
  refine ⟨q, (arrives_spaces hstarts hspace (unmarked_of_pos hindex) rfl).trans hq, hbelow.rest,
    hbelow.column, hbelow.line, Nat.lt_trans ?_ hbelow.index⟩
  rw [Cursor.skip_index]
  omega

theorem entering_self (n : Nat) (ts : List Token) : entering n n ts = ts :=
  if_neg (Int.lt_irrefl _)

theorem around_self (n : Nat) (o : List Int) : around n n o = o := if_neg (Int.lt_irrefl _)

/-- The fields of a record, given their values. -/
theorem leads_fields {n : Nat} {fields : List (String × Tree)} (hne : fields ≠ [])
    (hvalues : ∀ e ∈ fields, ReadsValue n e.2) {m : Nat} {rest : List Char} (hrest : Starts rest)
    (hm : m ≤ n) (hi : i ≤ n) (hcolumn : p.column = n)
    (hp : p.rest = fieldsText n fields ++ (List.replicate m ' ' ++ rest)) :
    ∃ q, Leads (outside p ts i o true none)
        (outside q ((fieldTokens fields).reverse ++ entering i n ts) n (around i n o) true none) ∧
      p.Below q m rest := by
  induction fields generalizing p ts i o with
  | nil => exact absurd rfl hne
  | cons e fields ih =>
    obtain ⟨key, value⟩ := e
    obtain ⟨hvalue, hvalues⟩ := List.forall_mem_cons.1 hvalues
    subst hcolumn
    rw [fieldsText, List.append_assoc, List.append_assoc] at hp
    have hwhite : ∀ c ∈ (value.valueAt p.column ++ (fieldsAt p.column fields ++
        (List.replicate m ' ' ++ rest))).head?, isGap c = true ∨ isBreak c = true := by
      obtain ⟨c, r, hc, hwhite⟩ := valueAt_head p.column value
      rw [hc]
      rintro _ ⟨⟩
      exact hwhite
    obtain ⟨q, marked, hbehind, hleads⟩ := leads_key hi hwhite hp
    have hindex : 0 < q.index := Nat.lt_of_le_of_lt (Nat.zero_le _) hbehind.index
    cases fields with
    | nil =>
      obtain ⟨r, hr, hbelow⟩ := hvalue hrest hm hbehind.column hindex hbehind.rest
      refine ⟨r, ?_, hbehind.below hbelow⟩
      simpa [fieldTokens] using hleads _ hr
    | cons f fields =>
      have hnext := hbehind.rest
      rw [fieldsAt_cons, List.append_assoc] at hnext
      have hstarts : Starts (fieldsText p.column (f :: fields) ++ (List.replicate m ' ' ++ rest)) := by
        rw [fieldsText, List.append_assoc]
        exact starts_keyText _ _ _
      obtain ⟨r, hr, hbelow⟩ := hvalue hstarts (Nat.le_refl _) hbehind.column hindex hnext
      obtain ⟨u, hu, hbelow'⟩ := ih (List.cons_ne_nil _ _) hvalues (Int.le_refl _)
        hbelow.column hbelow.rest
      rw [entering_self, around_self] at hu
      refine ⟨u, ?_, (hbehind.below hbelow).trans hbelow'⟩
      simpa [fieldTokens] using hleads _ (hr.trans hu)

/-- **A value is read as its tokens.** -/
theorem readsValue_of_fits {v : Tree} (h : v.Fits) (n : Nat) : ReadsValue n v := by
  induction h generalizing n with
  | @plain text htext =>
    intro p ts o keyAllowed m rest hrest hm hcolumn hindex hp
    rw [Tree.valueAt] at hp
    simpa [Tree.tokens] using arrives_text (.plain htext) hrest hm hcolumn hindex hp
  | text text =>
    intro p ts o keyAllowed m rest hrest hm hcolumn hindex hp
    rw [Tree.valueAt] at hp
    simpa [Tree.tokens] using arrives_text (held_textAt n text) hrest hm hcolumn hindex hp
  | @record fields _ ih =>
    intro p ts o keyAllowed m rest hrest hm hcolumn hindex hp
    cases fields with
    | nil =>
      rw [Tree.valueAt] at hp
      have hspace : p.rest = List.replicate 1 ' ' ++
          ('\x7b' :: '\x7d' :: '\n' :: (List.replicate m ' ' ++ rest)) := hp
      have hnext : (p.skip 1).rest = '\x7b' :: '\x7d' :: '\n' :: (List.replicate m ' ' ++ rest) := by
        rw [Cursor.skip_rest, hspace]
        rfl
      have hstarts : Starts ('\x7b' :: '\x7d' :: '\n' :: (List.replicate m ' ' ++ rest)) :=
        starts_cons rfl rfl (by decide) _
      have hright : (n : Int) < (p.skip 1).column := Int.ofNat_lt.2 (Nat.lt_succ_of_lt hcolumn)
      obtain ⟨q, hq, hbelow⟩ := leads_braces hrest hright hnext
      refine ⟨q, ?_, hbelow.rest, hbelow.column, hbelow.line,
        Nat.lt_trans (Nat.lt_succ_self _) hbelow.index⟩
      simpa [Tree.tokens] using
        (arrives_spaces hstarts hspace (unmarked_of_pos hindex) rfl).trans hq
    | cons f fields =>
      rw [Tree.valueAt, fieldsAt_cons, List.cons_append,
        List.append_assoc] at hp
      have hstarts : Starts (fieldsText (n + 2) (f :: fields) ++ (List.replicate m ' ' ++ rest)) := by
        rw [fieldsText, List.append_assoc]
        exact starts_keyText _ _ _
      have hfirst := Cursor.below_nextLine hp
      obtain ⟨q, hq, hbelow⟩ := leads_fields (List.cons_ne_nil _ _) (fun e he => ih e he (n + 2))
        hrest (by omega) (by omega : (n : Int) ≤ (n + 2 : Nat)) hfirst.column hfirst.rest
      have hinner : (n : Int) < (n + 2 : Nat) := by omega
      rw [entering, around, if_pos hinner, if_pos hinner] at hq
      -- The next line is not indented as far, so the record ends.
      have hend (ts : List Token) : Leads (outside q ts (n + 2 : Nat) (n :: o) true none)
          (outside q (.blockEnd :: ts) n o true none) :=
        ⟨0, Nat.le_of_eq (Nat.zero_add _), resume_lt (by rw [hbelow.column]; omega)⟩
      refine ⟨q, ?_, hfirst.trans hbelow⟩
      simpa [Tree.tokens] using
        (arrives_lineFeed hstarts hp rfl).trans (hq.trans (hend _))

end Outside

/-! ## Documents -/

/-- At the end of the text the record ends. -/
theorem resume_end {q : Cursor} {ts : List Token} (hq : q.rest = []) (hcolumn : q.column = 0)
    (fuel : Nat) :
    resume fuel (outside q ts 0 [-1] true none) =
      .ok (outside q (.blockEnd :: ts) (-1) [] true none) := by
  rw [resume, outside_cursor, hq, hcolumn]
  rfl

/-- At the end of a text without block collections nothing is left to do. -/
theorem resume_done {q : Cursor} {ts : List Token} (hq : q.rest = []) (hcolumn : q.column = 0)
    (fuel : Nat) :
    resume fuel (outside q ts (-1) [] true none) = .ok (outside q ts (-1) [] true none) := by
  rw [resume, outside_cursor, hq, hcolumn]
  rfl

end Scanner

section Documents

open Scanner

/-- The tokens of a text are those the scanner has when it comes to the end. -/
theorem scan_of_arrives {text : List Char} (hprintable : Printable text) {s s' : Scanner}
    (h : Arrives (outside { rest := text } [] (-1) [] true none) s)
    (hend : ∀ fuel, resume fuel s = .ok s') : scan text = .ok s'.tokens.reverse := by
  have hallowed : text.all isAllowed = true :=
    List.all_eq_true.2 fun c hc => isAllowed_of_isPrintable (hprintable c hc)
  obtain ⟨k, hk, hrun⟩ := h
  have hfuel : text.length - k + k + 1 = text.length + 1 := by
    have : k + s.cursor.rest.length ≤ text.length := hk
    omega
  have hrun := (hrun (text.length - k)).trans (hend _)
  rw [hfuel] at hrun
  unfold scan
  split
  next rest =>
    have hmark := hprintable '\uFEFF' List.mem_cons_self
    cases hmark
  · simp only [hallowed, Bool.not_true, Bool.false_eq_true, if_false]
    exact congrArg (Except.bind · fun s => Except.ok s.tokens.reverse) hrun

/-- The place of the first token. -/
theorem arrives_start {s : List Char} (hprintable : Printable s) (hstarts : Starts s) :
    Arrives (outside { rest := s } [] (-1) [] true none)
      (outside { rest := s } [] (-1) [] true none) := by
  refine arrives_spaces (n := 0) hstarts rfl (fun _ => ?_) rfl
  cases s with
  | nil => rfl
  | cons c s =>
    refine beq_false_of_ne ?_
    rintro ⟨⟩
    cases hprintable '\uFEFF' List.mem_cons_self

/-- **A written record is read as its tokens.** -/
theorem scan_document {fields : List (String × Tree)} (h : (Tree.record fields).Fits) :
    scan (document fields).toList = .ok (Tree.record fields).tokens := by
  rcases h with - | - | hvalues
  cases fields with
  | nil =>
    have hstarts : Starts ['\x7b', '\x7d', '\n'] := starts_cons rfl rfl (by decide) _
    have hprintable : Printable ['\x7b', '\x7d', '\n'] := by simp [Printable, isPrintable]
    obtain ⟨q, hq, hbelow⟩ : ∃ q, Leads
        (outside { rest := ['\x7b', '\x7d', '\n'] } [] (-1) [] true none)
        (outside q [.flowMappingEnd, .flowMappingStart] (-1) [] true none) ∧
        Cursor.Below { rest := ['\x7b', '\x7d', '\n'] } q 0 [] :=
      leads_braces starts_nil (by decide) rfl
    have hscan := scan_of_arrives hprintable ((arrives_start hprintable hstarts).trans hq)
      (resume_done hbelow.rest hbelow.column)
    rw [Tree.tokens]
    exact hscan
  | cons f fields =>
    have htext : (document (f :: fields)).toList = fieldsText 0 (f :: fields) := by
      have := fieldsAt_cons 0 f fields
      simpa [document] using this
    have hprintable : Printable (fieldsText 0 (f :: fields)) := by
      have := printable_fieldsAt fun e he => (hvalues e he).printable 0
      rwa [fieldsAt_cons 0] at this
    have hstarts : Starts (fieldsText 0 (f :: fields)) := by
      rw [fieldsText]
      exact starts_keyText 0 _ _
    have hp : (Cursor.mk (fieldsText 0 (f :: fields)) 0 0 0).rest =
        fieldsText 0 (f :: fields) ++ (List.replicate 0 ' ' ++ []) := by simp
    have houter : (-1 : Int) < (0 : Nat) := by decide
    obtain ⟨q, hq, hbelow⟩ := leads_fields (o := []) (List.cons_ne_nil _ _)
      (fun e he => readsValue_of_fits (hvalues e he) 0) starts_nil (Nat.le_refl 0)
      (Int.le_of_lt houter) rfl hp
    rw [entering, around, if_pos houter, if_pos houter] at hq
    have hscan := scan_of_arrives hprintable ((arrives_start hprintable hstarts).trans hq)
      (resume_end hbelow.rest hbelow.column)
    rw [htext, hscan, Tree.tokens]
    simp [outside]

end Documents

end Reimage.Yaml
