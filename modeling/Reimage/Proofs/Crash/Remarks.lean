/-
  The error output of a helper, line by line.

  The lines that a read finishes are logged before the next read, and the first that is not text is
  the last that is looked at: after the read that finished it there is no other. So the output is
  read to its end if its finished lines are text, and only then.

  * `cutLines_append`: lines may be cut piece by piece;
  * `lineReads_stretch`: the reads for the bytes of a stretch;
  * `remarksFrom_legible`, `remarksFrom_illegible`: logging the lines of such reads, if all of them
    are text and if not;
  * `Remarked`: what becomes of an error output. `remarks_read` proves it of every one;
  * `undrained`: an output of which the end is not read.
-/
import Reimage.Proofs.Crash.Frame

namespace Reimage.Crash

/-! ## Lines -/

/-- Bytes without a line feed finish no line. -/
theorem cutLines_of_notMem {bytes : List UInt8} (h : 10 ∉ bytes) : cutLines bytes = ([], bytes) := by
  induction bytes with
  | nil => rfl
  | cons b bytes ih =>
    rw [List.mem_cons, not_or] at h
    simp only [cutLines, ih h.2, if_neg (Ne.symm h.1)]

/-- What stands behind the last line feed has none. -/
theorem notMem_cutLines (bytes : List UInt8) : 10 ∉ (cutLines bytes).2 := by
  induction bytes with
  | nil => simp [cutLines]
  | cons b bytes ih =>
    rcases h : cutLines bytes with ⟨_ | ⟨line, lines⟩, last⟩ <;> rw [h] at ih
    · by_cases hb : b = 10
      · simpa [cutLines, h, hb] using ih
      · simpa [cutLines, h, hb, Ne.symm hb] using ih
    · by_cases hb : b = 10 <;> simpa [cutLines, h, hb] using ih

/-- The lines of a text that goes on are its lines, and those of what stood behind the last of them
    together with the rest. -/
theorem cutLines_append (bytes more : List UInt8) :
    cutLines (bytes ++ more) =
      ((cutLines bytes).1 ++ (cutLines ((cutLines bytes).2 ++ more)).1,
        (cutLines ((cutLines bytes).2 ++ more)).2) := by
  induction bytes with
  | nil => rfl
  | cons b bytes ih =>
    rcases h : cutLines bytes with ⟨_ | ⟨line, lines⟩, last⟩ <;> rw [h] at ih
    · by_cases hb : b = 10
      · simp [cutLines, h, hb, ih]
      · simp [cutLines, h, hb, ih]
    · by_cases hb : b = 10 <;> simp [cutLines, h, hb, ih]

/-- Lines that are all text. -/
def Legible (lines : List (List UInt8)) : Prop := ∀ line ∈ lines, (remark? line).isSome

theorem remarkLines_of_legible {lines : List (List UInt8)} (h : Legible lines) :
    remarkLines lines = (lines.filterMap remark?, true) := by
  induction lines with
  | nil => rfl
  | cons line lines ih =>
    obtain ⟨hline, hlines⟩ := List.forall_mem_cons.1 h
    obtain ⟨logged, hlogged⟩ := Option.isSome_iff_exists.1 hline
    rw [remarkLines, hlogged, ih hlines, List.filterMap_cons_some hlogged]

/-- Lines are logged up to the first that is not text. -/
theorem remarkLines_of_illegible {before after : List (List UInt8)} {line : List UInt8}
    (h : Legible before) (hline : remark? line = none) :
    remarkLines (before ++ line :: after) = (before.filterMap remark? ++ [notText], false) := by
  induction before with
  | nil => rw [List.nil_append, remarkLines, hline]; rfl
  | cons first before ih =>
    obtain ⟨hfirst, hbefore⟩ := List.forall_mem_cons.1 h
    obtain ⟨logged, hlogged⟩ := Option.isSome_iff_exists.1 hfirst
    rw [List.cons_append, remarkLines, hlogged, ih hbefore, List.filterMap_cons_some hlogged]
    rfl

/-- Lines that are not all text have a first that is not. -/
theorem exists_illegible {lines : List (List UInt8)} (h : ¬ Legible lines) :
    ∃ before line after, lines = before ++ line :: after ∧ Legible before ∧ remark? line = none := by
  induction lines with
  | nil => exact absurd (List.forall_mem_nil _) h
  | cons first lines ih =>
    by_cases hfirst : (remark? first).isSome
    · have hlines : ¬ Legible lines := fun hl => h (List.forall_mem_cons.2 ⟨hfirst, hl⟩)
      obtain ⟨before, line, after, rfl, hbefore, hline⟩ := ih hlines
      exact ⟨first :: before, line, after, rfl, List.forall_mem_cons.2 ⟨hfirst, hbefore⟩, hline⟩
    · exact ⟨[], first, lines, rfl, List.forall_mem_nil _, by simpa using hfirst⟩

/-- The first line that is not text is one of the later lines, or one of the first. -/
theorem illegible_append {first later before after : List (List UInt8)} {line : List UInt8}
    (h : first ++ later = before ++ line :: after) (hbefore : Legible before) :
    (∃ before', before = first ++ before' ∧ Legible first ∧ Legible before' ∧
      later = before' ++ line :: after) ∨
    ∃ after', first = before ++ line :: after' := by
  rcases List.append_eq_append_iff.1 h with ⟨before', rfl, hlater⟩ | ⟨between, rfl, hlater⟩
  · obtain ⟨hfirst, hbefore'⟩ := List.forall_mem_append.1 hbefore
    exact Or.inl ⟨before', rfl, hfirst, hbefore', hlater⟩
  · cases between with
    | nil => exact Or.inl ⟨[], by simp, by simpa using hbefore, List.forall_mem_nil _, hlater.symm⟩
    | cons line' between =>
      obtain ⟨rfl, -⟩ := List.cons.inj hlater
      exact Or.inr ⟨between, rfl⟩

/-! ## Reads -/

theorem flatten_inPieces (n : Nat) (bytes : List UInt8) : (inPieces n bytes).flatten = bytes := by
  fun_induction inPieces n bytes with
  | case1 => rfl
  | case2 b rest ih => rw [List.flatten_cons, ih, List.cons_append, List.take_append_drop]

theorem mem_inPieces {n : Nat} {bytes piece : List UInt8} (h : piece ∈ inPieces n bytes) :
    piece ≠ [] ∧ piece.length ≤ n + 1 := by
  fun_induction inPieces n bytes with
  | case1 => cases h
  | case2 b rest ih =>
    rw [List.mem_cons] at h
    rcases h with rfl | h
    · exact ⟨List.cons_ne_nil _ _, by simp⟩
    · exact ih h

/-- A read after which the source goes on, and that was one for lines. -/
def Chunk.IsLineRead (c : Chunk) : Prop := c.GoesOn ∧ c.bytes.length ≤ lineReadRest + 1

/-- What a source gives at once may take several reads for lines. -/
theorem lineRead_goesOn {c : Chunk} (hc : c.GoesOn) :
    (∀ r ∈ lineRead c, r.IsLineRead) ∧ (lineRead c).flatMap Chunk.bytes = c.bytes := by
  match c with
  | .data [] => exact absurd rfl hc
  | .data (b :: bytes) =>
    constructor
    · intro r hr
      obtain ⟨piece, hpiece, rfl⟩ := List.mem_map.1 hr
      exact mem_inPieces hpiece
    · have hflat := flatten_inPieces lineReadRest (b :: bytes)
      rw [← List.flatMap_id] at hflat
      rw [lineRead, List.flatMap_map]
      exact hflat
  | .interrupted =>
    constructor
    · intro r hr
      rw [List.mem_singleton.1 hr]
      exact ⟨hc, by simp [Chunk.bytes]⟩
    · rfl
  | .failure _ => exact hc.elim

/-- The reads for the bytes of a stretch, and what ends them. -/
theorem lineReads_stretch (s : Source) :
    ∃ reads, (∀ r ∈ reads, r.IsLineRead) ∧ reads.flatMap Chunk.bytes = s.stretch.bytes ∧
      ((s.stretch.failure = none ∧ s.beyond = [] ∧ lineReads s = reads) ∨
        (s.stretch.failure = none ∧ lineReads s = reads ++ .data [] :: lineReads s.beyond) ∨
        ∃ message, s.stretch.failure = some message ∧
          lineReads s = reads ++ .failure message :: lineReads s.beyond) := by
  induction s with
  | nil => exact ⟨[], List.forall_mem_nil _, rfl, Or.inl ⟨rfl, rfl, rfl⟩⟩
  | cons c s ih =>
    have hcons : lineReads (c :: s) = lineRead c ++ lineReads s := List.flatMap_cons
    by_cases hc : c.GoesOn
    · obtain ⟨reads, hreads, hbytes, hend⟩ := ih
      obtain ⟨hshort, hread⟩ := lineRead_goesOn hc
      have hpieces : ∀ c' ∈ [c], c'.GoesOn := by simpa using hc
      have hstretch := Source.stretch_pieces hpieces s
      have hbeyond := Source.beyond_pieces hpieces s
      rw [List.singleton_append] at hstretch hbeyond
      refine ⟨lineRead c ++ reads, ?_, ?_, ?_⟩
      · intro r hr
        exact (List.mem_append.1 hr).elim (hshort r) (hreads r)
      · rw [List.flatMap_append, hread, hbytes, hstretch]
        simp
      · rw [hstretch, hbeyond, hcons]
        rcases hend with ⟨hf, hb, hl⟩ | ⟨hf, hl⟩ | ⟨message, hf, hl⟩
        · exact Or.inl ⟨hf, hb, by rw [hl]⟩
        · exact Or.inr (Or.inl ⟨hf, by rw [hl, List.append_assoc]⟩)
        · exact Or.inr (Or.inr ⟨message, hf, by rw [hl, List.append_assoc]⟩)
    · match c with
      | .data [] => exact ⟨[], List.forall_mem_nil _, rfl, Or.inr (Or.inl ⟨rfl, hcons⟩)⟩
      | .data (b :: bytes) => exact absurd (List.cons_ne_nil b bytes) hc
      | .interrupted => exact absurd trivial hc
      | .failure message =>
        exact ⟨[], List.forall_mem_nil _, rfl, Or.inr (Or.inr ⟨message, rfl, hcons⟩)⟩

/-- Pieces whose finished lines are text are all read, and their lines logged. The induction is on
    the pieces, over what stands behind the last line feed so far. -/
theorem remarksFrom_legible {reads : List Chunk} (hreads : ∀ r ∈ reads, r.GoesOn)
    {held : List UInt8} (hheld : 10 ∉ held)
    (hlines : Legible (cutLines (held ++ reads.flatMap Chunk.bytes)).1) (rest : Source) :
    remarksFrom held (reads ++ rest) =
      let (lines, last) := cutLines (held ++ reads.flatMap Chunk.bytes)
      (lines.filterMap remark? ++ (remarksFrom last rest).1, reads ++ (remarksFrom last rest).2) := by
  induction reads generalizing held with
  | nil =>
    rw [List.flatMap_nil, List.append_nil, cutLines_of_notMem hheld]
    rfl
  | cons r reads ih =>
    obtain ⟨hr, htail⟩ := List.forall_mem_cons.1 hreads
    rw [List.flatMap_cons] at hlines ⊢
    match r with
    | .data [] => exact absurd rfl hr
    | .data (b :: bytes) =>
      rw [← List.append_assoc, cutLines_append] at hlines ⊢
      obtain ⟨hfirst, hmore⟩ := List.forall_mem_append.1 hlines
      have hrest := ih htail (notMem_cutLines _) hmore
      simp only [Chunk.bytes] at hfirst hrest ⊢
      rw [List.cons_append, remarksFrom]
      simp only [remarkLines_of_legible hfirst, hrest, List.filterMap_append, List.append_assoc,
        List.cons_append]
    | .interrupted =>
      rw [List.cons_append, remarksFrom, ih htail hheld hlines]
      rfl
    | .failure _ => exact hr.elim

/-- Of pieces among whose finished lines is one that is not text nothing is read after the piece that
    finishes the first such line. -/
theorem remarksFrom_illegible {reads : List Chunk} (hreads : ∀ r ∈ reads, r.GoesOn)
    {held : List UInt8} (hheld : 10 ∉ held) {before after : List (List UInt8)} {line : List UInt8}
    (hlines : (cutLines (held ++ reads.flatMap Chunk.bytes)).1 = before ++ line :: after)
    (hbefore : Legible before) (hline : remark? line = none) (rest : Source) :
    ∃ init last more, reads = init ++ last :: more ∧
      remarksFrom held (reads ++ rest) = (before.filterMap remark? ++ [notText], init ++ [last]) ∧
      (cutLines (held ++ init.flatMap Chunk.bytes)).1.length ≤ before.length := by
  induction reads generalizing held before with
  | nil =>
    rw [List.flatMap_nil, List.append_nil, cutLines_of_notMem hheld] at hlines
    simp at hlines
  | cons r reads ih =>
    obtain ⟨hr, htail⟩ := List.forall_mem_cons.1 hreads
    rw [List.flatMap_cons] at hlines
    match r with
    | .data [] => exact absurd rfl hr
    | .data (b :: bytes) =>
      rw [← List.append_assoc, cutLines_append] at hlines
      rcases illegible_append hlines hbefore with
        ⟨before', rfl, hfirst, hbefore', hmore⟩ | ⟨after', hfirst⟩
      · -- the line is finished by a later piece
        obtain ⟨init, last, more, rfl, hrest, hlen⟩ := ih htail (notMem_cutLines _) hmore hbefore'
        refine ⟨.data (b :: bytes) :: init, last, more, rfl, ?_, ?_⟩
        · simp only [Chunk.bytes] at hfirst hrest ⊢
          rw [List.cons_append, remarksFrom]
          simp only [remarkLines_of_legible hfirst, hrest]
          rw [List.filterMap_append, List.append_assoc, List.cons_append]
        · rw [List.flatMap_cons, ← List.append_assoc, cutLines_append, List.length_append,
            List.length_append]
          exact Nat.add_le_add_left hlen _
      · refine ⟨[], .data (b :: bytes), reads, rfl, ?_, ?_⟩
        · rw [Chunk.bytes] at hfirst
          rw [List.cons_append, remarksFrom]
          simp only [hfirst, remarkLines_of_illegible hbefore hline, List.nil_append]
        · rw [List.flatMap_nil, List.append_nil, cutLines_of_notMem hheld]
          exact Nat.zero_le _
    | .interrupted =>
      obtain ⟨init, last, more, rfl, hrest, hlen⟩ := ih htail hheld hlines hbefore
      refine ⟨.interrupted :: init, last, more, rfl, ?_, hlen⟩
      rw [List.cons_append, remarksFrom, hrest]
      rfl
    | .failure _ => exact hr.elim

/-! ## The whole output -/

/-- What becomes of an error output, whose finished lines are those of its first stretch. -/
structure Remarked (stderr : Source) : Prop where
  /-- If reading does not fail, the end is seen if and only if every finished line is text. -/
  drained : stderr.stretch.failure = none →
    (.data [] ∈ (remarks stderr).2 ↔ Legible (cutLines stderr.stretch.bytes).1)
  /-- All of it is logged then, in order. The end may cut off a last line. After such a line there is
      one more read, and what that gives is logged as well. -/
  ended : stderr.stretch.failure = none →
    let (lines, last) := cutLines stderr.stretch.bytes
    Legible lines → (remarks stderr).1 = lines.filterMap remark? ++ (remarkLast last).1 ++
      if (remarkLast last).2 then (remarks stderr.beyond).1 else []
  /-- A failure is the last thing that is logged. -/
  failed : ∀ message, stderr.stretch.failure = some message →
    let (lines, _) := cutLines stderr.stretch.bytes
    Legible lines → (remarks stderr).1 = lines.filterMap remark? ++ [remarkFailure message]
  /-- Otherwise the log ends with the first line that is not text, and the read that finished it, of
      at most 8192 bytes, was the last one. -/
  stopped : ∀ before line after,
    (cutLines stderr.stretch.bytes).1 = before ++ line :: after → Legible before →
      remark? line = none →
      (remarks stderr).1 = before.filterMap remark? ++ [notText] ∧
      ∃ init last, (remarks stderr).2 = init ++ [last] ∧
        (∀ r ∈ init ++ [last], r.GoesOn ∧ r.bytes.length ≤ 8192) ∧
        (cutLines (init.flatMap Chunk.bytes)).1.length ≤ before.length ∧
        (init ++ [last]).flatMap Chunk.bytes <+: stderr.stretch.bytes
  /-- Whatever becomes of the messages, these are the first lines of the log. -/
  logged : ∀ {σ : Type} (receive : Message → StateM σ (Result Unit)) (stdout : Source)
    (finish : Result Int) (s : σ), ∃ outcome more s',
      (collect receive ⟨stdout, stderr, finish⟩).run s =
        ((outcome, (remarks stderr).1 ++ more), s')

/-- At the end of the output what stands behind the last line feed is logged. -/
theorem remarksFrom_end (held : List UInt8) (rest : Source) :
    (remarksFrom held (.data [] :: rest)).1 =
        (remarkLast held).1 ++ (if (remarkLast held).2 then (remarksFrom [] rest).1 else []) ∧
      .data [] ∈ (remarksFrom held (.data [] :: rest)).2 := by
  rcases h : remarkLast held with ⟨logged, _ | _⟩ <;> simp [remarksFrom, h]

/-- A source that gives nothing more has ended. -/
theorem remarksFrom_nil (held : List UInt8) :
    remarksFrom held [] = remarksFrom held [.data []] := by
  simp only [remarksFrom]
  rcases remarkLast held with ⟨logged, _ | _⟩ <;> simp [remarkLast]

theorem collect_logged {σ : Type} (receive : Message → StateM σ (Result Unit))
    (helper : Running) (s : σ) : ∃ outcome more s',
      (collect receive helper).run s = ((outcome, (remarks helper.stderr).1 ++ more), s') := by
  rcases h : (deliver receive helper.stdout).run s with ⟨⟨outcome, left⟩, s'⟩
  cases outcome with
  | error e => exact ⟨.error e, [], s', by simp [collect, h]; rfl⟩
  | ok n => exact ⟨.ok n, endingLines helper.finish n, s', by simp [collect, h]; rfl⟩

/-- An output whose finished lines are text. -/
theorem remarks_legible (stderr : Source) (h : Legible (cutLines stderr.stretch.bytes).1) :
    let (lines, last) := cutLines stderr.stretch.bytes
    (stderr.stretch.failure = none → .data [] ∈ (remarks stderr).2 ∧
      (remarks stderr).1 = lines.filterMap remark? ++ (remarkLast last).1 ++
        if (remarkLast last).2 then (remarks stderr.beyond).1 else []) ∧
    ∀ message, stderr.stretch.failure = some message →
      (remarks stderr).1 = lines.filterMap remark? ++ [remarkFailure message] := by
  obtain ⟨reads, hreads, hbytes, hend⟩ := lineReads_stretch stderr
  have hread : ∀ rest, remarksFrom [] (reads ++ rest) = _ :=
    remarksFrom_legible (fun r hr => (hreads r hr).1) List.not_mem_nil
      (by rw [List.nil_append, hbytes]; exact h)
  rw [List.nil_append, hbytes] at hread
  rcases hcut : cutLines stderr.stretch.bytes with ⟨lines, last⟩
  rw [hcut] at hread
  simp only at hread ⊢
  have hended : ∀ rest,
      remarksFrom [] (lineReads stderr) = remarksFrom [] (reads ++ .data [] :: rest) →
      remarksFrom [] (lineReads stderr.beyond) = remarksFrom [] rest →
      .data [] ∈ (remarks stderr).2 ∧ (remarks stderr).1 =
        lines.filterMap remark? ++ (remarkLast last).1 ++
          if (remarkLast last).2 then (remarks stderr.beyond).1 else [] := by
    intro rest hrest hbeyond
    obtain ⟨hlog, hmem⟩ := remarksFrom_end last rest
    rw [remarks, remarks, hrest, hbeyond, hread, hlog, List.append_assoc]
    exact ⟨List.mem_append_right _ hmem, rfl⟩
  rcases hend with ⟨hf, hb, hl⟩ | ⟨hf, hl⟩ | ⟨message, hf, hl⟩
  · refine ⟨fun _ => hended [] ?_ ?_, fun message hm => ?_⟩
    · have hnil := hread []
      rw [List.append_nil, remarksFrom_nil] at hnil
      rw [hl, hnil, hread]
    · rw [hb]
      rfl
    · cases hf.symm.trans hm
  · refine ⟨fun _ => hended _ (by rw [hl]) rfl, fun message hm => ?_⟩
    cases hf.symm.trans hm
  · refine ⟨fun hnone => ?_, fun message' hm => ?_⟩
    · cases hf.symm.trans hnone
    · cases hf.symm.trans hm
      rw [remarks, hl, hread]
      rfl

/-- An output with a line that is not text. -/
theorem remarks_illegible (stderr : Source) {before after : List (List UInt8)} {line : List UInt8}
    (hlines : (cutLines stderr.stretch.bytes).1 = before ++ line :: after)
    (hbefore : Legible before) (hline : remark? line = none) :
    (remarks stderr).1 = before.filterMap remark? ++ [notText] ∧
    ∃ init last, (remarks stderr).2 = init ++ [last] ∧
      (∀ r ∈ init ++ [last], r.GoesOn ∧ r.bytes.length ≤ 8192) ∧
      (cutLines (init.flatMap Chunk.bytes)).1.length ≤ before.length ∧
      (init ++ [last]).flatMap Chunk.bytes <+: stderr.stretch.bytes := by
  obtain ⟨reads, hreads, hbytes, hend⟩ := lineReads_stretch stderr
  obtain ⟨rest, hrest⟩ : ∃ rest, lineReads stderr = reads ++ rest := by
    rcases hend with ⟨-, -, h⟩ | ⟨-, h⟩ | ⟨_, -, h⟩
    · exact ⟨[], by rw [h, List.append_nil]⟩
    · exact ⟨_, h⟩
    · exact ⟨_, h⟩
  obtain ⟨init, last, more, rfl, hread, hlen⟩ :=
    remarksFrom_illegible (fun r hr => (hreads r hr).1) List.not_mem_nil
      (by rw [List.nil_append, hbytes]; exact hlines) hbefore hline rest
  rw [← List.singleton_append, ← List.append_assoc] at hreads hbytes
  rw [List.flatMap_append] at hbytes
  rw [remarks, hrest, hread]
  refine ⟨rfl, init, last, rfl, fun r hr => hreads r (List.mem_append_left _ hr), hlen, ?_⟩
  exact ⟨_, hbytes⟩

/-- **Remarks.** An error output of any bytes, in any pieces. -/
theorem remarks_read (stderr : Source) : Remarked stderr := by
  refine
    { drained := fun hf => ⟨fun hend => ?_, fun h => ((remarks_legible stderr h).1 hf).1⟩
      ended := fun hf h => ((remarks_legible stderr h).1 hf).2
      failed := fun message hf h => (remarks_legible stderr h).2 message hf
      stopped := fun before line after => remarks_illegible stderr
      logged := fun receive stdout finish s => collect_logged receive ⟨stdout, stderr, finish⟩ s }
  -- a read that finds the end is none of those up to a line that is not text
  by_contra h
  obtain ⟨before, line, after, hlines, hbefore, hline⟩ := exists_illegible h
  obtain ⟨-, init, last, hreads, hgo, -⟩ := remarks_illegible stderr hlines hbefore hline
  rw [hreads] at hend
  exact (hgo _ hend).1 rfl

/-- An output of text that ends within a line. -/
def chatter : Source :=
  [.data (Text.Utf8.ofString "up\nrea"), .interrupted, .data (Text.Utf8.ofString "dy")]

/-- An output that cannot be read to its end. -/
def cutShort : Source := [.data (Text.Utf8.ofString "up\n"), .failure "gone"]

/-- An output with a line that is not text. -/
def garbled : Source :=
  [.data (Text.Utf8.ofString "up\n"), .data [255, 10], .data (Text.Utf8.ofString "late\n")]

theorem remarks_read_chatter :
    chatter.stretch.failure = none ∧ Legible (cutLines chatter.stretch.bytes).1 ∧
    .data [] ∈ (remarks chatter).2 ∧
    (remarks chatter).1 = [.info "crash_serializer: up", .info "crash_serializer: ready"] ∧
    cutShort.stretch.failure = some "gone" ∧ Legible (cutLines cutShort.stretch.bytes).1 ∧
    (remarks cutShort).1 = [.info "crash_serializer: up", remarkFailure "gone"] ∧
    (cutLines garbled.stretch.bytes).1 =
      [Text.Utf8.ofString "up"] ++ [255] :: [Text.Utf8.ofString "late"] ∧
    remark? [255] = none ∧
    (remarks garbled).1 = [.info "crash_serializer: up", notText] ∧
    ∃ init last, (remarks garbled).2 = init ++ [last] ∧
      (init ++ [last]).flatMap Chunk.bytes <+: garbled.stretch.bytes := by
  have hup : remark? (Text.Utf8.ofString "up") = some (.info "crash_serializer: up") := by
    decide +kernel
  have hlegible : Legible [Text.Utf8.ofString "up"] :=
    List.forall_mem_singleton.2 (by rw [hup]; rfl)
  have hcut : cutLines chatter.stretch.bytes =
      ([Text.Utf8.ofString "up"], Text.Utf8.ofString "ready") := by decide +kernel
  have hlast : remarkLast (Text.Utf8.ofString "ready") =
      ([.info "crash_serializer: ready"], true) := by decide +kernel
  have hbeyond : (remarks chatter.beyond).1 = [] := by decide +kernel
  have hshort : cutLines cutShort.stretch.bytes = ([Text.Utf8.ofString "up"], []) := by
    decide +kernel
  have hlines : (cutLines garbled.stretch.bytes).1 =
      [Text.Utf8.ofString "up"] ++ [255] :: [Text.Utf8.ofString "late"] := by decide +kernel
  have hodd : remark? [255] = none := by decide +kernel
  have hended := (remarks_read chatter).ended rfl
  have hfailed := (remarks_read cutShort).failed "gone" rfl
  simp only [hcut, hshort] at hended hfailed
  obtain ⟨hlog, init, last, hreads, -, -, hread⟩ :=
    (remarks_read garbled).stopped _ _ _ hlines hlegible hodd
  refine ⟨rfl, hcut ▸ hlegible, ((remarks_read chatter).drained rfl).2 (hcut ▸ hlegible), ?_, rfl,
    hshort ▸ hlegible, ?_, hlines, hodd, ?_, init, last, hreads, hread⟩
  · rw [hended hlegible, hlast, hbeyond]
    simp [hup]
  · rw [hfailed hlegible]
    simp [hup]
  · rw [hlog]
    simp [hup]

/-- A helper that first writes a line of the byte 255: of what it writes after that nothing is read,
    however much it is. -/
theorem remarks_stuck (rest : Source) :
    remarks (.data [255, 10] :: rest) = ([notText], [.data [255, 10]]) := by
  have hline : remark? [255] = none := by
    simp [remark?, Text.Utf8.decode?, Text.Utf8.next, Text.Utf8.lead?]
  have hreads : lineReads (.data [255, 10] :: rest) = .data [255, 10] :: lineReads rest := by
    simp [lineReads, lineRead, inPieces, lineReadRest]
  rw [remarks, hreads, remarksFrom]
  simp [cutLines, remarkLines, hline]

/-- **The end is not read.** Reading an error output does not fail, and a line that is not text is
    followed by one that is. That line is not logged, and the end is not seen. -/
theorem undrained :
    let stderr : Source := [.data [255, 10], .data (Text.Utf8.ofString "late\n")]
    stderr.stretch = ⟨[255, 10] ++ Text.Utf8.ofString "late\n", none⟩ ∧
      cutLines stderr.stretch.bytes = ([[255], Text.Utf8.ofString "late"], []) ∧
      (remarks stderr).1 = [notText] ∧ .data [] ∉ (remarks stderr).2 := by
  intro stderr
  have hremarks : remarks stderr = ([notText], [.data [255, 10]]) := remarks_stuck _
  refine ⟨rfl, rfl, ?_, ?_⟩
  · rw [hremarks]
  · rw [hremarks, List.mem_singleton]
    rintro ⟨⟩

end Reimage.Crash
