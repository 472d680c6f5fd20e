/-
  Reading frames from a source that gives its bytes in any pieces.

  A stretch of a source is what it gives up to its next end or failure. Reading a message depends on
  the stretch alone, and leaves the rest of the stretch or, if the frame is not whole, what comes
  after it.

  * `stretch_pieces`: the stretch knows nothing of the pieces and of interruptions;
  * `gather_of_le`, `gather_of_lt`: gathering bytes, by the stretch;
  * `readMessage_parse`: reading a message is parsing the first frame of the stretch;
  * `Stretch.parse_whole`, `Stretch.parse_short`: a frame that is whole, and one that is not;
  * `Alike`: sources with the same stretches. They give the same messages for ever;
  * `readMessage_refines`: all of it together.
-/
import Mathlib.Data.List.Basic
import Mathlib.Tactic.Ring
import Reimage.Crash.Delivery

namespace Reimage.Crash

/-! ## Stretches -/

/-- What a source gives up to its next end or failure: the bytes, and the text of the failure. -/
structure Stretch where
  bytes : List UInt8
  failure : Option String

namespace Source

/-- The first stretch of a source. -/
def stretch (s : Source) : Stretch := ⟨(readToEnd s).1, (readToEnd s).2.1⟩

/-- What comes after the first stretch and its end. -/
def beyond (s : Source) : Source := (readToEnd s).2.2

end Source

/-- A read after which the source goes on: it gives bytes, or it is interrupted. -/
def Chunk.GoesOn : Chunk → Prop
  | .data bytes => bytes ≠ []
  | .interrupted => True
  | .failure _ => False

instance : (c : Chunk) → Decidable c.GoesOn
  | .data bytes => inferInstanceAs (Decidable (bytes ≠ []))
  | .interrupted => .isTrue trivial
  | .failure _ => .isFalse id

/-- The bytes that a read gives. -/
def Chunk.bytes : Chunk → List UInt8
  | .data bytes => bytes
  | _ => []

namespace Source

@[simp] theorem stretch_nil : stretch [] = ⟨[], none⟩ := rfl
@[simp] theorem stretch_end (s : Source) : stretch (.data [] :: s) = ⟨[], none⟩ := rfl
@[simp] theorem stretch_failure (message : String) (s : Source) :
    stretch (.failure message :: s) = ⟨[], some message⟩ := rfl
@[simp] theorem stretch_interrupted (s : Source) : stretch (.interrupted :: s) = s.stretch := rfl
@[simp] theorem beyond_interrupted (s : Source) : beyond (.interrupted :: s) = s.beyond := rfl
@[simp] theorem stretch_data (b : UInt8) (bytes : List UInt8) (s : Source) :
    stretch (.data (b :: bytes) :: s) = ⟨b :: bytes ++ s.stretch.bytes, s.stretch.failure⟩ := rfl
@[simp] theorem beyond_data (b : UInt8) (bytes : List UInt8) (s : Source) :
    beyond (.data (b :: bytes) :: s) = s.beyond := rfl

variable {pieces : List Chunk} (h : ∀ c ∈ pieces, c.GoesOn) (s : Source)
include h

/-- A stretch joins the pieces and passes over interruptions. -/
theorem stretch_pieces :
    stretch (pieces ++ s) = ⟨pieces.flatMap Chunk.bytes ++ s.stretch.bytes, s.stretch.failure⟩ := by
  induction pieces with
  | nil => rfl
  | cons c pieces ih =>
    obtain ⟨hc, hp⟩ := List.forall_mem_cons.1 h
    cases c with
    | data bytes =>
      obtain ⟨b, bytes, rfl⟩ := List.exists_cons_of_ne_nil hc
      rw [List.cons_append, stretch_data, ih hp]
      simp [Chunk.bytes]
    | interrupted =>
      rw [List.cons_append, stretch_interrupted, ih hp]
      simp [Chunk.bytes]
    | failure => exact hc.elim

theorem beyond_pieces : beyond (pieces ++ s) = s.beyond := by
  induction pieces with
  | nil => rfl
  | cons c pieces ih =>
    obtain ⟨hc, hp⟩ := List.forall_mem_cons.1 h
    cases c with
    | data bytes =>
      obtain ⟨b, bytes, rfl⟩ := List.exists_cons_of_ne_nil hc
      rw [List.cons_append, beyond_data, ih hp]
    | interrupted => rw [List.cons_append, beyond_interrupted, ih hp]
    | failure => exact hc.elim

end Source

/-! ## Gathering bytes -/

/-- How gathering ends at the end of a stretch. -/
def Stretch.ending (r : Stretch) : Ending :=
  match r.failure with
  | none => .ended
  | some message => .failed message

/-- As many bytes as the stretch has are gathered in full, and the rest of the stretch stays. -/
theorem gather_of_le {wanted : Nat} {s : Source} (h : wanted ≤ s.stretch.bytes.length) :
    ∃ rest, gather wanted s = (s.stretch.bytes.take wanted, .full, rest) ∧
      rest.stretch = ⟨s.stretch.bytes.drop wanted, s.stretch.failure⟩ ∧
      rest.beyond = s.beyond := by
  fun_induction gather wanted s with
  | case1 s => exact ⟨s, by simp, by simp, rfl⟩
  | case2 | case5 => simp at h
  | case4 => simp [Source.stretch_failure] at h
  | case3 wanted rest ih => exact ih h
  | case6 wanted b bytes rest hlt =>
    obtain ⟨c, more, hc⟩ := List.exists_cons_of_ne_nil
      (l := (b :: bytes).drop (wanted + 1)) (by simp; omega)
    refine ⟨.data ((b :: bytes).drop (wanted + 1)) :: rest, ?_, ?_, by rw [hc]; rfl⟩
    · rw [Source.stretch_data, List.take_append_of_le_length (by simp; omega)]
    · rw [Source.stretch_data, List.drop_append_of_le_length (by simp; omega), hc,
        Source.stretch_data]
  | case7 wanted b bytes rest hle more ending rest' hg ih =>
    rw [Source.stretch_data, List.length_append, List.length_cons] at h
    obtain ⟨r, hr, hstretch, hbeyond⟩ := ih (by omega)
    rw [hg] at hr
    obtain ⟨rfl, rfl, rfl⟩ := hr
    have hwanted : wanted.succ = (b :: bytes).length + (wanted - bytes.length) := by
      simp only [List.length_cons]
      omega
    refine ⟨rest', ?_, ?_, hbeyond⟩
    · rw [Source.stretch_data, hwanted, List.take_length_add_append]
    · rw [hstretch, Source.stretch_data, hwanted, List.drop_length_add_append]

/-- If more bytes are wanted than the stretch has, all of it is gathered, its end is seen, and what
    comes after that stays. -/
theorem gather_of_lt {wanted : Nat} {s : Source} (h : s.stretch.bytes.length < wanted) :
    gather wanted s = (s.stretch.bytes, s.stretch.ending, s.beyond) := by
  fun_induction gather wanted s with
  | case1 => simp at h
  | case2 | case4 | case5 => rfl
  | case3 wanted rest ih => exact ih h
  | case6 wanted b bytes rest hlt =>
    simp only [Source.stretch_data, List.length_append, List.length_cons] at h
    omega
  | case7 wanted b bytes rest hle more ending rest' hg ih =>
    rw [Source.stretch_data, List.length_append, List.length_cons] at h
    have := ih (by omega)
    rw [hg] at this
    obtain ⟨rfl, rfl, rfl⟩ := this
    rfl

/-! ## Sizes -/

theorem bigEndian_length (length n : Nat) : (bigEndian length n).length = length := by
  induction length generalizing n with
  | zero => rfl
  | succ length ih => rw [bigEndian, List.length_cons, ih]

theorem foldl_bigEndian {length n : Nat} (h : n < 256 ^ length) (start : Nat) :
    (bigEndian length n).foldl (fun n b => n * 256 + b.toNat) start =
      start * 256 ^ length + n := by
  induction length generalizing n start with
  | zero =>
    rw [pow_zero, Nat.lt_one_iff] at h
    rw [h, bigEndian, List.foldl_nil, pow_zero, Nat.mul_one, Nat.add_zero]
  | succ length ih =>
    have hpos : 0 < 256 ^ length := Nat.pow_pos (by decide)
    have hdigit : n / 256 ^ length < 256 := by
      rw [Nat.div_lt_iff_lt_mul hpos, ← Nat.pow_succ']
      exact h
    have hb : (UInt8.ofNat (n / 256 ^ length)).toNat = n / 256 ^ length := by
      rw [UInt8.toNat_ofNat', Nat.mod_eq_of_lt hdigit]
    rw [bigEndian, Nat.pow_eq, List.foldl_cons, ih (Nat.mod_lt _ hpos), hb]
    calc (start * 256 + n / 256 ^ length) * 256 ^ length + n % 256 ^ length
        = start * 256 ^ (length + 1) + (n / 256 ^ length * 256 ^ length + n % 256 ^ length) := by
          ring
      _ = start * 256 ^ (length + 1) + n := by rw [Nat.div_add_mod']

/-- **A size is read as it was written.** -/
theorem ofBigEndian_bigEndian {n : Nat} (h : n < 2 ^ 64) :
    ofBigEndian (bigEndian sizeLength n) = n := by
  rw [ofBigEndian, sizeLength, foldl_bigEndian (by simpa using h), Nat.zero_mul, Nat.zero_add]

/-! ## Reading a message -/

/-- Why there is no size at the start of a stretch with less than eight bytes, if there is a reason
    at all: a stretch that is empty and did not fail is the end of the stream. -/
def Stretch.sizeFault (r : Stretch) : Result (Option Message) :=
  match r.failure with
  | some message => .error (.unavailable ("failed to read a size: " ++ message))
  | none =>
    if r.bytes = [] then .ok none
    else .error (.unavailable ("failed to read a size: got " ++ toString r.bytes.length ++ " of "
      ++ toString sizeLength ++ " bytes"))

/-- Why a payload of `size` bytes is not there, if there are only `read` of them. -/
def Stretch.payloadFault (r : Stretch) (read size : Nat) : Error :=
  .unavailable (match r.failure with
    | some message => "failed to read complete proto: " ++ message
    | none => "failed to read complete proto. Read " ++ toString read ++ " bytes but wanted "
      ++ toString size)

/-- The first frame of a stretch: what reading a message gives, and the bytes after the frame if all
    of it is there. -/
def Stretch.parse (r : Stretch) : Result (Option Message) × Option (List UInt8) :=
  let size := ofBigEndian (r.bytes.take sizeLength)
  let rest := r.bytes.drop sizeLength
  if r.bytes.length < sizeLength then (r.sizeFault, none)
  else if rest.length < size then (.error (r.payloadFault rest.length size), none)
  else ((decodePayload (rest.take size)).map some, some (rest.drop size))

theorem readSize_of_lt {s : Source} (h : s.stretch.bytes.length < sizeLength) :
    readSize s = (s.stretch.sizeFault.map fun _ => none, s.beyond) := by
  rw [readSize, gather_of_lt h, Stretch.ending, Stretch.sizeFault]
  cases s.stretch.failure with
  | some message => rfl
  | none =>
    cases hb : s.stretch.bytes with
    | nil => rfl
    | cons b bytes => rfl

theorem readSize_of_le {s : Source} (h : sizeLength ≤ s.stretch.bytes.length) :
    ∃ rest, readSize s = (.ok (some (ofBigEndian (s.stretch.bytes.take sizeLength))), rest) ∧
      rest.stretch = ⟨s.stretch.bytes.drop sizeLength, s.stretch.failure⟩ ∧
      rest.beyond = s.beyond := by
  obtain ⟨rest, hg, hrest⟩ := gather_of_le h
  exact ⟨rest, by rw [readSize, hg], hrest⟩

theorem readPayload_of_lt {size : Nat} {s : Source} (h : s.stretch.bytes.length < size) :
    readPayload size s =
      (.error (s.stretch.payloadFault s.stretch.bytes.length size), s.beyond) := by
  rw [readPayload, gather_of_lt h, Stretch.ending, Stretch.payloadFault]
  cases s.stretch.failure <;> rfl

theorem readPayload_of_le {size : Nat} {s : Source} (h : size ≤ s.stretch.bytes.length) :
    ∃ rest, readPayload size s = (.ok (s.stretch.bytes.take size), rest) ∧
      rest.stretch = ⟨s.stretch.bytes.drop size, s.stretch.failure⟩ ∧ rest.beyond = s.beyond := by
  obtain ⟨rest, hg, hrest⟩ := gather_of_le h
  exact ⟨rest, by rw [readPayload, hg], hrest⟩

/-- What is left after a message was read is the rest of the stretch or, if its end was seen, what
    comes after it. -/
def Leaves (s : Source) (tail : Option (List UInt8)) (rest : Source) : Prop :=
  match tail with
  | some bytes => rest.stretch = ⟨bytes, s.stretch.failure⟩ ∧ rest.beyond = s.beyond
  | none => rest = s.beyond

/-- **The reader is the parser of frames.** -/
theorem readMessage_parse (s : Source) :
    (readMessage s).1 = s.stretch.parse.1 ∧ Leaves s s.stretch.parse.2 (readMessage s).2 := by
  rw [Stretch.parse]
  by_cases h : s.stretch.bytes.length < sizeLength
  · rw [if_pos h, readMessage, readSize_of_lt h]
    cases hf : s.stretch.sizeFault with
    | error e => exact ⟨rfl, rfl⟩
    | ok m =>
      obtain rfl : m = none := by
        rw [Stretch.sizeFault] at hf
        split at hf
        · cases hf
        · split at hf <;> cases hf
          rfl
      exact ⟨rfl, rfl⟩
  rw [if_neg h]
  obtain ⟨rest, hsize, hstretch, hbeyond⟩ := readSize_of_le (Nat.le_of_not_lt h)
  simp only [readMessage, hsize]
  by_cases hp : (s.stretch.bytes.drop sizeLength).length <
      ofBigEndian (s.stretch.bytes.take sizeLength)
  · rw [if_pos hp, readPayload_of_lt (by rwa [hstretch]), hstretch]
    exact ⟨rfl, hbeyond⟩
  · have hle : ofBigEndian (s.stretch.bytes.take sizeLength) ≤ rest.stretch.bytes.length := by
      rw [hstretch]
      exact Nat.le_of_not_lt hp
    obtain ⟨rest', hpayload, hstretch', hbeyond'⟩ := readPayload_of_le hle
    rw [hstretch] at hpayload hstretch'
    rw [if_neg hp, hpayload]
    exact ⟨rfl, hstretch', hbeyond'.trans hbeyond⟩

/-- A whole frame. -/
theorem Stretch.parse_whole {r : Stretch} {size payload tail : List UInt8}
    (hr : r.bytes = size ++ (payload ++ tail)) (hsize : size.length = sizeLength)
    (hpayload : payload.length = ofBigEndian size) :
    r.parse = ((decodePayload payload).map some, some tail) := by
  have htake : r.bytes.take sizeLength = size := by rw [hr, ← hsize, List.take_left]
  have hdrop : r.bytes.drop sizeLength = payload ++ tail := by rw [hr, ← hsize, List.drop_left]
  rw [parse, htake, hdrop, if_neg (by simp [hr, hsize]), if_neg (by simp [hpayload]), ← hpayload,
    List.take_left, List.drop_left]

/-- A frame that is not whole. It is the end of the stream only if the stretch is empty and did not
    fail. -/
theorem Stretch.parse_short {r : Stretch}
    (h : r.bytes.length < sizeLength + ofBigEndian (r.bytes.take sizeLength)) :
    r.parse.2 = none ∧
      ((r = ⟨[], none⟩ ∧ r.parse.1 = .ok none) ∨
        r ≠ ⟨[], none⟩ ∧ ∃ text, r.parse.1 = .error (.unavailable text)) := by
  obtain ⟨bytes, failure⟩ := r
  rw [parse]
  by_cases hs : bytes.length < sizeLength
  · rw [if_pos hs]
    refine ⟨rfl, ?_⟩
    cases failure with
    | some message => exact Or.inr ⟨by simp, _, rfl⟩
    | none =>
      by_cases hb : bytes = []
      · exact Or.inl ⟨by rw [hb], if_pos hb⟩
      · exact Or.inr ⟨by simpa using hb, _, if_neg hb⟩
  · have hp : (bytes.drop sizeLength).length < ofBigEndian (bytes.take sizeLength) := by
      rw [List.length_drop]
      simp only at h
      omega
    rw [if_neg hs, if_pos hp]
    refine ⟨rfl, Or.inr ⟨?_, _, rfl⟩⟩
    rintro ⟨⟩
    exact hs (by decide)

/-! ## Successive messages -/

/-- The results of the next calls, and what is left of the source. -/
def readMessages : (calls : Nat) → Source → List (Result (Option Message)) × Source
  | 0, s => ([], s)
  | calls + 1, s =>
    let (r, s) := readMessage s
    let (rs, s) := readMessages calls s
    (r :: rs, s)

theorem readMessages_succ (calls : Nat) (s : Source) :
    readMessages (calls + 1) s =
      ((readMessage s).1 :: (readMessages calls (readMessage s).2).1,
        (readMessages calls (readMessage s).2).2) := rfl

/-- The stretches of a source, one after the other. -/
def Source.stretches : Source → Nat → Stretch
  | s, 0 => s.stretch
  | s, k + 1 => s.beyond.stretches k

/-- Sources that give the same bytes between the same ends and failures, in whatever pieces. -/
def Alike (s t : Source) : Prop := ∀ k, s.stretches k = t.stretches k

theorem Alike.stretch {s t : Source} (h : Alike s t) : s.stretch = t.stretch := h 0

theorem Alike.beyond {s t : Source} (h : Alike s t) : Alike s.beyond t.beyond :=
  fun k => h (k + 1)

theorem Alike.of_stretch {s t : Source} (h : s.stretch = t.stretch)
    (hb : Alike s.beyond t.beyond) : Alike s t
  | 0 => h
  | k + 1 => hb k

theorem Alike.leaves {s t rest rest' : Source} {tail : Option (List UInt8)} (h : Alike s t)
    (hs : Leaves s tail rest) (ht : Leaves t tail rest') : Alike rest rest' := by
  cases tail with
  | some bytes =>
    refine .of_stretch (by rw [hs.1, ht.1, h.stretch]) ?_
    rw [hs.2, ht.2]
    exact h.beyond
  | none =>
    rw [Leaves] at hs ht
    rw [hs, ht]
    exact h.beyond

/-- Like sources give the same results in every call. -/
theorem Alike.readMessages {s t : Source} (h : Alike s t) (calls : Nat) :
    (readMessages calls s).1 = (readMessages calls t).1 := by
  induction calls generalizing s t with
  | zero => rfl
  | succ calls ih =>
    obtain ⟨hs, hls⟩ := readMessage_parse s
    obtain ⟨ht, hlt⟩ := readMessage_parse t
    rw [← h.stretch] at ht hlt
    rw [readMessages_succ, readMessages_succ, hs, ht, ih (h.leaves hls hlt)]

/-- Pieces and interruptions make no difference. -/
theorem alike_pieces {pieces pieces' : List Chunk} (h : ∀ c ∈ pieces, c.GoesOn)
    (h' : ∀ c ∈ pieces', c.GoesOn)
    (hbytes : pieces.flatMap Chunk.bytes = pieces'.flatMap Chunk.bytes) (s : Source) :
    Alike (pieces ++ s) (pieces' ++ s) := by
  refine .of_stretch ?_ ?_
  · rw [Source.stretch_pieces h, Source.stretch_pieces h', hbytes]
  · rw [Source.beyond_pieces h, Source.beyond_pieces h']
    exact fun k => rfl

/-! ## The reader refines the parser -/

/-- What can be said of reading from a source, whatever it gives. -/
structure RefinesParser (s : Source) : Prop where
  /-- A call gives what the parser gives for the first stretch, and leaves what it leaves. -/
  parses : (readMessage s).1 = s.stretch.parse.1 ∧ Leaves s s.stretch.parse.2 (readMessage s).2
  /-- Its result depends on nothing after the first end or failure. -/
  stretch_only (t : Source) : t.stretch = s.stretch → (readMessage t).1 = (readMessage s).1
  /-- The results of all calls depend on the stretches alone. -/
  alike (t : Source) : Alike t s → ∀ calls, (readMessages calls t).1 = (readMessages calls s).1
  /-- Neither pieces nor interruptions make a difference. -/
  pieces (ps qs : List Chunk) : (∀ c ∈ ps, c.GoesOn) → (∀ c ∈ qs, c.GoesOn) →
    ps.flatMap Chunk.bytes = qs.flatMap Chunk.bytes →
    ∀ calls, (readMessages calls (ps ++ s)).1 = (readMessages calls (qs ++ s)).1
  /-- A whole frame is consumed and nothing of what follows it; its payload is decoded or found
      corrupt. -/
  whole (size payload tail : List UInt8) : s.stretch.bytes = size ++ (payload ++ tail) →
    size.length = 8 → payload.length = ofBigEndian size →
    ((∃ m, Message.decode payload = .ok m ∧ (readMessage s).1 = .ok (some m)) ∨
      ∃ e text, Message.decode payload = .error e ∧ (readMessage s).1 = .error (.corrupt text)) ∧
    (readMessage s).2.stretch = ⟨tail, s.stretch.failure⟩ ∧ (readMessage s).2.beyond = s.beyond
  /-- Later calls go on as if the frame, corrupt or not, had not been there. -/
  skipped (size payload tail : List UInt8) : s.stretch.bytes = size ++ (payload ++ tail) →
    size.length = 8 → payload.length = ofBigEndian size →
    ∀ t : Source, t.stretch = ⟨tail, s.stretch.failure⟩ → t.beyond = s.beyond →
      ∀ calls, (readMessages calls (readMessage s).2).1 = (readMessages calls t).1
  /-- A size or payload that is not whole makes the stream unavailable, unless it is the clean end.
      All that was there is consumed. -/
  short : s.stretch.bytes.length < 8 + ofBigEndian (s.stretch.bytes.take 8) →
    (readMessage s).2 = s.beyond ∧ (s.stretch ≠ ⟨[], none⟩ →
      ∃ text, (readMessage s).1 = .error (.unavailable text))
  /-- The clean end is an end before any byte, not a failure. -/
  clean_end : (readMessage s).1 = .ok none ↔ s.stretch = ⟨[], none⟩

theorem decodePayload_map_some (payload : List UInt8) :
    (∃ m, Message.decode payload = .ok m ∧ (decodePayload payload).map some = .ok (some m)) ∨
      ∃ e text, Message.decode payload = .error e ∧
        (decodePayload payload).map some = .error (.corrupt text) := by
  rw [decodePayload]
  cases Message.decode payload with
  | ok m => exact Or.inl ⟨m, rfl, rfl⟩
  | error e => exact Or.inr ⟨e, _, rfl, rfl⟩

theorem Stretch.parse_eq_none_iff {r : Stretch} : r.parse.1 = .ok none ↔ r = ⟨[], none⟩ := by
  by_cases h : r.bytes.length < sizeLength + ofBigEndian (r.bytes.take sizeLength)
  · obtain ⟨-, ⟨hr, hp⟩ | ⟨hr, text, hp⟩⟩ := parse_short h
    · exact iff_of_true hp hr
    · exact iff_of_false (by simp [hp]) hr
  · refine iff_of_false (fun hp => ?_) (fun hr => h (by rw [hr]; decide))
    rw [parse, if_neg (by omega), if_neg (by rw [List.length_drop]; omega)] at hp
    obtain ⟨m, -, hm⟩ | ⟨e, text, -, hm⟩ := decodePayload_map_some
      ((r.bytes.drop sizeLength).take (ofBigEndian (r.bytes.take sizeLength)))
    · cases hm.symm.trans hp
    · cases hm.symm.trans hp

/-- **Reading messages refines the parser of frames**, on every source. -/
theorem readMessage_refines (s : Source) : RefinesParser s := by
  obtain ⟨hresult, hleaves⟩ := readMessage_parse s
  have hwhole : ∀ {size payload tail : List UInt8}, s.stretch.bytes = size ++ (payload ++ tail) →
      size.length = 8 → payload.length = ofBigEndian size →
      (readMessage s).1 = (decodePayload payload).map some ∧
        (readMessage s).2.stretch = ⟨tail, s.stretch.failure⟩ ∧
        (readMessage s).2.beyond = s.beyond := by
    intro size payload tail hs hsize hpayload
    have hp := Stretch.parse_whole hs hsize hpayload
    rw [hp] at hresult hleaves
    exact ⟨hresult, hleaves⟩
  refine
    { parses := ⟨hresult, hleaves⟩
      stretch_only := fun t h => ?_
      alike := fun t h => h.readMessages
      pieces := fun ps qs h h' hb => (alike_pieces h h' hb s).readMessages
      whole := fun size payload tail hs hsize hpayload => ?_
      skipped := fun size payload tail hs hsize hpayload t ht hb => ?_
      short := fun h => ?_
      clean_end := ?_ }
  · rw [hresult, (readMessage_parse t).1, h]
  · obtain ⟨hr, hrest⟩ := hwhole hs hsize hpayload
    rw [hr]
    exact ⟨decodePayload_map_some payload, hrest⟩
  · obtain ⟨-, hstretch, hbeyond⟩ := hwhole hs hsize hpayload
    refine (Alike.of_stretch (hstretch.trans ht.symm) ?_).readMessages
    rw [hbeyond, hb]
    exact fun k => rfl
  · obtain ⟨hnone, hp⟩ := Stretch.parse_short h
    rw [hnone] at hleaves
    refine ⟨hleaves, fun hne => ?_⟩
    obtain ⟨hr, -⟩ | ⟨-, text, hp⟩ := hp
    · exact absurd hr hne
    · exact ⟨text, hresult.trans hp⟩
  · rw [hresult, Stretch.parse_eq_none_iff]

end Reimage.Crash
