/-
  Streams of frames that are cut anywhere.

  What a reader gets of a stream are the messages whose frames came whole, unchanged and in order.
  After them it finds the clean end if the cut was between two frames, and that the stream is
  unavailable otherwise.

  * `readMessage_frame`: a message is read from its frame, and what follows is left;
  * `framesWithin`: how many frames lie within the first bytes of a stream;
  * `readMessages_cut`: the reader on a stream that was cut.
-/
import Reimage.Proofs.Crash.Frame
import Reimage.Proofs.Crash.Message

namespace Reimage.Crash

/-! ## Frames -/

/-- The bytes of a stream of messages. -/
def streamOf (ms : List Message) : List UInt8 := ms.flatMap Message.frame

theorem Message.length_frame (m : Message) :
    m.frame.length = sizeLength + m.encode.length := by
  rw [frame, List.length_append, bigEndian_length]

/-- The size in front of a frame that was cut behind it is the size of the whole payload. -/
theorem Message.ofBigEndian_take_frame {m : Message} (hm : m.encode.length < 2 ^ 64) {n : Nat}
    (hn : sizeLength ≤ n) :
    ofBigEndian ((m.frame.take n).take sizeLength) = m.encode.length := by
  rw [List.take_take, Nat.min_eq_left hn, frame,
    List.take_left' (bigEndian_length sizeLength _), ofBigEndian_bigEndian hm]

/-- A frame that was cut is not whole. -/
theorem Message.short_take_frame {m : Message} (hm : m.encode.length < 2 ^ 64) {n : Nat}
    (hn : n < m.frame.length) : (m.frame.take n).length <
      sizeLength + ofBigEndian ((m.frame.take n).take sizeLength) := by
  rw [List.length_take, Nat.min_eq_left hn.le]
  by_cases h : sizeLength ≤ n
  · rwa [ofBigEndian_take_frame hm h, ← length_frame]
  · omega

/-- A message is read from its frame. -/
theorem readMessage_frame {m : Message} (hm : m.encode.length < 2 ^ 64) {s : Source}
    {tail : List UInt8} {failure : Option String} (hs : s.stretch = ⟨m.frame ++ tail, failure⟩) :
    (readMessage s).1 = .ok (some m) ∧ (readMessage s).2.stretch = ⟨tail, failure⟩ := by
  obtain ⟨hresult, hleaves⟩ := readMessage_parse s
  have hp : s.stretch.parse = ((decodePayload m.encode).map some, some tail) :=
    Stretch.parse_whole (by rw [hs, Message.frame, List.append_assoc])
      (bigEndian_length sizeLength _) (ofBigEndian_bigEndian hm).symm
  rw [hp] at hresult hleaves
  rw [decodePayload, m.decode_encode hm] at hresult
  rw [Leaves, hs] at hleaves
  exact ⟨hresult, hleaves.1⟩

/-! ## Cut streams -/

/-- How many frames of a stream lie within its first `n` bytes. -/
def framesWithin : (n : Nat) → List Message → Nat
  | _, [] => 0
  | n, m :: ms => if m.frame.length ≤ n then framesWithin (n - m.frame.length) ms + 1 else 0

theorem length_streamOf_cons (m : Message) (ms : List Message) :
    (streamOf (m :: ms)).length = m.frame.length + (streamOf ms).length := by
  rw [streamOf, List.flatMap_cons, List.length_append, ← streamOf]

theorem framesWithin_le_length (n : Nat) (ms : List Message) : framesWithin n ms ≤ ms.length := by
  fun_induction framesWithin n ms with
  | case1 => exact le_refl _
  | case2 n m ms h ih => exact Nat.succ_le_succ ih
  | case3 => exact Nat.zero_le _

/-- The first frames that lie within `n` bytes are those that `framesWithin` counts. -/
theorem length_streamOf_take_le_iff {n j : Nat} {ms : List Message} (hj : j ≤ ms.length) :
    (streamOf (ms.take j)).length ≤ n ↔ j ≤ framesWithin n ms := by
  induction ms generalizing n j with
  | nil =>
    obtain rfl : j = 0 := Nat.le_zero.1 hj
    simp [streamOf]
  | cons m ms ih =>
    cases j with
    | zero => simp [streamOf]
    | succ j =>
      rw [List.take_succ_cons, length_streamOf_cons, framesWithin]
      split
      · rw [Nat.succ_le_succ_iff, ← ih (Nat.le_of_succ_le_succ hj)]
        omega
      · omega

/-- What comes after the messages that were read from a cut stream. -/
def CutEnd (ms : List Message) (n : Nat) (r : Result (Option Message)) : Prop :=
  ((∃ j ≤ ms.length, n = (streamOf (ms.take j)).length) → r = .ok none) ∧
    ((¬ ∃ j ≤ ms.length, n = (streamOf (ms.take j)).length) →
      ∃ text, r = .error (.unavailable text))

theorem CutEnd.cons {m : Message} {ms : List Message} {n : Nat} {r : Result (Option Message)}
    (h : CutEnd ms n r) : CutEnd (m :: ms) (m.frame.length + n) r := by
  have hiff : (∃ j ≤ (m :: ms).length, m.frame.length + n =
      (streamOf ((m :: ms).take j)).length) ↔
      ∃ j ≤ ms.length, n = (streamOf (ms.take j)).length := by
    constructor
    · rintro ⟨_ | j, hj, hn⟩
      · rw [List.take_zero, streamOf, List.flatMap_nil, List.length_nil, Message.length_frame] at hn
        exact absurd hn (by simp [sizeLength])
      · rw [List.take_succ_cons, length_streamOf_cons] at hn
        exact ⟨j, Nat.le_of_succ_le_succ hj, by omega⟩
    · rintro ⟨j, hj, rfl⟩
      exact ⟨j + 1, Nat.succ_le_succ hj, by rw [List.take_succ_cons, length_streamOf_cons]⟩
  rwa [CutEnd, hiff]

/-- Nothing was read from a stream that was cut in its first frame. -/
theorem CutEnd.first {m : Message} {ms : List Message} (hm : m.encode.length < 2 ^ 64) {n : Nat}
    (hn : n < m.frame.length) {s : Source} (hs : s.stretch = ⟨m.frame.take n, none⟩) :
    CutEnd (m :: ms) n (readMessage s).1 := by
  have hshort := Stretch.parse_short (r := s.stretch) (by rw [hs]; exact m.short_take_frame hm hn)
  rw [(readMessage_parse s).1]
  have hbound : (∃ j ≤ (m :: ms).length, n = (streamOf ((m :: ms).take j)).length) ↔ n = 0 := by
    constructor
    · rintro ⟨_ | j, -, rfl⟩
      · rfl
      · rw [List.take_succ_cons, length_streamOf_cons] at hn
        omega
    · rintro rfl
      exact ⟨0, Nat.zero_le _, rfl⟩
  have hempty : s.stretch = ⟨[], none⟩ ↔ n = 0 := by
    have hlen : 0 < m.frame.length := Nat.zero_lt_of_lt hn
    rw [hs, Stretch.mk.injEq, List.take_eq_nil_iff, and_iff_left rfl]
    refine or_iff_left fun h => ?_
    rw [h, List.length_nil] at hlen
    exact absurd hlen (Nat.lt_irrefl 0)
  rw [CutEnd, hbound, ← hempty]
  obtain ⟨-, ⟨hr, hp⟩ | ⟨hr, hp⟩⟩ := hshort
  · exact ⟨fun _ => hp, fun h => absurd hr h⟩
  · exact ⟨fun h => absurd h hr, fun _ => hp⟩

/-- The induction is on the messages: each whole frame is read and leaves a cut stream of the
    others. -/
theorem readMessages_of_stretch {ms : List Message} (hms : ∀ m ∈ ms, m.encode.length < 2 ^ 64)
    {n : Nat} (hn : n ≤ (streamOf ms).length) {s : Source}
    (hs : s.stretch = ⟨(streamOf ms).take n, none⟩) :
    ∃ s', readMessages (framesWithin n ms) s =
        ((ms.take (framesWithin n ms)).map fun m => .ok (some m), s') ∧
      CutEnd ms n (readMessage s').1 := by
  induction ms generalizing n s with
  | nil =>
    obtain rfl : n = 0 := Nat.le_zero.1 hn
    refine ⟨s, rfl, fun _ => ?_, fun h => absurd ⟨0, le_refl _, rfl⟩ h⟩
    rw [(readMessage_parse s).1, hs]
    rfl
  | cons m ms ih =>
    obtain ⟨hm, hms⟩ := List.forall_mem_cons.1 hms
    rw [length_streamOf_cons] at hn
    rw [streamOf, List.flatMap_cons, ← streamOf] at hs
    rw [framesWithin]
    split
    · rename_i hle
      rw [List.take_append, List.take_of_length_le hle] at hs
      obtain ⟨hread, hrest⟩ := readMessage_frame hm hs
      obtain ⟨s', hreads, hend⟩ := ih hms (by omega) hrest
      refine ⟨s', ?_, ?_⟩
      · rw [readMessages_succ, hreads, hread, List.take_succ_cons, List.map_cons]
      · rw [show n = m.frame.length + (n - m.frame.length) by omega]
        exact hend.cons
    · rename_i hlt
      rw [List.take_append_of_le_length (by omega)] at hs
      exact ⟨s, rfl, .first hm (by omega) hs⟩

/-- **No message is lost and no cut one delivered.** A stream of messages, whose encodings are short
    enough for the eight bytes of a size, was cut after `n` bytes and comes in any pieces, with
    interruptions between them, and then ends. The reader gives the messages whose frames lie within
    the `n` bytes, and after them the clean end if the cut is the end of a frame, and that the stream
    is unavailable if not. -/
theorem readMessages_cut {ms : List Message} (hms : ∀ m ∈ ms, m.encode.length < 2 ^ 64)
    {n : Nat} (hn : n ≤ (ms.flatMap Message.frame).length) {pieces rest : List Chunk}
    (hpieces : ∀ c ∈ pieces, c.GoesOn)
    (hbytes : pieces.flatMap Chunk.bytes = (ms.flatMap Message.frame).take n)
    (hrest : rest = [] ∨ ∃ after, rest = .data [] :: after) :
    ∃ k ≤ ms.length,
      (∀ j ≤ ms.length, ((ms.take j).flatMap Message.frame).length ≤ n ↔ j ≤ k) ∧
      ∃ s, readMessages k (pieces ++ rest) = ((ms.take k).map fun m => .ok (some m), s) ∧
        ((∃ j ≤ ms.length, n = ((ms.take j).flatMap Message.frame).length) →
          (readMessage s).1 = .ok none) ∧
        ((¬ ∃ j ≤ ms.length, n = ((ms.take j).flatMap Message.frame).length) →
          ∃ text, (readMessage s).1 = .error (.unavailable text)) := by
  have hs : Source.stretch (pieces ++ rest) = ⟨(streamOf ms).take n, none⟩ := by
    rw [Source.stretch_pieces hpieces, hbytes]
    obtain rfl | ⟨after, rfl⟩ := hrest
    · rw [Source.stretch_nil, List.append_nil]
      rfl
    · rw [Source.stretch_end, List.append_nil]
      rfl
  obtain ⟨s, hreads, hend⟩ := readMessages_of_stretch hms hn hs
  exact ⟨framesWithin n ms, framesWithin_le_length n ms,
    fun j hj => length_streamOf_take_le_iff hj, s, hreads, hend⟩

/-- Messages with a nested one, without a payload, and with bytes. -/
def sampleMessages : List Message :=
  [{ crashId := -7, payload := some (.crash { execName := "cat", remarks := [⟨"a", "é"⟩] }) },
    { crashId := 2 }, { payload := some (.core { filename := "core", blob := [1, 2] }) }]

/-- All of the first two frames of `sampleMessages` and three bytes of the third, in pieces. -/
def samplePieces : List Chunk :=
  let bytes := (sampleMessages.flatMap Message.frame).take 48
  [.data (bytes.take 5), .interrupted, .data ((bytes.drop 5).take 38), .interrupted, .interrupted,
    .data (bytes.drop 43)]

theorem readMessages_cut_sample :
    ∃ s, readMessages 2 (samplePieces ++ [.data []]) =
        ((sampleMessages.take 2).map fun m => .ok (some m), s) ∧
      ∃ text, (readMessage s).1 = .error (.unavailable text) := by
  have hms : ∀ m ∈ sampleMessages, m.encode.length < 2 ^ 64 := by decide +kernel
  have hpieces : ∀ c ∈ samplePieces, c.GoesOn := by decide +kernel
  have hbytes : samplePieces.flatMap Chunk.bytes =
    (sampleMessages.flatMap Message.frame).take 48 := by decide +kernel
  have hrest : [Chunk.data []] = [] ∨ ∃ after, [Chunk.data []] = .data [] :: after :=
    Or.inr ⟨[], rfl⟩
  obtain ⟨k, -, hk, s, hreads, -, hcut⟩ :=
    readMessages_cut hms (by decide +kernel) hpieces hbytes hrest
  have h₂ := (hk 2 (by decide)).1 (by decide +kernel)
  have h₃ := mt (hk 3 (by decide)).2 (by decide +kernel)
  obtain rfl : k = 2 := by omega
  exact ⟨s, hreads, hcut (by decide +kernel)⟩

end Reimage.Crash
