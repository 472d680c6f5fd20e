/-
  Handing the messages of a stream to a receiver.

  The bytes of the first stretch decide what there is to deliver: the messages of its longest prefix
  of whole frames that decode. The receiver is handed these one by one, up to the first that it
  refuses.

  * `Framed`: the messages of the first frames of some bytes; `Framed.isPrefix`: there is a longest
    such list;
  * `Stretch.parse_cases`: how a stretch goes on where no such frame comes next;
  * `deliver_eq_offer`: in every monad, to deliver a stream is to offer these messages;
  * `collect_delivers`: what that gives for a receiver with a state.
-/
import Reimage.Proofs.Crash.Frame

namespace Reimage.Crash

/-! ## The frames at the beginning of some bytes -/

/-- `ms` are the messages of the first frames of `bytes`, and `rest` is what follows them. -/
inductive Framed : (bytes : List UInt8) → (ms : List Message) → (rest : List UInt8) → Prop
  | nil (bytes : List UInt8) : Framed bytes [] bytes
  | cons {size payload tail rest : List UInt8} {m : Message} {ms : List Message} :
    size.length = sizeLength → payload.length = ofBigEndian size →
    Message.decode payload = .ok m → Framed tail ms rest →
    Framed (size ++ (payload ++ tail)) (m :: ms) rest

/-- The bytes do not begin with a whole frame that decodes. -/
def Unframed (bytes : List UInt8) : Prop := ∀ m rest, ¬ Framed bytes [m] rest

/-- A frame at the beginning of some bytes. -/
theorem framed_one {bytes rest : List UInt8} {m : Message} :
    Framed bytes [m] rest ↔ ∃ size payload, bytes = size ++ (payload ++ rest) ∧
      size.length = sizeLength ∧ payload.length = ofBigEndian size ∧
      Message.decode payload = .ok m := by
  constructor
  · intro h
    cases h with
    | @cons size payload _ _ _ _ hs hp hm ht =>
      cases ht
      exact ⟨size, payload, rfl, hs, hp, hm⟩
  · rintro ⟨size, payload, rfl, hs, hp, hm⟩
    exact .cons hs hp hm (.nil rest)

/-- A frame ends where its size says. -/
theorem frame_unique {size size' payload payload' tail tail' : List UInt8}
    (h : size ++ (payload ++ tail) = size' ++ (payload' ++ tail'))
    (hs : size.length = sizeLength) (hs' : size'.length = sizeLength)
    (hp : payload.length = ofBigEndian size) (hp' : payload'.length = ofBigEndian size') :
    payload = payload' ∧ tail = tail' := by
  obtain ⟨rfl, htail⟩ := List.append_inj h (hs.trans hs'.symm)
  exact List.append_inj htail (hp.trans hp'.symm)

/-- Frames that cannot be continued are the longest prefix of frames. -/
theorem Framed.isPrefix {bytes rest rest' : List UInt8} {ms ms' : List Message}
    (h : Framed bytes ms rest) (h' : Framed bytes ms' rest') (hr : Unframed rest) :
    ms' <+: ms := by
  induction h generalizing ms' with
  | nil bytes =>
    cases h' with
    | nil => exact List.nil_prefix
    | cons hs hp hm ht => exact absurd (.cons hs hp hm (.nil _)) (hr _ _)
  | @cons size payload tail rest m ms hs hp hm _ ih =>
    generalize hb : size ++ (payload ++ tail) = bytes at h'
    cases h' with
    | nil => exact List.nil_prefix
    | cons hs' hp' hm' ht' =>
      obtain ⟨rfl, rfl⟩ := frame_unique hb hs hs' hp hp'
      cases hm.symm.trans hm'
      exact (List.prefix_cons_inj _).2 (ih ht' hr)

/-- Some bytes are frames up to a point where no further one comes. -/
theorem exists_framed (bytes : List UInt8) : ∃ ms rest, Framed bytes ms rest ∧ Unframed rest := by
  -- The induction is on the number of bytes: a frame has at least its size.
  induction hn : bytes.length using Nat.strongRecOn generalizing bytes with
  | ind n ih =>
    by_cases h : Unframed bytes
    · exact ⟨[], bytes, .nil bytes, h⟩
    · simp only [Unframed, not_forall, not_not] at h
      obtain ⟨m, tail, h⟩ := h
      obtain ⟨size, payload, rfl, hs, hp, hm⟩ := framed_one.1 h
      have hlt : tail.length < n := by
        simp only [List.length_append, hs, sizeLength] at hn
        omega
      obtain ⟨ms, rest, hf, hr⟩ := ih _ hlt tail rfl
      exact ⟨m :: ms, rest, .cons hs hp hm hf, hr⟩

/-- How a stretch goes on: it is over, or it breaks off within a frame or by a failure, or a whole
    frame comes next. -/
theorem Stretch.parse_cases (r : Stretch) :
    (r = ⟨[], none⟩ ∧ r.parse = (.ok none, none)) ∨
    (r ≠ ⟨[], none⟩ ∧ ∃ text, r.parse = (.error (.unavailable text), none)) ∨
    ∃ size payload tail, r.bytes = size ++ (payload ++ tail) ∧ size.length = sizeLength ∧
      payload.length = ofBigEndian size ∧
      r.parse = ((decodePayload payload).map some, some tail) := by
  by_cases h : r.bytes.length < sizeLength + ofBigEndian (r.bytes.take sizeLength)
  · obtain ⟨hnone, ⟨hr, hp⟩ | ⟨hr, text, hp⟩⟩ := parse_short h
    · exact Or.inl ⟨hr, Prod.ext hp hnone⟩
    · exact Or.inr (Or.inl ⟨hr, text, Prod.ext hp hnone⟩)
  · have hlen : sizeLength ≤ r.bytes.length := by omega
    have hbytes : r.bytes = r.bytes.take sizeLength ++
        ((r.bytes.drop sizeLength).take (ofBigEndian (r.bytes.take sizeLength)) ++
          (r.bytes.drop sizeLength).drop (ofBigEndian (r.bytes.take sizeLength))) := by
      rw [List.take_append_drop, List.take_append_drop]
    have hs : (r.bytes.take sizeLength).length = sizeLength := by simpa using hlen
    have hp : ((r.bytes.drop sizeLength).take (ofBigEndian (r.bytes.take sizeLength))).length =
        ofBigEndian (r.bytes.take sizeLength) := by
      simp only [List.length_take, List.length_drop]
      omega
    exact Or.inr (Or.inr ⟨_, _, _, hbytes, hs, hp, parse_whole hbytes hs hp⟩)

/-- Where no frame with a message comes next, the parser finds none. -/
theorem Stretch.parse_ne_some {r : Stretch} (h : Unframed r.bytes) (m : Message) :
    r.parse.1 ≠ .ok (some m) := by
  intro hm
  obtain ⟨-, hp⟩ | ⟨-, text, hp⟩ | ⟨size, payload, tail, hr, hs, hpay, hp⟩ := r.parse_cases
  · simp [hp] at hm
  · simp [hp] at hm
  · rw [hp, decodePayload] at hm
    cases hd : Message.decode payload with
    | error e => simp [hd, Except.map] at hm
    | ok m' => exact h m' tail (framed_one.2 ⟨size, payload, hr, hs, hpay, hd⟩)

/-! ## Offering messages -/

/-- Hands messages to a receiver, one after the other, until it refuses one. Gives the reason if it
    does. -/
def offer {m : Type → Type} [Monad m] (receive : Message → m (Result Unit)) :
    List Message → m (Option Error)
  | [] => pure none
  | msg :: ms => do
    match ← receive msg with
    | .ok () => offer receive ms
    | .error e => pure (some e)

/-- The outcome of a delivery, and what is left of the stream, of which `after` comes after the
    stretch. If the receiver has refused nothing, it has taken `count` messages, and the parser says
    how the stretch `r` goes on behind these. After an error the stream is read to an end: that of
    the stretch, or the next one if that was seen already. -/
def verdict (r : Stretch) (after : Source) (count : Nat) : Option Error → Result Nat × Source
  | some e => (.error e, after)
  | none =>
    match r.parse with
    | (.ok _, _) => (.ok count, after)
    | (.error e, some _) => (.error e, after)
    | (.error e, none) => (.error e, after.beyond)

theorem exhaust_eq_beyond (s : Source) : exhaust s = s.beyond := by
  fun_induction exhaust s with
  | case1 => rfl
  | case2 => rfl
  | case3 b bytes rest ih => rw [ih, Source.beyond_data]
  | case4 rest ih => rw [ih, Source.beyond_interrupted]
  | case5 => rfl

section

variable {m : Type → Type} [Monad m] {receive : Message → m (Result Unit)}

/-- Delivering a stream that begins with no frame that decodes. -/
theorem deliverFrom_unframed {fuel count : Nat} {source : Source}
    (hr : Unframed source.stretch.bytes) : deliverFrom receive (fuel + 1) count source =
      pure (verdict source.stretch source.beyond count none) := by
  obtain ⟨hresult, hleaves⟩ := readMessage_parse source
  rcases hread : readMessage source with ⟨result, rest⟩
  rw [hread] at hresult hleaves
  rcases hparse : source.stretch.parse with ⟨parsed, tail⟩
  have hnone := Stretch.parse_ne_some hr
  rw [hparse] at hresult hleaves hnone
  simp only at hresult
  subst hresult
  rw [deliverFrom, hread, verdict, hparse]
  match result, tail with
  | .ok (some msg), _ => exact absurd rfl (hnone msg)
  | .error e, some bytes => simp only [exhaust_eq_beyond, hleaves.2]
  | .error e, none => simp only [exhaust_eq_beyond, show rest = source.beyond from hleaves]
  | .ok none, none => simp only [show rest = source.beyond from hleaves]
  | .ok none, some bytes =>
    have := Stretch.parse_eq_none_iff.1 (congrArg Prod.fst hparse)
    rw [this] at hparse
    cases hparse

variable [LawfulMonad m]

/-- Delivering a stream is to offer the messages of its frames. The induction is on these; each of
    them takes bytes, so the fuel lasts. -/
theorem deliverFrom_framed {fuel count : Nat} {source : Source} {bytes rest : List UInt8}
    {ms : List Message} (h : Framed bytes ms rest) (hbytes : source.stretch.bytes = bytes)
    (hr : Unframed rest) (hfuel : bytes.length < fuel) :
    deliverFrom receive fuel count source =
      verdict ⟨rest, source.stretch.failure⟩ source.beyond (count + ms.length) <$>
        offer receive ms := by
  obtain ⟨fuel, rfl⟩ : ∃ n, fuel = n + 1 := ⟨fuel - 1, by omega⟩
  induction h generalizing fuel count source with
  | nil bytes =>
    subst hbytes
    rw [deliverFrom_unframed hr, offer, map_pure]
    rfl
  | @cons size payload tail rest msg ms hs hp hm _ ih =>
    obtain ⟨hresult, hstretch, hbeyond⟩ := (readMessage_refines source).whole size payload tail
      hbytes hs hp
    have hread : (readMessage source).1 = .ok (some msg) := by
      obtain ⟨m', hm', hread⟩ | ⟨e, text, he, -⟩ := hresult
      · cases hm.symm.trans hm'
        exact hread
      · cases hm.symm.trans he
    rcases hsource : readMessage source with ⟨result, left⟩
    rw [hsource] at hread hstretch hbeyond
    simp only at hread hstretch hbeyond
    subst hread
    obtain ⟨fuel, rfl⟩ : ∃ n, fuel = n + 1 := ⟨fuel - 1, by
      simp only [List.length_append, hs, sizeLength] at hfuel
      omega⟩
    have hrest : deliverFrom receive (fuel + 1) (count + 1) left = _ :=
      ih (by rw [hstretch]) hr fuel (by
        simp only [List.length_append, hs, sizeLength] at hfuel
        omega)
    rw [deliverFrom, hsource, offer, map_bind]
    refine bind_congr fun taken => ?_
    cases taken with
    | error e => simp [exhaust_eq_beyond, hbeyond, verdict]
    | ok =>
      simp only
      rw [hrest, hstretch, hbeyond, List.length_cons, Nat.add_right_comm, Nat.add_assoc count]

/-- A source holds fewer bytes than its bound. -/
theorem Source.length_stretch_lt (source : Source) :
    source.stretch.bytes.length < source.messageBound := by
  induction source with
  | nil => simp [messageBound]
  | cons c source ih =>
    match c with
    | .data [] => simp [messageBound]
    | .data (b :: bytes) =>
      simp only [stretch_data, messageBound, List.foldr_cons, List.length_append] at ih ⊢
      omega
    | .interrupted =>
      simp only [stretch_interrupted, messageBound, List.foldr_cons] at ih ⊢
      omega
    | .failure message => simp [messageBound]

/-- **To deliver a stream is to offer the messages of its frames**, in every monad. -/
theorem deliver_eq_offer {source : Source} {rest : List UInt8} {ms : List Message}
    (h : Framed source.stretch.bytes ms rest) (hr : Unframed rest) :
    deliver receive source =
      verdict ⟨rest, source.stretch.failure⟩ source.beyond ms.length <$> offer receive ms := by
  rw [deliver, deliverFrom_framed h rfl hr source.length_stretch_lt, Nat.zero_add]

end

/-! ## Receivers with a state -/

section

variable {σ : Type} (receive : Message → StateM σ (Result Unit))

/-- The receiver with a list of what it was handed. -/
def noted (msg : Message) : StateM (σ × List Message) (Result Unit) := do
  let (s, handed) ← get
  let (result, s') := (receive msg).run s
  set (s', handed ++ [msg])
  return result

/-- The receiver takes all of `ms`, one after the other. -/
inductive Accepts : (s : σ) → (ms : List Message) → (s' : σ) → Prop
  | nil (s : σ) : Accepts s [] s
  | cons {s s' s'' : σ} {msg : Message} {ms : List Message} :
    (receive msg).run s = (.ok (), s') → Accepts s' ms s'' → Accepts s (msg :: ms) s''

/-- The receiver takes the messages before `msg` and refuses that one. -/
def Refuses (s : σ) (ms before : List Message) (msg : Message) (e : Error) (s' : σ) : Prop :=
  ∃ after s₁, ms = before ++ msg :: after ∧ Accepts receive s before s₁ ∧
    (receive msg).run s₁ = (.error e, s')

variable {receive}

theorem Accepts.not_refuses {s s' t : σ} {ms before : List Message} {msg : Message} {e : Error}
    (h : Accepts receive s ms s') : ¬ Refuses receive s ms before msg e t := by
  rintro ⟨after, s₁, rfl, hb, hm⟩
  induction hb with
  | nil =>
    cases h with
    | cons h _ => cases hm.symm.trans h
  | cons h₁ _ ih =>
    cases h with
    | cons h₂ h =>
      cases h₁.symm.trans h₂
      exact ih h hm

/-- The receiver is handed all messages, or those up to the first that it refuses. -/
theorem offer_noted (ms : List Message) (s : σ) (handed : List Message) :
    (∃ s', Accepts receive s ms s' ∧
      (offer (noted receive) ms).run (s, handed) = (none, (s', handed ++ ms))) ∨
    ∃ before msg e s', Refuses receive s ms before msg e s' ∧
      (offer (noted receive) ms).run (s, handed) =
        (some e, (s', handed ++ (before ++ [msg]))) := by
  induction ms generalizing s handed with
  | nil => exact Or.inl ⟨s, .nil s, by simp [offer]; rfl⟩
  | cons msg ms ih =>
    rcases hm : (receive msg).run s with ⟨e | ⟨⟩, s₁⟩
    · exact Or.inr ⟨[], msg, e, s₁, ⟨ms, s, rfl, .nil s, hm⟩,
        by simp [offer, noted, hm]; rfl⟩
    · obtain ⟨s', ha, hrun⟩ | ⟨before, msg', e, s', ⟨after, s₂, rfl, ha, he⟩, hrun⟩ :=
        ih s₁ (handed ++ [msg])
      · exact Or.inl ⟨s', .cons hm ha, by simp [offer, noted, hm, hrun]⟩
      · refine Or.inr ⟨msg :: before, msg', e, s', ⟨after, s₂, rfl, .cons hm ha, he⟩, ?_⟩
        simp [offer, noted, hm, hrun]

/-- How a delivery ends, where `ms` are the messages of the frames and `rest` is what follows them
    in the stretch: what the receiver was handed and its state, the outcome, and what is left of the
    stream. -/
inductive Delivered (receive : Message → StateM σ (Result Unit)) (stdout : Source)
    (ms : List Message) (rest : List UInt8) (s : σ) :
    (handed : List Message) → (s' : σ) → (outcome : Result Nat) → (left : Source) → Prop
  /-- The stream has ended behind a frame. -/
  | ended {s' : σ} : Accepts receive s ms s' → rest = [] → stdout.stretch.failure = none →
    Delivered receive stdout ms rest s ms s' (.ok ms.length) stdout.beyond
  /-- The next frame is whole but does not decode. The rest of the stretch is read as well. -/
  | corrupt {s' : σ} {text : String} {tail : List UInt8} : Accepts receive s ms s' →
    Stretch.parse ⟨rest, stdout.stretch.failure⟩ = (.error (.corrupt text), some tail) →
    Delivered receive stdout ms rest s ms s' (.error (.corrupt text)) stdout.beyond
  /-- The stretch ends within a frame, or by a failure. The next stretch is read as well. -/
  | unavailable {s' : σ} {text : String} : Accepts receive s ms s' →
    Stretch.parse ⟨rest, stdout.stretch.failure⟩ = (.error (.unavailable text), none) →
    Delivered receive stdout ms rest s ms s' (.error (.unavailable text)) stdout.beyond.beyond
  /-- The receiver has refused a message. The rest of the stretch is read as well. -/
  | refused {before : List Message} {msg : Message} {e : Error} {s' : σ} :
    Refuses receive s ms before msg e s' →
    Delivered receive stdout ms rest s (before ++ [msg]) s' (.error e) stdout.beyond

variable {stdout : Source} {ms : List Message} {rest : List UInt8}

/-- The verdict after all messages were taken. -/
theorem Delivered.of_accepts {s s' : σ} (hr : Unframed rest) (h : Accepts receive s ms s') :
    Delivered receive stdout ms rest s ms s'
      (verdict ⟨rest, stdout.stretch.failure⟩ stdout.beyond ms.length none).1
      (verdict ⟨rest, stdout.stretch.failure⟩ stdout.beyond ms.length none).2 := by
  have hsome := Stretch.parse_ne_some (r := ⟨rest, stdout.stretch.failure⟩) hr
  rw [verdict]
  obtain ⟨hend, hp⟩ | ⟨-, text, hp⟩ | ⟨size, payload, tail, -, -, -, hp⟩ :=
    Stretch.parse_cases ⟨rest, stdout.stretch.failure⟩
  · rw [hp]
    obtain ⟨rfl, hf⟩ := Stretch.mk.inj hend
    exact .ended h rfl hf
  · rw [hp]
    exact .unavailable h hp
  · rw [decodePayload] at hp
    cases hd : Message.decode payload with
    | ok m =>
      rw [hd] at hp
      exact absurd (congrArg Prod.fst hp) (hsome m)
    | error e =>
      rw [hd] at hp
      rw [hp]
      exact .corrupt h hp

/-- Success is an end behind a frame, with a receiver that has taken everything. -/
theorem Delivered.ok_iff {s s' : σ} {handed : List Message} {outcome : Result Nat} {left : Source}
    (h : Delivered receive stdout ms rest s handed s' outcome left) :
    (∃ n, outcome = .ok n) ↔
      (rest = [] ∧ stdout.stretch.failure = none) ∧ ∃ t, Accepts receive s ms t := by
  cases h with
  | ended h hrest hf => exact iff_of_true ⟨_, rfl⟩ ⟨⟨hrest, hf⟩, _, h⟩
  | corrupt _ hp | unavailable _ hp =>
    refine iff_of_false (by simp) ?_
    rintro ⟨⟨rfl, hf⟩, -⟩
    rw [hf] at hp
    cases hp
  | refused h => exact iff_of_false (by simp) fun ⟨_, _, ht⟩ => ht.not_refuses h

/-- **Delivery.** Let `ms` be the messages of the longest prefix of the stream that is whole frames
    that decode. Whatever the receiver does, it is handed these messages in order, each once, up to
    the first that it refuses, and nothing else. The outcome is a success if and only if the stream
    ended behind a frame and everything was taken, and then it is the number of messages; else it is
    the first error, and the stream is read on to its next end or failure. Neither the error output
    of the helper nor the status with which it ends has a part in that. -/
theorem collect_delivers (receive : Message → StateM σ (Result Unit)) (stdout : Source) :
    ∃ ms rest, Framed stdout.stretch.bytes ms rest ∧
      (∀ ms' rest', Framed stdout.stretch.bytes ms' rest' → ms' <+: ms) ∧
      ∀ s, ∃ handed s' outcome left,
        Delivered receive stdout ms rest s handed s' outcome left ∧
        (deliver (noted receive) stdout).run (s, []) = ((outcome, left), (s', handed)) ∧
        (∀ stderr finish, ∃ log, (collect (noted receive) ⟨stdout, stderr, finish⟩).run (s, []) =
          ((outcome, log), (s', handed))) ∧
        ((∃ n, outcome = .ok n) ↔
          (rest = [] ∧ stdout.stretch.failure = none) ∧ ∃ t, Accepts receive s ms t) ∧
        ∀ n, outcome = .ok n → n = handed.length := by
  obtain ⟨ms, rest, hf, hr⟩ := exists_framed stdout.stretch.bytes
  refine ⟨ms, rest, hf, fun _ _ h' => hf.isPrefix h' hr, fun s => ?_⟩
  have hdeliver : deliver (noted receive) stdout =
      verdict ⟨rest, stdout.stretch.failure⟩ stdout.beyond ms.length <$>
        offer (noted receive) ms := deliver_eq_offer hf hr
  have hrun : ∃ handed s' outcome left, Delivered receive stdout ms rest s handed s' outcome left ∧
      (deliver (noted receive) stdout).run (s, []) = ((outcome, left), (s', handed)) := by
    obtain ⟨s', ha, ho⟩ | ⟨before, msg, e, s', hrefused, ho⟩ := offer_noted ms s []
    · exact ⟨ms, s', _, _, .of_accepts hr ha, by simp [hdeliver, ho]; rfl⟩
    · exact ⟨before ++ [msg], s', .error e, stdout.beyond, .refused hrefused,
        by simp [hdeliver, ho]; rfl⟩
  obtain ⟨handed, s', outcome, left, hd, hrun⟩ := hrun
  refine ⟨handed, s', outcome, left, hd, hrun, fun stderr finish => ?_, hd.ok_iff, fun n hn => ?_⟩
  · cases outcome with
    | error e => exact ⟨_, by simp [collect, hrun]; rfl⟩
    | ok n => exact ⟨_, by simp [collect, hrun]; rfl⟩
  · cases hd with
    | ended => exact (Except.ok.inj hn).symm
    | _ => cases hn

end

end Reimage.Crash
