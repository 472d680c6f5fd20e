/-
  The first use of a link, by any number of callers at once.

  A caller that finds no connection takes the lock, looks again, and only then dials. So the dials
  come one after the other; a dial that fails is the error of the caller that made it and of no
  other, and one that succeeds is the last.

  * `Orderly`, `Ended`: what one caller keeps to, whatever it is answered (`Use.orderly`);
  * `Phase`: whether the link has yet to be dialed, was dialed just now, or has its connection;
  * `Once`: the invariant of every run in which nothing else is done to the link;
  * `FirstUse`: what that gives for the callers. `Calls.Runs.firstUse` proves it of every such run.
-/
import Mathlib.Data.Set.Card
import Reimage.Proofs.Link.Slot

namespace Reimage

/-- The question neither dials nor changes the connection. -/
def Ask.Ordinary : Ask → Prop
  | .dial | .dialBefore _ | .install _ | .closeLink => False
  | _ => True

namespace Link

/-- Uses that ask for the connection and leave it as it is. -/
def Use.Shares : Use → Prop
  | connect | exec _ _ _ | stream _ | wait => True
  | _ => False

theorem Use.Shares.checks {u : Use} (h : u.Shares) : u.Checks := by
  cases u <;> first | exact h | trivial

/-- What a caller gets for an error instead of a connection. -/
def Use.failure : Use → Error → Reply
  | connect, e => .connect (.error e)
  | exec _ _ _, e => .exec (.notStarted e.message)
  | stream _, e => .stream (.error e)
  | reconnect, e => .reconnect (.error e)
  | wait, e => .wait (.error e)
  | restart _ _, e => .restart (.error e)
  | close, _ => .close

/-- What a caller gets that has asked for the connection and got `c`. -/
inductive Use.Got : Use → List Event → Connection → Reply → Prop
  | connect {past : List Event} {c : Connection} : Got .connect past c (.connect (.ok c))
  | exec {past : List Event} {c : Connection} {command : String} {stdin : Option (List UInt8)}
    {mode : StderrMode} {ran : Result Finished} : ⟨.run c command stdin mode, ran⟩ ∈ past →
    Got (.exec command stdin mode) past c (.exec (.ofAttempt ran))
  | stream {past : List Event} {c : Connection} {command : String}
    {started : Result Crash.Running} : ⟨.start c command, started⟩ ∈ past →
    Got (.stream command) past c (.stream started)
  | wait {past : List Event} {c : Connection} {closed : Result Unit} :
    ⟨.awaitClose c, closed⟩ ∈ past → Got .wait past c (.wait closed)

/-! ## One caller -/

/-- A dial of this call has failed. -/
def DialFailed (past : List Event) (e : Error) : Prop := (⟨.dial, .error e⟩ : Event) ∈ past

/-- After `past`, a caller may ask `q`. -/
structure Orderly (past : List Event) (q : Ask) : Prop where
  /-- It dials once at most, under the lock, when there is still no connection. -/
  dials : q = .dial → FoundNone past ∧ ∀ r, (⟨.dial, r⟩ : Event) ∉ past
  /-- What it has dialed is offered at once. -/
  offers : ∀ c, FirstDial past c → q = .install c
  /-- Nothing else is offered. -/
  installs : ∀ c, q = .install c → FirstDial past c
  /-- After a dial that failed it gives the lock back. -/
  gives_up : ∀ e, DialFailed past e → q = .release ∧ past.getLast? = some ⟨.dial, .error e⟩
  /-- It does nothing else to the connection. -/
  spares : q ≠ .closeLink ∧ ∀ deadline, q ≠ .dialBefore deadline

/-- After `past`, a caller that wanted `u` may end with `r`. -/
structure Ended (l : Link) (u : Use) (past : List Event) (r : Reply) : Prop where
  offered : ∀ c, ¬ FirstDial past c
  failed : ∀ e, DialFailed past e → r = u.failure e
  cause : (∃ e, DialFailed past e) ∨ (∃ c, Took past c ∧ u.Got past c r) ∨
    ((⟨.isClosed, true⟩ : Event) ∈ past ∨ ∃ c, (⟨.install c, false⟩ : Event) ∈ past) ∧
      r = u.failure l.closedError

/-- No dial has failed, and none was made just now. -/
structure Calm (past : List Event) : Prop where
  offered : ∀ c, ¬ FirstDial past c
  unfailed : ∀ e, ¬ DialFailed past e

variable {past : List Event} {c : Connection} {q : Ask} {l : Link} {u : Use}

theorem FirstDial.getLast (h : FirstDial past c) : past.getLast? = some ⟨.dial, .ok c⟩ := by
  obtain ⟨u, rfl⟩ := h
  simp

theorem FirstDial.unique {d : Connection} (h : FirstDial past c) (h' : FirstDial past d) :
    c = d := by
  have := h.getLast.symm.trans h'.getLast
  simpa using this

theorem not_firstDial_snoc {e : Event} (he : e.question ≠ .dial) : ¬ FirstDial (past ++ [e]) c := by
  intro h
  have := h.getLast
  rw [List.getLast?_concat] at this
  cases this
  exact he rfl

theorem Calm.snoc {e : Event} (h : ∀ e, ¬ DialFailed past e) (he : e.question ≠ .dial) :
    Calm (past ++ [e]) where
  offered _ := not_firstDial_snoc he
  unfailed e' hd := by
    rcases List.mem_append.1 hd with hd | hd
    · exact h e' hd
    · rw [← List.mem_singleton.1 hd] at he
      exact he rfl

namespace Orderly

theorem ordinary (h : Calm past) (hq : q.Ordinary := by trivial) : Orderly past q where
  dials hd := by subst hd; exact hq.elim
  offers c hc := absurd hc (h.offered c)
  installs c hc := by subst hc; exact hq.elim
  gives_up e he := absurd he (h.unfailed e)
  spares := ⟨by rintro rfl; exact hq, by rintro deadline rfl; exact hq⟩

theorem dial (h : Calm past) (hn : FoundNone past) (hd : ∀ r, (⟨.dial, r⟩ : Event) ∉ past) :
    Orderly past .dial where
  dials _ := ⟨hn, hd⟩
  offers c hc := absurd hc (h.offered c)
  installs _ hc := by cases hc
  gives_up e he := absurd he (h.unfailed e)
  spares := ⟨by rintro ⟨⟩, by rintro _ ⟨⟩⟩

theorem install (h : FirstDial past c) (hf : ∀ e, ¬ DialFailed past e) :
    Orderly past (.install c) where
  dials hd := by cases hd
  offers d hd := by rw [h.unique hd]
  installs d hd := by cases hd; exact h
  gives_up e he := absurd he (hf e)
  spares := ⟨by rintro ⟨⟩, by rintro _ ⟨⟩⟩

/-- A dial has failed. -/
theorem release {e : Error} (h : ∀ e, ¬ DialFailed past e) :
    Orderly (past ++ [⟨.dial, .error e⟩]) .release where
  dials hd := by cases hd
  offers c hc := by
    have := hc.getLast
    rw [List.getLast?_concat] at this
    cases this
  installs _ hc := by cases hc
  gives_up e' he := by
    rcases List.mem_append.1 he with he | he
    · exact absurd he (h e')
    · cases List.mem_singleton.1 he
      exact ⟨rfl, List.getLast?_concat ..⟩
  spares := ⟨by rintro ⟨⟩, by rintro _ ⟨⟩⟩

end Orderly

/-- What is known after `Link.connection`. -/
inductive Answered (l : Link) (past : List Event) : Result Connection → Prop
  | took {c : Connection} : Calm past → Took past c → Answered l past (.ok c)
  | failed {e : Error} : (∀ c, ¬ FirstDial past c) → (∀ e', DialFailed past e' ↔ e' = e) →
    Answered l past (.error e)
  | closed : Calm past →
    ((⟨.isClosed, true⟩ : Event) ∈ past ∨ ∃ c, (⟨.install c, false⟩ : Event) ∈ past) →
    Answered l past (.error l.closedError)

/-- What is known after a connection was offered that had just been dialed. -/
inductive Offered (l : Link) (past : List Event) (c : Connection) : List Event → Result Unit → Prop
  | taken : Offered l past c (past ++ [⟨.install c, true⟩]) (.ok ())
  | refused : Offered l past c (past ++ [⟨.install c, false⟩] ++ [⟨.disconnect c, ()⟩])
    (.error l.closedError)

theorem install_orderly (h : FirstDial past c) (hf : ∀ e, ¬ DialFailed past e) :
    (l.install c).Obeys Orderly (Offered l past c) past := by
  refine .step (.install h hf) fun installed => ?_
  match installed with
  | true => exact .pure .taken
  | false => exact .step (.ordinary (.snoc hf (by simp))) fun _ => .pure .refused

/-- The histories of `Link.connection` are short, so they are written out. -/
theorem connection_orderly : l.connection.Obeys Orderly (Answered l) [] := by
  have h₀ : Calm [] := ⟨by rintro c ⟨u, hu⟩; simp at hu, by simp [DialFailed]⟩
  refine .step (.ordinary h₀) fun closed => ?_
  have h₁ : Calm ([] ++ [⟨.isClosed, closed⟩]) := .snoc h₀.unfailed (by simp)
  match closed with
  | true => exact .pure (.closed h₁ (.inl (by simp)))
  | false =>
    refine .step (.ordinary h₁) fun known => ?_
    have h₂ := Calm.snoc (e := ⟨.current, known⟩) h₁.unfailed (by simp)
    match known with
    | some c => exact .pure (.took h₂ (.inl (by simp)))
    | none =>
      refine .step (.ordinary h₂) fun _ => ?_
      have h₃ := Calm.snoc (e := ⟨.acquire, ()⟩) h₂.unfailed (by simp)
      refine .step (.ordinary h₃) fun known => ?_
      have h₄ := Calm.snoc (e := ⟨.current, known⟩) h₃.unfailed (by simp)
      match known with
      | some c =>
        refine .step (.ordinary h₄) fun _ => .pure (.took ?_ (.inl (by simp)))
        exact .snoc h₄.unfailed (by simp)
      | none =>
        refine .step (.dial h₄ .found (by simp)) fun dialed => ?_
        match dialed with
        | .error e =>
          refine .step (.release h₄.unfailed) fun _ => .pure (.failed ?_ ?_)
          · exact fun c => not_firstDial_snoc (by simp)
          · simp [DialFailed]
        | .ok c =>
          have h₅ : ∀ e, ¬ DialFailed ([] ++ [⟨.isClosed, false⟩] ++ [⟨.current, none⟩] ++
              [⟨.acquire, ()⟩] ++ [⟨.current, none⟩] ++ [⟨.dial, .ok c⟩]) e := by
            simp [DialFailed]
          refine (install_orderly firstDial_dialed h₅).bind fun past' installed hi => ?_
          cases hi with
          | taken =>
            have h₆ := Calm.snoc (e := ⟨.install c, true⟩) h₅ (by simp)
            refine .step (.ordinary h₆) fun _ => .pure (.took ?_ (.inr (by simp)))
            exact .snoc h₆.unfailed (by simp)
          | refused =>
            have h₆ := Calm.snoc (e := ⟨.install c, false⟩) h₅ (by simp)
            have h₇ := Calm.snoc (e := ⟨.disconnect c, ()⟩) h₆.unfailed (by simp)
            refine .step (.ordinary h₇) fun _ => .pure (.closed ?_ (.inr ⟨c, by simp⟩))
            exact .snoc h₇.unfailed (by simp)

theorem Answered.ended {e : Error} (h : Answered l past (.error e)) :
    Ended l u past (u.failure e) := by
  cases h with
  | failed ho hf =>
    exact ⟨ho, fun e' he' => by rw [(hf e').1 he'], .inl ⟨e, (hf e).2 rfl⟩⟩
  | closed h hc => exact ⟨h.offered, fun e he => absurd he (h.unfailed e), .inr (.inr ⟨hc, rfl⟩)⟩

theorem Ended.of_got {r : Reply} (h : Calm past) (hc : Took past c) (hg : u.Got past c r) :
    Ended l u past r :=
  ⟨h.offered, fun e he => absurd he (h.unfailed e), .inr (.inl ⟨c, hc, hg⟩)⟩

/-- A use of the connection with one more question. -/
theorem ask_ended (h : Calm past) (hc : Took past c) (hq : q.target = some c)
    {f : q.Answer → Reply} (hr : ∀ a, q.record a = [⟨q, a⟩])
    (hf : ∀ a, u.Got (past ++ [⟨q, a⟩]) c (f a)) :
    (Task.ask q >>= fun a => pure (f a)).Obeys Orderly (Ended l u) past := by
  have hq' : q.Ordinary := by cases q <;> trivial
  have hd : q ≠ .dial := by rintro rfl; exact hq'
  refine .step (.ordinary h hq') (fun a => .pure ?_) hr
  exact .of_got (.snoc h.unfailed hd) (hc.mono (List.subset_append_left _ _)) (hf a)

/-- **Every caller keeps to what it may ask, and to what it may end with.** -/
theorem Use.orderly (l : Link) {u : Use} (h : u.Shares) :
    (u.task l).Obeys Orderly (Ended l u) [] := by
  have hrun : ∀ f : Result Connection → Task Reply,
      (∀ past c, Calm past → Took past c → (f (.ok c)).Obeys Orderly (Ended l u) past) →
      (∀ e, f (.error e) = pure (u.failure e)) →
      (l.connection >>= f).Obeys Orderly (Ended l u) [] := by
    intro f hok herr
    refine connection_orderly.bind fun past r hr => ?_
    match r with
    | .error e => rw [herr]; exact .pure hr.ended
    | .ok c => cases hr with | took h hc => exact hok past c h hc
  cases u with
  | connect => exact hrun _ (fun past c h hc => .pure (.of_got h hc .connect)) fun e => rfl
  | exec command stdin mode =>
    rw [Use.task, Link.exec, Program.bind_assoc]
    refine hrun _ (fun past c h hc => ?_) fun e => rfl
    refine ask_ended (q := .run c command stdin mode) (f := fun a => .exec (.ofAttempt a)) h hc rfl
      (fun _ => rfl) fun a => .exec (by simp)
  | stream command =>
    rw [Use.task, Link.stream, Task.andThen, Program.bind_assoc]
    refine hrun _ (fun past c h hc => ?_) fun e => rfl
    exact ask_ended (q := .start c command) (f := fun a => .stream a) h hc rfl (fun _ => rfl)
      fun a => .stream (by simp)
  | wait =>
    rw [Use.task, Link.wait, Task.andThen, Program.bind_assoc]
    refine hrun _ (fun past c h hc => ?_) fun e => rfl
    exact ask_ended (q := .awaitClose c) (f := fun a => .wait a) h hc rfl (fun _ => rfl)
      fun a => .wait (by simp)
  | _ => exact h.elim

/-! ## The dials of a run -/

/-- The callers whose dials failed, one entry a dial. -/
def failedCallers (tr : List Move) : List Nat :=
  tr.filterMap fun
    | .does i ⟨.dial, .error _⟩ => some i
    | _ => none

/-- The connections that were dialed. -/
def opened (tr : List Move) : List Connection :=
  tr.filterMap fun
    | .does _ ⟨.dial, .ok c⟩ => some c
    | _ => none

variable {tr : List Move} {i : Nat}

theorem mem_own {e : Event} (h : .does i e ∈ tr) (he : e ∈ e.question.record e.answer) :
    e ∈ own i tr :=
  List.mem_flatMap.2 ⟨_, h, by rwa [Move.own_does_self]⟩

theorem mem_failedCallers : i ∈ failedCallers tr ↔ ∃ e, DialFailed (own i tr) e := by
  constructor
  · intro h
    obtain ⟨m, hm, hi⟩ := List.mem_filterMap.1 h
    split at hi
    · cases hi
      exact ⟨_, mem_own hm (by simp [Ask.record])⟩
    · cases hi
  · rintro ⟨e, he⟩
    obtain ⟨u, v, rfl⟩ := exists_of_mem_own he
    exact List.mem_filterMap.2 ⟨.does i ⟨.dial, .error e⟩, by simp, rfl⟩

theorem mem_opened (h : (⟨.dial, .ok c⟩ : Event) ∈ own i tr) : c ∈ opened tr := by
  obtain ⟨u, v, rfl⟩ := exists_of_mem_own h
  exact List.mem_filterMap.2 ⟨.does i ⟨.dial, .ok c⟩, by simp, rfl⟩

/-- A move of another caller. -/
theorem own_snoc_other {i k : Nat} (h : i ≠ k) (tr : List Move) (e : Event) :
    own k (tr ++ [.does i e]) = own k tr :=
  own_snoc_of_ne (m := .does i e) h tr

/-- What is in a history after one more move was there before, or is that move. -/
theorem mem_own_snoc {i k : Nat} {e e' : Event} (h : e' ∈ own k (tr ++ [.does i e])) :
    e' ∈ own k tr ∨ k = i ∧ e' = e := by
  by_cases hk : i = k
  · subst hk
    rw [own_snoc_does] at h
    rcases List.mem_append.1 h with h | h
    · exact .inl h
    · exact .inr ⟨rfl, Ask.eq_of_mem_record h⟩
  · rw [own_snoc_other hk] at h
    exact .inl h

theorem opened_snoc (tr : List Move) (i : Nat) (e : Event) :
    opened (tr ++ [.does i e]) = opened tr ∨
      ∃ c, e = ⟨.dial, .ok c⟩ ∧ opened (tr ++ [.does i e]) = opened tr ++ [c] := by
  obtain ⟨q, a⟩ := e
  cases q
  case dial =>
    match a with
    | .ok c => exact .inr ⟨c, rfl, by simp [opened]⟩
    | .error e => exact .inl (by simp [opened])
  all_goals exact .inl (by simp [opened])

theorem failedCallers_snoc (tr : List Move) (i : Nat) (e : Event) :
    failedCallers (tr ++ [.does i e]) = failedCallers tr ∨
      (∃ e', e = ⟨.dial, .error e'⟩) ∧
        failedCallers (tr ++ [.does i e]) = failedCallers tr ++ [i] := by
  obtain ⟨q, a⟩ := e
  cases q
  case dial =>
    match a with
    | .ok c => exact .inl (by simp [failedCallers])
    | .error e => exact .inr ⟨⟨e, rfl⟩, by simp [failedCallers]⟩
  all_goals exact .inl (by simp [failedCallers])

/-! ## All callers -/

/-- No caller has begun. The link has no connection, and may be closed. -/
def Calls.unused (l : Link) (uses : Nat → Use) (closed : Bool) : Calls :=
  ⟨{ current := { closed := closed } }, (Calls.start l uses).tasks⟩

/-- How far the link is. -/
inductive Phase (tr : List Move) (s : Calls) : Prop
  | undialed : opened tr = [] → s.current.connection = none → Phase tr s
  /-- Call `i` has dialed `c` just now. -/
  | dialed {i : Nat} {c : Connection} : opened tr = [c] → FirstDial (own i tr) c →
    s.current.connection = none → Phase tr s
  | installed {c : Connection} : opened tr = [c] → s.current.connection = some c → Phase tr s

/-- What holds after every run `tr` of callers that share the connection. -/
structure Once (l : Link) (uses : Nat → Use) (closed : Bool) (tr : List Move) (s : Calls) : Prop
    where
  sound : Sound uses tr s
  callers : ∀ i, ∃ t, s.tasks i = some t ∧ t.Obeys Orderly (Ended l (uses i)) (own i tr)
  phase : Phase tr s
  failed : (failedCallers tr).Nodup
  took : ∀ i c, Took (own i tr) c → s.current.connection = some c
  stays : s.current.closed = closed
  asked : ∀ i a, (⟨.isClosed, a⟩ : Event) ∈ own i tr → a = closed
  unrefused : ∀ i c, (⟨.install c, false⟩ : Event) ∉ own i tr

namespace Once

variable {uses : Nat → Use} {closed : Bool} {s s' : Calls} {e : Event} {j : Nat}

theorem start (hu : ∀ i, (uses i).Shares) : Once l uses closed [] (Calls.unused l uses closed) where
  sound :=
    { obeys := fun i t ht => by cases ht; exact Use.obeys l (uses i)
      closed := fun _ => rfl
      holds := (Sound.start l).holds
      empty := fun _ _ _ _ => rfl }
  callers i := ⟨_, rfl, Use.orderly l (hu i)⟩
  phase := .undialed rfl rfl
  failed := List.nodup_nil
  took i c h := by rcases h with h | h <;> cases h
  stays := rfl
  asked i a h := by cases h
  unrefused i c h := by cases h

theorem orderly (h : Once l uses closed tr s) (hm : s.Step (.does i e) s') :
    Orderly (own i tr) e.question := by
  obtain ⟨t, ht, hobeys⟩ := h.callers i
  cases hm with
  | does hq _ =>
    cases ht.symm.trans hq
    cases hobeys with
    | ask hq _ => exact hq

/-- Two callers under the lock are one. -/
theorem eq_of_locked (h : Once l uses closed tr s) (hi : Locked (own i tr))
    (hj : Locked (own j tr)) : i = j := by
  obtain ⟨t, ht, -⟩ := h.callers i
  obtain ⟨u, hu, -⟩ := h.callers j
  exact Option.some.inj ((h.sound.holds i t ht hi).symm.trans (h.sound.holds j u hu hj))

theorem empty (h : Once l uses closed tr s) (hn : FoundNone (own i tr)) :
    s.current.connection = none := by
  obtain ⟨t, ht, -⟩ := h.callers i
  exact h.sound.empty i t ht hn

/-- A caller that dials does so for the first time, and no dial before has succeeded. -/
theorem dialing (h : Once l uses closed tr s) {r : Result Connection}
    (hm : s.Step (.does i ⟨.dial, r⟩) s') : opened tr = [] ∧ i ∉ failedCallers tr := by
  obtain ⟨hn, hd⟩ := (h.orderly hm).dials rfl
  constructor
  · cases h.phase with
    | undialed ho _ => exact ho
    | @dialed j c _ hf _ =>
      obtain rfl := h.eq_of_locked hn.locked hf.foundNone.locked
      exact nomatch (h.orderly hm).offers c hf
    | installed _ hc => exact nomatch hc.symm.trans (h.empty hn)
  · rw [mem_failedCallers]
    rintro ⟨e, he⟩
    exact hd _ he

/-- A caller that offers a connection has dialed it just now, and it is accepted. -/
theorem installing (h : Once l uses closed tr s) (hu : (uses i).Shares) {installed : Bool}
    (hm : s.Step (.does i ⟨.install c, installed⟩) s') :
    installed = true ∧ opened tr = [c] ∧ s.current.connection = none := by
  have hf := (h.orderly hm).installs c rfl
  have hempty := h.empty hf.foundNone
  have hc : c ∈ opened tr := by
    obtain ⟨past, hp⟩ := hf
    exact mem_opened (i := i) (by simp [← hp])
  refine ⟨?_, ?_, hempty⟩
  · have hopen : Opened (own i tr) := by
      obtain hq | ho := (h.sound.fits_of_step hm).opened hu.checks
      · rcases hq with hq | hq | ⟨_, hq⟩ <;> cases hq
      · exact ho
    have hclosed : s.current.closed = false := h.stays.trans (h.asked i false hopen).symm
    rw [hm.answer_install.1, hclosed]
    rfl
  · cases h.phase with
    | undialed ho _ => rw [ho] at hc; cases hc
    | dialed ho _ _ => rw [ho] at hc ⊢; rw [List.mem_singleton.1 hc]
    | installed _ hs => exact nomatch hs.symm.trans hempty

/-- The connection stays as it is, but that the one that was dialed is installed. -/
theorem current (h : Once l uses closed tr s) (hu : (uses i).Shares)
    (hm : s.Step (.does i e) s') :
    s'.current = s.current ∨ ∃ c, e = ⟨.install c, true⟩ ∧ s.current.connection = none ∧
      opened tr = [c] ∧ s.current.closed = false ∧ s'.current = ⟨some c, false⟩ := by
  obtain hs | ⟨k, known, hk, -⟩ | ⟨k, c, hk, hc, hs⟩ := hm.current
  · exact .inl hs
  · cases hk
    exact absurd rfl (h.orderly hm).spares.1
  · cases hk
    obtain ⟨-, ho, hempty⟩ := h.installing hu hm
    exact .inr ⟨c, rfl, hempty, ho, hc, hs⟩

theorem step_phase (h : Once l uses closed tr s) (hu : (uses i).Shares)
    (hm : s.Step (.does i e) s') : Phase (tr ++ [.does i e]) s' := by
  obtain ho | ⟨c, rfl, ho⟩ := opened_snoc tr i e
  · obtain hs | ⟨c, rfl, -, hc, -, hs⟩ := h.current hu hm
    · cases h.phase with
      | undialed ho' hc => exact .undialed (ho.trans ho') (by rw [hs, hc])
      | installed ho' hc => exact .installed (ho.trans ho') (by rw [hs, hc])
      | @dialed j c ho' hf hc =>
        by_cases hj : i = j
        · subst hj
          -- the next move of this caller is to offer the connection
          obtain ⟨q, a⟩ := e
          obtain rfl : q = .install c := (h.orderly hm).offers c hf
          obtain ⟨rfl, -, -⟩ := h.installing hu hm
          exact .installed (ho.trans ho') (hm.current_of_took (.inr rfl))
        · refine .dialed (i := j) (ho.trans ho') ?_ (by rw [hs, hc])
          rwa [own_snoc_other hj]
    · exact .installed (ho.trans hc) (by rw [hs])
  · obtain ⟨hempty, -⟩ := h.dialing hm
    obtain ⟨hn, hd⟩ := (h.orderly hm).dials rfl
    rw [hempty, List.nil_append] at ho
    obtain hs | ⟨_, hi, -⟩ := h.current hu hm
    · refine .dialed (i := i) ho ?_ (by rw [hs, h.empty hn])
      rw [own_snoc_does]
      generalize own i tr = past at hn hd
      cases hn with
      | found => exact firstDial_dialed
      | @dialed _ r _ => exact absurd (by simp) (hd r)
    · cases hi

theorem step (h : Once l uses closed tr s) (hu : ∀ i, (uses i).Shares)
    (hm : s.Step (.does i e) s') : Once l uses closed (tr ++ [.does i e]) s' where
  sound := h.sound.step hm
  callers k := by
    obtain ⟨t, ht, hobeys⟩ := h.callers k
    by_cases hk : i = k
    · subst hk
      cases hm with
      | @does _ q f a hq _ =>
        cases ht.symm.trans hq
        cases hobeys with
        | ask _ hf =>
          rw [own_snoc_does]
          exact ⟨_, Function.update_self .., hf a⟩
    · rw [own_snoc_other hk]
      exact ⟨t, (hm.tasks_of_ne hk).trans ht, hobeys⟩
  phase := h.step_phase (hu i) hm
  failed := by
    obtain hf | ⟨⟨e', rfl⟩, hf⟩ := failedCallers_snoc tr i e
    · rw [hf]
      exact h.failed
    · rw [hf, List.nodup_append]
      refine ⟨h.failed, List.nodup_singleton i, fun k hk k' hk' => ?_⟩
      rw [List.mem_singleton.1 hk']
      rintro rfl
      exact (h.dialing hm).2 hk
  took k c htook := by
    have hnew : e = ⟨.current, some c⟩ ∨ e = ⟨.install c, true⟩ → s'.current.connection = some c :=
      hm.current_of_took
    have hold : Took (own k tr) c → s'.current.connection = some c := by
      intro ht
      have hc := h.took k c ht
      obtain hs | ⟨_, -, hnone, -⟩ := h.current (hu i) hm
      · rw [hs, hc]
      · exact nomatch hc.symm.trans hnone
    rcases htook with ht | ht
    · rcases mem_own_snoc ht with ht | ⟨-, rfl⟩
      · exact hold (.inl ht)
      · exact hnew (.inl rfl)
    · rcases mem_own_snoc ht with ht | ⟨-, rfl⟩
      · exact hold (.inr ht)
      · exact hnew (.inr rfl)
  stays := by
    obtain hs | ⟨_, -, -, -, hc, hs⟩ := h.current (hu i) hm
    · rw [hs, h.stays]
    · rw [hs, ← h.stays, hc]
  asked k a ha := by
    rcases mem_own_snoc ha with ha | ⟨-, rfl⟩
    · exact h.asked k a ha
    · exact hm.answer_isClosed.trans h.stays
  unrefused k c hr := by
    rcases mem_own_snoc hr with hr | ⟨-, rfl⟩
    · exact h.unrefused k c hr
    · exact nomatch (h.installing (hu i) hm).1

/-- A connection that was dialed and is not yet current is about to be offered. -/
theorem offering (h : Once l uses closed tr s) (hf : FirstDial (own i tr) c) :
    ∃ f, s.tasks i = some (Program.ask (.install c) f) := by
  obtain ⟨t, ht, hobeys⟩ := h.callers i
  cases hobeys with
  | done hend => exact absurd hf (hend.offered c)
  | ask hq _ =>
    obtain rfl := hq.offers c hf
    exact ⟨_, ht⟩

end Once

variable {uses : Nat → Use} {closed : Bool} {s : Calls}

/-- All that is left of a call is to return `r`, and perhaps to give the lock back before. -/
inductive Gets (r : Reply) : Task Reply → Prop
  | done : Gets r (.done r)
  | release {f : Unit → Task Reply} : f () = .done r → Gets r (Program.ask .release f)

/-- Caller `i` gets the error of the dial that it made. -/
def GetsDialError (uses : Nat → Use) (tr : List Move) (s : Calls) (i : Nat) : Prop :=
  ∃ e t, DialFailed (own i tr) e ∧ s.tasks i = some t ∧ Gets ((uses i).failure e) t

theorem Once.gets (h : Once l uses closed tr s) {e : Error} (he : DialFailed (own i tr) e) :
    ∃ t, s.tasks i = some t ∧ Gets ((uses i).failure e) t := by
  obtain ⟨t, ht, hobeys⟩ := h.callers i
  refine ⟨t, ht, ?_⟩
  cases hobeys with
  | done hend => rw [hend.failed e he]; exact .done
  | @ask _ q f hq hf =>
    obtain ⟨rfl, -⟩ := hq.gives_up e he
    refine .release ?_
    have he' : DialFailed (own i tr ++ Ask.release.record ()) e := List.mem_append_left _ he
    generalize hrest : f () = rest
    have hrest' := hrest ▸ hf ()
    cases hrest' with
    | done hend => rw [hend.failed e he']
    | ask hq _ =>
      -- the last thing was to give the lock back, and not to dial
      have := (hq.gives_up e he').2
      simp [Ask.record] at this

/-- The callers whose dials failed are those that get the error of a dial. -/
theorem Once.failures (h : Once l uses closed tr s) {P : Nat → Prop}
    (hP : ∀ i, P i ↔ ∃ e, DialFailed (own i tr) e) :
    (failedCallers tr).length = {i | P i}.ncard := by
  have hset : {i | P i} = ((failedCallers tr).toFinset : Set Nat) := by
    ext i
    rw [Set.mem_ofPred_eq, hP, Finset.mem_coe, List.mem_toFinset, mem_failedCallers]
  rw [hset, Set.ncard_coe_finset, List.toFinset_card_of_nodup h.failed]

/-- What becomes of callers that share the connection of a link without one. -/
structure FirstUse (l : Link) (uses : Nat → Use) (tr : List Move) (s : Calls) : Prop where
  /-- No two of them dial at the same time. -/
  one_dial : ∀ {i j f g}, s.tasks i = some (Program.ask .dial f) →
    s.tasks j = some (Program.ask .dial g) → i = j
  /-- At most one dial succeeds. -/
  one_success : (opened tr).length ≤ 1
  /-- As many dials have failed as there are callers that get the error of a dial. -/
  failures : (failedCallers tr).length = {i | GetsDialError uses tr s i}.ncard
  /-- Once all who have begun have ended, they have got it. -/
  failures_ended : (∀ i, own i tr ≠ [] → (s.result i).isSome) → (failedCallers tr).length =
    {i | ∃ e, DialFailed (own i tr) e ∧ s.result i = some ((uses i).failure e)}.ncard
  /-- A caller that has ended has got what the current connection gave, or the error of the dial
      that it made itself, or else the link was closed from the beginning. -/
  results : ∀ {i r}, s.result i = some r →
    (∃ c, s.current.connection = some c ∧ (uses i).Got (own i tr) c r) ∨
    (∃ e, DialFailed (own i tr) e ∧ r = (uses i).failure e) ∨
    s.current.closed = true ∧ r = (uses i).failure l.closedError
  /-- A caller that works on a connection works on the current one. -/
  works : ∀ {i q f c}, s.tasks i = some (Program.ask q f) → q.target = some c →
    s.current.connection = some c
  /-- The connection is the one that was dialed, -/
  dialed : ∀ {c}, s.current.connection = some c → opened tr = [c]
  /-- and that one is the connection, unless its caller has yet to offer it. -/
  installed : ∀ {c}, c ∈ opened tr → s.current.connection = some c ∨
    ∃ i f, s.tasks i = some (Program.ask (.install c) f)

theorem FirstUse.of_once (h : Once l uses closed tr s) : FirstUse l uses tr s where
  one_dial {i j f g} hi hj := by
    have hlocked : ∀ {k f}, s.tasks k = some (Program.ask .dial f) → Locked (own k tr) := by
      intro k f hk
      obtain ⟨t, ht, hobeys⟩ := h.callers k
      cases ht.symm.trans hk
      cases hobeys with
      | ask hq _ => exact (hq.dials rfl).1.locked
    exact h.eq_of_locked (hlocked hi) (hlocked hj)
  one_success := by
    cases h.phase with
    | undialed ho _ => simp [ho]
    | dialed ho _ _ | installed ho _ => simp [ho]
  failures := by
    refine h.failures fun i => ?_
    constructor
    · rintro ⟨e, -, he, -⟩
      exact ⟨e, he⟩
    · rintro ⟨e, he⟩
      obtain ⟨t, ht, hgets⟩ := h.gets he
      exact ⟨e, t, he, ht, hgets⟩
  failures_ended hend := by
    refine h.failures fun i => ?_
    constructor
    · rintro ⟨e, he, -⟩
      exact ⟨e, he⟩
    · rintro ⟨e, he⟩
      refine ⟨e, he, ?_⟩
      obtain ⟨t, ht, hgets⟩ := h.gets he
      have hsome := hend i (List.ne_nil_of_mem he)
      cases hgets with
      | done => rw [Calls.result, ht]
      | release => simp [Calls.result, ht] at hsome
  results {i r} hr := by
    obtain ⟨t, ht, hobeys⟩ := h.callers i
    rw [Calls.result, ht] at hr
    cases hobeys with
    | ask => cases hr
    | done hend =>
      cases hr
      rcases hend.cause with ⟨e, he⟩ | ⟨c, hc, hgot⟩ | ⟨hcause, hr⟩
      · exact .inr (.inl ⟨e, he, hend.failed e he⟩)
      · exact .inl ⟨c, h.took i c hc, hgot⟩
      · refine .inr (.inr ⟨?_, hr⟩)
        rcases hcause with hc | ⟨c, hc⟩
        · exact h.stays.trans (h.asked i true hc).symm
        · exact absurd hc (h.unrefused i c)
  works hq hc := h.took _ _ ((h.sound.fits hq).targets _ hc)
  dialed {c} hc := by
    cases h.phase with
    | undialed _ hn | dialed _ _ hn =>
      rw [hn] at hc
      cases hc
    | installed ho hs => rw [ho, Option.some.inj (hs.symm.trans hc)]
  installed {c} hc := by
    cases h.phase with
    | undialed ho _ => rw [ho] at hc; cases hc
    | dialed ho hf _ =>
      rw [ho] at hc
      rw [List.mem_singleton.1 hc]
      exact .inr ⟨_, h.offering hf⟩
    | installed ho hs =>
      rw [ho] at hc
      rw [List.mem_singleton.1 hc]
      exact .inl hs

/-- **The first use dials once.** Any number of callers ask for the connection of a link that has
    none, for themselves, to run a command, to read from one while it runs, or to wait for its end.
    Nothing else is done to the link, and no caller is dropped. -/
theorem Calls.Runs.firstUse (h : (Calls.unused l uses closed).Runs tr s)
    (hu : ∀ i, (uses i).Shares) (hd : ∀ i, Move.drops i ∉ tr) : FirstUse l uses tr s := by
  suffices honce : (∀ i, Move.drops i ∉ tr) → Once l uses closed tr s from .of_once (honce hd)
  refine h.induct (I := fun tr s => (∀ i, Move.drops i ∉ tr) → Once l uses closed tr s) ?_ ?_
  · exact fun _ => .start hu
  · intro u s m s' ih hm hd
    match m with
    | .drops i => exact absurd (by simp) (hd i)
    | .does i e => exact (ih fun k hk => hd k (List.mem_append_left _ hk)).step hu hm

/-- A command and a caller for the connection itself, at the same time. -/
def pairUses : Nat → Use
  | 0 => .exec "true" none .separate
  | _ => .connect

/-- Both find no connection. The first dial fails while the other caller waits for the lock, which
    then dials as well. -/
def pairMoves : List Move :=
  [.does 0 ⟨.isClosed, false⟩, .does 1 ⟨.isClosed, false⟩, .does 0 ⟨.current, none⟩,
    .does 1 ⟨.current, none⟩, .does 0 ⟨.acquire, ()⟩, .does 0 ⟨.current, none⟩,
    .does 0 ⟨.dial, .error (.transport "refused")⟩, .does 0 ⟨.release, ()⟩,
    .does 1 ⟨.acquire, ()⟩, .does 1 ⟨.current, none⟩, .does 1 ⟨.dial, .ok ⟨1, "dut1"⟩⟩,
    .does 1 ⟨.install ⟨1, "dut1"⟩, true⟩, .does 1 ⟨.release, ()⟩]

theorem firstUse_pair : ∃ s,
    (Calls.unused { dut := "dut1" } pairUses false).Runs pairMoves s ∧
    (∀ i, (pairUses i).Shares) ∧ (∀ i, Move.drops i ∉ pairMoves) ∧
    s.current.connection = some ⟨1, "dut1"⟩ ∧
    s.result 1 = some (.connect (.ok ⟨1, "dut1"⟩)) ∧
    FirstUse { dut := "dut1" } pairUses pairMoves s := by
  have hu : ∀ i, (pairUses i).Shares := by
    intro i
    match i with
    | 0 | _ + 1 => trivial
  have hd : ∀ i, Move.drops i ∉ pairMoves := by simp [pairMoves]
  obtain ⟨s, h, hc, hr⟩ : ∃ s, (Calls.unused { dut := "dut1" } pairUses false).Runs pairMoves s ∧
      s.current.connection = some ⟨1, "dut1"⟩ ∧
      s.result 1 = some (.connect (.ok ⟨1, "dut1"⟩)) := by
    unfold pairMoves
    repeat refine exists_runs_cons (.does rfl (by first | exact rfl | exact trivial)) ?_
    exact ⟨_, .nil _, rfl, rfl⟩
  exact ⟨s, h, hu, hd, hc, hr, h.firstUse hu hd⟩

end Link

end Reimage
