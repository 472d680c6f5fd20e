/-
  What each use of a link keeps to, whatever it is answered.

  `Task.Obeys` goes through a task with the history of what was asked before. Here the history is
  that of one call, and says nothing of the other calls on the link.

  * `Fits` is what a call may ask next: only a connection that was just dialed under the lock is
    offered, one that was refused is closed at once, and only a connection that was current is
    worked on;
  * `Ends` is what is known at the end of a call: after a failure of `restart` nothing was
    installed but the first connection of the link;
  * `Use.obeys`: every use of a link keeps to both.
-/
import Reimage.Proofs.Link.Calls

namespace Reimage

variable {α β : Type}

/-! ## Tasks with a history -/

/-- After `past`, whatever the task asks satisfies `P`, and its result satisfies `F`. Both may look
    at what has happened until then. -/
inductive Task.Obeys (P : List Event → Ask → Prop) (F : List Event → α → Prop) :
    List Event → Task α → Prop
  | done {past : List Event} {a : α} : F past a → Obeys P F past (.done a)
  | ask {past : List Event} {q : Ask} {f : q.Answer → Task α} : P past q →
    (∀ a, Obeys P F (past ++ q.record a) (f a)) → Obeys P F past (Program.ask q f)

namespace Task.Obeys

variable {P : List Event → Ask → Prop} {F : List Event → α → Prop} {G : List Event → β → Prop}
  {past : List Event}

theorem pure {a : α} (h : F past a) : Obeys P F past (pure a) := .done h

/-- A question, and what comes after it. -/
theorem step {q : Ask} {f : q.Answer → Task α} (h : P past q)
    (hf : ∀ a, Obeys P F (past ++ [⟨q, a⟩]) (f a))
    (hq : ∀ a, q.record a = [⟨q, a⟩] := by exact fun _ => rfl) :
    Obeys P F past (Task.ask q >>= f) :=
  .ask h fun a => (hq a).symm ▸ hf a

theorem query {q : Ask} {F : List Event → q.Answer → Prop} (h : P past q)
    (hF : ∀ a, F (past ++ [⟨q, a⟩]) a)
    (hq : ∀ a, q.record a = [⟨q, a⟩] := by exact fun _ => rfl) : Obeys P F past (Task.ask q) :=
  .ask h fun a => .done ((hq a).symm ▸ hF a)

/-- A log line leaves no trace. -/
theorem log {line : LogLine} {t : Task α} (h : P past (.log line)) (ht : Obeys P F past t) :
    Obeys P F past (Task.log line >>= fun _ => t) :=
  .ask h fun _ => (List.append_nil past).symm ▸ ht

theorem bind {t : Task α} {f : α → Task β} (ht : Obeys P F past t)
    (hf : ∀ past a, F past a → Obeys P G past (f a)) : Obeys P G past (t >>= f) := by
  induction ht with
  | done h => exact hf _ _ h
  | ask h _ ih => exact .ask h ih

theorem mono {F' : List Event → α → Prop} {t : Task α} (ht : Obeys P F past t)
    (hF : ∀ past a, F past a → F' past a) : Obeys P F' past t := by
  induction ht with
  | done h => exact .done (hF _ _ h)
  | ask h _ ih => exact .ask h ih

/-- What has happened stays in the history. -/
theorem grows {t : Task α} (ht : Obeys P F past t) :
    Obeys P (fun past' a => past ⊆ past' ∧ F past' a) past t := by
  induction ht with
  | done h => exact .done ⟨List.Subset.refl _, h⟩
  | ask h _ ih =>
    refine .ask h fun a => (ih a).mono fun _ _ ⟨h, h'⟩ => ⟨fun e he => h ?_, h'⟩
    exact List.mem_append_left _ he

/-- Success is followed by `f`; after an error only the result is left. -/
theorem andThen {F : List Event → Result α → Prop} {G : List Event → Result β → Prop}
    {t : Task (Result α)} {f : α → Task (Result β)} (ht : Obeys P F past t)
    (hf : ∀ past a, F past (.ok a) → Obeys P G past (f a))
    (he : ∀ past e, F past (.error e) → G past (.error e)) : Obeys P G past (t.andThen f) :=
  ht.bind fun past r h =>
    match r with
    | .ok a => hf past a h
    | .error e => .pure (he past e h)

end Task.Obeys

/-! ## What a history shows -/

/-- The link refused a connection. -/
def Event.Refuses : Event → Prop
  | ⟨.install _, installed⟩ => installed = false
  | _ => False

/-- The event is not about installing a connection. -/
def Event.Quiet : Event → Prop
  | ⟨.install _, _⟩ => False
  | _ => True

theorem Event.Quiet.not_refuses {e : Event} (h : e.Quiet) : ¬ e.Refuses := by
  obtain ⟨q, a⟩ := e
  cases q <;> first | exact h.elim | exact id

/-- The connection that a question works on. -/
def Ask.target : Ask → Option Connection
  | .run c _ _ _ | .start c _ | .awaitClose c | .awaitCloseBefore c _ => some c
  | _ => none

/-- The question neither installs a connection nor works on one, and does not close the link. -/
def Ask.Plain : Ask → Prop
  | .install _ | .closeLink => False
  | .run _ _ _ _ | .start _ _ | .awaitClose _ | .awaitCloseBefore _ _ => False
  | _ => True

namespace Link

variable {past : List Event} {c : Connection}

/-- The link was not closed. -/
def Opened (past : List Event) : Prop := (⟨.isClosed, false⟩ : Event) ∈ past

/-- `c` was the current connection. -/
def Took (past : List Event) (c : Connection) : Prop :=
  (⟨.current, some c⟩ : Event) ∈ past ∨ (⟨.install c, true⟩ : Event) ∈ past

/-- `c` was dialed just now, under the lock, when there was no connection. -/
def FirstDial (past : List Event) (c : Connection) : Prop :=
  [⟨.acquire, ()⟩, ⟨.current, none⟩, ⟨.dial, .ok c⟩] <:+ past

theorem firstDial_dialed : FirstDial
    (past ++ [⟨.acquire, ()⟩] ++ [⟨.current, none⟩] ++ [⟨.dial, .ok c⟩]) c :=
  ⟨past, by simp⟩

/-- `c` was dialed just now, under the lock, whether there was a connection or not. -/
def Redial (past : List Event) (c : Connection) : Prop :=
  [⟨.acquire, ()⟩, ⟨.dial, .ok c⟩] <:+ past ∨
    ∃ deadline, [⟨.acquire, ()⟩, ⟨.dialBefore deadline, some (.ok c)⟩] <:+ past

theorem redial_dialed : Redial (past ++ [⟨.acquire, ()⟩] ++ [⟨.dial, .ok c⟩]) c :=
  .inl ⟨past, by simp⟩

theorem redial_dialedBefore {deadline : Instant} :
    Redial (past ++ [⟨.acquire, ()⟩] ++ [⟨.dialBefore deadline, some (.ok c)⟩]) c :=
  .inr ⟨deadline, past, by simp⟩

/-- Nothing was installed but connections that were dialed when there was none. -/
def Firsts (past : List Event) : Prop :=
  ∀ u c v, past = u ++ ⟨.install c, true⟩ :: v → FirstDial u c

/-- The last event is not a refusal. -/
def Settled (past : List Event) : Prop := ∀ e, past.getLast? = some e → ¬ e.Refuses

/-- Uses that look first whether the link is closed. -/
def Use.Checks : Use → Prop
  | reconnect | close => False
  | _ => True

/-- Nothing was refused. -/
def Unrefused (past : List Event) : Prop := ∀ e ∈ past, ¬ e.Refuses

/-- Nothing was refused, and a use that looks whether the link is closed has found it open. -/
structure Ready (u : Use) (past : List Event) : Prop where
  unrefused : Unrefused past
  opened : u.Checks → Opened past

/-- The same, and nothing was replaced. -/
structure Steady (u : Use) (past : List Event) : Prop extends Ready u past where
  firsts : Firsts past

/-! ## What a call may ask, and how it ends -/

/-- The question neither works on the device nor changes anything. -/
def Harmless (q : Ask) : Prop := q = .now ∨ q = .isClosed ∨ ∃ message, q = .abort message

/-- After `past`, a call for `u` may ask `q`. -/
structure Fits (u : Use) (past : List Event) (q : Ask) : Prop where
  /-- A connection that was just refused is closed. -/
  refused : ∀ c, past.getLast? = some ⟨.install c, false⟩ → q = .disconnect c
  /-- Only what was just dialed is offered. -/
  installs : ∀ c, q = .install c → FirstDial past c ∨ Redial past c
  /-- Only a connection that was current is worked on. -/
  targets : ∀ c, q.target = some c → Took past c
  /-- A use that looks whether the link is closed does so first. -/
  opened : u.Checks → Harmless q ∨ Opened past
  closes : q = .closeLink → u = .close

/-- After `past`, a call for `u` may end with `r`. -/
structure Ends (u : Use) (past : List Event) (r : Reply) : Prop where
  settled : Settled past
  ready : ¬ r.Failed → Ready u past
  took : ∀ c, r = .connect (.ok c) → Took past c
  /-- A failure to reconnect has installed nothing. -/
  reconnect : u = .reconnect → r.Failed → ∀ c, (⟨.install c, true⟩ : Event) ∉ past
  /-- A failure to restart has replaced nothing. -/
  restart : ∀ args timeout, u = .restart args timeout → r.Failed → Firsts past

theorem Settled.snoc {e : Event} (he : ¬ e.Refuses) : Settled (past ++ [e]) := by
  intro e' h
  rw [List.getLast?_concat] at h
  cases h
  exact he

theorem Unrefused.settled (h : Unrefused past) : Settled past :=
  fun e he => h e (List.mem_of_getLast? he)

theorem Unrefused.snoc {e : Event} (h : Unrefused past) (he : ¬ e.Refuses) :
    Unrefused (past ++ [e]) := by
  intro e' he'
  rcases List.mem_append.1 he' with he' | he'
  · exact h e' he'
  · rwa [List.mem_singleton.1 he']

theorem Took.mono {past' : List Event} (h : Took past c) (hs : past ⊆ past') : Took past' c :=
  h.imp (fun h => hs h) (fun h => hs h)

/-- Where an event of a history stands that was just continued. -/
theorem split_snoc {u v : List Event} {e e' : Event} (h : past ++ [e] = u ++ e' :: v) :
    u = past ∧ e' = e ∨ ∃ v', v = v' ++ [e] ∧ past = u ++ e' :: v' := by
  rcases List.eq_nil_or_concat v with rfl | ⟨v, x, rfl⟩
  · obtain ⟨h₁, h₂⟩ := List.append_inj' h rfl
    exact .inl ⟨h₁.symm, (List.singleton_inj.1 h₂).symm⟩
  · rw [List.concat_eq_append, ← List.cons_append, ← List.append_assoc] at h
    obtain ⟨h₁, h₂⟩ := List.append_inj' h rfl
    cases h₂
    exact .inr ⟨v, List.concat_eq_append .., h₁⟩

theorem Firsts.snoc {e : Event} (h : Firsts past) (he : ∀ c, e ≠ ⟨.install c, true⟩) :
    Firsts (past ++ [e]) := by
  intro u c v huv
  obtain ⟨-, rfl⟩ | ⟨v, -, hv⟩ := split_snoc huv
  · exact absurd rfl (he c)
  · exact h u c v hv

theorem Firsts.quiet {e : Event} (h : Firsts past) (he : e.Quiet := by trivial) :
    Firsts (past ++ [e]) :=
  h.snoc fun c hc => by subst hc; exact he

theorem Firsts.installed (h : Firsts past) (hc : FirstDial past c) :
    Firsts (past ++ [⟨.install c, true⟩]) := by
  intro u c' v huv
  obtain ⟨rfl, he⟩ | ⟨v, -, hv⟩ := split_snoc huv
  · cases he
    exact hc
  · exact h u c' v hv

theorem Firsts.refused (h : Firsts past) :
    Firsts (past ++ [⟨.install c, false⟩] ++ [⟨.disconnect c, ()⟩]) :=
  (h.snoc (by simp)).quiet

theorem Ready.quiet {u : Use} {e : Event} (h : Ready u past) (he : e.Quiet := by trivial) :
    Ready u (past ++ [e]) :=
  ⟨h.unrefused.snoc he.not_refuses, fun hu => List.mem_append_left _ (h.opened hu)⟩

theorem Ready.installed {u : Use} (h : Ready u past) : Ready u (past ++ [⟨.install c, true⟩]) :=
  ⟨h.unrefused.snoc Bool.noConfusion, fun hu => List.mem_append_left _ (h.opened hu)⟩

theorem Steady.quiet {u : Use} {e : Event} (h : Steady u past) (he : e.Quiet := by trivial) :
    Steady u (past ++ [e]) :=
  ⟨h.toReady.quiet he, h.firsts.quiet he⟩

theorem Steady.installed {u : Use} (h : Steady u past) (hc : FirstDial past c) :
    Steady u (past ++ [⟨.install c, true⟩]) :=
  ⟨h.toReady.installed, h.firsts.installed hc⟩

namespace Fits

variable {u : Use} {q : Ask}

/-- The clock, and whether the link is closed, may be asked at any time. -/
theorem begin (h : Settled past) (hq : Harmless q) : Fits u past q where
  refused c hc := absurd rfl (h _ hc)
  installs c hc := by rcases hq with rfl | rfl | ⟨_, rfl⟩ <;> cases hc
  targets c hc := by rcases hq with rfl | rfl | ⟨_, rfl⟩ <;> cases hc
  opened _ := .inl hq
  closes hc := by rcases hq with rfl | rfl | ⟨_, rfl⟩ <;> cases hc

theorem plain (h : Ready u past) (hq : q.Plain := by trivial) : Fits u past q where
  refused c hc := absurd rfl (h.unrefused.settled _ hc)
  installs c hc := by subst hc; exact hq.elim
  targets c hc := by cases q <;> first | exact hq.elim | cases hc
  opened hu := .inr (h.opened hu)
  closes hc := by subst hc; exact hq.elim

theorem install (h : Ready u past) (hc : FirstDial past c ∨ Redial past c) :
    Fits u past (.install c) where
  refused c hc := absurd rfl (h.unrefused.settled _ hc)
  installs _ h := by cases h; exact hc
  targets _ h := by cases h
  opened hu := .inr (h.opened hu)
  closes h := by cases h

theorem target (h : Ready u past) (hq : q.target = some c) (hc : Took past c) :
    Fits u past q where
  refused c hc := absurd rfl (h.unrefused.settled _ hc)
  installs c hc := by subst hc; cases hq
  targets c' hc' := by cases hq.symm.trans hc'; exact hc
  opened hu := .inr (h.opened hu)
  closes hc := by subst hc; cases hq

/-- What was refused is closed. -/
theorem disconnect (h : Ready u past) :
    Fits u (past ++ [⟨.install c, false⟩]) (.disconnect c) where
  refused c' hc := by
    rw [List.getLast?_concat] at hc
    cases hc
    rfl
  installs _ h := by cases h
  targets _ h := by cases h
  opened hu := .inr (List.mem_append_left _ (h.opened hu))
  closes h := by cases h

/-- After a refusal the lock is given back. -/
theorem release (h : Ready u past) :
    Fits u (past ++ [⟨.install c, false⟩] ++ [⟨.disconnect c, ()⟩]) .release where
  refused _ h := by rw [List.getLast?_concat] at h; cases h
  installs _ h := by cases h
  targets _ h := by cases h
  opened hu := .inr (List.mem_append_left _ (List.mem_append_left _ (h.opened hu)))
  closes h := by cases h

/-- Only `close` closes the link. -/
theorem closeLink : Fits .close [] .closeLink where
  refused c hc := by cases hc
  installs _ h := by cases h
  targets _ h := by cases h
  opened h := h.elim
  closes _ := rfl

end Fits

/-! ## The parts of a call -/

variable {l : Link} {u : Use}

/-- What `Link.install` has done. -/
inductive Installed (past : List Event) (c : Connection) : List Event → Result Unit → Prop
  | installed : Installed past c (past ++ [⟨.install c, true⟩]) (.ok ())
  | refused {e : Error} :
    Installed past c (past ++ [⟨.install c, false⟩] ++ [⟨.disconnect c, ()⟩]) (.error e)

theorem install_obeys (h : Ready u past) (hc : FirstDial past c ∨ Redial past c) :
    (l.install c).Obeys (Fits u) (Installed past c) past := by
  refine .step (.install h hc) fun installed => ?_
  match installed with
  | true => exact .pure .installed
  | false => exact .step (.disconnect h) fun _ => .pure .refused

/-- The same with a log line after success. -/
theorem install_log_obeys {line : LogLine} (h : Ready u past)
    (hc : FirstDial past c ∨ Redial past c) :
    ((l.install c).andThen fun _ => do
      Task.log line
      return .ok ()).Obeys (Fits u) (Installed past c) past := by
  refine (install_obeys h hc).andThen (fun past' _ hi => ?_) fun _ _ => id
  cases hi
  exact .log (.plain h.installed) (.pure .installed)

/-- What is known after `Link.connection`. -/
inductive Connected (u : Use) (past : List Event) : Result Connection → Prop
  | ok {c : Connection} : Steady u past → Took past c → Connected u past (.ok c)
  | error {e : Error} : Settled past → Firsts past → Connected u past (.error e)

theorem connection_obeys (h : Unrefused past) (hf : Firsts past) :
    l.connection.Obeys (Fits u) (Connected u) past := by
  refine .step (.begin h.settled (.inr (.inl rfl))) fun closed => ?_
  match closed with
  | true => exact .pure (.error (.snoc id) hf.quiet)
  | false =>
    have h₁ : Steady u (past ++ [⟨.isClosed, false⟩]) :=
      ⟨⟨h.snoc id, fun _ => List.mem_append_right _ (List.mem_singleton.2 rfl)⟩, hf.quiet⟩
    refine .step (.plain h₁.toReady) fun known => ?_
    match known with
    | some c => exact .pure (.ok h₁.quiet (.inl (by simp)))
    | none =>
      have h₂ := h₁.quiet (e := ⟨.current, none⟩)
      refine .step (.plain h₂.toReady) fun _ => ?_
      have h₃ := h₂.quiet (e := ⟨.acquire, ()⟩)
      refine .step (.plain h₃.toReady) fun known => ?_
      match known with
      | some c =>
        have h₄ := h₃.quiet (e := ⟨.current, some c⟩)
        exact .step (.plain h₄.toReady) fun _ => .pure (.ok h₄.quiet (.inl (by simp)))
      | none =>
        have h₄ := h₃.quiet (e := ⟨.current, none⟩)
        refine .step (.plain h₄.toReady) fun dialed => ?_
        have h₅ := h₄.quiet (e := ⟨.dial, dialed⟩)
        match dialed with
        | .error e =>
          exact .step (.plain h₅.toReady) fun _ => .pure (.error (.snoc id) h₅.quiet.firsts)
        | .ok c =>
          have hi := install_obeys (l := l) h₅.toReady (.inl firstDial_dialed)
          refine hi.bind fun past' installed hi => ?_
          cases hi with
          | installed =>
            have h₆ := h₅.installed firstDial_dialed
            refine .step (.plain h₆.toReady) fun _ => ?_
            exact .pure (.ok h₆.quiet (.inr (by simp)))
          | refused =>
            refine .step (.release h₅.toReady) fun _ => ?_
            exact .pure (.error (.snoc id) h₅.firsts.refused.quiet)

/-- What is known after `Link.exec`. -/
inductive Executed (u : Use) (past : List Event) : ExecResult → Prop
  | finished {output : Finished} : Steady u past → Executed u past (.finished output)
  | notStarted {message : String} : Settled past → Firsts past →
    Executed u past (.notStarted message)

theorem exec_obeys {command : String} {stdin : Option (List UInt8)} {mode : StderrMode}
    (h : Unrefused past) (hf : Firsts past) :
    (l.exec command stdin mode).Obeys (Fits u) (Executed u) past := by
  refine (connection_obeys h hf).bind fun past' r hr => ?_
  cases hr with
  | error hs hf => exact .pure (.notStarted hs hf)
  | ok hs hc =>
    refine .step (.target hs.toReady rfl hc) fun ran => ?_
    have h₁ := hs.quiet (e := ⟨.run _ command stdin mode, ran⟩)
    match ran with
    | .ok output => exact .pure (.finished h₁)
    | .error e => exact .pure (.notStarted h₁.unrefused.settled h₁.firsts)

/-- What is known after a part of a restart. -/
inductive Passed {α : Type} (u : Use) (past : List Event) : Result α → Prop
  | ok {a : α} : Steady u past → Passed u past (.ok a)
  | error {e : Error} : Settled past → Firsts past → Passed u past (.error e)

theorem Passed.of_steady {α : Type} (h : Steady u past) : ∀ r : Result α, Passed u past r
  | .ok _ => .ok h
  | .error _ => .error h.unrefused.settled h.firsts

theorem runCommand_obeys {command : String} {args : List String} {stdin : Option (List UInt8)}
    {mode : StderrMode} (h : Unrefused past) (hf : Firsts past) :
    (l.runCommand command args stdin mode).Obeys (Fits u) (Passed u) past := by
  refine (exec_obeys h hf).bind fun past' r hr => .pure ?_
  cases hr with
  | notStarted hs hf => exact .error hs hf
  | @finished output hs =>
    by_cases h₀ : output.status = 0
    · simpa [ExecResult.intoStdout, h₀] using Passed.ok hs
    · simpa [ExecResult.intoStdout, h₀] using Passed.error hs.unrefused.settled hs.firsts

theorem deadline_obeys {d : Duration} (h : Settled past) :
    (Task.deadline d).Obeys (Fits u)
      (fun past' _ => ∃ now, past' = past ++ [⟨.now, now⟩]) past := by
  refine .step (.begin h (.inl rfl)) fun now => ?_
  split
  · exact .pure ⟨now, rfl⟩
  · exact .step (.begin (.snoc id) (.inr (.inr ⟨_, rfl⟩))) fun never => never.elim

/-- What is known after `Link.redial`. -/
inductive Redialed (u : Use) (past : List Event) : Result Unit → Prop
  | ok : Ready u past → Redialed u past (.ok ())
  | error {e : Error} : Settled past → Firsts past → Redialed u past (.error e)

theorem redial_obeys {timeout : Duration} {deadline : Instant} (h : Steady u past) :
    (l.redial timeout deadline).Obeys (Fits u) (Redialed u) past := by
  refine .step (.plain h.toReady) fun _ => ?_
  have h₁ := h.quiet (e := ⟨.acquire, ()⟩)
  refine .step (.plain h₁.toReady) fun dialed => ?_
  have h₂ := h₁.quiet (e := ⟨.dialBefore deadline, dialed⟩)
  match dialed with
  | none =>
    refine .log (.plain h₂.toReady) ?_
    exact .step (.plain h₂.toReady) fun _ => .pure (.error (.snoc id) h₂.quiet.firsts)
  | some (.error e) =>
    exact .step (.plain h₂.toReady) fun _ => .pure (.error (.snoc id) h₂.quiet.firsts)
  | some (.ok c) =>
    refine (install_log_obeys h₂.toReady (.inr redial_dialedBefore)).bind fun past' r hi => ?_
    cases hi with
    | installed =>
      have h₃ := h₂.toReady.installed (c := c)
      exact .step (.plain h₃) fun _ => .pure (.ok h₃.quiet)
    | refused =>
      refine .step (.release h₂.toReady) fun _ => ?_
      exact .pure (.error (.snoc id) h₂.firsts.refused.quiet)

/-! ## Whole calls -/

theorem unrefused_nil : Unrefused [] := by simp [Unrefused]

theorem firsts_nil : Firsts [] := fun u c v h => by cases u <;> cases h

namespace Ends

variable {r : Reply}

/-- A call that did not fail. -/
theorem of_ready (h : Ready u past) (hr : ¬ r.Failed)
    (hc : ∀ c, r = .connect (.ok c) → Took past c) : Ends u past r where
  settled := h.unrefused.settled
  ready _ := h
  took := hc
  reconnect _ h := absurd h hr
  restart _ _ _ h := absurd h hr

/-- A call that failed, for a use that looks whether the link is closed. -/
theorem of_failed (hu : u.Checks) (hs : Settled past) (hf : Firsts past) (hr : r.Failed) :
    Ends u past r where
  settled := hs
  ready h := absurd hr h
  took c hc := by subst hc; obtain ⟨e, ⟨⟩⟩ := hr
  reconnect hu' := by subst hu'; exact hu.elim
  restart _ _ _ _ := hf

/-- A call that failed to replace the connection. -/
theorem of_unchanged (hs : Settled past) (hp : ∀ c, (⟨.install c, true⟩ : Event) ∉ past)
    (hr : r.Failed) : Ends .reconnect past r where
  settled := hs
  ready h := absurd hr h
  took c hc := by subst hc; obtain ⟨e, ⟨⟩⟩ := hr
  reconnect _ _ := hp
  restart _ _ hu := by cases hu

end Ends

theorem Passed.ends {α : Type} {r : Result α} (h : Passed u past r) (hu : u.Checks)
    {reply : Result α → Reply} (hr : ∀ r, (reply r).Failed ↔ ∃ e, r = .error e)
    (hc : ∀ r c, reply r ≠ .connect (.ok c)) : Ends u past (reply r) := by
  cases h with
  | ok h => exact .of_ready h.toReady (by simp [hr]) fun c h => absurd h (hc _ c)
  | error hs hf => exact .of_failed hu hs hf ((hr _).2 ⟨_, rfl⟩)

/-- A call that does one thing with the current connection. -/
theorem andThen_obeys {α : Type} {t : Connection → Task (Result α)}
    (ht : ∀ past c, Steady u past → Took past c → (t c).Obeys (Fits u) (Passed u) past) :
    (l.connection.andThen t).Obeys (Fits u) (Passed u) [] := by
  refine (connection_obeys unrefused_nil firsts_nil).andThen (fun past c h => ?_) fun past e h => ?_
  · cases h with
    | ok hs hc => exact ht past c hs hc
  · cases h with
    | error hs hf => exact .error hs hf

theorem forceReconnect_obeys : l.forceReconnect.Obeys (Fits .reconnect)
    (fun past r => Ends .reconnect past (.reconnect r)) [] := by
  have h₀ : Ready .reconnect [] := ⟨unrefused_nil, False.elim⟩
  refine .step (.plain h₀) fun _ => ?_
  have h₁ := h₀.quiet (e := ⟨.acquire, ()⟩)
  refine .ask (q := .dial) (.plain h₁) fun dialed => ?_
  have h₂ := h₁.quiet (e := ⟨.dial, dialed⟩)
  cases dialed with
  | error e =>
    exact .step (.plain h₂) fun _ => .pure (.of_unchanged (.snoc id) (by simp [Ask.record]) ⟨_, rfl⟩)
  | ok c =>
    refine (install_log_obeys h₂ (.inr redial_dialed)).bind fun past' r hi => ?_
    cases hi with
    | installed =>
      have h₃ := h₂.installed (c := c)
      refine .step (.plain h₃) fun _ => .pure ?_
      exact .of_ready h₃.quiet (by simp [Reply.Failed]) (by simp)
    | refused =>
      refine .step (.release h₂) fun _ => .pure ?_
      exact .of_unchanged (.snoc id) (by simp) ⟨_, rfl⟩

theorem restart_obeys {args : List String} {timeout : Duration} :
    (l.restart args timeout).Obeys (Fits (.restart args timeout))
      (fun past r => Ends (.restart args timeout) past (.restart r)) [] := by
  refine (deadline_obeys unrefused_nil.settled).bind ?_
  rintro _ deadline ⟨now, rfl⟩
  have h₀ : Unrefused ([] ++ [⟨.now, now⟩]) := unrefused_nil.snoc id
  refine (connection_obeys h₀ firsts_nil.quiet).andThen (fun past old h => ?_) fun past e h => ?_
  · cases h with
    | ok hs hold =>
      refine (runCommand_obeys hs.unrefused hs.firsts).grows.andThen
        (fun past' output ⟨hp, h⟩ => ?_) fun past' e ⟨_, h⟩ => ?_
      · cases h with
        | ok h =>
          refine .log (.plain h.toReady) ?_
          refine .step (.target h.toReady rfl (hold.mono hp)) fun dropped => ?_
          have h₁ := h.quiet (e := ⟨.awaitCloseBefore old deadline, dropped⟩)
          have hs₁ := h₁.unrefused.settled
          match dropped with
          | none =>
            exact .log (.plain h₁.toReady) (.pure (.of_failed trivial hs₁ h₁.firsts ⟨_, rfl⟩))
          | some (.error e) => exact .pure (.of_failed trivial hs₁ h₁.firsts ⟨_, rfl⟩)
          | some (.ok ()) =>
            refine (redial_obeys h₁).andThen (fun past r h => .pure ?_) fun past e h => ?_
            · cases h with
              | ok h => exact .of_ready h (by simp [Reply.Failed]) (by simp)
            · cases h with
              | error hs hf => exact .of_failed trivial hs hf ⟨_, rfl⟩
      · cases h with
        | error hs hf => exact .of_failed trivial hs hf ⟨_, rfl⟩
  · cases h with
    | error hs hf => exact .of_failed trivial hs hf ⟨_, rfl⟩

/-- **Every use of a link keeps to what it may ask, and to what it may end with.** -/
theorem Use.obeys (l : Link) (u : Use) : (u.task l).Obeys (Fits u) (Ends u) [] := by
  cases u with
  | connect =>
    refine (connection_obeys unrefused_nil firsts_nil).bind fun past r hr => .pure ?_
    cases hr with
    | ok hs hc =>
      refine .of_ready hs.toReady (by simp [Reply.Failed]) fun c' h => ?_
      cases h
      exact hc
    | error hs hf => exact .of_failed trivial hs hf ⟨_, rfl⟩
  | exec command stdin mode =>
    refine (exec_obeys unrefused_nil firsts_nil).bind fun past r hr => .pure ?_
    cases hr with
    | finished hs => exact .of_ready hs.toReady (by simp [Reply.Failed]) (by simp)
    | notStarted hs hf => exact .of_failed trivial hs hf ⟨_, rfl⟩
  | stream command =>
    refine .bind (andThen_obeys fun past c hs hc => ?_) fun past r hr => .pure ?_
    · refine .query (q := .start c command) (.target hs.toReady rfl hc) fun r => ?_
      exact .of_steady hs.quiet r
    · exact hr.ends trivial (fun _ => Iff.rfl) (by simp)
  | reconnect => exact forceReconnect_obeys.bind fun _ _ h => .pure h
  | wait =>
    refine .bind (andThen_obeys fun past c hs hc => ?_) fun past r hr => .pure ?_
    · refine .query (q := .awaitClose c) (.target hs.toReady rfl hc) fun r => ?_
      exact .of_steady hs.quiet r
    · exact hr.ends trivial (fun _ => Iff.rfl) (by simp)
  | restart args timeout => exact restart_obeys.bind fun _ _ h => .pure h
  | close =>
    have h₀ : Ready .close [] := ⟨unrefused_nil, False.elim⟩
    have hend : ∀ past, Ready .close past → Ends .close past .close :=
      fun past h => .of_ready h id (by simp)
    refine .ask (q := .closeLink) .closeLink fun closed => ?_
    have h₁ := h₀.quiet (e := ⟨.closeLink, closed⟩)
    match closed with
    | none => exact .pure (hend _ h₁)
    | some c => exact .step (.plain h₁) fun _ => .pure (hend _ h₁.quiet)

end Link

end Reimage
