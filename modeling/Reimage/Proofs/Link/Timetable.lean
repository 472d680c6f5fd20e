/-
  A restart on a clock.

  A timetable says when the things happen that a restart may wait for: how long a session runs and
  how it ends, when a connection closes, how long a dial takes. A restart waits once for each of
  them, so a timetable that is fixed from the start covers every device, also one that reacts to
  what it is told.

  A wait with a deadline looks for its object first and for the deadline then, when it begins and
  whenever something has happened. So it gets what comes by the deadline, also right at it, and what
  was there when it began.

  * `Timetable.answer`: the answers that a call gets while no other is in flight;
  * `Timetable.restart`: what becomes of a restart in them;
  * `Timetable.Course`: the courses a restart may take, and `Timetable.restart_course`: it takes one
    of them.
-/
import Reimage.Proofs.Link.Open
import Reimage.Proofs.Play

namespace Reimage

/-- What comes in a restart after its command has printed `output`. -/
def Link.awaitReboot (l : Link) (timeout : Duration) (deadline : Instant) (old : Connection)
    (output : String) : Task (Result String) := do
  Task.log (.info ("Reboot issued on " ++ l.dut ++ ", waiting for the connection to drop"))
  match ← Task.ask (.awaitCloseBefore old deadline) with
  | none =>
    Task.log (.warn (l.dut ++ " did not go down within " ++ timeout.text))
    return .error (.rebootTimeout timeout)
  | some (.error e) => return .error e
  | some (.ok ()) => (l.redial timeout deadline).andThen fun _ => pure (.ok output)

theorem Link.restart_eq (l : Link) (args : List String) (timeout : Duration) :
    l.restart args timeout = (do
      let deadline ← Task.deadline timeout
      l.connection.andThen fun old =>
        (l.runCommand "reboot" args).andThen (l.awaitReboot timeout deadline old)) := rfl

/-! ## Time -/

/-- The point `d` after `t`, on a clock that can show every point. -/
def Instant.plus (t : Instant) (d : Duration) : Instant := ⟨t.nanos + d.nanos⟩

theorem Instant.nanos_of_after? {t next : Instant} {d : Duration} (h : t.after? d = some next) :
    next.nanos = t.nanos + d.nanos := by
  rw [after?] at h
  split at h
  · cases h
    rfl
  · cases h

/-- The later of two points. -/
def Instant.later (t u : Instant) : Instant := ⟨max t.nanos u.nanos⟩

/-- What is there from `ready` on is seen by a wait that begins at `t` and gives up at
    `deadline`. -/
def Timely (t deadline ready : Instant) : Prop :=
  ready.nanos ≤ t.nanos ∨ ready.nanos ≤ deadline.nanos

instance (t deadline ready : Instant) : Decidable (Timely t deadline ready) :=
  inferInstanceAs (Decidable (_ ∨ _))

@[simp] theorem timely_later {t deadline ready : Instant} :
    Timely t deadline (t.later ready) ↔ Timely t deadline ready := by
  simp only [Timely, Instant.later]
  omega

/-- A wait that begins at `t` and gives up at `deadline`, for what is there from some point on.
    Gives what was seen, and when. -/
def race {α : Type} (t deadline : Instant) : Option (Instant × α) → Option α × Instant
  | none => (none, t.later deadline)
  | some (ready, a) =>
    if Timely t deadline ready then (some a, t.later ready) else (none, t.later deadline)

theorem race_timely {α : Type} {t deadline ready : Instant} {a : α}
    (h : Timely t deadline ready) : race t deadline (some (ready, a)) = (some a, t.later ready) :=
  if_pos h

theorem race_late {α : Type} {t deadline : Instant} {o : Option (Instant × α)}
    (h : ∀ ready a, o = some (ready, a) → ¬Timely t deadline ready) :
    race t deadline o = (none, t.later deadline) := by
  rcases o with _ | ⟨ready, a⟩
  · rfl
  · exact if_neg (h ready a rfl)

/-! ## Timetables -/

/-- How a session ends that was opened to run a command. -/
inductive SessionEnd
  /-- The device never saw the command. -/
  | refused (e : Error)
  /-- The device carried the command out, but its status did not come. -/
  | lost (e : Error)
  | exited (f : Finished)
  deriving Inhabited

/-- What is told of a session that has ended. -/
def SessionEnd.told : SessionEnd → Result Finished
  | refused e => .error e
  | lost e => .error e
  | exited f => .ok f

/-- When things happen. What is missing never does. -/
structure Timetable where
  /-- How long a session takes that begins at some point, and how it ends. -/
  session : Connection → String → Option (List UInt8) → StderrMode → Instant →
    Option (Duration × SessionEnd)
  /-- From when on a connection is closed, and what those are told who wait for that. -/
  closing : Connection → Option (Instant × Result Unit)
  /-- How long a dial takes that begins at some point, and what it gives. -/
  dialing : Instant → Option (Duration × Result Connection)

/-- The clock, and what is current on the link. -/
structure Moment where
  clock : Instant
  slot : Current
  deriving DecidableEq, Repr, Inhabited

namespace Timetable

/-- The answers that a call gets while no other is in flight. The lock is free. -/
def answer (w : Timetable) : Answers Moment
  | .log _, m | .acquire, m | .release, m | .disconnect _, m => some ((), m)
  | .now, m => some (m.clock, m)
  | .isClosed, m => some (m.slot.closed, m)
  | .current, m => some (m.slot.connection, m)
  | .install c, m => some ((m.slot.install c).2, { m with slot := (m.slot.install c).1 })
  | .run c line stdin mode, m =>
    (w.session c line stdin mode m.clock).map fun (d, s) =>
      (s.told, { m with clock := m.clock.plus d })
  | .dial, m =>
    (w.dialing m.clock).map fun (d, r) => (r, { m with clock := m.clock.plus d })
  | .awaitCloseBefore c deadline, m =>
    let (r, t) := race m.clock deadline (w.closing c)
    some (r, { m with clock := t })
  | .dialBefore deadline, m =>
    let (r, t) := race m.clock deadline
      ((w.dialing m.clock).map fun (d, r) => (m.clock.plus d, r))
    some (r, { m with clock := t })
  | _, _ => none

/-- What becomes of a call: what it asked, how it left the link, and its result if it ended. -/
structure Outcome where
  trace : List Event
  moment : Moment
  result : Option (Result String)

/-- What becomes of a restart that begins at `now`, where `old` is current and no other call is in
    flight. -/
def restart (w : Timetable) (l : Link) (args : List String) (timeout : Duration) (old : Connection)
    (now : Instant) : Outcome :=
  let (tr, (_, m), o) := (l.restart args timeout).play w.answer (none, ⟨now, ⟨some old, false⟩⟩)
  ⟨tr, m, o⟩

/-! ## What a restart waits for -/

/-- The session of the reboot command, begun at `t`, ends at `t'` as `s` says. -/
def Issues (w : Timetable) (old : Connection) (args : List String) (t t' : Instant)
    (s : SessionEnd) : Prop :=
  ∃ d, w.session old (Shell.commandLine "reboot" args) none .separate t = some (d, s) ∧
    t' = t.plus d

/-- A wait for the end of `c`, begun at `t`, can be over at `t'` and then gives `r`. -/
def Ends (w : Timetable) (c : Connection) (t t' : Instant) (r : Result Unit) : Prop :=
  ∃ ready, w.closing c = some (ready, r) ∧ t' = t.later ready

/-- A dial, begun at `t`, can be over at `t'` and then gives `r`. -/
def Dials (w : Timetable) (t t' : Instant) (r : Result Connection) : Prop :=
  ∃ d, w.dialing t = some (d, r) ∧ t' = t.plus d

section

variable {w : Timetable} {old c : Connection} {args : List String} {t t' t'' : Instant}

theorem Issues.unique {s s' : SessionEnd} (h : w.Issues old args t t' s)
    (h' : w.Issues old args t t'' s') : t' = t'' ∧ s = s' := by
  obtain ⟨d, hd, rfl⟩ := h
  obtain ⟨d', hd', rfl⟩ := h'
  cases hd.symm.trans hd'
  exact ⟨rfl, rfl⟩

theorem Ends.unique {r r' : Result Unit} (h : w.Ends c t t' r) (h' : w.Ends c t t'' r') :
    t' = t'' ∧ r = r' := by
  obtain ⟨ready, hr, rfl⟩ := h
  obtain ⟨ready', hr', rfl⟩ := h'
  cases hr.symm.trans hr'
  exact ⟨rfl, rfl⟩

theorem Dials.unique {r r' : Result Connection} (h : w.Dials t t' r) (h' : w.Dials t t'' r') :
    t' = t'' ∧ r = r' := by
  obtain ⟨d, hd, rfl⟩ := h
  obtain ⟨d', hd', rfl⟩ := h'
  cases hd.symm.trans hd'
  exact ⟨rfl, rfl⟩

end

/-! ## Redialing -/

variable {w : Timetable} {l : Link} {old : Connection} {args : List String} {timeout : Duration}
  {deadline now t : Instant} {m : Option Layout}

/-- What becomes of a redial that begins at `t`, where `old` is current. -/
inductive Redials (w : Timetable) (timeout : Duration) (deadline : Instant) (old : Connection)
    (t : Instant) : List Event → Moment → Result Unit → Prop
  /-- The dial is not over in time. -/
  | late : (∀ t' r, w.Dials t t' r → ¬Timely t deadline t') →
    Redials w timeout deadline old t
      [⟨.acquire, ()⟩, ⟨.dialBefore deadline, none⟩, ⟨.release, ()⟩]
      ⟨t.later deadline, some old, false⟩ (.error (.rebootTimeout timeout))
  | fails {t' : Instant} {e : Error} : w.Dials t t' (.error e) → Timely t deadline t' →
    Redials w timeout deadline old t
      [⟨.acquire, ()⟩, ⟨.dialBefore deadline, some (.error e)⟩, ⟨.release, ()⟩]
      ⟨t', some old, false⟩ (.error e)
  | opens {t' : Instant} {new : Connection} : w.Dials t t' (.ok new) → Timely t deadline t' →
    Redials w timeout deadline old t
      [⟨.acquire, ()⟩, ⟨.dialBefore deadline, some (.ok new)⟩, ⟨.install new, true⟩,
        ⟨.release, ()⟩]
      ⟨t', some new, false⟩ (.ok ())

/-- The answer to a dial that gives up at `deadline`. -/
theorem dialBefore_answered {r : Option (Result Connection)} {t' : Instant}
    (h : race t deadline ((w.dialing t).map fun (d, r) => (t.plus d, r)) = (r, t')) :
    (Ask.dialBefore deadline).answered w.answer (m, ⟨t, some old, false⟩) =
      some (r, (m, ⟨t', some old, false⟩)) := by
  simp only [Ask.answered, answer]
  rw [h]
  rfl

theorem redial_play (w : Timetable) (l : Link) (timeout : Duration) (deadline : Instant)
    (old : Connection) (t : Instant) (m : Option Layout) : ∃ tr m' r,
    (l.redial timeout deadline).play w.answer (m, ⟨t, some old, false⟩) = (tr, (m, m'), some r) ∧
      w.Redials timeout deadline old t tr m' r := by
  rw [Link.redial, Task.play_bind_some (Task.play_ask_some rfl)]
  by_cases h : ∃ d r, w.dialing t = some (d, r) ∧ Timely t deadline (t.plus d)
  · obtain ⟨d, r, hd, htimely⟩ := h
    have hrace : race t deadline ((w.dialing t).map fun (d, r) => (t.plus d, r)) =
        (some r, t.plus d) := by
      rw [hd]
      refine (race_timely htimely).trans (congrArg _ ?_)
      simp [Instant.later, Instant.plus]
    rw [Task.play_bind_some (Task.play_ask_some (dialBefore_answered hrace))]
    rcases r with e | new
    · exact ⟨_, _, _, rfl, .fails ⟨d, hd, rfl⟩ htimely⟩
    · exact ⟨_, _, _, rfl, .opens ⟨d, hd, rfl⟩ htimely⟩
  · have hrace : race t deadline ((w.dialing t).map fun (d, r) => (t.plus d, r)) =
        (none, t.later deadline) := by
      refine race_late fun ready r hr htimely => h ?_
      obtain ⟨⟨d, r⟩, hd, hr⟩ := Option.map_eq_some_iff.1 hr
      cases hr
      exact ⟨d, r, hd, htimely⟩
    rw [Task.play_bind_some (Task.play_ask_some (dialBefore_answered hrace))]
    refine ⟨_, _, _, rfl, .late ?_⟩
    rintro t' r ⟨d, hd, rfl⟩ htimely
    exact h ⟨d, r, hd, htimely⟩

/-! ## Waiting for the old connection to end -/

/-- What becomes of a restart whose command has ended at `t` and printed `output`. -/
inductive Awaits (w : Timetable) (timeout : Duration) (deadline : Instant) (old : Connection)
    (t : Instant) (output : String) : List Event → Moment → Result String → Prop
  /-- The old connection is not seen to end in time. -/
  | stays : (∀ t' r, w.Ends old t t' r → ¬Timely t deadline t') →
    Awaits w timeout deadline old t output [⟨.awaitCloseBefore old deadline, none⟩]
      ⟨t.later deadline, some old, false⟩ (.error (.rebootTimeout timeout))
  /-- The wait for its end fails. -/
  | fails {t' : Instant} {e : Error} : w.Ends old t t' (.error e) → Timely t deadline t' →
    Awaits w timeout deadline old t output
      [⟨.awaitCloseBefore old deadline, some (.error e)⟩] ⟨t', some old, false⟩ (.error e)
  /-- It is seen to end, and the device is dialed again. -/
  | redials {t' : Instant} {tr : List Event} {m : Moment} {r : Result Unit} :
    w.Ends old t t' (.ok ()) → Timely t deadline t' →
    w.Redials timeout deadline old t' tr m r →
    Awaits w timeout deadline old t output
      (⟨.awaitCloseBefore old deadline, some (.ok ())⟩ :: tr) m (r.map fun _ => output)

theorem awaitCloseBefore_answered {r : Option (Result Unit)} {t' : Instant}
    (h : race t deadline (w.closing old) = (r, t')) :
    (Ask.awaitCloseBefore old deadline).answered w.answer (m, ⟨t, some old, false⟩) =
      some (r, (m, ⟨t', some old, false⟩)) := by
  simp only [Ask.answered, answer]
  rw [h]
  rfl

theorem awaitReboot_play (w : Timetable) (l : Link) (timeout : Duration) (deadline : Instant)
    (old : Connection) (output : String) (t : Instant) (m : Option Layout) : ∃ tr m' r,
    (l.awaitReboot timeout deadline old output).play w.answer (m, ⟨t, some old, false⟩) =
      (tr, (m, m'), some r) ∧ w.Awaits timeout deadline old t output tr m' r := by
  rw [Link.awaitReboot, Task.log, Task.play_bind_some (Task.play_ask_some rfl)]
  by_cases h : ∃ ready r, w.closing old = some (ready, r) ∧ Timely t deadline ready
  · obtain ⟨ready, r, hr, htimely⟩ := h
    have hrace : race t deadline (w.closing old) = (some r, t.later ready) :=
      hr ▸ race_timely htimely
    have hends : w.Ends old t (t.later ready) r := ⟨ready, hr, rfl⟩
    rw [← timely_later] at htimely
    rw [Task.play_bind_some (Task.play_ask_some (awaitCloseBefore_answered hrace))]
    rcases r with e | ⟨⟨⟩⟩
    · exact ⟨_, _, _, rfl, .fails hends htimely⟩
    · obtain ⟨tr, m', r, hplay, hredials⟩ := redial_play w l timeout deadline old (t.later ready) m
      refine ⟨_, m', r.map fun _ => output, ?_, .redials hends htimely hredials⟩
      simp only [Task.play_andThen_pure hplay]
      rfl
  · have hrace : race t deadline (w.closing old) = (none, t.later deadline) :=
      race_late fun ready r hr htimely => h ⟨ready, r, hr, htimely⟩
    rw [Task.play_bind_some (Task.play_ask_some (awaitCloseBefore_answered hrace))]
    refine ⟨_, _, _, rfl, .stays ?_⟩
    rintro t' r ⟨ready, hr, rfl⟩ htimely
    exact h ⟨ready, r, hr, timely_later.1 htimely⟩

/-! ## Restarting -/

/-- What a restart has asked when the session of its command has ended. -/
def issued (old : Connection) (args : List String) (now : Instant) (s : SessionEnd) : List Event :=
  ⟨.now, now⟩ :: (Link.found old ++
    Link.sent old (Shell.commandLine "reboot" args) none .separate s.told)

/-- The courses that a restart may take. -/
inductive Course (w : Timetable) (args : List String) (timeout : Duration) (old : Connection)
    (now : Instant) : Outcome → Prop
  /-- The clock cannot show the deadline. -/
  | overflow : now.after? timeout = none →
    Course w args timeout old now ⟨[⟨.now, now⟩], ⟨now, some old, false⟩, none⟩
  /-- The session of the command never ends. -/
  | hangs {deadline : Instant} : now.after? timeout = some deadline →
    w.session old (Shell.commandLine "reboot" args) none .separate now = none →
    Course w args timeout old now
      ⟨⟨.now, now⟩ :: (Link.found old ++ Link.found old), ⟨now, some old, false⟩, none⟩
  /-- The command does not end with status zero. -/
  | fails {deadline exited : Instant} {s : SessionEnd} {e : Error} :
    now.after? timeout = some deadline → w.Issues old args now exited s →
    (ExecResult.ofAttempt s.told).intoStdout (Shell.commandLine "reboot" args) = .error e →
    Course w args timeout old now
      ⟨issued old args now s, ⟨exited, some old, false⟩, some (.error e)⟩
  | awaits {deadline exited : Instant} {f : Finished} {tr : List Event} {m : Moment}
      {r : Result String} :
    now.after? timeout = some deadline → w.Issues old args now exited (.exited f) → f.status = 0 →
    w.Awaits timeout deadline old exited (Text.Utf8.lossy f.stdout) tr m r →
    Course w args timeout old now ⟨issued old args now (.exited f) ++ tr, m, some r⟩

theorem connection_play :
    l.connection.play w.answer (m, ⟨t, some old, false⟩) =
      (Link.found old, (m, ⟨t, some old, false⟩), some (.ok old)) := rfl

section

variable {command : String}

theorem runCommand_play_none
    (h : w.session old (Shell.commandLine command args) none .separate t = none) :
    (l.runCommand command args).play w.answer (m, ⟨t, some old, false⟩) =
      (Link.found old, (m, ⟨t, some old, false⟩), none) := by
  have hrun : (Ask.run old (Shell.commandLine command args) none .separate).answered w.answer
      (m, ⟨t, some old, false⟩) = none := by
    simp [Ask.answered, answer, h]
  refine Task.play_bind_none ?_
  rw [Link.exec, Task.play_bind_some connection_play]
  simp only
  rw [Task.play_bind_none (Task.play_ask_none hrun), List.append_nil]

theorem runCommand_play_some {d : Duration} {s : SessionEnd}
    (h : w.session old (Shell.commandLine command args) none .separate t = some (d, s)) :
    (l.runCommand command args).play w.answer (m, ⟨t, some old, false⟩) =
      (Link.sent old (Shell.commandLine command args) none .separate s.told,
        (m, ⟨t.plus d, some old, false⟩),
        some ((ExecResult.ofAttempt s.told).intoStdout (Shell.commandLine command args))) := by
  have hrun : (Ask.run old (Shell.commandLine command args) none .separate).answered w.answer
      (m, ⟨t, some old, false⟩) = some (s.told, (m, ⟨t.plus d, some old, false⟩)) := by
    simp [Ask.answered, answer, h]
  have hexec : (l.exec (Shell.commandLine command args)).play w.answer
      (m, ⟨t, some old, false⟩) =
        (Link.sent old (Shell.commandLine command args) none .separate s.told,
          (m, ⟨t.plus d, some old, false⟩), some (.ofAttempt s.told)) := by
    rw [Link.exec, Task.play_bind_some connection_play]
    simp only
    rw [Task.play_bind_some (Task.play_ask_some hrun)]
    rfl
  rw [Link.runCommand, Task.play_bind_some hexec]
  rfl

end

theorem deadline_play (w : Timetable) (old : Connection) (d : Duration) (t : Instant)
    (m : Option Layout) :
    (Task.deadline d).play w.answer (m, ⟨t, some old, false⟩) =
      ([⟨.now, t⟩], (m, ⟨t, some old, false⟩), t.after? d) := by
  have hnow : (Ask.now).answered w.answer (m, ⟨t, some old, false⟩) =
      some (t, (m, ⟨t, some old, false⟩)) := rfl
  rw [Task.deadline, Task.play_bind_some (Task.play_ask_some hnow)]
  cases t.after? d <;> rfl

/-- **The courses of a restart.** There is no other. -/
theorem restart_course (w : Timetable) (l : Link) (args : List String) (timeout : Duration)
    (old : Connection) (now : Instant) :
    w.Course args timeout old now (w.restart l args timeout old now) := by
  have hdue := deadline_play w old timeout now none
  rw [restart, Link.restart_eq]
  cases hdeadline : now.after? timeout with
  | none =>
    rw [hdeadline] at hdue
    rw [Task.play_bind_none hdue]
    exact .overflow hdeadline
  | some deadline =>
    rw [hdeadline] at hdue
    rw [Task.play_bind_some hdue, Task.play_andThen_ok connection_play]
    cases hsession : w.session old (Shell.commandLine "reboot" args) none .separate now with
    | none =>
      rw [Task.play_andThen_none (runCommand_play_none hsession)]
      exact .hangs hdeadline hsession
    | some r =>
      obtain ⟨d, s⟩ := r
      have hissues : w.Issues old args now (now.plus d) s := ⟨d, hsession, rfl⟩
      have hplay := runCommand_play_some (l := l) (m := none) hsession
      cases hprinted : (ExecResult.ofAttempt s.told).intoStdout
        (Shell.commandLine "reboot" args) with
      | error e =>
        rw [hprinted] at hplay
        rw [Task.play_andThen_error hplay]
        exact .fails hdeadline hissues hprinted
      | ok out =>
        obtain ⟨tr, m', r, hawaits, hcourse⟩ :=
          awaitReboot_play w l timeout deadline old out (now.plus d) none
        rw [hprinted] at hplay
        rw [Task.play_andThen_ok hplay]
        simp only [hawaits]
        obtain ⟨f, hf, hstatus, rfl⟩ := ExecResult.intoStdout_eq_ok.1 hprinted
        have hexited : s = .exited f := by
          cases s <;> simp_all [SessionEnd.told, ExecResult.ofAttempt]
        subst hexited
        simpa [issued] using Course.awaits hdeadline hissues hstatus hcourse

end Timetable
end Reimage
