/-
  Runs on a device that does the same again.

  What such a device answers to a command, and how long that takes, depends on the command and on
  how often the device was rebooted before, and on nothing else. Two tasks that run side by side
  move in any order that is given, and each goes on by a clock of its own; once both are done it is
  as late as it is for the later one.

  * `Habits.answer`: the answers that a run gets from the device;
  * `Habits.sideBySide`, `Habits.play`: what two tasks and what a procedure do there;
  * `Habits.run_play`: that is a run of the procedure;
  * `Habits.play_bind`: one procedure after another.
-/
import Reimage.Proofs.Install.Reboots
import Reimage.Proofs.Link.Timetable

namespace Reimage

variable {α β : Type}

/-- What becomes of commands, dials and connections after some number of reboots, and how long that
    takes. A connection may never close. -/
structure Habits where
  session : (reboots : Nat) → (line : String) → Option (List UInt8) → StderrMode →
    Duration × SessionEnd
  dialing : (reboots : Nat) → Duration × Result Connection
  closing : (reboots : Nat) → Option (Duration × Result Unit)

/-- The clock, what is current on the link, and how often the device was rebooted. -/
structure Scene where
  clock : Instant
  slot : Current
  reboots : Nat
  deriving DecidableEq, Repr, Inhabited

/-- A scene with the layout that is remembered. -/
abbrev Setting := Option Layout × Scene

/-- The same by another clock. -/
def byClock (t : Instant) (s : Setting) : Setting := (s.1, { s.2 with clock := t })

namespace Interleaved

variable {u v tr : List Event}

theorem append_left (h : Interleaved u v tr) : ∀ t, Interleaved (t ++ u) v (t ++ tr)
  | [] => h
  | _ :: t => .left (append_left h t)

theorem append_right (h : Interleaved u v tr) : ∀ t, Interleaved u (t ++ v) (t ++ tr)
  | [] => h
  | _ :: t => .right (append_right h t)

end Interleaved

namespace Habits

/-- The answers that a run gets. Both of two tasks that run side by side find the connection of
    earlier commands, so nobody waits for the lock. -/
def answer (w : Habits) : Answers Scene
  | .log _, s | .acquire, s | .release, s | .disconnect _, s | .guard _, s | .unguard, s =>
    some ((), s)
  | .now, s => some (s.clock, s)
  | .sleep t, s => some ((), { s with clock := s.clock.later t })
  | .isClosed, s => some (s.slot.closed, s)
  | .current, s => some (s.slot.connection, s)
  | .install c, s => some ((s.slot.install c).2, { s with slot := (s.slot.install c).1 })
  | .run _ line stdin mode, s =>
    let (d, e) := w.session s.reboots line stdin mode
    some (e.told, { s with
      clock := s.clock.plus d, reboots := if Reboots line then s.reboots + 1 else s.reboots })
  | .dial, s =>
    let (d, r) := w.dialing s.reboots
    some (r, { s with clock := s.clock.plus d })
  | .awaitCloseBefore _ deadline, s =>
    let (r, t) := race s.clock deadline
      ((w.closing s.reboots).map fun (d, r) => (s.clock.plus d, r))
    some (r, { s with clock := t })
  | .dialBefore deadline, s =>
    let (d, r) := w.dialing s.reboots
    let (r, t) := race s.clock deadline (some (s.clock.plus d, r))
    some (r, { s with clock := t })
  | _, _ => none

/-! ## Side by side -/

/-- The next move of a task, if it has one. -/
def move? (w : Habits) : Task α → Setting → Option (List Event × Task α × Setting)
  | Program.done _, _ => none
  | Program.ask q next, s => (q.answered w.answer s).map fun (a, s) => (q.record a, next a, s)

/-- Runs two tasks side by side, each with its clock. `order` tells for each move whether it is one
    of the first task; after that the first one goes on to its end, and then the second. -/
def sideBySide (w : Habits) : (order : List Bool) → Task α × Instant → Task β × Instant → Setting →
    List Event × Setting × Option (α × β)
  | [], (left, t), (right, t'), s =>
    let (u, s, a) := left.play w.answer (byClock t s)
    let (v, s', b) := right.play w.answer (byClock t' s)
    (u ++ v, byClock (s.2.clock.later s'.2.clock) s', a.bind fun a => b.map fun b => (a, b))
  | true :: order, (left, t), right, s =>
    match w.move? left (byClock t s) with
    | none => w.sideBySide order (left, t) right s
    | some (u, left, s) =>
      let (v, r) := w.sideBySide order (left, s.2.clock) right s
      (u ++ v, r)
  | false :: order, left, (right, t), s =>
    match w.move? right (byClock t s) with
    | none => w.sideBySide order left (right, t) s
    | some (u, right, s) =>
      let (v, r) := w.sideBySide order left (right, s.2.clock) s
      (u ++ v, r)

/-- Runs a procedure. Gives the trace, the setting at its end, and the result if there is one. -/
def play (w : Habits) (order : List Bool) : Procedure α → Setting →
    List Event × Setting × Option α
  | .done a, s => ([], s, some a)
  | .ask (.one q) next, s =>
    match q.answered w.answer s with
    | none => ([], s, none)
    | some (a, s) =>
      let (t, r) := w.play order (next a) s
      (q.record a ++ t, r)
  | .ask (.both left right) next, s =>
    match w.sideBySide order (left, s.2.clock) (right, s.2.clock) s with
    | (t, s, none) => (t, s, none)
    | (t, s, some a) =>
      let (u, r) := w.play order (next a) s
      (t ++ u, r)

variable {w : Habits} {order : List Bool}

theorem run_move {t t' : Task α} {s s' : Setting} {u v : List Event} {o : Option α}
    (h : w.move? t s = some (u, t', s')) (ht : t'.Run v o) : t.Run (u ++ v) o := by
  cases t with
  | done a => cases h
  | ask q next =>
    obtain ⟨⟨a, s⟩, -, hr⟩ := Option.map_eq_some_iff.1 h
    cases hr
    exact .ask ⟨a, rfl, rfl⟩ ht

/-- What is done side by side is a run of either task. -/
theorem run_sideBySide (w : Habits) (order : List Bool) (left : Task α × Instant)
    (right : Task β × Instant) (s : Setting) :
    ∃ u v l r, left.1.Run u l ∧ right.1.Run v r ∧
      Interleaved u v (w.sideBySide order left right s).1 ∧
      (w.sideBySide order left right s).2.2 = l.bind fun a => r.map fun b => (a, b) := by
  induction order generalizing left right s with
  | nil =>
    obtain ⟨left, t⟩ := left
    obtain ⟨right, t'⟩ := right
    rw [sideBySide]
    exact ⟨_, _, _, _, left.run_play _, right.run_play _, .append _ _, rfl⟩
  | cons first order ih =>
    cases first with
    | true =>
      obtain ⟨left, t⟩ := left
      rw [sideBySide]
      cases h : w.move? left (byClock t s) with
      | none => exact ih _ _ _
      | some r =>
        obtain ⟨u, next, s'⟩ := r
        obtain ⟨u', v, a, b, hleft, hright, hi, ho⟩ := ih (next, s'.2.clock) right s'
        exact ⟨u ++ u', v, a, b, run_move h hleft, hright, hi.append_left u, ho⟩
    | false =>
      obtain ⟨right, t⟩ := right
      rw [sideBySide]
      cases h : w.move? right (byClock t s) with
      | none => exact ih _ _ _
      | some r =>
        obtain ⟨u, next, s'⟩ := r
        obtain ⟨u', v, a, b, hleft, hright, hi, ho⟩ := ih left (next, s'.2.clock) s'
        exact ⟨u', u ++ v, a, b, hleft, run_move h hright, hi.append_right u, ho⟩

/-- **What is played is a run.** -/
theorem run_play (w : Habits) (order : List Bool) (p : Procedure α) (s : Setting) :
    p.Run (w.play order p s).1 (w.play order p s).2.2 := by
  induction p generalizing s with
  | done a => exact .done a
  | ask c next ih =>
    cases c with
    | one q =>
      rw [play]
      split
      · exact .cut _
      · exact .ask ⟨_, rfl, rfl⟩ (ih _ _)
    | both left right =>
      obtain ⟨u, v, l, r, hleft, hright, hi, ho⟩ :=
        w.run_sideBySide order (left, s.2.clock) (right, s.2.clock) s
      rw [play]
      rcases hside : w.sideBySide order (left, s.2.clock) (right, s.2.clock) s with ⟨t, s', _ | a⟩
      · rw [hside] at hi ho
        exact .stop ⟨u, v, l, r, hleft, hright, hi, ho⟩
      · rw [hside] at hi ho
        exact .ask ⟨u, v, l, r, hleft, hright, hi, ho⟩ (ih _ _)

/-! ## Commands -/

theorem answered_reboots {q : Ask} {a : q.Answer} {s s' : Setting}
    (h : q.answered w.answer s = some (a, s')) :
    s'.2.reboots = s.2.reboots + (reboots (q.record a)).length := by
  obtain ⟨m, ⟨t, slot, n⟩⟩ := s
  cases q with
  | run c line stdin mode =>
    cases h
    by_cases hline : Reboots line <;> simp [Ask.record, reboots, lines, Ask.line?, hline]
  | log | acquire | release | disconnect | guard | unguard | isClosed | current | install | layout
  | setLayout | now | sleep | dial | dialBefore | awaitCloseBefore =>
    cases h
    rfl
  | _ => cases h

/-- The reboots that are counted are those of the trace. -/
theorem play_reboots (t : Task α) (s : Setting) : (t.play w.answer s).2.1.2.reboots =
    s.2.reboots + (reboots (t.play w.answer s).1).length := by
  induction t generalizing s with
  | done a => rfl
  | ask q next ih =>
    rw [Task.play]
    cases h : q.answered w.answer s with
    | none => rfl
    | some r =>
      dsimp only
      rw [ih, answered_reboots h, reboots_append, List.length_append, Nat.add_assoc]

/-- A connection that was found is current. -/
theorem play_connection_ok {l : Link} {s s' : Setting} {c : Connection} {tr : List Event}
    (h : l.connection.play w.answer s = (tr, s', some (.ok c))) :
    s'.2.slot = ⟨some c, false⟩ := by
  obtain ⟨m, ⟨t, ⟨cur, closed⟩, n⟩⟩ := s
  cases closed with
  | true => cases h
  | false =>
    cases cur with
    | some c' =>
      cases h
      rfl
    | none =>
      rcases hr : w.dialing n with ⟨d, e | c'⟩
      · simp only [Link.connection, Task.ask, Program.query, Program.bind_ask, Program.bind_done,
          Task.play, Ask.answered, answer, Option.map_some, Bool.false_eq_true, ↓reduceIte, hr,
          Prod.mk.injEq] at h
        cases h.2
      · simp only [Link.connection, Link.install, Task.ask, Program.query, Program.bind_ask,
          Program.bind_done, Task.play, Ask.answered, answer, Option.map_some, Bool.false_eq_true,
          ↓reduceIte, hr, Current.install, Prod.mk.injEq] at h ⊢
        cases h.2
        rfl

section

variable {l : Link} {command : String} {args : List String} {stdin : Option (List UInt8)}
  {mode : StderrMode} {s s' : Setting} {tr : List Event}

/-- After a command that gave its output there is a connection. -/
theorem play_runCommand_ok {out : String}
    (h : (l.runCommand command args stdin mode).play w.answer s = (tr, s', some (.ok out))) :
    lines tr = [Shell.commandLine command args] ∧ ∃ c, s'.2.slot = ⟨some c, false⟩ := by
  have hrun := (l.runCommand command args stdin mode).run_play (f := w.answer) s
  rw [h] at hrun
  refine ⟨Link.runCommand_ok_lines hrun, ?_⟩
  obtain ⟨u, s₁, r, v, h₁, h₂, -⟩ := Task.exists_play_of_bind h
  obtain ⟨rfl, hr⟩ := Prod.mk.inj (Prod.mk.inj h₂).2
  obtain ⟨u, s₂, e | c, v, h₃, h₄, -⟩ := Task.exists_play_of_bind h₁
  · cases h₄
    cases hr
  · cases h₄
    have hslot := play_connection_ok h₃
    exact ⟨c, hslot⟩

/-- Where there is a connection, a command is handed in over it. -/
theorem play_runCommand_open {line : String} (hline : Shell.commandLine command args = line)
    {c : Connection} (hslot : s.2.slot = ⟨some c, false⟩) {d : Duration} {e : SessionEnd}
    (hsession : w.session s.2.reboots line stdin mode = (d, e)) :
    (l.runCommand command args stdin mode).play w.answer s =
      (Link.sent c line stdin mode e.told,
        (s.1, { s.2 with
          clock := s.2.clock.plus d
          reboots := if Reboots line then s.2.reboots + 1 else s.2.reboots }),
        some ((ExecResult.ofAttempt e.told).intoStdout line)) := by
  obtain ⟨m, ⟨t, slot, n⟩⟩ := s
  obtain rfl : slot = ⟨some c, false⟩ := hslot
  obtain rfl : (w.session n line stdin mode).1 = d := congrArg Prod.fst hsession
  obtain rfl : (w.session n line stdin mode).2 = e := congrArg Prod.snd hsession
  subst hline
  rfl

end

/-! ## One procedure after another -/

@[simp] theorem play_procedure (t : Task α) (s : Setting) :
    w.play order (Task.procedure t) s = t.play w.answer s := by
  induction t generalizing s with
  | done a => rfl
  | ask q next ih =>
    rw [Task.procedure_ask, play, Task.play]
    cases q.answered w.answer s with
    | none => rfl
    | some r => simp only [ih]

section

variable {p : Procedure α} {k : α → Procedure β} {s s' : Setting} {tr : List Event}

/-- One procedure after another: the second one is played from where the first has ended, if it
    has. -/
theorem play_bind (p : Procedure α) (k : α → Procedure β) (s : Setting) :
    w.play order (p >>= k) s =
      match w.play order p s with
      | (tr, s', none) => (tr, s', none)
      | (tr, s', some a) => (tr ++ (w.play order (k a) s').1, (w.play order (k a) s').2) := by
  induction p generalizing s with
  | done a => rfl
  | ask c next ih =>
    rw [Program.bind_ask]
    cases c with
    | one q =>
      rw [play, play]
      cases q.answered w.answer s with
      | none => rfl
      | some r =>
        simp only [ih]
        rcases w.play order (next r.1) r.2 with ⟨tr, s', _ | a⟩ <;> simp
    | both left right =>
      rw [play, play]
      rcases w.sideBySide order (left, s.2.clock) (right, s.2.clock) s with ⟨t, s₁, _ | b⟩
      · rfl
      · simp only [ih]
        rcases w.play order (next b) s₁ with ⟨tr, s', _ | a⟩ <;> simp

/-- After a procedure that has given `a`, the next one is played from there. -/
theorem play_bind_some {a : α} (h : w.play order p s = (tr, s', some a)) :
    w.play order (p >>= k) s =
      (tr ++ (w.play order (k a) s').1, (w.play order (k a) s').2) := by
  rw [play_bind, h]

/-- After a procedure that never ends nothing is played. -/
theorem play_bind_none (h : w.play order p s = (tr, s', none)) :
    w.play order (p >>= k) s = (tr, s', none) := by
  rw [play_bind, h]

end

end Habits

end Reimage
