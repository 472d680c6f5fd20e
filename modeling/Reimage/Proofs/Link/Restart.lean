/-
  A restart that no other call disturbs.

  * `Timetable.restart_sound`: a success is one of the device, all of it in time, and anything else
    leaves the old connection in place;
  * `Timetable.restart_succeeds_iff`: what a success takes. It takes that the session of the command
    ends with status zero, also where the device went down and came back;
  * `Timetable.drops_early`: a device that drops the connection while that session goes on.
-/
import Reimage.Proofs.Link.Timetable

namespace Reimage

/-- A question that begins a dial. -/
def Ask.IsDial : Ask → Prop
  | .dial | .dialBefore _ => True
  | _ => False

namespace Timetable

variable {w : Timetable} {old : Connection} {args : List String} {timeout : Duration}
  {deadline now t : Instant}

/-- No dial is over when it has just begun. -/
def NoDialAtOnce (w : Timetable) : Prop := ∀ t d r, w.dialing t = some (d, r) → 0 < d.nanos

/-- So one that is seen in time is over by the deadline. -/
theorem NoDialAtOnce.le_deadline {t' : Instant} {r : Result Connection} (h : w.NoDialAtOnce)
    (hd : w.Dials t t' r) (ht : Timely t deadline t') : t'.nanos ≤ deadline.nanos := by
  obtain ⟨d, hd, rfl⟩ := hd
  have hpos := h t d r hd
  rcases ht with ht | ht
  · simp only [Instant.plus] at ht
    omega
  · exact ht

/-- A dial ends after it has begun. -/
theorem Dials.le {t' : Instant} {r : Result Connection} (h : w.Dials t t' r) :
    t.nanos ≤ t'.nanos := by
  obtain ⟨d, -, rfl⟩ := h
  exact Nat.le_add_right ..

/-- Up to the end of its command a restart does not dial. -/
theorem not_isDial_issued {s : SessionEnd} {e : Event} (h : e ∈ issued old args now s) :
    ¬e.question.IsDial := by
  simp only [issued, Link.found, Link.sent, List.cons_append, List.nil_append, List.mem_cons,
    List.not_mem_nil, or_false] at h
  rcases h with rfl | rfl | rfl | rfl | rfl | rfl <;> exact id

/-! ## What a course tells -/

/-- The device went down and came back after a restart at `now`: the session of the command ended
    with status zero at `exited` and printed `out`, then the old connection was seen to have ended
    at `closed`, and a dial that began there gave `new` at `opened`, each before the wait for it
    was given up. -/
structure Rebooted (w : Timetable) (args : List String) (timeout : Duration) (old : Connection)
    (now deadline exited closed opened : Instant) (f : Finished) (new : Connection) : Prop where
  due : now.after? timeout = some deadline
  issues : w.Issues old args now exited (.exited f)
  status : f.status = 0
  ends : w.Ends old exited closed (.ok ())
  drops : Timely exited deadline closed
  dials : w.Dials closed opened (.ok new)
  returns : Timely closed deadline opened

/-- What is asked after the command in a restart that succeeds. -/
def reconnects (old new : Connection) (deadline : Instant) : List Event :=
  [⟨.awaitCloseBefore old deadline, some (.ok ())⟩, ⟨.acquire, ()⟩,
    ⟨.dialBefore deadline, some (.ok new)⟩, ⟨.install new, true⟩, ⟨.release, ()⟩]

namespace Course

variable {c : Outcome}

theorem rebooted (h : w.Course args timeout old now c) {out : String}
    (hc : c.result = some (.ok out)) : ∃ deadline exited closed opened f new,
      w.Rebooted args timeout old now deadline exited closed opened f new ∧
        out = Text.Utf8.lossy f.stdout ∧ c.moment = ⟨opened, some new, false⟩ ∧
        c.trace = issued old args now (.exited f) ++ reconnects old new deadline := by
  cases h with
  | overflow | hangs => cases hc
  | fails => cases hc
  | awaits hdue hissues hstatus hawaits =>
    cases hawaits with
    | stays | fails => cases hc
    | redials hends hdrops hredials =>
      cases hredials with
      | late | fails => cases hc
      | opens hdials hreturns =>
        cases hc
        exact ⟨_, _, _, _, _, _, ⟨hdue, hissues, hstatus, hends, hdrops, hdials, hreturns⟩, rfl,
          rfl, rfl⟩

/-- A restart that does not succeed leaves the link as it was. -/
theorem keeps (h : w.Course args timeout old now c) (hc : ∀ out, c.result ≠ some (.ok out)) :
    c.moment.slot = ⟨some old, false⟩ := by
  cases h with
  | overflow | hangs | fails => rfl
  | awaits _ _ _ hawaits =>
    cases hawaits with
    | stays | fails => rfl
    | redials _ _ hredials =>
      cases hredials with
      | late | fails => rfl
      | opens => exact absurd rfl (hc _)

theorem result_eq_none (h : w.Course args timeout old now c) :
    c.result = none ↔ now.after? timeout = none ∨
      w.session old (Shell.commandLine "reboot" args) none .separate now = none := by
  cases h with
  | overflow h => simp [h]
  | hangs _ h => simp [h]
  | fails hdue hissues =>
    obtain ⟨d, hd, -⟩ := hissues
    simp [hdue, hd]
  | awaits hdue hissues =>
    obtain ⟨d, hd, -⟩ := hissues
    simp [hdue, hd]

/-- After a command that succeeded, a restart waits for the old connection to end. -/
theorem awaits_of_exited (h : w.Course args timeout old now c) {exited : Instant} {f : Finished}
    (hdue : now.after? timeout = some deadline) (hissues : w.Issues old args now exited (.exited f))
    (hstatus : f.status = 0) : ∃ tr r,
      w.Awaits timeout deadline old exited (Text.Utf8.lossy f.stdout) tr c.moment r ∧
        c.trace = issued old args now (.exited f) ++ tr ∧ c.result = some r := by
  cases h with
  | overflow h => cases h.symm.trans hdue
  | hangs _ h =>
    obtain ⟨d, hd, -⟩ := hissues
    cases h.symm.trans hd
  | fails _ hissues' he =>
    obtain ⟨-, rfl⟩ := hissues.unique hissues'
    simp [SessionEnd.told, ExecResult.ofAttempt, ExecResult.intoStdout, hstatus] at he
  | awaits hdue' hissues' _ hawaits =>
    cases hdue.symm.trans hdue'
    obtain ⟨rfl, hf⟩ := hissues.unique hissues'
    cases hf
    exact ⟨_, _, hawaits, rfl, rfl⟩

/-- After one that did not, it ends with the error of the command. -/
theorem result_of_failed (h : w.Course args timeout old now c) {exited : Instant} {s : SessionEnd}
    {e : Error} (hdue : now.after? timeout = some deadline)
    (hissues : w.Issues old args now exited s)
    (he : (ExecResult.ofAttempt s.told).intoStdout (Shell.commandLine "reboot" args) = .error e) :
    c = ⟨issued old args now s, ⟨exited, some old, false⟩, some (.error e)⟩ := by
  cases h with
  | overflow h => cases h.symm.trans hdue
  | hangs _ h =>
    obtain ⟨d, hd, -⟩ := hissues
    cases h.symm.trans hd
  | fails _ hissues' he' =>
    obtain ⟨rfl, rfl⟩ := hissues.unique hissues'
    cases he.symm.trans he'
    rfl
  | awaits _ hissues' hstatus =>
    obtain ⟨-, rfl⟩ := hissues.unique hissues'
    simp [SessionEnd.told, ExecResult.ofAttempt, ExecResult.intoStdout, hstatus] at he

end Course

/-- The old connection was not seen to end: the restart gives up and has not dialed. -/
theorem Awaits.of_late {output : String} {tr : List Event} {m : Moment} {r : Result String}
    (h : w.Awaits timeout deadline old t output tr m r)
    (hlate : ∀ t' r, w.Ends old t t' r → ¬Timely t deadline t') :
    r = .error (.rebootTimeout timeout) ∧ ∀ e ∈ tr, ¬e.question.IsDial := by
  cases h with
  | stays =>
    refine ⟨rfl, fun e he => ?_⟩
    cases List.mem_singleton.1 he
    exact id
  | fails hends htimely => exact absurd htimely (hlate _ _ hends)
  | redials hends htimely => exact absurd htimely (hlate _ _ hends)

/-- It was seen to end: a dial begins. -/
theorem Awaits.of_timely {output : String} {t' : Instant} {tr : List Event} {m : Moment}
    {r : Result String} (h : w.Awaits timeout deadline old t output tr m r)
    (hends : w.Ends old t t' (.ok ())) (htimely : Timely t deadline t') :
    ∃ tr' r', w.Redials timeout deadline old t' tr' m r' ∧ r = r'.map (fun _ => output) ∧
      tr = ⟨.awaitCloseBefore old deadline, some (.ok ())⟩ :: tr' := by
  cases h with
  | stays hlate => exact absurd htimely (hlate _ _ hends)
  | fails hends' => cases (hends.unique hends').2
  | redials hends' _ hredials =>
    obtain ⟨rfl, -⟩ := hends.unique hends'
    exact ⟨_, _, hredials, rfl, rfl⟩

/-- A redial begins a dial. -/
theorem Redials.exists_dial {tr : List Event} {m : Moment} {r : Result Unit}
    (h : w.Redials timeout deadline old t tr m r) :
    ∃ a, (⟨.dialBefore deadline, a⟩ : Event) ∈ tr := by
  cases h <;> exact ⟨_, List.mem_cons_of_mem _ List.mem_cons_self⟩

/-! ## Soundness -/

/-- **A restart is sound and leaves no trace of a failure.** Of a restart that begins at `now`, with
    `old` current and no other call in flight:

    * if it succeeds, the command's session ended with status zero and its output is what the
      restart gives, then the old connection was seen to have ended, and a dial that began at that
      moment gave the connection that is current now; if no dial is over at once, all of it was
      there by the deadline;
    * if it does not succeed, the old connection is still the current one;
    * it gives a result, unless the clock cannot show the deadline or the session of the command
      never ends; so where any of the above fails, it gives an error;
    * if the old connection does not end before the wait for that is given up, the error is that of
      the timeout, and no dial has begun;
    * if it does, also right at the deadline, or before the wait that begins after the deadline, a
      dial begins. -/
theorem restart_sound (w : Timetable) (l : Link) (args : List String) (timeout : Duration)
    (old : Connection) (now : Instant) :
    (∀ out, (w.restart l args timeout old now).result = some (.ok out) →
      ∃ deadline exited closed opened f new,
        w.Rebooted args timeout old now deadline exited closed opened f new ∧
        out = Text.Utf8.lossy f.stdout ∧
        (w.restart l args timeout old now).moment = ⟨opened, some new, false⟩ ∧
        (w.restart l args timeout old now).trace =
          issued old args now (.exited f) ++ reconnects old new deadline ∧
        (w.NoDialAtOnce →
          closed.nanos ≤ deadline.nanos ∧ opened.nanos ≤ deadline.nanos)) ∧
    ((∀ out, (w.restart l args timeout old now).result ≠ some (.ok out)) →
      (w.restart l args timeout old now).moment.slot = ⟨some old, false⟩) ∧
    ((w.restart l args timeout old now).result = none ↔ now.after? timeout = none ∨
      w.session old (Shell.commandLine "reboot" args) none .separate now = none) ∧
    (∀ deadline exited f, now.after? timeout = some deadline →
      w.Issues old args now exited (.exited f) → f.status = 0 →
      (∀ t r, w.Ends old exited t r → ¬Timely exited deadline t) →
      (w.restart l args timeout old now).result = some (.error (.rebootTimeout timeout)) ∧
        ∀ e ∈ (w.restart l args timeout old now).trace, ¬e.question.IsDial) ∧
    ∀ deadline exited closed f, now.after? timeout = some deadline →
      w.Issues old args now exited (.exited f) → f.status = 0 →
      w.Ends old exited closed (.ok ()) → Timely exited deadline closed →
      ∃ a, (⟨.dialBefore deadline, a⟩ : Event) ∈ (w.restart l args timeout old now).trace := by
  have hcourse := w.restart_course l args timeout old now
  refine ⟨fun out hout => ?_, hcourse.keeps, hcourse.result_eq_none,
    fun deadline exited f hdue hissues hstatus hlate => ?_,
    fun deadline exited closed f hdue hissues hstatus hends htimely => ?_⟩
  · obtain ⟨deadline, exited, closed, opened, f, new, hback, hf, hm, htr⟩ := hcourse.rebooted hout
    refine ⟨deadline, exited, closed, opened, f, new, hback, hf, hm, htr, fun hslow => ?_⟩
    have hopened := hslow.le_deadline hback.dials hback.returns
    exact ⟨Nat.le_trans hback.dials.le hopened, hopened⟩
  · obtain ⟨tr, r, hawaits, htr, hr⟩ := hcourse.awaits_of_exited hdue hissues hstatus
    obtain ⟨rfl, hdials⟩ := hawaits.of_late hlate
    refine ⟨hr, fun e he => ?_⟩
    rw [htr] at he
    rcases List.mem_append.1 he with he | he
    · exact not_isDial_issued he
    · exact hdials e he
  · obtain ⟨tr, r, hawaits, htr, -⟩ := hcourse.awaits_of_exited hdue hissues hstatus
    obtain ⟨tr', r', hredials, -, rfl⟩ := hawaits.of_timely hends htimely
    obtain ⟨a, ha⟩ := hredials.exists_dial
    rw [htr]
    exact ⟨a, List.mem_append_right _ (List.mem_cons_of_mem _ ha)⟩

/-- A device that is down after 50 ms and can be dialed within a second. -/
def comesBack : Timetable where
  session _ _ _ _ _ := some (.ofMillis 10, .exited {})
  closing _ := some (⟨50000000⟩, .ok ())
  dialing _ := some (.ofSecs 1, .ok ⟨2, "dut1#2"⟩)

theorem restart_sound_comesBack : comesBack.NoDialAtOnce ∧
    ∃ deadline exited closed opened f new,
      comesBack.Rebooted [] (.ofSecs 5) ⟨1, "dut1#1"⟩ ⟨0⟩ deadline exited closed opened f new ∧
      (comesBack.restart { dut := "dut1" } [] (.ofSecs 5) ⟨1, "dut1#1"⟩ ⟨0⟩).moment =
        ⟨opened, some new, false⟩ ∧
      closed.nanos ≤ deadline.nanos ∧ opened.nanos ≤ deadline.nanos := by
  have hslow : comesBack.NoDialAtOnce := by
    intro t d r h
    cases h
    decide
  have hok : (comesBack.restart { dut := "dut1" } [] (.ofSecs 5) ⟨1, "dut1#1"⟩ ⟨0⟩).result.bind
      Except.toOption = some "" := by decide +kernel
  obtain ⟨e | out, hout, hprinted⟩ := Option.bind_eq_some_iff.1 hok
  · cases hprinted
  obtain ⟨hsound, -⟩ :=
    comesBack.restart_sound { dut := "dut1" } [] (.ofSecs 5) ⟨1, "dut1#1"⟩ ⟨0⟩
  obtain ⟨deadline, exited, closed, opened, f, new, hback, -, hm, -, hintime⟩ := hsound out hout
  exact ⟨hslow, deadline, exited, closed, opened, f, new, hback, hm, hintime hslow⟩

/-! ## Completeness -/

/-- A device that comes back after the command has succeeded is connected to. -/
theorem Course.of_rebooted {c : Outcome} {exited closed opened : Instant} {f : Finished}
    {new : Connection} (h : w.Course args timeout old now c)
    (hback : w.Rebooted args timeout old now deadline exited closed opened f new) :
    c.result = some (.ok (Text.Utf8.lossy f.stdout)) ∧ c.moment = ⟨opened, some new, false⟩ := by
  obtain ⟨tr, r, hawaits, -, hr⟩ := h.awaits_of_exited hback.due hback.issues hback.status
  obtain ⟨tr', r', hredials, rfl, -⟩ := hawaits.of_timely hback.ends hback.drops
  generalize c.moment = m at hredials
  cases hredials with
  | late hlate => exact absurd hback.returns (hlate _ _ hback.dials)
  | fails hfails => cases (hback.dials.unique hfails).2
  | opens hopens =>
    obtain ⟨rfl, hnew⟩ := hback.dials.unique hopens
    cases hnew
    exact ⟨hr, rfl⟩

/-- A session that does not end with status zero is an error of its command. -/
theorem intoStdout_told {s : SessionEnd} (hs : ∀ f, s = .exited f → f.status ≠ 0)
    (command : String) : ∃ e, (ExecResult.ofAttempt s.told).intoStdout command = .error e := by
  cases h : (ExecResult.ofAttempt s.told).intoStdout command with
  | error e => exact ⟨e, rfl⟩
  | ok out =>
    obtain ⟨f, hf, hstatus, -⟩ := ExecResult.intoStdout_eq_ok.1 h
    cases s with
    | refused | lost => cases hf
    | exited g =>
      cases hf
      exact absurd hstatus (hs _ rfl)

/-- **What a restart takes to succeed.** It succeeds if and only if the session of its command ends
    with status zero and, after that, the old connection ends and a dial that begins then succeeds,
    each before it is given up; the connection of that dial is then current. Where the session does
    not end with status zero, the restart ends with the error of its command and without a dial,
    whatever the old connection does and however well a dial would go. -/
theorem restart_succeeds_iff (w : Timetable) (l : Link) (args : List String) (timeout : Duration)
    (old : Connection) (now : Instant) :
    (∀ out new, (w.restart l args timeout old now).result = some (.ok out) ∧
        (w.restart l args timeout old now).moment.slot = ⟨some new, false⟩ ↔
      ∃ deadline exited closed opened f,
        w.Rebooted args timeout old now deadline exited closed opened f new ∧
        out = Text.Utf8.lossy f.stdout) ∧
    ∀ deadline exited s, now.after? timeout = some deadline → w.Issues old args now exited s →
      (∀ f, s = .exited f → f.status ≠ 0) →
      ∃ e, (ExecResult.ofAttempt s.told).intoStdout (Shell.commandLine "reboot" args) = .error e ∧
        (w.restart l args timeout old now).result = some (.error e) ∧
        (w.restart l args timeout old now).moment.slot = ⟨some old, false⟩ ∧
        ∀ e ∈ (w.restart l args timeout old now).trace, ¬e.question.IsDial := by
  have hcourse := w.restart_course l args timeout old now
  refine ⟨fun out new => ⟨?_, ?_⟩, fun deadline exited s hdue hissues hs => ?_⟩
  · rintro ⟨hout, hslot⟩
    obtain ⟨deadline, exited, closed, opened, f, new', hback, hf, hm, -⟩ := hcourse.rebooted hout
    rw [hm] at hslot
    cases hslot
    exact ⟨deadline, exited, closed, opened, f, hback, hf⟩
  · rintro ⟨deadline, exited, closed, opened, f, hback, rfl⟩
    obtain ⟨hout, hm⟩ := hcourse.of_rebooted hback
    exact ⟨hout, congrArg Moment.slot hm⟩
  · obtain ⟨e, he⟩ := intoStdout_told hs (Shell.commandLine "reboot" args)
    have hc := hcourse.result_of_failed hdue hissues he
    refine ⟨e, he, congrArg Outcome.result hc, congrArg (·.moment.slot) hc, fun e he => ?_⟩
    rw [hc] at he
    exact not_isDial_issued he

/-- A device that goes down 5 ms after it was told to, before it has told the status of the command,
    and that can be dialed again at any time. -/
def dropsEarly : Timetable where
  session _ _ _ _ _ := some (.ofMillis 10, .lost (.transport "channel closed"))
  closing _ := some (⟨5000000⟩, .ok ())
  dialing _ := some (.ofSecs 1, .ok ⟨2, "dut1#2"⟩)

theorem restart_succeeds_iff_comesBack :
    (∃ deadline exited closed opened f,
      comesBack.Rebooted [] (.ofSecs 5) ⟨1, "dut1#1"⟩ ⟨0⟩ deadline exited closed opened f
        ⟨2, "dut1#2"⟩ ∧ Text.Utf8.lossy f.stdout = "") ∧
    (comesBack.restart { dut := "dut1" } [] (.ofSecs 5) ⟨1, "dut1#1"⟩ ⟨0⟩).result =
      some (.ok "") ∧
    (comesBack.restart { dut := "dut1" } [] (.ofSecs 5) ⟨1, "dut1#1"⟩ ⟨0⟩).moment.slot =
      ⟨some ⟨2, "dut1#2"⟩, false⟩ ∧
    (∃ deadline exited, (Instant.mk 0).after? (.ofSecs 5) = some deadline ∧
      dropsEarly.Issues ⟨1, "dut1#1"⟩ [] ⟨0⟩ exited (.lost (.transport "channel closed"))) ∧
    (∃ e, (dropsEarly.restart { dut := "dut1" } [] (.ofSecs 5) ⟨1, "dut1#1"⟩ ⟨0⟩).result =
      some (.error e)) ∧
    ∀ e ∈ (dropsEarly.restart { dut := "dut1" } [] (.ofSecs 5) ⟨1, "dut1#1"⟩ ⟨0⟩).trace,
      ¬e.question.IsDial := by
  have hdue : (Instant.mk 0).after? (.ofSecs 5) = some ⟨5000000000⟩ := by decide
  have hback : comesBack.Rebooted [] (.ofSecs 5) ⟨1, "dut1#1"⟩ ⟨0⟩ ⟨5000000000⟩ ⟨10000000⟩
      ⟨50000000⟩ ⟨1050000000⟩ {} ⟨2, "dut1#2"⟩ :=
    { due := hdue
      issues := ⟨_, rfl, rfl⟩
      status := rfl
      ends := ⟨_, rfl, rfl⟩
      drops := by decide
      dials := ⟨_, rfl, rfl⟩
      returns := by decide }
  have hempty : Text.Utf8.lossy [] = "" := by decide +kernel
  have hissues : dropsEarly.Issues ⟨1, "dut1#1"⟩ [] ⟨0⟩ ⟨10000000⟩
      (.lost (.transport "channel closed")) := ⟨_, rfl, rfl⟩
  obtain ⟨hout, hslot⟩ :=
    ((comesBack.restart_succeeds_iff { dut := "dut1" } [] (.ofSecs 5) ⟨1, "dut1#1"⟩ ⟨0⟩).1 ""
      ⟨2, "dut1#2"⟩).2 ⟨_, _, _, _, _, hback, hempty.symm⟩
  obtain ⟨e, -, hfails, -, hdials⟩ :=
    (dropsEarly.restart_succeeds_iff { dut := "dut1" } [] (.ofSecs 5) ⟨1, "dut1#1"⟩ ⟨0⟩).2 _ _ _
      hdue hissues nofun
  exact ⟨⟨_, _, _, _, _, hback, hempty⟩, hout, hslot, ⟨_, _, hdue, hissues⟩, ⟨e, hfails⟩, hdials⟩

/-- **A device that reboots too quickly is given up.** It carries the command out, its old
    connection ends after 5 ms, and every dial succeeds within a second. But a restart that may take
    5 s fails, and the connection that has ended stays current. -/
theorem drops_early :
    (Instant.mk 0).after? (.ofSecs 5) = some ⟨5000000000⟩ ∧
    dropsEarly.Issues ⟨1, "dut1#1"⟩ [] ⟨0⟩ ⟨10000000⟩ (.lost (.transport "channel closed")) ∧
    dropsEarly.Ends ⟨1, "dut1#1"⟩ ⟨0⟩ ⟨5000000⟩ (.ok ()) ∧
    (∀ t, dropsEarly.Dials t (t.plus (.ofSecs 1)) (.ok ⟨2, "dut1#2"⟩)) ∧
    (dropsEarly.restart { dut := "dut1" } [] (.ofSecs 5) ⟨1, "dut1#1"⟩ ⟨0⟩).result =
      some (.error (.transport "failed to start `reboot`: Transport error: channel closed")) ∧
    (dropsEarly.restart { dut := "dut1" } [] (.ofSecs 5) ⟨1, "dut1#1"⟩ ⟨0⟩).moment.slot =
      ⟨some ⟨1, "dut1#1"⟩, false⟩ := by
  have hdue : (Instant.mk 0).after? (.ofSecs 5) = some ⟨5000000000⟩ := by decide
  have hissues : dropsEarly.Issues ⟨1, "dut1#1"⟩ [] ⟨0⟩ ⟨10000000⟩
      (.lost (.transport "channel closed")) := ⟨_, rfl, rfl⟩
  have hc := (dropsEarly.restart_course { dut := "dut1" } [] (.ofSecs 5) ⟨1, "dut1#1"⟩
    ⟨0⟩).result_of_failed hdue hissues rfl
  refine ⟨hdue, hissues, ⟨_, rfl, rfl⟩, fun t => ⟨_, rfl, rfl⟩, ?_, ?_⟩
  · rw [hc]
    rfl
  · rw [hc]

end Timetable

end Reimage
