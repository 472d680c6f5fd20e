/-
  Keeping the stateful partition.

  Two installations that differ in nothing but whether the stateful partition is kept run alike on a
  device that does the same again. The one that wipes it hands in one more line, after its probe,
  and is later by what that takes; from there on both keep in step.

  * `Plan.preserving`: an installation, with the stateful partition kept or wiped;
  * `runStages_preserving`: the stages after the first do not look at that;
  * `Habits.play_init_kept`, `Habits.play_init_wiped`: the first stage does;
  * `Habits.provision_probed`: after a probe that succeeds the wipe is all that is different;
  * `Habits.provision_preserving`: the whole installation.
-/
import Reimage.Proofs.Install.Pace
import Reimage.Proofs.Install.Success

namespace Reimage

open Plan

/-! ## The choice -/

/-- An installation, with the stateful partition kept or wiped. -/
def Plan.preserving (p : Plan) (keep : Bool) : Plan :=
  { p with request := { p.request with preserveStateful := keep } }

namespace Plan

section

variable (p : Plan) (keep : Bool)

theorem run_preserving : (p.preserving keep).run = p.run := rfl

theorem artifactUrl_preserving : (p.preserving keep).artifactUrl = p.artifactUrl := rfl

theorem installZippedImage_preserving :
    (p.preserving keep).installZippedImage = p.installZippedImage := by
  funext image output
  unfold installZippedImage
  rw [artifactUrl_preserving p keep, run_preserving p keep]

theorem installStateful_preserving : (p.preserving keep).installStateful = p.installStateful := by
  have hrevert : (p.preserving keep).revertInstallStateful = p.revertInstallStateful := rfl
  unfold installStateful
  rw [artifactUrl_preserving p keep, run_preserving p keep, hrevert]

theorem transferDlc_preserving : (p.preserving keep).transferDlc = p.transferDlc := by
  funext id slot
  unfold transferDlc
  rw [artifactUrl_preserving p keep, run_preserving p keep]

end

variable {p : Plan} {keep : Bool}

theorem installDlc_preserving (id : String) (slot : Slot) :
    (p.preserving keep).installDlc id slot = p.installDlc id slot := by
  unfold installDlc
  rw [transferDlc_preserving]
  rfl

theorem installDlcsInto_preserving (slot : Slot) (n : Nat) (ids : List String) :
    (p.preserving keep).installDlcsInto slot n ids = p.installDlcsInto slot n ids := by
  induction ids generalizing n with
  | nil => rfl
  | cons id ids ih => simp only [installDlcsInto, installDlc_preserving, ih]

theorem pollStable_preserving (deadline : Instant) (n : Nat) :
    (p.preserving keep).pollStable deadline n = p.pollStable deadline n := by
  induction n with
  | zero => rfl
  | succ n ih =>
    rw [pollStable, pollStable, ih]
    rfl

theorem verifyDlcsIn_preserving (slot : Slot) (ids : List String) :
    (p.preserving keep).verifyDlcsIn slot ids = p.verifyDlcsIn slot ids := by
  induction ids with
  | nil => rfl
  | cons id ids ih =>
    rw [verifyDlcsIn, verifyDlcsIn, ih]
    rfl

end Plan

section

variable {p : Plan} {keep : Bool} {title : String}

theorem Command.execute_preserving {c : Command} :
    c.execute (p.preserving keep) = c.execute p := by
  cases c with
  | installPartitions =>
    rw [execute, execute, Plan.installPartitions, Plan.installPartitions,
      installZippedImage_preserving]
  | installStateful => rw [execute, execute, installStateful_preserving]
  | installDlcs =>
    simp only [execute, Plan.installDlcs, installDlcsInto_preserving]
    rfl
  | waitForStabilize =>
    simp only [execute, Plan.waitForStabilize, pollStable_preserving]
    rfl
  | verifyDlcs =>
    simp only [execute, Plan.verifyDlcs, verifyDlcsIn_preserving]
    rfl
  | _ => rfl

theorem Command.revert_preserving {c : Command} :
    c.revert (p.preserving keep) = c.revert p := by
  cases c <;> rfl

theorem rollback_preserving {e : Error} {executed : List Command} :
    rollback (p.preserving keep) title e executed = rollback p title e executed := by
  induction executed with
  | nil => rfl
  | cons c cs ih => simp only [rollback, Command.revert_preserving, ih]

theorem runChainAfter_preserving {executed cs : List Command} :
    runChainAfter (p.preserving keep) title executed cs = runChainAfter p title executed cs := by
  induction cs generalizing executed with
  | nil => rfl
  | cons c cs ih => simp only [runChainAfter, Command.execute_preserving, rollback_preserving, ih]

theorem Stage.runCommands_preserving {s : Stage} (hs : s ≠ .init) :
    s.runCommands (p.preserving keep) = s.runCommands p := by
  have hcommands : s.commands (p.preserving keep) = s.commands p := by
    cases s with
    | init => exact absurd rfl hs
    | _ => rfl
  rw [runCommands, runCommands, runChain, runChain, hcommands, runChainAfter_preserving]

theorem Stage.bootFirmware_preserving {target : Option String} :
    bootFirmware (p.preserving keep) target = bootFirmware p target := by
  simp only [bootFirmware, Command.executeAlone, Command.execute_preserving]
  rfl

/-- The stages after the first do not look at the choice. -/
theorem Stage.execute_preserving {s : Stage} (hs : s ≠ .init) :
    s.execute (p.preserving keep) = s.execute p := by
  cases s with
  | init => exact absurd rfl hs
  | updateFirmware =>
    simp only [execute, runFirmware, runCommands_preserving hs, bootFirmware_preserving]
    rfl
  | _ => simp only [execute, runCommands_preserving hs]

theorem runStages_preserving {ss : List Stage} (hss : Stage.init ∉ ss) :
    runStages (p.preserving keep) ss = runStages p ss := by
  induction ss with
  | nil => rfl
  | cons s ss ih =>
    rw [List.mem_cons, not_or] at hss
    rw [runStages, runStages, Stage.execute_preserving (Ne.symm hss.1), ih hss.2]

end

/-! ## What is played -/

namespace Habits

variable {w : Habits} {order : List Bool} {p : Plan} {s s' : Setting} {tr : List Event}

section

variable {α β : Type}

theorem play_log_bind {line : LogLine} {k : Unit → Procedure α} :
    w.play order ((Task.log line).procedure >>= k) s = w.play order (k ()) s := rfl

/-- A procedure whose result is changed. -/
theorem play_bind_pure {q : Procedure α} {f : α → β} {a : α}
    (h : w.play order q s = (tr, s', some a)) :
    w.play order (q >>= fun a => pure (f a)) s = (tr, s', some (f a)) := by
  rw [play_bind_some h]
  exact Prod.ext (List.append_nil tr) rfl

end

theorem play_kept {α : Type} {c : Command} {t : Task (Result α)} {r : Result α}
    (h : t.play w.answer s = (tr, s', some r)) :
    w.play order (c.kept t.procedure) s = (tr, s', some (r.map fun _ => c)) :=
  play_bind_pure (by rw [play_procedure, h])

/-- After a stage that did not fail come the others. -/
theorem play_runStages_ok {stage : Stage} {ss : List Stage} {outcome : StageOutcome}
    (h : w.play order (stage.execute p) s = (tr, s', some (.ok outcome))) :
    w.play order (runStages p (stage :: ss)) s =
      (tr ++ (w.play order (runStages p ss) s').1, (w.play order (runStages p ss) s').2) := by
  rw [runStages, play_log_bind, play_bind_some h]
  rfl

/-- After a stage that failed comes nothing. -/
theorem play_runStages_error {stage : Stage} {ss : List Stage} {e : Error}
    (h : w.play order (stage.execute p) s = (tr, s', some (.error e))) :
    w.play order (runStages p (stage :: ss)) s =
      (tr, s', some (.error ⟨stage, .context stage.title e⟩)) := by
  rw [runStages, play_log_bind, play_bind_some h]
  exact Prod.ext (List.append_nil tr) rfl

end Habits

/-- The report of stages that came to their end. -/
def Plan.response (p : Plan) : Except RunFailure Unit → Response
  | .ok () => p.report none
  | .error f => f.response p.link.dut

namespace Habits

variable {w : Habits} {order : List Bool} {p : Plan} {s s' : Setting} {tr : List Event}

/-- An installation runs its stages and reports how they ended. -/
theorem play_provision (hv : p.request.validate = .ok ()) :
    w.play order p.provision s =
      ((w.play order (runStages p p.stages) s).1, (w.play order (runStages p p.stages) s).2.1,
        (w.play order (runStages p p.stages) s).2.2.map p.response) := by
  simp only [Plan.provision, hv, runFrom, itinerary_init]
  rcases h : w.play order (runStages p p.stages) s with ⟨t, s', _ | r⟩
  · rw [play_bind_none (play_bind_none h)]
    rfl
  · rw [play_bind_some (play_bind_pure h)]
    cases r <;> exact Prod.ext (List.append_nil t) rfl

theorem play_provision_refused {e : Error} (hv : p.request.validate = .error e) :
    w.play order p.provision s = ([], s, some (p.refusal e)) := by
  simp only [Plan.provision, hv]
  rfl

/-! ## The first stage -/

/-- A command that told something was handed in, and has left a connection. -/
theorem play_told {l : Link} {command text : String} {args : List String} {f : String → String}
    {a : String} (h : Task.play w.answer (do
      return ((← l.runCommand command args).within text).map f) s = (tr, s', some (.ok a))) :
    lines tr = [Shell.commandLine command args] ∧ ∃ c, s'.2.slot = ⟨some c, false⟩ := by
  obtain ⟨u, s₁, e | out, v, h₁, h₂, rfl⟩ := Task.exists_play_of_bind h
  · cases h₂
  · cases h₂
    rw [List.append_nil]
    exact play_runCommand_ok h₁

/-- A probe that succeeds has handed in its two lines, and has left a connection. -/
theorem play_probePartitions_ok {l : Layout}
    (h : p.probePartitions.play w.answer s = (tr, s', some (.ok l))) :
    lines tr = ["rootdev -s", "rootdev -s -d"] ∧ ∃ c, s'.2.slot = ⟨some c, false⟩ := by
  obtain ⟨t, s₁, e | root, u, h₁, h₂, rfl⟩ := Task.exists_play_of_bind h
  · cases h₂
  obtain ⟨t', s₂, e | disk, u', h₃, h₄, rfl⟩ := Task.exists_play_of_bind h₂
  · cases h₄
  obtain ⟨hroot, -⟩ := play_told h₁
  obtain ⟨hdisk, c, hc⟩ := play_told h₃
  cases hslot : Slot.ofRoot root with
  | error e =>
    simp only [hslot] at h₄
    cases h₄
  | ok slot =>
    simp only [hslot] at h₄
    cases h₄
    rw [lines_append, lines_append, hroot, hdisk]
    exact ⟨rfl, c, hc⟩

/-- Over a connection the wish to wipe the stateful partition is handed in, and that takes its
    time. -/
theorem play_wipeStateful {c : Connection} {d : Duration} {f : Finished}
    (hc : s.2.slot = ⟨some c, false⟩)
    (hwipe : w.session s.2.reboots wipeLine none .separate = (d, .exited f))
    (hf : f.status = 0) :
    p.wipeStateful.play w.answer s =
      (Link.sent c wipeLine none .separate (.ok f), byClock (s.2.clock.plus d) s,
        some (.ok ())) := by
  have hecho : (p.link.runCommand "echo" ["'fast keepimg'", ">", factoryResetMark]).play
      w.answer s = (Link.sent c wipeLine none .separate (.ok f), byClock (s.2.clock.plus d) s,
        some (.ok (Text.Utf8.lossy f.stdout))) := by
    have hno : ¬Reboots wipeLine := by decide
    rw [play_runCommand_open (rfl : _ = wipeLine) hc hwipe, if_neg hno, SessionEnd.told,
      ExecResult.ofAttempt, ExecResult.intoStdout, if_pos hf]
    rfl
  rw [wipeStateful, run, Task.play_bind_some (Task.play_bind_some hecho)]
  rfl

/-- The first stage ends as its commands do. -/
theorem play_init {r : Result (List Command)}
    (h : w.play order (Stage.init.runCommands p) s = (tr, s', some r)) :
    w.play order (Stage.init.execute p) s = (tr, s', some (r.map fun _ => .completed)) :=
  play_bind_pure h

theorem play_init_error {e : Error}
    (h : p.probePartitions.play w.answer s = (tr, s', some (.error e))) :
    w.play order (Stage.init.execute p) s =
      (tr, s', some (.error (.context Command.probePartitions.failureText e))) := by
  have hchain : w.play order (Stage.init.runCommands p) s =
      (tr, s', some (.error (.context Command.probePartitions.failureText e))) := by
    rw [Stage.runCommands, runChain, Stage.commands, List.singleton_append, runChainAfter,
      Command.execute, play_bind_some (play_kept h)]
    exact Prod.ext (List.append_nil tr) rfl
  exact play_init hchain

/-- The stage that keeps the stateful partition is its probe. -/
theorem play_init_kept (hkeep : p.request.preserveStateful = true) {l : Layout}
    (h : p.probePartitions.play w.answer s = (tr, s', some (.ok l))) :
    w.play order (Stage.init.execute p) s = (tr, s', some (.ok .completed)) := by
  have hchain : w.play order (Stage.init.runCommands p) s =
      (tr, s', some (.ok [.probePartitions])) := by
    rw [Stage.runCommands, runChain, Stage.commands, hkeep, List.singleton_append, runChainAfter,
      Command.execute, play_bind_some (play_kept h)]
    exact Prod.ext (List.append_nil tr) rfl
  exact play_init hchain

/-- The stage that wipes it goes on after its probe. -/
theorem play_init_wiped (hwipe : p.request.preserveStateful = false) {l : Layout}
    {u : List Event} {s'' : Setting}
    (h : p.probePartitions.play w.answer s = (tr, s', some (.ok l)))
    (h' : p.wipeStateful.play w.answer s' = (u, s'', some (.ok ()))) :
    w.play order (Stage.init.execute p) s = (tr ++ u, s'', some (.ok .completed)) := by
  have hlast : w.play order (runChainAfter p Stage.init.title [.probePartitions] [.wipeStateful])
      s' = (u, s'', some (.ok [.probePartitions, .wipeStateful])) := by
    rw [runChainAfter, Command.execute, play_bind_some (play_kept h')]
    exact Prod.ext (List.append_nil u) rfl
  have hchain : w.play order (Stage.init.runCommands p) s =
      (tr ++ u, s'', some (.ok [.probePartitions, .wipeStateful])) := by
    rw [Stage.runCommands, runChain, Stage.commands, hwipe, List.singleton_append, runChainAfter,
      Command.execute, play_bind_some (play_kept h)]
    simp only [Except.map, Bool.false_eq_true, ↓reduceIte, hlast]
  exact play_init hchain

/-! ## With the wipe and without it -/

/-- If the probe fails, so does the installation, whatever was chosen. -/
theorem play_provision_failed (hv : p.request.validate = .ok ()) {e : Error} (keep : Bool)
    (h : p.probePartitions.play w.answer s = (tr, s', some (.error e))) :
    w.play order (p.preserving keep).provision s =
      (tr, s', some (p.response (.error ⟨.init, .context Stage.init.title
        (.context Command.probePartitions.failureText e)⟩))) := by
  have hvalid : (p.preserving keep).request.validate = .ok () := hv
  have hstages : w.play order (runStages (p.preserving keep) (p.preserving keep).stages) s = _ :=
    play_runStages_error (play_init_error h)
  rw [play_provision hvalid, hstages]
  rfl

/-- After the first stage nobody looks at the choice. -/
theorem play_provision_passed (hv : p.request.validate = .ok ()) {keep : Bool}
    {outcome : StageOutcome}
    (h : w.play order (Stage.init.execute (p.preserving keep)) s = (tr, s', some (.ok outcome))) :
    w.play order (p.preserving keep).provision s =
      (tr ++ (w.play order (runStages p p.stages.tail) s').1,
        (w.play order (runStages p p.stages.tail) s').2.1,
        (w.play order (runStages p p.stages.tail) s').2.2.map p.response) := by
  have hvalid : (p.preserving keep).request.validate = .ok () := hv
  have htail : runStages (p.preserving keep) p.stages.tail = runStages p p.stages.tail :=
    runStages_preserving p.init_notMem_tail
  have hstages : w.play order (runStages (p.preserving keep) (p.preserving keep).stages) s = _ :=
    play_runStages_ok h
  rw [play_provision hvalid, hstages, ← htail]
  rfl

/-- The request is accepted, and the probe of the partitions succeeds. -/
def Probes (w : Habits) (p : Plan) (s : Setting) : Prop :=
  p.request.validate = .ok () ∧ ∃ l, (p.probePartitions.play w.answer s).2.2 = some (.ok l)

/-- An installation that keeps the stateful partition wipes it nowhere. -/
theorem notMem_lines_of_keeps {p : Plan} (hkeep : p.request.preserveStateful = true)
    {o : Option Response} (h : p.provision.Run tr o) :
    wipeLine ∉ lines tr ∧ unwipeLine ∉ lines tr := by
  refine ⟨fun hline => ?_, fun hline => ?_⟩
  · obtain ⟨stage, hsays⟩ := (spoken_provision h).of_mem_lines hline
    exact hsays.ne_wipeLine hkeep rfl
  · obtain ⟨stage, hsays⟩ := (spoken_provision h).of_mem_lines hline
    exact hsays.spares.ne_unwipeLine rfl

section

variable {t : Instant} {d : Duration} {f : Finished} {kept wiped : List Event} {s₁ s₂ : Setting}
  {o o' : Option Response}

/-- After a probe that succeeds the wipe is all that one run has done and the other has not. -/
theorem provision_probed {l : Layout} (hv : p.request.validate = .ok ())
    (hprobe : p.probePartitions.play w.answer s = (tr, s', some (.ok l)))
    (hwipe : w.session s.2.reboots wipeLine none .separate = (d, .exited f)) (hf : f.status = 0)
    (hkept : w.play order (p.preserving true).provision s = (kept, s₁, o))
    (hwiped : w.play order (p.preserving false).provision (byClock t s) = (wiped, s₂, o'))
    (hshows : Shows p.limits kept) (hshows' : Shows p.limits wiped) :
    (∃ response, o = some response ∧ o' = some response) ∧
      ∃ rest, lines kept = ["rootdev -s", "rootdev -s -d"] ++ rest ∧
        lines wiped = ["rootdev -s", "rootdev -s -d"] ++ wipeLine :: rest := by
  -- Both probes are alike.
  have hs : (Lag.between s.2.clock t).Apart s (byClock t s) :=
    ⟨rfl, rfl, rfl, Lag.same_between ..⟩
  have hprobes := play_steady (w := w) p.steady_probePartitions hs
  rcases hprobe' : p.probePartitions.play w.answer (byClock t s) with ⟨tr', u, r⟩
  rw [hprobe, hprobe'] at hprobes
  obtain ⟨-, hu, _, _, hl, rfl, rfl⟩ := hprobes
  cases hl
  obtain ⟨hlines, -⟩ := play_probePartitions_ok hprobe
  obtain ⟨hlines', c, hc⟩ := play_probePartitions_ok hprobe'
  -- The wipe takes its time.
  have hreboots : u.2.reboots = s.2.reboots := by
    have h := w.play_reboots p.probePartitions (byClock t s)
    rw [hprobe', reboots, hlines'] at h
    exact h
  rw [← hreboots] at hwipe
  have hfirst : w.play order (Stage.init.execute (p.preserving true)) s = _ :=
    play_init_kept rfl hprobe
  have hfirst' : w.play order (Stage.init.execute (p.preserving false)) (byClock t s) = _ :=
    play_init_wiped rfl hprobe' (play_wipeStateful hc hwipe hf)
  rw [play_provision_passed hv hfirst] at hkept
  rw [play_provision_passed hv hfirst'] at hwiped
  simp only [Prod.mk.injEq] at hkept hwiped
  obtain ⟨rfl, -, rfl⟩ := hkept
  obtain ⟨rfl, -, rfl⟩ := hwiped
  -- From there on both keep in step.
  rw [shows_append] at hshows hshows'
  have hlater : (Lag.between s'.2.clock (u.2.clock.plus d)).Apart s'
      (byClock (u.2.clock.plus d) u) :=
    ⟨hu.layout, hu.slot, hu.reboots, Lag.same_between ..⟩
  have halike := play_alike runStages_paced hlater hshows.2 hshows'.2
  obtain ⟨r, _, hr, hr', rfl⟩ := halike.result
  refine ⟨⟨p.response r, ?_, ?_⟩, lines (w.play order (runStages p p.stages.tail) s').1, ?_, ?_⟩
  · rw [hr, Option.map_some]
  · rw [hr', Option.map_some]
  · rw [lines_append, hlines]
  · rw [lines_append, lines_append, hlines', Link.lines_sent, halike.lines]
    rfl

/-- **Keeping the stateful partition changes nothing else.** On a device that does the same again,
    where the wish to wipe the stateful partition is heard, two installations run that differ in
    nothing but whether it is kept, by clocks that can show the time limits: where one cannot, the
    program panics when it adds a limit to the time. Both end, with the same report. Both hand in
    the same command lines, but for that wish: the one that wipes hands it in right after the two
    lines of the probe, if that succeeds. The one that keeps never hands it in, and never takes it
    back. -/
theorem provision_preserving (w : Habits) (order : List Bool) (p : Plan) (s : Setting) (t : Instant)
    (hwipe : w.session s.2.reboots wipeLine none .separate = (d, .exited f)) (hf : f.status = 0)
    (hkept : w.play order (p.preserving true).provision s = (kept, s₁, o))
    (hwiped : w.play order (p.preserving false).provision (byClock t s) = (wiped, s₂, o'))
    (hshows : Shows p.limits kept) (hshows' : Shows p.limits wiped) :
    (∃ response, o = some response ∧ o' = some response) ∧
      (w.Probes p s → ∃ rest, lines kept = ["rootdev -s", "rootdev -s -d"] ++ rest ∧
        lines wiped = ["rootdev -s", "rootdev -s -d"] ++ wipeLine :: rest) ∧
      (¬w.Probes p s → lines kept = lines wiped) ∧
      wipeLine ∉ lines kept ∧ unwipeLine ∉ lines kept := by
  have hrun := w.run_play order (p.preserving true).provision s
  rw [hkept] at hrun
  have hkeeps := notMem_lines_of_keeps rfl hrun
  cases hv : p.request.validate with
  | error e =>
    have hno : ¬w.Probes p s := by simp [Probes, hv]
    have hrefused : ∀ keep, (p.preserving keep).request.validate = .error e := fun _ => hv
    rw [play_provision_refused (hrefused true)] at hkept
    rw [play_provision_refused (hrefused false)] at hwiped
    cases hkept
    cases hwiped
    exact ⟨⟨_, rfl, rfl⟩, fun h => absurd h hno, fun _ => rfl, hkeeps⟩
  | ok =>
    have hs : (Lag.between s.2.clock t).Apart s (byClock t s) :=
      ⟨rfl, rfl, rfl, Lag.same_between ..⟩
    obtain ⟨hlines, -, r, _, hr, hr', rfl⟩ := play_steady (w := w) p.steady_probePartitions hs
    rcases hprobe : p.probePartitions.play w.answer s with ⟨tr, u, _⟩
    rcases hprobe' : p.probePartitions.play w.answer (byClock t s) with ⟨tr', u', _⟩
    rw [hprobe] at hr hlines
    rw [hprobe'] at hr' hlines
    subst hr hr'
    cases r with
    | error e =>
      have hno : ¬w.Probes p s := by
        rintro ⟨-, l, hl⟩
        rw [hprobe] at hl
        cases hl
      rw [play_provision_failed hv true hprobe] at hkept
      rw [play_provision_failed hv false hprobe'] at hwiped
      cases hkept
      cases hwiped
      exact ⟨⟨_, rfl, rfl⟩, fun h => absurd h hno, fun _ => hlines, hkeeps⟩
    | ok l =>
      have hyes : w.Probes p s := ⟨hv, l, by rw [hprobe]⟩
      obtain ⟨hends, hrest⟩ :=
        provision_probed hv hprobe hwipe hf hkept hwiped hshows hshows'
      exact ⟨hends, fun _ => hrest, fun h => absurd hyes h, hkeeps⟩

end

/-! ## A device that boots its old root -/

/-- A device on which every command succeeds after some time, and which boots the root again that it
    has booted before. -/
def stubborn : Habits where
  session _ line _ _ :=
    (.ofMillis 20, .exited { stdout := Text.Utf8.ofString <|
      if line = "rootdev -s" then "/dev/sda3\n"
      else if line = "rootdev -s -d" then "/dev/sda\n"
      else "1" })
  dialing _ := (.ofSecs 1, .ok ⟨2, "dut"⟩)
  closing _ := some (.ofSecs 3, .ok ())

/-- Nothing was asked of the device before. -/
def untouched : Setting := (none, ⟨⟨0⟩, {}, 0⟩)

theorem provision_preserving_stubborn :
    ∃ kept wiped s₁ s₂ response rest,
      stubborn.play [false, true] (samplePlan.preserving true).provision untouched =
        (kept, s₁, some response) ∧
      stubborn.play [false, true] (samplePlan.preserving false).provision (byClock ⟨5⟩ untouched) =
        (wiped, s₂, some response) ∧
      response.failedState = some "CrOS Verify" ∧ wipeLine ∉ lines kept ∧
      lines kept = ["rootdev -s", "rootdev -s -d"] ++ rest ∧
      lines wiped = ["rootdev -s", "rootdev -s -d"] ++ wipeLine :: rest := by
  have hprobes : stubborn.Probes samplePlan untouched := by
    have hprobe : (samplePlan.probePartitions.play stubborn.answer untouched).2.2.bind
        Except.toOption = some (Layout.ofSlot .a "/dev/sda3" "/dev/sda") := by decide +kernel
    obtain ⟨r, hr, hl⟩ := Option.bind_eq_some_iff.1 hprobe
    cases r with
    | error e => cases hl
    | ok l => exact ⟨rfl, l, hr⟩
  have hfails : (stubborn.play [false, true] (samplePlan.preserving true).provision
      untouched).2.2.bind Response.failedState = some "CrOS Verify" := by decide +kernel
  have hshows : Shows samplePlan.limits
      (stubborn.play [false, true] (samplePlan.preserving true).provision untouched).1 := by
    decide +kernel
  have hshows' : Shows samplePlan.limits
      (stubborn.play [false, true] (samplePlan.preserving false).provision
        (byClock ⟨5⟩ untouched)).1 := by
    decide +kernel
  rcases hkept : stubborn.play [false, true] (samplePlan.preserving true).provision untouched with
    ⟨kept, s₁, o⟩
  rcases hwiped : stubborn.play [false, true] (samplePlan.preserving false).provision
    (byClock ⟨5⟩ untouched) with ⟨wiped, s₂, o'⟩
  rw [hkept] at hshows hfails
  rw [hwiped] at hshows'
  obtain ⟨⟨response, rfl, rfl⟩, hrest, -, hno, -⟩ :=
    provision_preserving stubborn [false, true] samplePlan untouched ⟨5⟩ rfl rfl hkept hwiped
      hshows hshows'
  obtain ⟨rest, hlines, hlines'⟩ := hrest hprobes
  exact ⟨kept, wiped, s₁, s₂, response, rest, rfl, rfl, hfails, hno, hlines, hlines'⟩

end Habits

end Reimage
