/-
  Installations keep in step.

  A step of an installation may look at the clock, to see how long it still has, but what it does
  and what it gives never hangs on the time of the day. So it keeps in step with itself on clocks
  that are apart, as long as both can show the time limits of its plan.

  * `Task.Paced`, `Procedure.Paced`: a program keeps in step with itself;
  * `Link.paced_restart`, `Plan.paced_waitForStabilize`: so do the two steps that look at the clock;
  * `Command.paced_execute`, `rollback_paced`, `runChainAfter_paced`: so do commands, rollbacks and
    chains;
  * `runStages_paced`: so do stages, one after the other.
-/
import Reimage.Proofs.InStep

namespace Reimage

open Plan

variable {α β : Type} {g : Lag} {ds : List Duration}

/-! ## Programs that keep in step with themselves -/

/-- A task keeps in step with itself. -/
abbrev Task.Paced (g : Lag) (ds : List Duration) (t : Task α) : Prop := Task.InStep g ds Eq t t

/-- A procedure keeps in step with itself. -/
abbrev Procedure.Paced (g : Lag) (ds : List Duration) (p : Procedure α) : Prop :=
  Procedure.InStep g ds Eq p p

namespace Task

/-- After a question that has nothing to do with the clock the answer is the same. -/
theorem inStep_ask {R : α → α → Prop} {q : Ask} {f f' : q.Answer → Task α} (hq : q.Steady)
    (hf : ∀ a, Task.InStep g ds R (f a) (f' a)) :
    Task.InStep g ds R (Program.ask q f) (Program.ask q f') :=
  .ask (.same hq) fun a _ h => h ▸ hf a

/-- After the same result the same is done, by either clock. -/
theorem Paced.bind {R : β → β → Prop} {t : Task α} {f f' : α → Task β} (ht : t.Paced g ds)
    (hf : ∀ a, Task.InStep g ds R (f a) (f' a)) : Task.InStep g ds R (t >>= f) (t >>= f') :=
  Program.InStep.bind ht fun a _ h => h ▸ hf a

theorem paced_map {t : Task α} {f : α → β} (ht : t.Paced g ds) :
    Task.Paced g ds (t >>= fun a => pure (f a)) :=
  ht.bind fun _ => .done rfl

theorem InStep.andThen {t t' : Task (Result α)} {f f' : α → Task (Result β)}
    (ht : Task.InStep g ds Eq t t') (hf : ∀ a, Task.InStep g ds Eq (f a) (f' a)) :
    Task.InStep g ds Eq (t.andThen f) (t'.andThen f') := by
  refine Program.InStep.bind ht ?_
  rintro (e | a) _ rfl
  · exact .done rfl
  · exact hf a

/-- A deadline is the same point by either clock. -/
theorem inStep_deadline {d : Duration} (hd : d ∈ ds) :
    Task.InStep g ds g.Same (Task.deadline d) (Task.deadline d) := by
  refine Program.InStep.bind (.ask .now fun _ _ h => .done h) ?_
  rintro t u ⟨hsame, hshown⟩
  obtain ⟨hdeadline, hdue⟩ := hshown d hd
  obtain ⟨deadline, hdeadline⟩ := Option.isSome_iff_exists.1 hdeadline
  obtain ⟨due, hdue⟩ := Option.isSome_iff_exists.1 hdue
  simp only [hdeadline, hdue]
  exact .done (hsame.after? hdeadline hdue)

end Task

namespace Procedure

theorem Paced.bind {p : Procedure α} {f : α → Procedure β} (hp : p.Paced g ds)
    (hf : ∀ a, (f a).Paced g ds) : Procedure.Paced g ds (p >>= f) :=
  Program.InStep.bind hp fun a _ h => h ▸ hf a

theorem Paced.andThen {p : Procedure (Result α)} {f : α → Procedure (Result β)}
    (hp : p.Paced g ds) (hf : ∀ a, (f a).Paced g ds) : (p.andThen f).Paced g ds :=
  hp.bind fun
    | .ok a => hf a
    | .error _ => .done rfl

theorem paced_log (line : LogLine) : (Task.log line).procedure.Paced g ds :=
  Task.InStep.procedure (Task.inStep_ask trivial fun _ => .done rfl)

end Procedure

/-! ## The link -/

namespace Link

variable {l : Link}

theorem paced_connection : l.connection.Paced g ds :=
  Task.Only.inStep (l.asks_connection fun _ h => h.steady)

theorem steady_runCommand {command : String} {args : List String} {stdin : Option (List UInt8)}
    {mode : StderrMode} : (l.runCommand command args stdin mode).Only Ask.Steady :=
  asks_runCommand (fun _ h => h.steady) fun _ => trivial

theorem paced_runCommand {command : String} {args : List String} {stdin : Option (List UInt8)}
    {mode : StderrMode} : (l.runCommand command args stdin mode).Paced g ds :=
  steady_runCommand.inStep

theorem paced_pathExists {path : String} : (l.pathExists path).Paced g ds :=
  Task.paced_map paced_runCommand

/-- The link is dialed again, with the same time left by either clock. -/
theorem inStep_redial {timeout : Duration} {deadline due : Instant} (h : g.Same deadline due) :
    Task.InStep g ds Eq (l.redial timeout deadline) (l.redial timeout due) := by
  refine Task.inStep_ask trivial fun _ => ?_
  refine .ask (.dialBefore h) ?_
  rintro (dialed : Option (Result Connection)) _ rfl
  rcases dialed with _ | e | c
  · exact Task.inStep_ask trivial fun _ => Task.inStep_ask trivial fun _ => .done rfl
  · exact Task.inStep_ask trivial fun _ => .done rfl
  · have hinstall : (l.install c).Paced g ds :=
      Task.Only.inStep (l.asks_install (fun _ h => h.steady) c)
    have hnew : Task.Paced g ds ((l.install c).andThen fun _ => do
        Task.log (.info ("Reconnected to " ++ l.dut ++ " after reboot"))
        return .ok ()) :=
      hinstall.andThen fun _ => Task.inStep_ask trivial fun _ => .done rfl
    exact hnew.bind fun _ => Task.inStep_ask trivial fun _ => .done rfl

/-- So is the drop of the old connection waited for. -/
theorem inStep_awaitReboot {timeout : Duration} {deadline due : Instant} {old : Connection}
    {output : String} (h : g.Same deadline due) :
    Task.InStep g ds Eq (l.awaitReboot timeout deadline old output)
      (l.awaitReboot timeout due old output) := by
  refine Task.inStep_ask trivial fun _ => .ask (.awaitCloseBefore old h) ?_
  rintro (closed : Option (Result Unit)) _ rfl
  rcases closed with _ | e | _
  · exact Task.inStep_ask trivial fun _ => .done rfl
  · exact .done rfl
  · exact (inStep_redial h).andThen fun _ => .done rfl

theorem paced_restart {args : List String} {timeout : Duration} (h : timeout ∈ ds) :
    (l.restart args timeout).Paced g ds := by
  rw [restart_eq]
  exact Program.InStep.bind (Task.inStep_deadline h) fun _ _ hdue =>
    paced_connection.andThen fun _ => paced_runCommand.andThen fun _ => inStep_awaitReboot hdue

end Link

/-! ## The steps of a plan -/

namespace Plan

variable {p : Plan}

/-- The time limits of a plan. -/
def limits (p : Plan) : List Duration :=
  [p.rebootTimeout, p.firmwareRebootTimeout, p.stabilizeTimeout, p.stabilizePoll]

theorem paced_run {command : String} {args : List String} : (p.run command args).Paced g ds :=
  Task.paced_map Link.paced_runCommand

theorem paced_layout : layout.Paced g ds :=
  Task.inStep_ask trivial fun
    | none => .done rfl
    | some _ => .done rfl

theorem paced_startSlot : startSlot.Paced g ds := Task.paced_map paced_layout

theorem paced_targetSlot : targetSlot.Paced g ds := Task.paced_map paced_layout

theorem steady_bootedRoot : p.bootedRoot.Only Ask.Steady :=
  .bind Link.steady_runCommand fun _ => .done _

/-- The probe never looks at the clock. -/
theorem steady_probePartitions (p : Plan) : p.probePartitions.Only Ask.Steady := by
  refine .bind steady_bootedRoot fun root => ?_
  cases root with
  | error e => exact .done _
  | ok root =>
    refine .bind (.bind Link.steady_runCommand fun _ => .done _) fun disk => ?_
    cases disk with
    | error e => exact .done _
    | ok disk =>
      dsimp only
      split
      · exact .done _
      · exact .ask trivial fun _ _ => .ask trivial fun _ _ => .done _

theorem paced_stopSystemDaemons : p.stopSystemDaemons.Paced g ds := by
  refine paced_run.bind fun stopped => ?_
  split
  · exact .done rfl
  · exact Task.paced_map paced_run

theorem paced_wipeStateful : p.wipeStateful.Paced g ds := Task.paced_map paced_run

theorem paced_revertInstallStateful : p.revertInstallStateful.Paced g ds :=
  Task.paced_map paced_run

theorem paced_installStateful : p.installStateful.Paced g ds := by
  unfold installStateful
  cases p.artifactUrl statefulImage with
  | error e => exact .done rfl
  | ok url =>
    refine paced_run.bind fun unpacked => ?_
    cases unpacked with
    | ok => exact .done rfl
    | error e =>
      refine paced_revertInstallStateful.bind fun cleaned => ?_
      cases cleaned with
      | ok => exact .done rfl
      | error f => exact Task.inStep_ask trivial fun _ => .done rfl

theorem steady_installZippedImage {image output : String} :
    (p.installZippedImage image output).Only Ask.Steady := by
  unfold installZippedImage
  cases p.artifactUrl image with
  | error e => exact .done _
  | ok url => exact .bind Link.steady_runCommand fun _ => .done _

theorem paced_installPartitions : p.installPartitions.Paced g ds := by
  refine .ask (.one (.same trivial)) ?_
  rintro found _ rfl
  cases found with
  | none => exact .done rfl
  | some l =>
    refine .ask (.both steady_installZippedImage steady_installZippedImage) ?_
    rintro written _ rfl
    exact .done rfl

theorem paced_postInstall : p.postInstall.Paced g ds := by
  unfold Plan.postInstall
  exact paced_layout.andThen fun _ => paced_run

theorem paced_revertPostInstall : p.revertPostInstall.Paced g ds :=
  paced_layout.andThen fun _ => Task.paced_map paced_run

theorem paced_reboot {timeout : Duration} (h : timeout ∈ ds) : (p.reboot timeout).Paced g ds :=
  Task.paced_map (Link.paced_restart h)

theorem paced_clearDlcArtifacts : p.clearDlcArtifacts.Paced g ds := by
  refine Link.paced_pathExists.bind fun found => ?_
  split
  · exact .done rfl
  · exact .done rfl
  · refine paced_startSlot.andThen fun slot => paced_run.bind fun stopped => ?_
    rcases stopped with e | ⟨⟩
    refine Task.inStep_ask trivial fun _ => ?_
    -- A service that could not be stopped only costs a line of the log.
    all_goals
      refine Task.inStep_ask trivial fun _ => paced_run.bind fun cleared => ?_
      refine Task.inStep_ask trivial fun _ => paced_run.bind fun started => ?_
      cases started
      · exact Task.inStep_ask trivial fun _ => .done rfl
      · exact .done rfl

theorem paced_isDlcVerified {id : String} {slot : Slot} : (p.isDlcVerified id slot).Paced g ds :=
  Task.paced_map Link.paced_pathExists

theorem paced_transferDlc {id : String} {slot : Slot} : (p.transferDlc id slot).Paced g ds := by
  unfold transferDlc
  dsimp only
  split
  · exact .done rfl
  · refine paced_run.bind fun sent => ?_
    cases sent
    · exact .done rfl
    · exact Task.inStep_ask trivial fun _ => .done rfl

theorem paced_installDlc {id : String} {slot : Slot} : (p.installDlc id slot).Paced g ds := by
  refine paced_isDlcVerified.bind fun verified => ?_
  split
  · exact .done rfl
  · exact Task.inStep_ask trivial fun _ => .done rfl
  · exact Task.paced_map paced_transferDlc

theorem paced_installDlcsInto {slot : Slot} {n : Nat} {ids : List String} :
    (p.installDlcsInto slot n ids).Paced g ds := by
  induction ids generalizing n with
  | nil => exact .done rfl
  | cons id ids ih => exact paced_installDlc.andThen fun _ => ih

theorem paced_installDlcs : p.installDlcs.Paced g ds :=
  paced_startSlot.andThen fun _ => paced_installDlcsInto

theorem paced_firmwareUpdaterExists : p.firmwareUpdaterExists.Paced g ds :=
  Task.paced_map Link.paced_pathExists

/-- When the status is to be asked for again, by either clock. -/
inductive Again (g : Lag) : (next next' : Result (Option Instant)) → Prop
  | failed (e : Error) : Again g (.error e) (.error e)
  | stable : Again g (.ok none) (.ok none)
  | at {t u : Instant} : g.Same t u → Again g (.ok (some t)) (.ok (some u))

theorem inStep_askStable {deadline due : Instant} (hpoll : p.stabilizePoll ∈ ds)
    (h : g.Same deadline due) :
    Task.InStep g ds (Again g) (p.askStable deadline) (p.askStable due) := by
  refine Link.paced_runCommand.bind fun status => ?_
  split
  · exact .done .stable
  · refine Program.InStep.bind (Task.inStep_deadline hpoll) fun next next' hnext => ?_
    have hlate : deadline.nanos < next.nanos ↔ due.nanos < next'.nanos := by
      simp only [Lag.Same] at h hnext
      omega
    by_cases hx : deadline.nanos < next.nanos
    · rw [if_pos hx, if_pos (hlate.1 hx)]
      exact .done (.failed _)
    · rw [if_neg hx, if_neg (mt hlate.2 hx)]
      exact .done (.at hnext)

theorem inStep_pollStable {deadline due : Instant} {n : Nat} (hpoll : p.stabilizePoll ∈ ds)
    (h : g.Same deadline due) :
    Task.InStep g ds Eq (p.pollStable deadline n) (p.pollStable due n) := by
  induction n with
  | zero =>
    refine Program.InStep.bind (inStep_askStable hpoll h) fun _ _ hnext => ?_
    cases hnext <;> exact .done rfl
  | succ n ih =>
    refine Program.InStep.bind (inStep_askStable hpoll h) fun _ _ hnext => ?_
    cases hnext with
    | failed | stable => exact .done rfl
    | «at» hsame => exact .ask (.sleep hsame) fun _ _ _ => ih

theorem paced_waitForStabilize (htimeout : p.stabilizeTimeout ∈ ds) (hpoll : p.stabilizePoll ∈ ds) :
    p.waitForStabilize.Paced g ds :=
  Program.InStep.bind (Task.inStep_deadline htimeout) fun _ _ h => inStep_pollStable hpoll h

theorem paced_crossystem {key : String} : (p.crossystem key).Paced g ds :=
  Task.paced_map Link.paced_runCommand

theorem paced_checkFirmwareSlot : p.checkFirmwareSlot.Paced g ds := by
  refine paced_crossystem.andThen fun active => paced_crossystem.andThen fun next => ?_
  split
  · exact .done rfl
  · exact Task.inStep_ask trivial fun _ => .done rfl

theorem paced_verifyFirmware {expected : Option String} :
    (p.verifyFirmware expected).Paced g ds := by
  have hslot : (p.verifyFirmwareSlot expected).Paced g ds := by
    cases expected with
    | none => exact .done rfl
    | some _ =>
      refine paced_crossystem.andThen fun active => ?_
      split <;> exact .done rfl
  refine hslot.andThen fun _ => paced_crossystem.andThen fun result => ?_
  split <;> exact .done rfl

theorem paced_verifyActiveRoot : p.verifyActiveRoot.Paced g ds := by
  refine paced_targetSlot.andThen fun expected => steady_bootedRoot.inStep.andThen fun root => ?_
  split
  · exact .done rfl
  · split <;> exact .done rfl

theorem paced_verifyDlcsIn {slot : Slot} {ids : List String} :
    (p.verifyDlcsIn slot ids).Paced g ds := by
  induction ids with
  | nil => exact .done rfl
  | cons id ids ih =>
    refine paced_isDlcVerified.andThen fun verified => ?_
    split
    · exact ih
    · exact .done rfl

end Plan

/-! ## Commands and chains -/

section

variable {p : Plan} {title : String}

theorem Command.paced_kept {c : Command} {work : Procedure (Result α)} (h : work.Paced g ds) :
    (c.kept work).Paced g ds :=
  h.bind fun _ => .done rfl

/-- A command keeps in step with itself; one that reboots has to do so in a time of the plan. -/
theorem Command.paced_execute {c : Command} (hc : ∀ d, c = .reboot d → d ∈ p.limits) :
    (c.execute p).Paced g p.limits := by
  cases c with
  | probePartitions => exact paced_kept (Task.InStep.procedure p.steady_probePartitions.inStep)
  | wipeStateful => exact paced_kept (Task.InStep.procedure paced_wipeStateful)
  | installPartitions => exact paced_kept paced_installPartitions
  | stopSystemDaemons => exact paced_kept (Task.InStep.procedure paced_stopSystemDaemons)
  | clearDlcArtifacts => exact paced_kept (Task.InStep.procedure paced_clearDlcArtifacts)
  | installStateful => exact paced_kept (Task.InStep.procedure paced_installStateful)
  | installDlcs => exact paced_kept (Task.InStep.procedure paced_installDlcs)
  | waitForStabilize =>
    exact paced_kept (Task.InStep.procedure
      (paced_waitForStabilize (by simp [limits]) (by simp [limits])))
  | runFirmwareUpdater =>
    exact paced_kept (Task.InStep.procedure (Task.paced_map Link.paced_runCommand))
  | checkFirmwareSlot =>
    exact Procedure.Paced.bind (Task.InStep.procedure paced_checkFirmwareSlot) fun _ => .done rfl
  | reboot d => exact paced_kept (Task.InStep.procedure (paced_reboot (hc d rfl)))
  | verifyFirmware => exact paced_kept (Task.InStep.procedure paced_verifyFirmware)
  | postInstall => exact paced_kept (Task.InStep.procedure paced_postInstall)
  | clearTpm => exact paced_kept (Task.InStep.procedure paced_run)
  | verifyActiveRoot => exact paced_kept (Task.InStep.procedure paced_verifyActiveRoot)
  | verifyDlcs =>
    exact paced_kept (Task.InStep.procedure
      (paced_targetSlot.andThen fun _ => paced_verifyDlcsIn))

theorem Command.paced_revert {c : Command} : (c.revert p).Paced g ds := by
  cases c with
  | wipeStateful => exact Task.InStep.procedure (Task.paced_map paced_run)
  | installStateful => exact Task.InStep.procedure paced_revertInstallStateful
  | postInstall => exact Task.InStep.procedure paced_revertPostInstall
  | clearTpm => exact Task.InStep.procedure paced_run
  | _ => exact .done rfl

theorem rollback_paced {reason : Error} {executed : List Command} :
    (rollback p title reason executed).Paced g ds := by
  induction executed with
  | nil => exact .done rfl
  | cons c cs ih =>
    refine (Procedure.paced_log _).bind fun _ => Command.paced_revert.bind fun reverted => ?_
    cases reverted with
    | error failure => exact .done rfl
    | ok => exact ih

theorem runChainAfter_paced {executed cs : List Command}
    (hcs : ∀ c ∈ cs, ∀ d, c = .reboot d → d ∈ p.limits) :
    (runChainAfter p title executed cs).Paced g p.limits := by
  induction cs generalizing executed with
  | nil => exact .done rfl
  | cons c cs ih =>
    rw [List.forall_mem_cons] at hcs
    refine (Command.paced_execute hcs.1).bind fun r => ?_
    cases r with
    | error e => exact rollback_paced.bind fun _ => .done rfl
    | ok c => exact ih hcs.2

end

/-! ## Stages -/

section

variable {p : Plan}

/-- The commands of a stage reboot the device in a time of the plan. -/
theorem Stage.mem_limits {s : Stage} : ∀ c ∈ s.commands p, ∀ d, c = .reboot d → d ∈ p.limits := by
  rintro _ hc d rfl
  obtain rfl : d = p.rebootTimeout := by
    cases s <;> simp_all [commands]
  simp [limits]

theorem Stage.paced_bootFirmware {target : Option String} :
    (bootFirmware p target).Paced g p.limits := by
  have hreboot : ((Command.reboot p.firmwareRebootTimeout).executeAlone p).Paced g p.limits :=
    Procedure.Paced.bind (Command.paced_execute fun _ h => by cases h; simp [limits])
      fun _ => .done rfl
  have hverify : ((Command.verifyFirmware target).executeAlone p).Paced g p.limits :=
    Procedure.Paced.bind (Command.paced_execute fun _ h => nomatch h) fun _ => .done rfl
  cases target with
  | none =>
    exact (Procedure.paced_log _).bind fun _ => hverify.bind fun _ => .done rfl
  | some =>
    refine hreboot.bind fun done => ?_
    cases done with
    | error e => exact .done rfl
    | ok => exact hverify.bind fun _ => .done rfl

theorem Stage.paced_execute {s : Stage} : (s.execute p).Paced g p.limits := by
  have hcommands : (s.runCommands p).Paced g p.limits := runChainAfter_paced s.mem_limits
  cases s with
  | updateFirmware =>
    rw [Stage.execute, runFirmware]
    split
    · exact .done rfl
    refine Procedure.Paced.andThen (Task.InStep.procedure paced_firmwareUpdaterExists)
      fun found => ?_
    split
    · exact .done rfl
    · exact hcommands.andThen fun _ => paced_bootFirmware.bind fun _ => .done rfl
  | _ => exact hcommands.bind fun _ => .done rfl

theorem runStages_paced {ss : List Stage} : (runStages p ss).Paced g p.limits := by
  induction ss with
  | nil => exact .done rfl
  | cons s ss ih =>
    refine (Procedure.paced_log _).bind fun _ => Stage.paced_execute.bind fun r => ?_
    cases r with
    | error e => exact (Procedure.paced_log _).bind fun _ => .done rfl
    | ok outcome => exact (Procedure.paced_log _).bind fun _ => ih

end

end Reimage
