/-
  What an installation says.

  Whatever the device answers, a stage says the lines of `Stage.Says` and nothing else:

  * `Task.Utters` of each step of a plan, and from it of each command and its revert;
  * `runChain_uttered`: of a chain, if it holds of its commands and their reverts;
  * `Stage.uttered`: of every stage after the first. The first one also remembers the layout, so it
    is looked at apart.
-/
import Reimage.Proofs.Install.Chain
import Reimage.Proofs.Install.Lines
import Reimage.Proofs.Link.Lines

namespace Reimage

open Plan

/-! ## The steps of a plan -/

namespace Plan

variable {p : Plan} {K : Layout → Prop} {S : String → Prop} {α : Type}

theorem utters_run {command : String} {args : List String}
    (h : S (Shell.commandLine command args)) : (p.run command args).Utters K S :=
  Task.utters_map (Link.utters_runCommand h)

/-- A step that uses the layout only sees layouts in `K`. -/
theorem utters_layout {f : Layout → Task (Result α)} (hf : ∀ l, K l → (f l).Utters K S) :
    (layout.andThen f).Utters K S := by
  refine .ask trivial fun l hl => ?_
  cases l with
  | none => exact .done _
  | some l => exact hf l hl

theorem utters_startSlot : startSlot.Utters K S :=
  .ask trivial fun l _ => by cases l <;> exact .done _

theorem utters_targetSlot : targetSlot.Utters K S :=
  .ask trivial fun l _ => by cases l <;> exact .done _

theorem utters_bootedRoot (h : S "rootdev -s") : p.bootedRoot.Utters K S :=
  Task.utters_map (Link.utters_runCommand h)

theorem utters_bootDisk (h : S "rootdev -s -d") : p.bootDisk.Utters K S :=
  Task.utters_map (Link.utters_runCommand h)

theorem utters_stopSystemDaemons (h : S "stop ui") (h' : S "stop update-engine") :
    p.stopSystemDaemons.Utters K S := by
  refine .bind (utters_run h) fun stopped => ?_
  split
  · exact .done _
  · exact Task.utters_map (utters_run h')

theorem utters_wipeStateful (h : S wipeLine) : p.wipeStateful.Utters K S :=
  Task.utters_map (utters_run h)

theorem utters_revertInstallStateful (h : S cleanUpLine) :
    p.revertInstallStateful.Utters K S :=
  Task.utters_map (utters_run h)

theorem utters_installStateful
    (h : ∀ url, p.artifactUrl statefulImage = .ok url → S (unpackLine url))
    (h' : S cleanUpLine) : p.installStateful.Utters K S := by
  unfold installStateful
  cases hu : p.artifactUrl statefulImage with
  | error e => exact .done _
  | ok url =>
    refine .bind (utters_run (h url hu)) fun unpacked => ?_
    cases unpacked with
    | ok => exact .done _
    | error e =>
      refine .bind (utters_revertInstallStateful h') fun cleaned => ?_
      cases cleaned with
      | ok => exact .done _
      | error f => exact .ask trivial fun _ _ => .done _

theorem utters_installZippedImage {image output : String}
    (h : ∀ url, p.artifactUrl image = .ok url → S (writeLine url output)) :
    (p.installZippedImage image output).Utters K S := by
  unfold installZippedImage
  cases hu : p.artifactUrl image with
  | error e => exact .done _
  | ok url => exact utters_run (h url hu)

theorem utters_installPartitions
    (hk : ∀ l, K l → ∀ url, p.artifactUrl kernelImage = .ok url →
      S (writeLine url l.inactiveKernel))
    (hr : ∀ l, K l → ∀ url, p.artifactUrl rootImage = .ok url →
      S (writeLine url l.inactiveRoot)) : p.installPartitions.Utters K S := by
  refine .ask trivial fun l hl => ?_
  cases l with
  | none => exact .done _
  | some l =>
    exact .ask ⟨utters_installZippedImage (hk l hl), utters_installZippedImage (hr l hl)⟩
      fun _ _ => .done _

theorem utters_postInstall (h : ∀ l, K l → S (postInstallLine l.inactiveRoot)) :
    p.postInstall.Utters K S := by
  unfold Plan.postInstall
  exact utters_layout fun l hl => utters_run (h l hl)

theorem utters_revertPostInstall (h : ∀ l, K l → S (keepRootLine l.activeRoot)) :
    p.revertPostInstall.Utters K S :=
  utters_layout fun l hl => Task.utters_map (utters_run (h l hl))

theorem utters_reboot {timeout : Duration} (h : S "reboot") : (p.reboot timeout).Utters K S :=
  Task.utters_map (Link.utters_restart h)

theorem utters_clearDlcArtifacts (hf : S (Shell.pathExists dlcLibDir)) (h : S "stop dlcservice")
    (hc : ∀ slot, S (Shell.commandLine "rm" ["-f", staleMarks slot]))
    (h' : S "start dlcservice") : p.clearDlcArtifacts.Utters K S := by
  refine .bind (Link.utters_pathExists hf) fun found => ?_
  split
  · exact .done _
  · exact .done _
  · refine Task.utters_andThen utters_startSlot fun slot => ?_
    refine .bind (utters_run h) fun stopped => ?_
    rcases stopped with e | ⟨⟩
    refine .bind (Task.utters_ask trivial) fun _ => ?_
    -- A service that could not be stopped only costs a line of the log.
    all_goals
      refine .bind (Task.utters_ask trivial) fun _ => ?_
      refine .bind (utters_run (hc _)) fun cleared => ?_
      refine .bind (Task.utters_ask trivial) fun _ => ?_
      refine .bind (utters_run h') fun started => ?_
      cases started
      · exact .ask trivial fun _ _ => .done _
      · exact .done _

theorem utters_isDlcVerified {id : String} {slot : Slot} (h : S (checkLine id slot)) :
    (p.isDlcVerified id slot).Utters K S :=
  Task.utters_map (Link.utters_pathExists h)

theorem utters_transferDlc {id : String} {slot : Slot}
    (h : ∀ url, S (transferLine id slot url)) : (p.transferDlc id slot).Utters K S := by
  unfold transferDlc
  dsimp only
  split
  · exact .done _
  · refine .bind (utters_run (h _)) fun sent => ?_
    cases sent
    · exact .done _
    · exact .ask trivial fun _ _ => .done _

theorem utters_installDlc {id : String} {slot : Slot} (hc : S (checkLine id slot))
    (ht : ∀ url, S (transferLine id slot url)) : (p.installDlc id slot).Utters K S := by
  refine .bind (utters_isDlcVerified hc) fun verified => ?_
  split
  · exact .done _
  · exact .ask trivial fun _ _ => .done _
  · exact Task.utters_map (utters_transferDlc ht)

theorem utters_installDlcsInto {slot : Slot} {ids : List String} {n : Nat}
    (hc : ∀ id ∈ ids, S (checkLine id slot))
    (ht : ∀ id ∈ ids, ∀ url, S (transferLine id slot url)) :
    (p.installDlcsInto slot n ids).Utters K S := by
  induction ids generalizing n with
  | nil => exact .done _
  | cons id ids ih =>
    rw [List.forall_mem_cons] at hc ht
    exact Task.utters_andThen (utters_installDlc hc.1 ht.1) fun new => ih hc.2 ht.2

theorem utters_installDlcs (hc : ∀ slot, ∀ id ∈ p.request.dlcIds, S (checkLine id slot))
    (ht : ∀ slot, ∀ id ∈ p.request.dlcIds, ∀ url, S (transferLine id slot url)) :
    p.installDlcs.Utters K S :=
  Task.utters_andThen utters_startSlot fun _ => utters_installDlcsInto (hc _) (ht _)

theorem utters_firmwareUpdaterExists (h : S (Shell.pathExists firmwareUpdater)) :
    p.firmwareUpdaterExists.Utters K S :=
  Task.utters_map (Link.utters_pathExists h)

theorem utters_askStable {deadline : Instant} (h : S "status system-services") :
    (p.askStable deadline).Utters K S := by
  refine .bind (Link.utters_runCommand h) fun status => ?_
  split
  · exact .done _
  · refine .bind (Link.utters_deadline _) fun next => ?_
    split <;> exact .done _

theorem utters_pollStable {deadline : Instant} {n : Nat} (h : S "status system-services") :
    (p.pollStable deadline n).Utters K S := by
  induction n with
  | zero =>
    refine Task.utters_andThen (utters_askStable h) fun next => ?_
    cases next <;> exact .done _
  | succ n ih =>
    refine Task.utters_andThen (utters_askStable h) fun next => ?_
    cases next
    · exact .done _
    · exact .ask trivial fun _ _ => ih

theorem utters_waitForStabilize (h : S "status system-services") :
    p.waitForStabilize.Utters K S :=
  .bind (Link.utters_deadline _) fun _ => utters_pollStable h

theorem utters_runFirmwareUpdater
    (h : S "/usr/sbin/chromeos-firmwareupdate --wp=1 --mode=autoupdate") :
    p.runFirmwareUpdater.Utters K S :=
  Task.utters_map (Link.utters_runCommand h)

theorem utters_crossystem {key : String} (h : S (Shell.commandLine "crossystem" [key])) :
    (p.crossystem key).Utters K S :=
  Task.utters_map (Link.utters_runCommand h)

theorem utters_checkFirmwareSlot (h : S "crossystem mainfw_act")
    (h' : S "crossystem fw_try_next") : p.checkFirmwareSlot.Utters K S := by
  refine Task.utters_andThen (utters_crossystem h) fun active => ?_
  refine Task.utters_andThen (utters_crossystem h') fun next => ?_
  split
  · exact .done _
  · exact .ask trivial fun _ _ => .done _

theorem utters_verifyFirmware {expected : Option String} (h : S "crossystem mainfw_act")
    (h' : S "crossystem fw_result") : (p.verifyFirmware expected).Utters K S := by
  have hslot : (p.verifyFirmwareSlot expected).Utters K S := by
    cases expected with
    | none => exact .done _
    | some _ =>
      refine Task.utters_andThen (utters_crossystem h) fun active => ?_
      split <;> exact .done _
  refine Task.utters_andThen hslot fun _ => ?_
  refine Task.utters_andThen (utters_crossystem h') fun result => ?_
  split <;> exact .done _

theorem utters_clearTpm (h : S "crossystem clear_tpm_owner_request=1") :
    p.clearTpm.Utters K S :=
  utters_run h

theorem utters_revertClearTpm (h : S "crossystem clear_tpm_owner_request=0") :
    p.revertClearTpm.Utters K S :=
  utters_run h

theorem utters_verifyActiveRoot (h : S "rootdev -s") : p.verifyActiveRoot.Utters K S := by
  refine Task.utters_andThen utters_targetSlot fun expected => ?_
  refine Task.utters_andThen (utters_bootedRoot h) fun root => ?_
  split
  · exact .done _
  · split <;> exact .done _

theorem utters_verifyDlcsIn {slot : Slot} {ids : List String}
    (h : ∀ id ∈ ids, S (checkLine id slot)) : (p.verifyDlcsIn slot ids).Utters K S := by
  induction ids with
  | nil => exact .done _
  | cons id ids ih =>
    rw [List.forall_mem_cons] at h
    refine Task.utters_andThen (utters_isDlcVerified h.1) fun verified => ?_
    split
    · exact ih h.2
    · exact .done _

theorem utters_verifyDlcs (h : ∀ slot, ∀ id ∈ p.request.dlcIds, S (checkLine id slot)) :
    p.verifyDlcs.Utters K S :=
  Task.utters_andThen utters_targetSlot fun _ => utters_verifyDlcsIn (h _)

end Plan

/-! ## Commands and chains -/

section

variable {p : Plan} {K : Layout → Prop} {S : String → Prop} {title : String}

theorem Command.utters_kept {α : Type} {c : Command} {work : Procedure (Result α)}
    (h : work.Utters K S) : (c.kept work).Utters K S :=
  .bind h fun _ => .done _

theorem Command.utters_executeAlone {c : Command} (h : (c.execute p).Utters K S) :
    (c.executeAlone p).Utters K S :=
  .bind h fun _ => .done _

/-- A chain says what its commands and their reverts say. -/
theorem runChain_uttered {cs : List Command} {tr : List Event}
    {o : Option (Result (List Command))} (h : (runChain p title cs).Run tr o)
    (hc : ∀ c ∈ cs, (c.execute p).Utters K S) (hr : ∀ c ∈ cs, (c.revert p).Utters K S)
    (hk : Knows K tr) : Uttered S tr := by
  refine runChain_trace (P := fun t => Knows K t → Uttered S t) h (fun _ => uttered_nil) ?_
    (fun c hmem t _ hrun => Procedure.asked hrun (hc c hmem))
    (fun c hmem t _ hrun => Procedure.asked hrun (hr c hmem)) hk
  intro t u ht hu hk
  rw [knows_append] at hk
  exact uttered_append.2 ⟨ht hk.1, hu hk.2⟩

/-! ## Stages -/

open Stage.Says

@[simp] theorem mem_unless {α : Type} {b : Bool} {a c : α} :
    c ∈ (if b then [] else [a]) ↔ b = false ∧ c = a := by
  cases b <;> simp

/-- The commands of the stages after the first say what their stage may say. -/
theorem Stage.utters_execute {s : Stage} (hs : s ≠ .init) :
    ∀ c ∈ s.commands p, (c.execute p).Utters K (s.Says p K) := by
  intro c hc
  cases s with
  | init => contradiction
  | installPartitions =>
    simp only [commands, List.mem_singleton] at hc
    subst hc
    exact Command.utters_kept
      (utters_installPartitions (fun _ hl _ => .writeKernel hl) fun _ hl _ => .writeRoot hl)
  | installStateful =>
    simp only [commands, List.mem_append, List.mem_singleton, mem_unless] at hc
    obtain ((rfl | ⟨-, rfl⟩) | rfl) | ⟨-, rfl⟩ := hc
    · exact Command.utters_kept (Task.utters_procedure (utters_stopSystemDaemons .stopUi
        .stopUpdates))
    · exact Command.utters_kept (Task.utters_procedure (utters_clearDlcArtifacts .findDlcs
        .stopDlcs (fun _ => .clearDlcs _) .startDlcs))
    · exact Command.utters_kept (Task.utters_procedure (utters_installStateful
        (fun _ => .unpack) .cleanUp))
    · exact Command.utters_kept (Task.utters_procedure (utters_installDlcs
        (fun _ _ h => .checkDlc _ h) fun _ _ h _ => .transferDlc _ _ h))
  | updateFirmware =>
    simp only [commands, List.mem_cons, List.not_mem_nil, or_false] at hc
    obtain rfl | rfl | rfl := hc
    · exact Command.utters_kept (Task.utters_procedure (utters_waitForStabilize .askStable))
    · exact Command.utters_kept (Task.utters_procedure (utters_runFirmwareUpdater .update))
    · exact .bind (Task.utters_procedure (utters_checkFirmwareSlot .activeSlot .nextSlot))
        fun _ => .done _
  | postInstall =>
    simp only [commands, List.mem_append, List.mem_cons, List.not_mem_nil, or_false,
      mem_unless] at hc
    obtain (rfl | rfl) | ⟨h, rfl⟩ := hc
    · exact Command.utters_kept (Task.utters_procedure (utters_postInstall fun _ => .postInstall))
    · exact Command.utters_kept (Task.utters_procedure (utters_clearTpm .clearTpm))
    · exact Command.utters_kept (Task.utters_procedure (utters_reboot (.reboot h)))
  | verify =>
    simp only [commands, List.mem_append, List.mem_singleton, mem_unless] at hc
    obtain rfl | ⟨-, rfl⟩ := hc
    · exact Command.utters_kept (Task.utters_procedure (utters_verifyActiveRoot .bootedAgain))
    · exact Command.utters_kept (Task.utters_procedure (utters_verifyDlcs
        fun _ _ h => .verifyDlc _ h))

/-- So do their reverts. -/
theorem Stage.utters_revert {s : Stage} (hs : s ≠ .init) :
    ∀ c ∈ s.commands p, (c.revert p).Utters K (s.Says p K) := by
  intro c hc
  cases s with
  | init => contradiction
  | installPartitions =>
    simp only [commands, List.mem_singleton] at hc
    subst hc
    exact .done _
  | installStateful =>
    simp only [commands, List.mem_append, List.mem_singleton, mem_unless] at hc
    obtain ((rfl | ⟨-, rfl⟩) | rfl) | ⟨-, rfl⟩ := hc
    · exact .done _
    · exact .done _
    · exact Task.utters_procedure (utters_revertInstallStateful .cleanUp)
    · exact .done _
  | updateFirmware =>
    simp only [commands, List.mem_cons, List.not_mem_nil, or_false] at hc
    obtain rfl | rfl | rfl := hc <;> exact .done _
  | postInstall =>
    simp only [commands, List.mem_append, List.mem_cons, List.not_mem_nil, or_false,
      mem_unless] at hc
    obtain (rfl | rfl) | ⟨-, rfl⟩ := hc
    · exact Task.utters_procedure (utters_revertPostInstall fun _ => .keepRoot)
    · exact Task.utters_procedure (utters_revertClearTpm .keepTpm)
    · exact .done _
  | verify =>
    simp only [commands, List.mem_append, List.mem_singleton, mem_unless] at hc
    obtain rfl | ⟨-, rfl⟩ := hc <;> exact .done _

theorem Stage.utters_bootFirmware {target : Option String} :
    (bootFirmware p target).Utters K (updateFirmware.Says p K) := by
  have hv : ((Command.verifyFirmware target).executeAlone p).Utters K (updateFirmware.Says p K) :=
    Command.utters_executeAlone (Command.utters_kept (Task.utters_procedure
      (utters_verifyFirmware .activeSlot .firmwareResult)))
  cases target with
  | none =>
    refine .bind (Task.utters_procedure (Task.utters_ask trivial)) fun _ => ?_
    refine .bind (.done _) fun booted => ?_
    cases booted
    · exact .done _
    · exact .bind hv fun _ => .done _
  | some target =>
    have hb : ((Command.reboot p.firmwareRebootTimeout).executeAlone p).Utters K
        (updateFirmware.Says p K) :=
      Command.utters_executeAlone (Command.utters_kept (Task.utters_procedure
        (utters_reboot .bootFirmware)))
    refine .bind hb fun done => .bind (.done _) fun booted => ?_
    cases booted
    · exact .done _
    · exact .bind hv fun _ => .done _

/-- A stage other than the update of the firmware runs its commands. -/
theorem Stage.execute_run {s : Stage} (hs : s ≠ .updateFirmware) {tr : List Event}
    {o : Option (Result StageOutcome)} : (s.execute p).Run tr o ↔
      ∃ r, (s.runCommands p).Run tr r ∧ o = r.map fun r => r.map fun _ => .completed := by
  cases s with
  | updateFirmware => contradiction
  | _ => exact Program.run_bind_pure

/-- The commands of a stage after the first say what it may say, and so do their reverts. -/
theorem Stage.uttered_runCommands {s : Stage} (hs : s ≠ .init) {tr : List Event}
    {o : Option (Result (List Command))} (h : (s.runCommands p).Run tr o) (hk : Knows K tr) :
    Uttered (s.Says p K) tr :=
  runChain_uttered h (utters_execute hs) (utters_revert hs) hk

/-- The update of the firmware says what it may say, also when it boots. -/
theorem Stage.uttered_runFirmware {tr : List Event} {o : Option (Result StageOutcome)}
    (h : (runFirmware p).Run tr o) (hk : Knows K tr) : Uttered (updateFirmware.Says p K) tr := by
  have hfind : (Task.procedure p.firmwareUpdaterExists).Utters K (updateFirmware.Says p K) :=
    Task.utters_procedure (utters_firmwareUpdaterExists .findUpdater)
  rw [runFirmware] at h
  split at h
  · obtain ⟨rfl, -⟩ := Program.run_pure.1 h
    exact uttered_nil
  obtain ⟨-, h⟩ | ⟨e, h, -⟩ | ⟨t, found, u, rfl, h, h'⟩ := Procedure.run_andThen.1 h
  · exact Procedure.asked h hfind hk
  · exact Procedure.asked h hfind hk
  rw [knows_append] at hk
  refine uttered_append.2 ⟨Procedure.asked h hfind hk.1, ?_⟩
  split at h'
  · obtain ⟨rfl, -⟩ := Program.run_pure.1 h'
    exact uttered_nil
  obtain ⟨-, h⟩ | ⟨e, h, -⟩ | ⟨v, executed, w, rfl, h, h'⟩ := Procedure.run_andThen.1 h'
  · exact uttered_runCommands (by decide) h hk.2
  · exact uttered_runCommands (by decide) h hk.2
  rw [knows_append] at hk
  refine uttered_append.2 ⟨uttered_runCommands (by decide) h hk.2.1, ?_⟩
  exact Procedure.asked h' (.bind utters_bootFirmware fun _ => .done _) hk.2.2

/-- **What a stage after the first says.** -/
theorem Stage.uttered {s : Stage} (hs : s ≠ .init) {tr : List Event}
    {o : Option (Result StageOutcome)} (h : (s.execute p).Run tr o) (hk : Knows K tr) :
    Uttered (s.Says p K) tr := by
  by_cases hf : s = .updateFirmware
  · subst hf
    exact uttered_runFirmware h hk
  · obtain ⟨r, h, -⟩ := (execute_run hf).1 h
    exact uttered_runCommands hs h hk

end

end Reimage
