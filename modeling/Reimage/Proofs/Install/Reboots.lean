/-
  When an installation reboots the device.

  A run reboots the device twice at most: when there is new firmware to boot, and when the new root
  was made the one to boot. In both cases a reboot is due after what its stage has been answered so
  far, and it comes then and never otherwise.

  * `Command.reboots_execute`, `Command.reboots_revert`: nothing but the command to reboot does;
  * `Stage.Due`: when a stage is to reboot the device;
  * `Stage.rebooted`, `Stage.Due.handsFirst`: it does so only if that is due, and if it is;
  * `runFrom_reboots`: of a whole run.
-/
import Reimage.Proofs.Install.Legs
import Reimage.Proofs.Install.Success
import Reimage.Proofs.Link.Open

namespace Reimage

open Plan

/-! ## Lines that reboot -/

/-- A command line that reboots the device. -/
def Reboots (line : String) : Prop := "reboot".toList <+: line.toList

instance (line : String) : Decidable (Reboots line) := inferInstanceAs (Decidable (_ <+: _))

/-- The command lines of a trace that reboot the device, in order. -/
def reboots (tr : List Event) : List String := (lines tr).filter (Reboots ·)

@[simp] theorem reboots_append (t u : List Event) : reboots (t ++ u) = reboots t ++ reboots u := by
  rw [reboots, lines_append, List.filter_append, reboots, reboots]

theorem reboots_append_eq_nil {t u : List Event} (ht : reboots t = []) (hu : reboots u = []) :
    reboots (t ++ u) = [] := by
  rw [reboots_append, ht, hu, List.append_nil]

theorem reboots_of_lines_eq_nil {tr : List Event} (h : lines tr = []) : reboots tr = [] := by
  rw [reboots, h, List.filter_nil]

/-- Where no line was one that reboots. -/
theorem Spoken.reboots_eq_nil {tr : List Event} (h : Spoken (fun line => ¬Reboots line) tr) :
    reboots tr = [] := by
  refine List.filter_eq_nil_iff.2 fun line hline => ?_
  rw [decide_eq_true_iff]
  exact h.of_mem_lines hline

/-- A line that begins otherwise does not reboot. -/
theorem not_reboots {start line : String} (h : start.toList <+: line.toList)
    (hs : BeginApart start "reboot" := by decide) : ¬Reboots line :=
  hs.not_isPrefix h

theorem not_reboots_commandLine {command : String} {args : List String}
    (hc : command.isEmpty = false := by rfl) (hs : BeginApart command "reboot" := by decide) :
    ¬Reboots (Shell.commandLine command args) :=
  not_reboots (Shell.isPrefix_commandLine hc args) hs

theorem not_reboots_pathExists {path : String} : ¬Reboots (Shell.pathExists path) :=
  not_reboots (Shell.isPrefix_pathExists path)

/-! ## Commands that do not reboot -/

section

variable {p : Plan}

/-- No command but the one to reboot does. -/
theorem Command.reboots_execute {c : Command} (hc : ∀ timeout, c ≠ .reboot timeout)
    {tr : List Event} {o : Option (Result Command)} (h : (c.execute p).Run tr o) :
    reboots tr = [] := by
  have hasked : (c.execute p).Utters (fun _ => True) (fun line => ¬Reboots line) →
      reboots tr = [] :=
    fun hu => (Procedure.asked h hu (knows_true tr)).spoken.reboots_eq_nil
  cases c with
  | reboot timeout => exact absurd rfl (hc timeout)
  | probePartitions =>
    obtain ⟨r, hr, -⟩ := Program.run_bind_pure.1 h
    have hsays : ∀ line, Stage.init.Says p (fun _ => True) line → ¬Reboots line := by
      rintro line (_ | _ | _) <;> decide
    obtain ⟨hu, -⟩ | ⟨t, s, l, rfl, hu, -, -⟩ :=
      probePartitions_run (Procedure.run_procedure.1 hr)
    · exact (hu.mono hsays).spoken.reboots_eq_nil
    · rw [reboots_append, (hu.mono hsays).spoken.reboots_eq_nil]
      rfl
  | wipeStateful =>
    exact hasked (utters_kept (Task.utters_procedure (utters_wipeStateful (by decide))))
  | installPartitions =>
    exact hasked (utters_kept (utters_installPartitions
      (fun _ _ _ _ => not_reboots (isPrefix_writeLine _ _))
      fun _ _ _ _ => not_reboots (isPrefix_writeLine _ _)))
  | stopSystemDaemons =>
    exact hasked (utters_kept (Task.utters_procedure
      (utters_stopSystemDaemons (by decide) (by decide))))
  | clearDlcArtifacts =>
    exact hasked (utters_kept (Task.utters_procedure (utters_clearDlcArtifacts
      not_reboots_pathExists (by decide) (fun _ => not_reboots_commandLine) (by decide))))
  | installStateful =>
    exact hasked (utters_kept (Task.utters_procedure (utters_installStateful
      (fun _ _ => not_reboots (isPrefix_unpackLine _)) (not_reboots isPrefix_cleanUpLine))))
  | installDlcs =>
    exact hasked (utters_kept (Task.utters_procedure (utters_installDlcs
      (fun _ _ _ => not_reboots_pathExists)
      fun _ _ _ _ => not_reboots (isPrefix_transferLine _ _ _))))
  | waitForStabilize =>
    exact hasked (utters_kept (Task.utters_procedure (utters_waitForStabilize (by decide))))
  | runFirmwareUpdater =>
    exact hasked (utters_kept (Task.utters_procedure (utters_runFirmwareUpdater (by decide))))
  | checkFirmwareSlot =>
    exact hasked (.bind (Task.utters_procedure (utters_checkFirmwareSlot (by decide) (by decide)))
      fun _ => .done _)
  | verifyFirmware =>
    exact hasked (utters_kept (Task.utters_procedure
      (utters_verifyFirmware (by decide) (by decide))))
  | postInstall =>
    exact hasked (utters_kept (Task.utters_procedure (utters_postInstall fun _ _ =>
      not_reboots (isPrefix_postInstallLine _))))
  | clearTpm => exact hasked (utters_kept (Task.utters_procedure (utters_clearTpm (by decide))))
  | verifyActiveRoot =>
    exact hasked (utters_kept (Task.utters_procedure (utters_verifyActiveRoot (by decide))))
  | verifyDlcs =>
    exact hasked (utters_kept (Task.utters_procedure (utters_verifyDlcs fun _ _ _ =>
      not_reboots_pathExists)))

/-- No revert does. -/
theorem Command.reboots_revert {c : Command} {tr : List Event} {o : Option (Result Unit)}
    (h : (c.revert p).Run tr o) : reboots tr = [] := by
  have hu : (c.revert p).Utters (fun _ => True) fun line => ¬Reboots line := by
    cases c with
    | wipeStateful =>
      exact Task.utters_procedure (Task.utters_map (utters_run not_reboots_commandLine))
    | installStateful =>
      exact Task.utters_procedure (utters_revertInstallStateful (not_reboots isPrefix_cleanUpLine))
    | postInstall =>
      exact Task.utters_procedure (utters_revertPostInstall fun _ _ =>
        not_reboots (isPrefix_keepRootLine _))
    | clearTpm => exact Task.utters_procedure (utters_revertClearTpm (by decide))
    | _ => exact .done _
  exact (Procedure.asked h hu (knows_true tr)).spoken.reboots_eq_nil

/-- The device is rebooted once, by the first line that is handed in, over the connection that is
    current. -/
def Rebooted (cur : Option Connection) (tr : List Event) : Prop :=
  reboots tr = ["reboot"] ∧ Link.HandsFirst cur "reboot" tr

theorem Rebooted.append_right {cur : Option Connection} {t u : List Event} (h : Rebooted cur t)
    (hu : reboots u = []) : Rebooted cur (t ++ u) := by
  refine ⟨?_, h.2.append_right⟩
  rw [reboots_append, h.1, hu, List.append_nil]

/-- The command to reboot does so once at most. -/
theorem Command.rebooted_execute (cur : Option Connection) {timeout : Duration} {tr : List Event}
    {o : Option (Result Command)} (h : ((Command.reboot timeout).execute p).Run tr o) :
    reboots tr = [] ∨ Rebooted cur tr := by
  obtain ⟨r, h₁, -⟩ := Program.run_bind_pure.1 h
  obtain ⟨r, h₂, -⟩ := Program.run_bind_pure.1 (Procedure.run_procedure.1 h₁)
  obtain hnone | hfirst := Link.restart_handsFirst cur h₂
  · exact Or.inl (reboots_of_lines_eq_nil hnone)
  · obtain hnone | hone := Link.restart_lines h₂
    · exact Or.inl (reboots_of_lines_eq_nil hnone)
    · refine Or.inr ⟨?_, hfirst⟩
      rw [reboots, hone]
      rfl

theorem Command.reboots_executeAlone {c : Command} (hc : ∀ timeout, c ≠ .reboot timeout)
    {tr : List Event} {o : Option (Result Command)} (h : (c.executeAlone p).Run tr o) :
    reboots tr = [] := by
  obtain ⟨r, h, -⟩ := Program.run_bind_pure.1 h
  exact Command.reboots_execute hc h

/-! ## Chains -/

section

variable {title : String}

/-- A chain without the command to reboot does not. -/
theorem runChain_reboots_eq_nil {cs : List Command} (hcs : ∀ c ∈ cs, ∀ timeout, c ≠ .reboot timeout)
    {tr : List Event} {o : Option (Result (List Command))} (h : (runChain p title cs).Run tr o) :
    reboots tr = [] :=
  runChain_trace (P := fun tr => reboots tr = []) h rfl (fun _ _ => reboots_append_eq_nil)
    (fun c hc _ _ => Command.reboots_execute (hcs c hc)) fun _ _ _ _ => Command.reboots_revert

theorem rollback_reboots_eq_nil {e : Error} {executed : List Command} {tr : List Event}
    {o : Option (Result (List Command))}
    (h : Program.Run (rollback p title e executed >>= fun e => pure (.error e)) tr o) :
    reboots tr = [] :=
  (rollsBack_run.1 h).trace (P := fun tr => reboots tr = []) rfl
    (fun _ _ => reboots_append_eq_nil) fun _ _ _ _ => Command.reboots_revert

/-- A chain that ends with the command to reboot does so once at most, and after all its other
    commands have succeeded. -/
theorem runChainAfter_rebooted (cur : Option Connection) {timeout : Duration}
    {cs executed : List Command} (hcs : ∀ c ∈ cs, ∀ timeout, c ≠ .reboot timeout)
    {tr : List Event} {o : Option (Result (List Command))}
    (h : (runChainAfter p title executed (cs ++ [.reboot timeout])).Run tr o) :
    reboots tr = [] ∨ ∃ ds t u, tr = t ++ u ∧ Executed p cs t ds ∧ reboots t = [] ∧
      Rebooted (Link.held cur t) u := by
  induction cs generalizing executed tr cur with
  | nil =>
    have hrun : reboots tr = [] ∨ Rebooted cur tr := by
      obtain ⟨-, h₁⟩ | ⟨t, e | d, u, rfl, h₁, h₂⟩ := Program.run_bind.1 h
      · exact Command.rebooted_execute cur h₁
      · have hu := rollback_reboots_eq_nil h₂
        refine (Command.rebooted_execute cur h₁).imp ?_ fun ht => ht.append_right hu
        exact fun ht => reboots_append_eq_nil ht hu
      · obtain ⟨rfl, -⟩ := Program.run_pure.1 h₂
        rw [List.append_nil]
        exact Command.rebooted_execute cur h₁
    exact hrun.imp_right fun hrun => ⟨[], [], tr, rfl, .nil, rfl, hrun⟩
  | cons c cs ih =>
    rw [List.forall_mem_cons] at hcs
    obtain ⟨-, h₁⟩ | ⟨t, e | d, u, rfl, h₁, h₂⟩ := Program.run_bind.1 h
    · exact Or.inl (Command.reboots_execute hcs.1 h₁)
    · exact Or.inl (reboots_append_eq_nil (Command.reboots_execute hcs.1 h₁)
        (rollback_reboots_eq_nil h₂))
    · have ht := Command.reboots_execute hcs.1 h₁
      obtain hu | ⟨ds, v, w, rfl, hd, hv, hw⟩ := ih (Link.held cur t) hcs.2 h₂
      · exact Or.inl (reboots_append_eq_nil ht hu)
      · refine Or.inr ⟨d :: ds, t ++ v, w, (List.append_assoc ..).symm, .cons h₁ hd,
          reboots_append_eq_nil ht hv, ?_⟩
        rwa [Link.held_append]

end

/-! ## When a stage is to reboot the device -/

/-- After the events of a stage it is to reboot the device. In the update of the firmware the
    updater was found, the device was stable, the updater has run and the next boot is to try
    another slot than the active one. In the last stage on the old image the new root was made the
    one to boot and the wish to clear the TPM was left, and the request allows a reboot. -/
inductive Stage.Due (p : Plan) : Stage → List Event → Prop
  | firmware {t u : List Event} {next : String} :
    p.request.updateFirmware = true → p.firmwareUpdaterExists.Run t (some (.ok true)) →
    Executed p [.waitForStabilize, .runFirmwareUpdater, .checkFirmwareSlot none] u
      [.waitForStabilize, .runFirmwareUpdater, .checkFirmwareSlot (some next)] →
    Due p .updateFirmware (t ++ u)
  | root {t : List Event} {ds : List Command} :
    p.request.preventReboot = false → Executed p [.postInstall, .clearTpm] t ds →
    Due p .postInstall t

/-- What the commands of the update have found out. -/
theorem executed_firmware {tr : List Event} {ds : List Command}
    (h : Executed p [.waitForStabilize, .runFirmwareUpdater, .checkFirmwareSlot none] tr ds) :
    ∃ target, ds = [.waitForStabilize, .runFirmwareUpdater, .checkFirmwareSlot target] := by
  rcases h.done with _ | ⟨⟨⟩, _ | ⟨⟨⟩, _ | ⟨hslot, _ | _⟩⟩⟩
  rcases hslot with _ | ⟨_, target⟩
  · exact ⟨none, rfl⟩
  · exact ⟨target, rfl⟩

theorem Stage.commands_postInstall (h : p.request.preventReboot = false) :
    postInstall.commands p = [.postInstall, .clearTpm] ++ [.reboot p.rebootTimeout] := by
  simp [commands, h]

/-! ## No reboot that is not due -/

/-- The new firmware is booted if there is any. -/
theorem bootFirmware_rebooted (cur : Option Connection) {target : Option String} {tr : List Event}
    {o : Option (Result Unit)} (h : (Stage.bootFirmware p target).Run tr o) :
    reboots tr = [] ∨ target.isSome ∧ Rebooted cur tr := by
  have hverify : ∀ {u : List Event} {o : Option (Result Unit)}, Program.Run (do
      let done ← (Command.verifyFirmware target).executeAlone p
      return done.map fun _ => ()) u o → reboots u = [] := by
    intro u o hu
    obtain ⟨r, hu, -⟩ := Program.run_bind_pure.1 hu
    exact Command.reboots_executeAlone (by simp) hu
  cases target with
  | none => exact Or.inl (hverify (Procedure.run_log_bind.1 h))
  | some next =>
    have hboot : ∀ {t : List Event} {r : Option (Result Command)},
        ((Command.reboot p.firmwareRebootTimeout).executeAlone p).Run t r →
        reboots t = [] ∨ Rebooted cur t := by
      intro t r ht
      obtain ⟨r, ht, -⟩ := Program.run_bind_pure.1 ht
      exact Command.rebooted_execute cur ht
    obtain ⟨-, h₁⟩ | ⟨t, e | d, u, rfl, h₁, h₂⟩ := Program.run_bind.1 h
    · exact (hboot h₁).imp_right fun ht => ⟨rfl, ht⟩
    · obtain ⟨rfl, -⟩ := Program.run_pure.1 h₂
      rw [List.append_nil]
      exact (hboot h₁).imp_right fun ht => ⟨rfl, ht⟩
    · have hu := hverify h₂
      obtain ht | ht := hboot h₁
      · exact Or.inl (reboots_append_eq_nil ht hu)
      · exact Or.inr ⟨rfl, ht.append_right hu⟩

theorem runFirmware_rebooted (cur : Option Connection) {tr : List Event}
    {o : Option (Result StageOutcome)} (h : (Stage.runFirmware p).Run tr o) :
    reboots tr = [] ∨ ∃ t u, tr = t ++ u ∧ Stage.updateFirmware.Due p t ∧ reboots t = [] ∧
      Rebooted (Link.held cur t) u := by
  have hfind : ∀ {t : List Event} {o : Option (Result Bool)},
      (Task.procedure p.firmwareUpdaterExists).Run t o → reboots t = [] := fun ht =>
    have hu := Task.utters_procedure (utters_firmwareUpdaterExists not_reboots_pathExists)
    (Procedure.asked ht hu (knows_true _)).spoken.reboots_eq_nil
  have hupdate : ∀ {t : List Event} {o : Option (Result (List Command))},
      (Stage.updateFirmware.runCommands p).Run t o → reboots t = [] :=
    runChain_reboots_eq_nil (by simp [Stage.commands])
  rw [Stage.runFirmware] at h
  split at h
  · obtain ⟨rfl, -⟩ := Program.run_pure.1 h
    exact Or.inl rfl
  rename_i hasked
  obtain ⟨-, h₁⟩ | ⟨e, h₁, -⟩ | ⟨t, found, u, rfl, h₁, h₂⟩ := Procedure.run_andThen.1 h
  · exact Or.inl (hfind h₁)
  · exact Or.inl (hfind h₁)
  have ht := hfind h₁
  split at h₂
  · obtain ⟨rfl, -⟩ := Program.run_pure.1 h₂
    exact Or.inl (reboots_append_eq_nil ht rfl)
  rename_i hfound
  obtain ⟨-, h₃⟩ | ⟨e, h₃, -⟩ | ⟨v, ds, w, rfl, h₃, h₄⟩ := Procedure.run_andThen.1 h₂
  · exact Or.inl (reboots_append_eq_nil ht (hupdate h₃))
  · exact Or.inl (reboots_append_eq_nil ht (hupdate h₃))
  have htv := reboots_append_eq_nil ht (hupdate h₃)
  have hd : Executed p [.waitForStabilize, .runFirmwareUpdater, .checkFirmwareSlot none] v ds :=
    runChain_ok.1 h₃
  obtain ⟨target, rfl⟩ := executed_firmware hd
  obtain ⟨r, h₅, -⟩ := Program.run_bind_pure.1 h₄
  rw [← List.append_assoc]
  obtain hw | ⟨hsome, hw⟩ := bootFirmware_rebooted (Link.held cur (t ++ v)) h₅
  · exact Or.inl (reboots_append_eq_nil htv hw)
  · obtain ⟨next, hnext⟩ := Option.isSome_iff_exists.1 hsome
    have htarget : List.findSome? Command.rebootTarget
        [.waitForStabilize, .runFirmwareUpdater, .checkFirmwareSlot target] = target := by
      cases target <;> rfl
    obtain rfl : target = some next := htarget.symm.trans hnext
    refine Or.inr ⟨t ++ v, w, rfl, .firmware ?_ ?_ hd, htv, hw⟩
    · simpa using hasked
    · have hyes : found = true := by simpa using hfound
      exact hyes ▸ Procedure.run_procedure.1 h₁

/-- **No reboot that is not due.** A stage reboots the device once at most, and only if that is
    due. -/
theorem Stage.rebooted (cur : Option Connection) {s : Stage} {tr : List Event}
    {o : Option (Result StageOutcome)} (h : (s.execute p).Run tr o) :
    reboots tr = [] ∨ ∃ t u, tr = t ++ u ∧ s.Due p t ∧ reboots t = [] ∧
      Rebooted (Link.held cur t) u := by
  by_cases hf : s = .updateFirmware
  · subst hf
    exact runFirmware_rebooted cur h
  obtain ⟨r, h, -⟩ := (execute_run hf).1 h
  by_cases hp : s = .postInstall ∧ p.request.preventReboot = false
  · obtain ⟨rfl, hp⟩ := hp
    rw [runCommands, commands_postInstall hp] at h
    refine (runChainAfter_rebooted cur (by simp) h).imp_right ?_
    rintro ⟨ds, t, u, rfl, hd, ht, hu⟩
    exact ⟨t, u, rfl, .root hp hd, ht, hu⟩
  · refine Or.inl (runChain_reboots_eq_nil (fun c hc timeout => ?_) h)
    rintro rfl
    cases s <;> simp [commands] at hc hp hf
    simp [hp] at hc

/-! ## A reboot that is due -/

section

variable {cur : Option Connection} {t u : List Event}

/-- Once there is a connection, the command to reboot is handed in. -/
theorem Command.reboot_handsFirst {α : Type} {timeout : Duration} {f : Result Command → Procedure α}
    {o : Option α} (hcur : cur.isSome) (ho : Link.Open cur t)
    (h : ((Command.reboot timeout).execute p >>= f).Run t o) :
    (o = none ∧ lines t = []) ∨ Link.HandsFirst cur "reboot" t := by
  have hreboot : ∀ {v : List Event} {r : Option (Result Command)}, Link.Open cur v →
      ((Command.reboot timeout).execute p).Run v r →
      (r = none ∧ lines v = []) ∨ Link.HandsFirst cur "reboot" v := by
    intro v r hv hrun
    obtain ⟨r, h₁, rfl⟩ := Program.run_bind_pure.1 hrun
    obtain ⟨r, h₂, rfl⟩ := Program.run_bind_pure.1 (Procedure.run_procedure.1 h₁)
    refine (Link.restart_handsFirst cur h₂).imp_left fun hnone => ⟨?_, hnone⟩
    cases r with
    | none => rfl
    | some r =>
      rw [Link.restart_lines_held hcur hv h₂] at hnone
      cases hnone
  obtain ⟨rfl, h₁⟩ | ⟨v, r, w, rfl, h₁, -⟩ := Program.run_bind.1 h
  · exact (hreboot ho h₁).imp_left fun h => ⟨rfl, h.2⟩
  · obtain ⟨hr, -⟩ | hv := hreboot (Link.open_append.1 ho).1 h₁
    · cases hr
    · exact Or.inr hv.append_right

theorem run_ok_held {command : String} {args : List String}
    (h : (p.run command args).Run t (some (.ok ()))) : (Link.held cur t).isSome := by
  obtain ⟨out, h, -⟩ := Program.run_map_ok.1 h
  exact Link.runCommand_ok_held h

theorem checkFirmwareSlot_ok_held {target : Option String}
    (h : p.checkFirmwareSlot.Run t (some (.ok target))) : (Link.held cur t).isSome := by
  obtain ⟨v, active, w, rfl, -, h₁⟩ := Task.run_andThen_ok.1 h
  obtain ⟨x, next, y, rfl, h₂, h₃⟩ := Task.run_andThen_ok.1 h₁
  obtain ⟨out, h₄, -⟩ := Program.run_within_map_ok.1 h₂
  have hy : y = [] := by
    split at h₃
    · exact (Program.run_pure_some.1 h₃).1
    · exact (Program.run_pure_some.1 (Task.run_log_bind.1 h₃)).1
  rw [hy, List.append_nil, Link.held_append]
  exact Link.runCommand_ok_held h₄

/-- Where a reboot is due, the link has used its connection. -/
theorem Stage.Due.held {s : Stage} (h : s.Due p t) (cur : Option Connection) :
    (Link.held cur t).isSome := by
  cases h with
  | firmware _ _ hd =>
    rcases hd with _ | ⟨-, _ | ⟨-, _ | ⟨hslot, _ | _⟩⟩⟩
    obtain ⟨target, hslot, -⟩ := Program.run_map_ok.1 hslot
    simp only [Link.held_append, List.append_nil]
    exact checkFirmwareSlot_ok_held (Procedure.run_procedure.1 hslot)
  | root _ hd =>
    rcases hd with _ | ⟨-, _ | ⟨htpm, _ | _⟩⟩
    obtain ⟨-, ⟨⟩, htpm⟩ := Command.kept_run.1 htpm
    rw [List.append_nil, Link.held_append]
    exact run_ok_held (Procedure.run_procedure.1 htpm)

/-- **A reboot that is due is asked for**, unless the run is cut short before anything else is. -/
theorem Stage.Due.handsFirst {s : Stage} {o : Option (Result StageOutcome)} (hdue : s.Due p t)
    (ho : Link.Open cur (t ++ u)) (h : (s.execute p).Run (t ++ u) o) :
    (o = none ∧ lines u = []) ∨ Link.HandsFirst (Link.held cur t) "reboot" u := by
  have hu := (Link.open_append.1 ho).2
  have hheld := hdue.held cur
  cases hdue with
  | @firmware _ _ next hasked hfound hd =>
    rw [execute, runFirmware, if_neg (by simp [hasked]), List.append_assoc] at h
    have hupdate := (Task.leads hfound).run h
    simp only [Bool.not_true, Bool.false_eq_true, if_false, Procedure.andThen] at hupdate
    have hboot : Program.Run (bootFirmware p (some next) >>= fun r =>
        pure (r.map fun _ => StageOutcome.completed)) u o := hd.goes_on [] (by decide) hupdate
    simp only [bootFirmware, Command.executeAlone, Program.bind_assoc] at hboot
    exact Command.reboot_handsFirst hheld hu hboot
  | root hp hd =>
    simp only [execute, runCommands, commands_postInstall hp, runChain] at h
    have hboot := hd.goes_on [.reboot p.rebootTimeout] (by decide) h
    simp only [runChainAfter, Program.bind_assoc] at hboot
    exact Command.reboot_handsFirst hheld hu hboot

end

/-! ## The account of a run -/

theorem Legs.reboots_eq {ss : List Stage} {tr : List Event} {legs : List Leg}
    (h : Legs p ss tr legs) : reboots tr = legs.flatMap fun leg => reboots leg.events := by
  induction h with
  | nil => rfl
  | last => simp
  | next _ _ ih => rw [reboots_append, ih, List.flatMap_cons]

theorem Stage.Due.stage_eq {s : Stage} {t : List Event} (h : s.Due p t) :
    s = .updateFirmware ∨ s = .postInstall := by
  cases h with
  | firmware => exact Or.inl rfl
  | root => exact Or.inr rfl

theorem Stage.length_reboots_le {s : Stage} {tr : List Event} {o : Option (Result StageOutcome)}
    (h : (s.execute p).Run tr o) :
    (reboots tr).length ≤ if s = .updateFirmware ∨ s = .postInstall then 1 else 0 := by
  obtain htr | ⟨t, u, rfl, hdue, ht, hu, -⟩ := Stage.rebooted none h
  · rw [htr]
    exact Nat.zero_le _
  · rw [reboots_append, ht, hu, if_pos hdue.stage_eq]
    rfl

theorem Legs.length_reboots_le {ss : List Stage} {tr : List Event} {legs : List Leg}
    (h : Legs p ss tr legs) : (reboots tr).length ≤
      ss.countP fun s => s = .updateFirmware ∨ s = .postInstall := by
  induction h with
  | nil => exact Nat.zero_le _
  | last h =>
    have hle := Stage.length_reboots_le h
    simp only [List.countP_cons, decide_eq_true_eq]
    omega
  | next h _ ih =>
    have hle := Stage.length_reboots_le h
    simp only [List.countP_cons, decide_eq_true_eq, reboots_append, List.length_append]
    omega

theorem Plan.countP_stages (p : Plan) :
    (p.stages.countP fun s => s = .updateFirmware ∨ s = .postInstall) = 2 := by
  unfold stages
  split <;> rfl

/-- The reboots of a stage, where the connection was `cur` before it. -/
structure Leg.Accounted (p : Plan) (cur : Option Connection) (leg : Leg) : Prop where
  /-- There is one at most, and it comes after it was due. -/
  due : reboots leg.events = [] ∨ ∃ t u, leg.events = t ++ u ∧ leg.stage.Due p t ∧
    reboots t = [] ∧ Rebooted (Link.held cur t) u
  /-- If it was due it comes, unless the run is cut short before anything else is handed in. The
      link has to be open, as one is that nobody closes (`Link.Calls.Runs.open_own`). -/
  comes : Link.Open cur leg.events → ∀ t u, leg.events = t ++ u → leg.stage.Due p t →
    (leg.result = none ∧ lines u = []) ∨ reboots leg.events = ["reboot"]

/-- After `t`, and after the events `u` of the stage that follows it, kernel and root were written
    and the new root was made the one to boot, all with status zero. -/
def Written (p : Plan) (t u : List Event) : Prop :=
  ∃ l : Layout, (∃ url out, p.artifactUrl kernelImage = .ok url ∧
      Printed t (writeLine url l.inactiveKernel) out) ∧
    (∃ url out, p.artifactUrl rootImage = .ok url ∧
      Printed t (writeLine url l.inactiveRoot) out) ∧
    ∃ out, Printed u (postInstallLine l.inactiveRoot) out

theorem Leg.accounted {leg : Leg} (h : (leg.stage.execute p).Run leg.events leg.result)
    (cur : Option Connection) : leg.Accounted p cur := by
  refine ⟨Stage.rebooted cur h, fun ho t u htu hdue => ?_⟩
  have hcomes := hdue.handsFirst (htu ▸ ho) (htu ▸ h)
  refine hcomes.imp_right fun hfirst => ?_
  obtain ⟨rest, hrest⟩ := hfirst.lines_eq
  obtain hnone | ⟨v, w, hvw, -, hv, hw, -⟩ := Stage.rebooted cur h
  · rw [htu, reboots_append, List.append_eq_nil_iff] at hnone
    have hmem : "reboot" ∈ reboots u := by
      rw [reboots, hrest]
      exact List.mem_filter.2 ⟨List.mem_cons_self, by decide⟩
    rw [hnone.2] at hmem
    cases hmem
  · rw [hvw, reboots_append, hv, hw]
    rfl

/-- Before the stage that makes the new root the one to boot, the others were passed. -/
theorem Legs.passed_postInstall {tr : List Event} {before after : List Leg} {leg : Leg}
    (h : Legs p p.stages tr (before ++ leg :: after)) (hs : leg.stage = .postInstall) :
    Passed p [.init, .installPartitions, .installStateful, .updateFirmware]
      (before.flatMap Leg.events) := by
  obtain ⟨ss₁, ss₂, u, hss, -, hpassed, -⟩ := h.split
  rw [hs] at hss
  have hstages : [.init, .installPartitions, .installStateful, .updateFirmware] ++
      Stage.postInstall :: (if p.request.preventReboot then [] else [.verify]) =
      ss₁ ++ .postInstall :: ss₂ := hss
  have hlast : Stage.postInstall ∉ if p.request.preventReboot then [] else [Stage.verify] := by
    split <;> decide
  obtain ⟨rfl, -⟩ := (List.append_cons_inj_of_notMem (by decide) hlast).1 hstages
  exact hpassed

/-- **The new root is written and made the one to boot before the device is rebooted into it.** -/
theorem Legs.written {m : Option Layout} {tr : List Event} {before after : List Leg} {leg : Leg}
    (h : Legs p p.stages tr (before ++ leg :: after)) (hm : Recalls m tr)
    (hs : leg.stage = .postInstall) (hr : reboots leg.events ≠ []) :
    ∃ t u, leg.events = t ++ u ∧ Written p (before.flatMap Leg.events) t ∧ reboots t = [] ∧
      reboots u = ["reboot"] := by
  obtain ⟨-, -, rest, -, htr, -, hrun⟩ := h.split
  have hpassed := h.passed_postInstall hs
  rw [hs] at hrun
  rw [htr, ← List.append_assoc] at hm
  have hm := hm.of_append
  obtain ⟨t, u, htu, hdue, ht, hu, -⟩ := (Stage.rebooted none hrun).resolve_left hr
  generalize before.flatMap Leg.events = earlier at hpassed hm ⊢
  cases hpassed with
  | @cons _ _ t₁ v _ h₁ hpassed =>
  have hlater : (runStages p [.installPartitions, .installStateful, .updateFirmware,
      .postInstall]).Run (v ++ leg.events) none :=
    runStages_none.2 ⟨_, [.postInstall], v, leg.events, rfl, rfl, hpassed,
      Or.inr ⟨.postInstall, [], rfl, hrun.toNone⟩⟩
  -- The layout that these stages are told is the one of the probe.
  rw [List.append_assoc] at hm
  obtain ⟨-, -, l, -, -, -, hk⟩ := hm.knows_after_passed h₁ (by decide) hlater
  cases hpassed with
  | @cons _ _ t₂ v _ h₂ hpassed =>
  simp only [knows_append, htu] at hk
  obtain ⟨⟨hk₂, -⟩, hkt, -⟩ := hk
  obtain ⟨hkernel, hroot⟩ := Stage.installPartitions_ok h₂ hk₂
  refine ⟨t, u, htu, ⟨l, ?_, ?_, ?_⟩, ht, hu⟩
  · obtain ⟨url, out, hurl, hout⟩ := hkernel
    exact ⟨url, out, hurl, hout.append_left.append_right⟩
  · obtain ⟨url, out, hurl, hout⟩ := hroot
    exact ⟨url, out, hurl, hout.append_left.append_right⟩
  · cases hdue with
    | root _ hd =>
      rcases hd with _ | ⟨hpost, -⟩
      obtain ⟨-, ⟨⟩, hpost⟩ := Command.kept_run.1 hpost
      obtain ⟨out, hout⟩ := Plan.postInstall_ok (Procedure.run_procedure.1 hpost)
        (knows_append.1 hkt).1
      exact ⟨out, hout.append_left⟩

/-- Without a reboot of the firmware, a run that is not allowed to reboot does not. -/
theorem Legs.reboots_eq_nil {ss : List Stage} {tr : List Event} {legs : List Leg}
    (h : Legs p ss tr legs) (hp : p.request.preventReboot = true)
    (hf : ∀ leg ∈ legs, ∀ t u, leg.events = t ++ u → ¬Stage.updateFirmware.Due p t) :
    reboots tr = [] := by
  rw [h.reboots_eq, List.flatMap_eq_nil_iff]
  intro leg hleg
  obtain ⟨before, after, rfl⟩ := List.append_of_mem hleg
  obtain ⟨-, -, -, -, -, -, hrun⟩ := h.split
  refine (Stage.rebooted none hrun).resolve_right ?_
  rintro ⟨t, u, htu, hdue, -⟩
  generalize hs : leg.stage = s at hdue
  cases hdue with
  | firmware hasked hfound hd => exact hf leg hleg _ u htu (.firmware hasked hfound hd)
  | root hallowed => simp [hp] at hallowed

theorem Restarted.reboots_ne_nil {tr : List Event} (h : Restarted tr) : reboots tr ≠ [] := by
  obtain ⟨t, u, v, w, -, -, -, rfl, ⟨args, out, c, stdin, mode, f, hrun, -⟩, -⟩ := h
  have hline : Shell.commandLine "reboot" args ∈ lines t := List.mem_filterMap.2 ⟨_, hrun, rfl⟩
  have hreboot : Reboots (Shell.commandLine "reboot" args) :=
    Shell.isPrefix_commandLine (by decide) args
  have hmem : Shell.commandLine "reboot" args ∈ reboots t :=
    List.mem_filter.2 ⟨hline, by simpa using hreboot⟩
  simp [List.ne_nil_of_mem hmem]

/-- A run that passes all its stages reboots the device, if it is allowed to. -/
theorem Passed.reboots_ne_nil {tr : List Event} (h : Passed p p.stages tr)
    (hp : p.request.preventReboot = false) : reboots tr ≠ [] := by
  obtain ⟨t, u, v, outcome, rfl, hrun⟩ := h.mem (show Stage.postInstall ∈ _ by simp [stages])
  obtain ⟨ds, hd⟩ := Stage.executed (by decide) hrun
  obtain ⟨a, w, b, d, rfl, hc⟩ :=
    hd.mem (show Command.reboot p.rebootTimeout ∈ _ by simp [Stage.commands, hp])
  obtain ⟨-, ⟨⟩, hc⟩ := Command.kept_run.1 hc
  have hw := (reboot_ok (Procedure.run_procedure.1 hc)).reboots_ne_nil
  simp [hw]

/-- The reboots of a run that has gone through `legs`. -/
structure RebootAccount (p : Plan) (tr : List Event) (legs : List Leg) : Prop where
  /-- There are two at most. -/
  two : (reboots tr).length ≤ 2
  /-- They are those of its stages. -/
  sum : reboots tr = legs.flatMap fun leg => reboots leg.events
  leg : ∀ before leg after, legs = before ++ leg :: after → ∀ cur,
    leg.Accounted p (Link.held cur (before.flatMap Leg.events))
  /-- The new root is written and made the one to boot before the device is rebooted into it. -/
  written : ∀ m, Recalls m tr → ∀ before leg after, legs = before ++ leg :: after →
    leg.stage = .postInstall → reboots leg.events ≠ [] →
    ∃ t u, leg.events = t ++ u ∧ Written p (before.flatMap Leg.events) t ∧ reboots t = [] ∧
      reboots u = ["reboot"]
  /-- If the request prevents it and there is no new firmware to boot, there is none. -/
  never : p.request.preventReboot = true →
    (∀ leg ∈ legs, ∀ t u, leg.events = t ++ u → ¬Stage.updateFirmware.Due p t) → reboots tr = []

theorem Legs.rebootAccount {tr : List Event} {legs : List Leg} (h : Legs p p.stages tr legs) :
    RebootAccount p tr legs where
  two := p.countP_stages ▸ h.length_reboots_le
  sum := h.reboots_eq
  leg := by
    rintro before leg after rfl cur
    obtain ⟨-, -, -, -, -, -, hrun⟩ := h.split
    exact Leg.accounted hrun _
  written := by
    rintro m hm before leg after rfl hs hr
    exact h.written hm hs hr
  never := h.reboots_eq_nil

/-- **The reboots of a run.** Nothing but the command to reboot does, and no revert. In a run from
    the first stage there are two at most, one when the firmware was updated and one when the new
    root was made the one to boot. Each comes where it is due and only there, if it is given the
    time and the link is left open: the former if the device has an updater, all the commands of the
    update have succeeded and the two slots the device has told differ; the latter if the new root
    was made the one to boot and the request allows it, and then both partitions were written before
    that. A run that succeeds reboots the device, if it is allowed to. -/
theorem runFrom_reboots (p : Plan) :
    (∀ c : Command, (∀ timeout, c ≠ .reboot timeout) → ∀ tr o,
      (c.execute p).Run tr o → reboots tr = []) ∧
    (∀ (c : Command) tr o, (c.revert p).Run tr o → reboots tr = []) ∧
    (∀ tr found, p.firmwareUpdaterExists.Run tr (some (.ok found)) →
      ∃ out, Printed tr (Shell.pathExists firmwareUpdater) out ∧
        found = (Text.trim out == "1")) ∧
    (∀ tr d, ((Command.checkFirmwareSlot none).execute p).Run tr (some (.ok d)) →
      ∃ t u active next, tr = t ++ u ∧ Printed t "crossystem mainfw_act" active ∧
        Printed u "crossystem fw_try_next" next ∧ d = .checkFirmwareSlot
          (if Text.trim active = Text.trim next then none else some (Text.trim next))) ∧
    ∀ tr o, (runFrom p .init).Run tr o →
      (∃ legs, Legs p p.stages tr legs ∧ (o.isSome → ∀ leg ∈ legs, leg.result.isSome)) ∧
      (∀ legs, Legs p p.stages tr legs → RebootAccount p tr legs) ∧
      ∀ ss, o = some (.ok ss) → p.request.preventReboot = false → reboots tr ≠ [] := by
  refine ⟨fun c hc tr o => Command.reboots_execute hc, fun c tr o => Command.reboots_revert,
    fun tr found => firmwareUpdaterExists_ok, fun tr d h => ?_, fun tr o h => ?_⟩
  · obtain ⟨e | target, hslot, hd⟩ := Program.run_bind_pure_some.1 h
    · cases hd
    cases hd
    obtain ⟨t, u, active, next, rfl, hactive, hnext, rfl⟩ :=
      checkFirmwareSlot_ok (Procedure.run_procedure.1 hslot)
    exact ⟨t, u, active, next, rfl, hactive, hnext, rfl⟩
  · obtain ⟨r, hrun, rfl⟩ := runFrom_run.1 h
    rw [itinerary_init] at hrun
    obtain ⟨legs, hlegs, hended⟩ := exists_legs hrun
    refine ⟨⟨legs, hlegs, fun hr => hended (by simpa using hr)⟩, fun _ => Legs.rebootAccount,
      fun ss hss hp => ?_⟩
    obtain ⟨e | ⟨⟩, rfl, hr⟩ := Option.map_eq_some_iff.1 hss
    · cases hr
    · obtain ⟨hpassed, -⟩ | ⟨s, e, -, he⟩ := runStages_some.1 hrun
      · exact Passed.reboots_ne_nil hpassed hp
      · cases he

end

/-- A device on which every command succeeds, that has an updater and new firmware. It boots firmware
    slot `B` from its first reboot on, and the other root from its second. Its state is how often it
    has rebooted. -/
def upgrades : Answers Nat
  | .run _ line _ _, count =>
    let out :=
      if line = "rootdev -s" then if count < 2 then "/dev/sda3\n" else "/dev/sda5\n"
      else if line = "rootdev -s -d" then "/dev/sda\n"
      else if line = "crossystem mainfw_act" then if count = 0 then "A" else "B"
      else if line = "crossystem fw_try_next" then "B"
      else if line = "status system-services" then "boot-services start/running"
      else "1"
    some (.ok { stdout := Text.Utf8.ofString out }, if line = "reboot" then count + 1 else count)
  | q, count => (obeys q "").map fun (a, _) => (a, count)

/-- An installation with new firmware. -/
def upgradePlan : Plan where
  link := samplePlan.link
  request := { imagePath := "gs://images/r100", updateFirmware := true }

theorem runFrom_reboots_upgrades :
    (∃ tr out, upgradePlan.firmwareUpdaterExists.Run tr (some (.ok true)) ∧
      Printed tr (Shell.pathExists firmwareUpdater) out ∧ true = (Text.trim out == "1")) ∧
    ∃ tr legs, (runFrom upgradePlan .init).Run tr (some (.ok upgradePlan.stages)) ∧
      Recalls none tr ∧ Legs upgradePlan upgradePlan.stages tr legs ∧
      RebootAccount upgradePlan tr legs ∧ (reboots tr).length = 2 := by
  have hfound := Procedure.run_procedure.1 (Procedure.run_play_ok (f := upgrades) (a := true)
    (p := upgradePlan.firmwareUpdaterExists.procedure) (s := (none, 0)) (by decide +kernel))
  have hm := (runFrom upgradePlan .init).recalls_play (f := upgrades) (none, 0) [] trivial
  have hplayed : (((runFrom upgradePlan .init).play upgrades (none, 0)).2.2.bind Except.toOption,
      (lines ((runFrom upgradePlan .init).play upgrades (none, 0)).1).count "reboot") =
      (some upgradePlan.stages, 2) := by decide +kernel
  obtain ⟨hends, hcount⟩ := Prod.mk.inj hplayed
  have hrun := Procedure.run_play_ok hends
  rw [List.append_nil] at hm
  obtain ⟨-, -, hupdater, -, hlaw⟩ := runFrom_reboots upgradePlan
  obtain ⟨out, hout, htrue⟩ := hupdater _ _ hfound
  obtain ⟨⟨legs, hlegs, -⟩, haccount, -⟩ := hlaw _ _ hrun
  refine ⟨⟨_, out, hfound, hout, htrue⟩, _, legs, hrun, hm, hlegs, haccount _ hlegs, ?_⟩
  refine Nat.le_antisymm (haccount _ hlegs).two ?_
  rw [reboots, ← hcount, ← List.count_filter (p := (Reboots ·)) (a := "reboot") (by decide)]
  exact List.count_le_length

end Reimage
