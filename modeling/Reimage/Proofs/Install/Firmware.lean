/-
  The update of the firmware as a chain.

  The last steps of the update depend on what the device has told before: it is rebooted if the next
  boot is to try another firmware slot than the active one, and then has to come up from that slot.
  They are not part of the chain of the stage. But none of its commands leaves anything to undo, so
  that makes no difference.

  * `slotChange`: the slot to boot next, read off what the device has told;
  * `Stage.firmwareChain`: the chain that the update is like;
  * `Stage.updateFirmware_run`: the update has the runs of that chain, with the same results.
-/
import Reimage.Proofs.Install.Reboots

namespace Reimage

open Plan

/-! ## What the device has told -/

/-- What the first session for `line` printed that ended with status zero. -/
def firstOutput (line : String) (tr : List Event) : Option String :=
  tr.findSome? fun
    | ⟨.run _ line' _ _, .ok f⟩ =>
      if line' = line ∧ f.status = 0 then some (Text.Utf8.lossy f.stdout) else none
    | _ => none

theorem firstOutput_append (line : String) (t u : List Event) :
    firstOutput line (t ++ u) = (firstOutput line t).or (firstOutput line u) :=
  List.findSome?_append

theorem firstOutput_eq_none {line : String} {tr : List Event} (h : line ∉ lines tr) :
    firstOutput line tr = none := by
  refine List.findSome?_eq_none_iff.2 fun e he => ?_
  split
  · rename_i line' _ _ f
    have hline : line' ∈ lines tr := List.mem_filterMap.2 ⟨_, he, rfl⟩
    refine if_neg fun hf => h ?_
    rwa [← hf.1]
  · rfl

/-- The firmware slot that the next boot is to try, if it is another one than the active, as the
    device has told the two first. Blanks around them do not count. -/
def slotChange (tr : List Event) : Option String :=
  match firstOutput "crossystem mainfw_act" tr, firstOutput "crossystem fw_try_next" tr with
  | some active, some next =>
    if Text.trim active = Text.trim next then none else some (Text.trim next)
  | _, _ => none

variable {p : Plan} {tr : List Event}

theorem Link.runCommand_firstOutput {l : Link} {command out : String} {args : List String}
    {stdin : Option (List UInt8)} {mode : StderrMode}
    (h : (l.runCommand command args stdin mode).Run tr (some (.ok out))) :
    lines tr = [Shell.commandLine command args] ∧
      firstOutput (Shell.commandLine command args) tr = some out := by
  obtain ⟨r, hrun, hr⟩ := Program.run_bind_pure_some.1 h
  obtain ⟨f, rfl, hf, rfl⟩ := ExecResult.intoStdout_eq_ok.1 hr.symm
  obtain ⟨-, message, hm⟩ | ⟨t, c, a, rfl, ht, -, ha⟩ := exec_run none hrun
  · cases hm
  cases a with
  | error e => cases ha
  | ok g =>
    cases ha
    rw [lines_append, firstOutput_append, ht, firstOutput_eq_none (by simp [ht])]
    refine ⟨rfl, ?_⟩
    simp [firstOutput, hf]

theorem crossystem_firstOutput {key value : String}
    (h : (p.crossystem key).Run tr (some (.ok value))) :
    lines tr = [Shell.commandLine "crossystem" [key]] ∧ ∃ out,
      firstOutput (Shell.commandLine "crossystem" [key]) tr = some out ∧
        value = Text.trim out := by
  obtain ⟨out, hr, rfl⟩ := Program.run_within_map_ok.1 h
  obtain ⟨hlines, hout⟩ := Link.runCommand_firstOutput hr
  exact ⟨hlines, out, hout, rfl⟩

/-- What the check of the firmware slot has found out is the change that the device has told. -/
theorem checkFirmwareSlot_slotChange {t : List Event} {target : Option String}
    (ht : "crossystem mainfw_act" ∉ lines t) (ht' : "crossystem fw_try_next" ∉ lines t)
    (h : p.checkFirmwareSlot.Run tr (some (.ok target))) (u : List Event) :
    slotChange (t ++ (tr ++ u)) = target := by
  obtain ⟨v, active, w, rfl, h₁, h₂⟩ := Task.run_andThen_ok.1 h
  obtain ⟨x, next, y, rfl, h₃, h₄⟩ := Task.run_andThen_ok.1 h₂
  obtain ⟨hv, out, hout, rfl⟩ := crossystem_firstOutput h₁
  obtain ⟨-, out', hout', rfl⟩ := crossystem_firstOutput h₃
  have hactive : firstOutput "crossystem mainfw_act" (t ++ (v ++ (x ++ y) ++ u)) = some out := by
    rw [firstOutput_append, firstOutput_eq_none ht, List.append_assoc, firstOutput_append,
      show firstOutput "crossystem mainfw_act" v = some out from hout]
    rfl
  have hnext : firstOutput "crossystem fw_try_next" (t ++ (v ++ (x ++ y) ++ u)) = some out' := by
    have hnone : firstOutput "crossystem fw_try_next" v = none :=
      firstOutput_eq_none (by rw [hv]; decide)
    rw [firstOutput_append, firstOutput_eq_none ht', List.append_assoc, firstOutput_append, hnone,
      List.append_assoc, firstOutput_append,
      show firstOutput "crossystem fw_try_next" x = some out' from hout']
    rfl
  rw [slotChange, hactive, hnext]
  split at h₄
  · rename_i heq
    obtain ⟨-, htarget⟩ := Program.run_pure_some.1 h₄
    cases htarget
    exact if_pos heq
  · rename_i hne
    obtain ⟨-, htarget⟩ := Program.run_pure_some.1 (Task.run_log_bind.1 h₄)
    cases htarget
    exact if_neg hne

/-- The commands of the stage have found out the change that the device has told. -/
theorem executed_slotChange {ds : List Command}
    (h : Executed p (Stage.updateFirmware.commands p) tr ds) (u : List Event) :
    ds = [.waitForStabilize, .runFirmwareUpdater, .checkFirmwareSlot (slotChange (tr ++ u))] := by
  have hother : ∀ {c d : Command} {t : List Event}, c ∈ [.waitForStabilize, .runFirmwareUpdater] →
      (c.execute p).Run t (some (.ok d)) → Uttered (fun line => line = "status system-services" ∨
        line = "/usr/sbin/chromeos-firmwareupdate --wp=1 --mode=autoupdate") t := by
    intro c d t hc ht
    simp only [List.mem_cons, List.not_mem_nil, or_false] at hc
    rcases hc with rfl | rfl
    · exact Procedure.asked ht (Command.utters_kept (Task.utters_procedure
        (utters_waitForStabilize (Or.inl rfl)))) (knows_true t)
    · exact Procedure.asked ht (Command.utters_kept (Task.utters_procedure
        (utters_runFirmwareUpdater (Or.inr rfl)))) (knows_true t)
  obtain ⟨target, rfl⟩ := executed_firmware h
  cases h with
  | @cons _ _ _ _ t v hwait hrest =>
  cases hrest with
  | @cons _ _ _ _ w x hupdate hrest =>
  cases hrest with
  | @cons _ _ _ _ y z hcheck hnil =>
  cases hnil
  obtain ⟨found, hfound, ⟨⟩⟩ := Program.run_map_ok.1 hcheck
  have hbefore : Uttered _ (t ++ w) :=
    uttered_append.2 ⟨hother (by simp) hwait, hother (by simp) hupdate⟩
  have hslot := checkFirmwareSlot_slotChange
    (fun hline => by simpa using hbefore.of_mem_lines hline)
    (fun hline => by simpa using hbefore.of_mem_lines hline)
    (Procedure.run_procedure.1 hfound) u
  rw [← hslot]
  simp

/-! ## The chain -/

/-- The commands that boot new firmware, if there is any, and check it. -/
def Stage.bootCommands (p : Plan) : Option String → List Command
  | some next => [.reboot p.firmwareRebootTimeout, .verifyFirmware (some next)]
  | none => [.verifyFirmware none]

/-- The chain of an update that is to boot another firmware slot, or the same. -/
def Stage.firmwareChain (p : Plan) : Option String → List Command
  | some next => [.waitForStabilize, .runFirmwareUpdater, .checkFirmwareSlot none,
    .reboot p.firmwareRebootTimeout, .verifyFirmware (some next)]
  | none => [.waitForStabilize, .runFirmwareUpdater, .checkFirmwareSlot none, .verifyFirmware none]

/-- It goes on after the commands of the stage. -/
theorem Stage.firmwareChain_eq (target : Option String) :
    firmwareChain p target = updateFirmware.commands p ++ bootCommands p target := by
  cases target <;> rfl

theorem Stage.harmless_firmwareChain (target : Option String) :
    ∀ c ∈ firmwareChain p target, c.Harmless p := by
  intro c hc
  rw [firmwareChain_eq, List.mem_append] at hc
  rcases hc with hc | hc
  · simp only [commands, List.mem_cons, List.not_mem_nil, or_false] at hc
    rcases hc with rfl | rfl | rfl <;> rfl
  · cases target with
    | none =>
      cases List.mem_singleton.1 hc
      rfl
    | some next =>
      simp only [bootCommands, List.mem_cons, List.not_mem_nil, or_false] at hc
      rcases hc with rfl | rfl <;> rfl

/-- To boot the firmware is to execute these commands by themselves. -/
theorem Stage.bootFirmware_sameRuns (target : Option String) (executed : List Command) :
    (bootFirmware p target).SameRuns
      (executeInTurn p executed (bootCommands p target) >>= fun r => pure (r.map fun _ => ())) := by
  have hverify : ∀ executed : List Command,
      Program.SameRuns (do
        let done ← (Command.verifyFirmware target).executeAlone p
        return done.map fun _ => ())
      (executeInTurn p executed [.verifyFirmware target] >>= fun r =>
        pure (r.map fun _ => ())) := by
    intro executed
    rw [executeInTurn, Procedure.andThen, Program.bind_assoc]
    refine .bind (.refl _) fun t r _ => ?_
    cases r <;> exact .refl _
  cases target with
  | none => exact fun tr o => Procedure.run_log_bind.trans (hverify executed tr o)
  | some next =>
    rw [bootFirmware, bootCommands, executeInTurn, Procedure.andThen, Program.bind_assoc]
    refine .bind (.refl _) fun t r _ => ?_
    cases r with
    | error e => exact .refl _
    | ok d => exact hverify (d :: executed)

/-- After its chain the update goes on like the rest of the longer one. -/
theorem Stage.bootFirmware_run {t u : List Event} {ds : List Command} {title : String}
    {o : Option (Result StageOutcome)} (h : Executed p (updateFirmware.commands p) t ds) :
    Program.Run (do
      return (← bootFirmware p (ds.findSome? Command.rebootTarget)).map fun _ =>
        StageOutcome.completed) u o ↔
    ∃ r, (runChainAfter p title ds.reverse (bootCommands p (slotChange (t ++ u)))).Run u r ∧
      o = r.map (·.map fun _ => .completed) := by
  have hds := executed_slotChange h u
  have htarget : ds.findSome? Command.rebootTarget = slotChange (t ++ u) := by
    rw [hds]
    cases slotChange (t ++ u) <;> rfl
  have hcommands : ∀ c ∈ updateFirmware.commands p ++ bootCommands p (slotChange (t ++ u)),
      c.Harmless p := fun c hc => harmless_firmwareChain _ c (firmwareChain_eq _ ▸ hc)
  have hdone : ∀ d ∈ ds.reverse, d.Harmless p := fun d hd =>
    h.harmless (fun c hc => hcommands c (List.mem_append_left _ hc)) d (List.mem_reverse.1 hd)
  have hchain : Program.SameRuns
      (runChainAfter p title ds.reverse (bootCommands p (slotChange (t ++ u))))
      (executeInTurn p ds.reverse (bootCommands p (slotChange (t ++ u)))) :=
    runChainAfter_sameRuns hdone fun c hc => hcommands c (List.mem_append_right _ hc)
  rw [htarget, Program.run_bind_pure]
  constructor
  · rintro ⟨booted, hboot, rfl⟩
    obtain ⟨r, hr, rfl⟩ := Program.run_bind_pure.1
      ((bootFirmware_sameRuns _ ds.reverse u booted).1 hboot)
    refine ⟨r, (hchain u r).2 hr, ?_⟩
    rcases r with _ | e | ds' <;> rfl
  · rintro ⟨r, hr, rfl⟩
    refine ⟨r.map (·.map fun _ => ()), (bootFirmware_sameRuns _ ds.reverse u _).2
      (Program.run_bind_pure.2 ⟨r, (hchain u r).1 hr, rfl⟩), ?_⟩
    rcases r with _ | e | ds' <;> rfl

/-- Once the updater was found the update runs its commands and boots the new firmware. -/
theorem Stage.updateFirmware_goes_on {t u : List Event} {o : Option (Result StageOutcome)}
    (hrequest : p.request.updateFirmware = true)
    (hfound : p.firmwareUpdaterExists.Run t (some (.ok true))) :
    (updateFirmware.execute p).Run (t ++ u) o ↔
      (Procedure.andThen (updateFirmware.runCommands p) fun executed => do
        return (← bootFirmware p (executed.findSome? Command.rebootTarget)).map fun _ =>
          .completed).Run u o := by
  have hexecute : updateFirmware.execute p =
      Procedure.andThen (Task.procedure p.firmwareUpdaterExists) fun found =>
        if !found then pure (.ok (.skipped "firmware updater does not exist on the build"))
        else
          Procedure.andThen (updateFirmware.runCommands p) fun executed => do
            return (← bootFirmware p (executed.findSome? Command.rebootTarget)).map fun _ =>
              .completed := by
    rw [execute, runFirmware, hrequest]
    rfl
  rw [hexecute]
  constructor
  · exact fun h => (Task.leads hfound).run h
  · exact fun h => Procedure.run_andThen.2 (Or.inr (Or.inr
      ⟨t, true, u, rfl, Procedure.run_procedure.2 hfound, h⟩))

/-- What has the runs of the chain. -/
theorem Stage.firmwareChain_run {title : String} {u : List Event}
    {o : Option (Result StageOutcome)} :
    (Procedure.andThen (runChain p title (updateFirmware.commands p)) fun executed => do
      return (← bootFirmware p (executed.findSome? Command.rebootTarget)).map fun _ =>
        .completed).Run u o ↔
    ∃ r, (runChain p title (firmwareChain p (slotChange u))).Run u r ∧
      o = r.map (·.map fun _ => .completed) := by
  have hgives : ∀ {e : Error}, Gives o (.error e) ↔ ∃ r : Option (Result (List Command)),
      Gives r (.error e) ∧ o = r.map (·.map fun _ => .completed) :=
    fun {e} => gives_map (a := .error e)
      (f := fun r : Result (List Command) => r.map fun _ => StageOutcome.completed)
  simp only [firmwareChain_eq, runChain, runChainAfter_append, Procedure.run_andThen]
  constructor
  · rintro (⟨rfl, h⟩ | ⟨e, h, ho⟩ | ⟨v, ds, w, rfl, h, hw⟩)
    · exact ⟨none, Or.inl ⟨rfl, h⟩, rfl⟩
    · obtain ⟨r, hr, rfl⟩ := hgives.1 ho
      exact ⟨r, Or.inr (Or.inl ⟨e, h, hr⟩), rfl⟩
    · obtain ⟨r, hr, rfl⟩ := (bootFirmware_run (runChain_ok.1 h)).1 hw
      exact ⟨r, Or.inr (Or.inr ⟨v, ds, w, rfl, h, hr⟩), rfl⟩
  · rintro ⟨r, ⟨rfl, h⟩ | ⟨e, h, hr⟩ | ⟨v, ds, w, rfl, h, hw⟩, rfl⟩
    · exact Or.inl ⟨rfl, h⟩
    · exact Or.inr (Or.inl ⟨e, h, hgives.2 ⟨r, hr, rfl⟩⟩)
    · exact Or.inr (Or.inr ⟨v, ds, w, rfl, h,
        (bootFirmware_run (runChain_ok.1 h)).2 ⟨r, hw, rfl⟩⟩)

/-- An update that is done has read that the firmware did not fail, and, if it was to boot another
    slot, that this one is active. -/
theorem Plan.verifyFirmware_ok {expected : Option String}
    (h : (p.verifyFirmware expected).Run tr (some (.ok ()))) :
    (∀ next, expected = some next → ∃ active, Printed tr "crossystem mainfw_act" active ∧
      Text.trim active = next) ∧
    ∃ result, Printed tr "crossystem fw_result" result ∧ Text.trim result ≠ "failure" := by
  obtain ⟨t, ⟨⟩, u, rfl, hslot, h₁⟩ := Task.run_andThen_ok.1 h
  obtain ⟨v, result, w, rfl, hresult, h₂⟩ := Task.run_andThen_ok.1 h₁
  obtain ⟨out, hout, rfl⟩ := crossystem_ok hresult
  constructor
  · rintro next rfl
    obtain ⟨x, active, y, rfl, hactive, h₃⟩ := Task.run_andThen_ok.1 hslot
    obtain ⟨out', hout', rfl⟩ := crossystem_ok hactive
    refine ⟨out', hout'.append_left.append_left, ?_⟩
    by_cases heq : Text.trim out' = next
    · exact heq
    · simp [heq] at h₃
  · refine ⟨out, hout.append_left.append_right, fun heq => ?_⟩
    simp [heq] at h₂

/-- What the chain has done when the slot changes. -/
theorem Stage.firmwareChain_ok {u : List Event} {next : String} {ds : List Command}
    (hchange : slotChange u = some next) (h : Executed p (firmwareChain p (some next)) u ds) :
    ∃ a b c tried active result, u = a ++ (b ++ c) ∧
      Printed a "crossystem fw_try_next" tried ∧ Text.trim tried = next ∧ Restarted b ∧
      Printed c "crossystem mainfw_act" active ∧ Text.trim active = next ∧
      Printed c "crossystem fw_result" result ∧ Text.trim result ≠ "failure" := by
  rw [firmwareChain_eq] at h
  obtain ⟨t, v, es, fs, rfl, -, hupdate, hboot⟩ := h.split
  have hes := executed_slotChange hupdate v
  rw [hchange] at hes
  subst hes
  cases hupdate with
  | @cons _ _ _ _ w x _ hrest =>
  cases hrest with
  | @cons _ _ _ _ y z _ hrest =>
  cases hrest with
  | @cons _ _ _ _ a' b' hcheck hnil =>
  cases hnil
  cases hboot with
  | @cons _ _ _ _ b c hreboot hrest =>
  cases hrest with
  | @cons _ _ _ _ d e hverify hnil =>
  cases hnil
  obtain ⟨target, hfound, ⟨⟩⟩ := Program.run_map_ok.1 hcheck
  obtain ⟨a₁, a₂, act, tried, rfl, -, htried, hnext⟩ :=
    checkFirmwareSlot_ok (Procedure.run_procedure.1 hfound)
  obtain ⟨-, ⟨⟩, hdown⟩ := Command.kept_run.1 hreboot
  obtain ⟨-, ⟨⟩, hchecked⟩ := Command.kept_run.1 hverify
  obtain ⟨hslot, result, hresult, hfine⟩ := verifyFirmware_ok (Procedure.run_procedure.1 hchecked)
  obtain ⟨active, hactive, heq⟩ := hslot next rfl
  split at hnext
  · cases hnext
  cases hnext
  exact ⟨_, b, d ++ [], tried, active, result, rfl,
    htried.append_right.append_left.append_right.append_right, rfl,
    reboot_ok (Procedure.run_procedure.1 hdown), hactive.append_left, heq, hresult.append_left,
    hfine⟩

/-- **The update of the firmware is a chain.** Where the request asks for the update and the updater
    was found, the rest of the stage has the runs of its chain with the reboot, if the device tells
    of a change of the slot, and the check of the firmware at its end: the same questions with the
    same answers, and the same success or the same error, also where a run is cut short. If it
    completes after such a change, the slot that was to be tried next was told before a restart, and
    after that restart the active slot is that one and the firmware does not report a failure. -/
theorem Stage.updateFirmware_run (p : Plan) (t : List Event)
    (hrequest : p.request.updateFirmware = true)
    (hfound : p.firmwareUpdaterExists.Run t (some (.ok true))) :
    (∀ u o, (updateFirmware.execute p).Run (t ++ u) o ↔
      ∃ r, (runChain p updateFirmware.title (firmwareChain p (slotChange u))).Run u r ∧
        o = r.map (·.map fun _ => .completed)) ∧
    ∀ u next, (updateFirmware.execute p).Run (t ++ u) (some (.ok .completed)) →
      slotChange u = some next →
      ∃ a b c tried active result, u = a ++ (b ++ c) ∧
        Printed a "crossystem fw_try_next" tried ∧ Text.trim tried = next ∧ Restarted b ∧
        Printed c "crossystem mainfw_act" active ∧ Text.trim active = next ∧
        Printed c "crossystem fw_result" result ∧ Text.trim result ≠ "failure" := by
  have hrun : ∀ u o, (updateFirmware.execute p).Run (t ++ u) o ↔
      ∃ r, (runChain p updateFirmware.title (firmwareChain p (slotChange u))).Run u r ∧
        o = r.map (·.map fun _ => .completed) :=
    fun u o => (updateFirmware_goes_on hrequest hfound).trans firmwareChain_run
  refine ⟨hrun, fun u next hdone hchange => ?_⟩
  obtain ⟨_ | e | ds, hr, ho⟩ := (hrun u _).1 hdone
  · cases ho
  · cases ho
  · rw [hchange] at hr
    exact firmwareChain_ok hchange (runChain_ok.1 hr)

/-- A device that boots the firmware slot `B` when it reboots. Its state is the active slot. -/
def bootsB : Answers String
  | .run _ line _ _, slot =>
    let out :=
      if line = "crossystem mainfw_act" then slot
      else if line = "crossystem fw_try_next" then "B\n"
      else if line = "status system-services" then "boot-services start/running"
      else "1"
    some (.ok { stdout := Text.Utf8.ofString out }, if line = "reboot" then "B" else slot)
  | q, slot => obeys q slot

/-- An installation with an update of the firmware. -/
def firmwarePlan : Plan where
  link := { dut := "dut", cacheAddress := "10.0.0.1:8082" }
  request := { imagePath := "gs://images/r100", updateFirmware := true }

theorem updateFirmware_run_bootsB : ∃ t u, firmwarePlan.request.updateFirmware = true ∧
    firmwarePlan.firmwareUpdaterExists.Run t (some (.ok true)) ∧
    (Stage.updateFirmware.execute firmwarePlan).Run (t ++ u) (some (.ok .completed)) ∧
    slotChange u = some "B" ∧
    ∃ a b c tried active result, u = a ++ (b ++ c) ∧
      Printed a "crossystem fw_try_next" tried ∧ Text.trim tried = "B" ∧ Restarted b ∧
      Printed c "crossystem mainfw_act" active ∧ Text.trim active = "B" ∧
      Printed c "crossystem fw_result" result ∧ Text.trim result ≠ "failure" := by
  let chain := runChain firmwarePlan Stage.updateFirmware.title
    (Stage.firmwareChain firmwarePlan (some "B"))
  have hfound := Procedure.run_procedure.1 (Procedure.run_play_ok (f := bootsB) (a := true)
    (p := firmwarePlan.firmwareUpdaterExists.procedure) (s := (none, "A")) (by decide +kernel))
  have hchain := Procedure.run_play_ok (f := bootsB) (p := chain) (s := (none, "A"))
    (a := [.waitForStabilize, .runFirmwareUpdater, .checkFirmwareSlot (some "B"),
      .reboot firmwarePlan.firmwareRebootTimeout, .verifyFirmware (some "B")]) (by decide +kernel)
  have hchange : slotChange (chain.play bootsB (none, "A")).1 = some "B" := by decide +kernel
  generalize (chain.play bootsB (none, "A")).1 = u at hchain hchange
  have hlaw := Stage.updateFirmware_run firmwarePlan _ rfl hfound
  have hrun := (hlaw.1 u (some (.ok .completed))).2 ⟨_, by rw [hchange]; exact hchain, rfl⟩
  exact ⟨_, u, rfl, hfound, hrun, hchange, hlaw.2 u "B" hrun hchange⟩

end Reimage
