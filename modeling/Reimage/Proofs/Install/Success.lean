/-
  What a successful installation has done.

  * each step of a plan that succeeds has seen the device do its work (`Plan.*_ok`);
  * `Executed.mem`: in a chain that succeeds, each command does;
  * `provision_success`: of a whole installation.
-/
import Reimage.Proofs.Install.Target

namespace Reimage

open Plan

variable {p : Plan}

/-! ## Steps that succeed -/

namespace Plan

variable {l : Layout} {tr : List Event}

theorem run_ok {command : String} {args : List String}
    (h : (p.run command args).Run tr (some (.ok ()))) :
    ∃ out, Printed tr (Shell.commandLine command args) out := by
  obtain ⟨out, hr, -⟩ := Program.run_map_ok.1 h
  exact ⟨out, Link.runCommand_ok hr⟩

theorem layout_ok {l' : Layout} (h : layout.Run tr (some (.ok l'))) (hk : Knows (· = l) tr) :
    l' = l := by
  obtain ⟨t, told, u, rfl, h, h'⟩ := Program.run_bind_some.1 h
  cases Task.run_ask_some.1 h
  cases told with
  | none => simp at h'
  | some told =>
    obtain ⟨rfl, hl⟩ := Program.run_pure_some.1 h'
    cases hl
    exact hk ⟨.layout, some l'⟩ (List.mem_singleton.2 rfl)

theorem targetSlot_ok {s s' : Slot} (h : targetSlot.Run tr (some (.ok s)))
    (hk : Knows (· = l) tr) (hl : Slot.ofRoot l.inactiveRoot = .ok s') : s = s' := by
  obtain ⟨e | l', hr, h⟩ := Program.run_bind_pure_some.1 h
  · cases h
  · cases layout_ok hr hk
    have : (Except.ok s : Result Slot) = .ok s' := h.trans hl
    cases this
    rfl

theorem installZippedImage_ok {image output : String}
    (h : (p.installZippedImage image output).Run tr (some (.ok ()))) :
    ∃ url out, p.artifactUrl image = .ok url ∧ Printed tr (writeLine url output) out := by
  unfold installZippedImage at h
  cases hu : p.artifactUrl image with
  | error e => simp [hu, Result.within] at h
  | ok url =>
    rw [hu] at h
    obtain ⟨out, hout⟩ := run_ok h
    exact ⟨url, out, rfl, hout⟩

theorem joinWrites_ok {kernel root : Result Unit} (h : joinWrites kernel root = .ok ()) :
    kernel = .ok () ∧ root = .ok () := by
  rcases kernel with _ | ⟨⟩ <;> rcases root with _ | ⟨⟩ <;> simp [joinWrites, Result.within] at h ⊢

theorem installPartitions_ok (h : p.installPartitions.Run tr (some (.ok ())))
    (hk : Knows (· = l) tr) :
    (∃ url out, p.artifactUrl kernelImage = .ok url ∧
      Printed tr (writeLine url l.inactiveKernel) out) ∧
    ∃ url out, p.artifactUrl rootImage = .ok url ∧
      Printed tr (writeLine url l.inactiveRoot) out := by
  obtain ⟨t, l', u, rfl, h, h'⟩ := Procedure.run_andThen_ok.1 h
  rw [knows_append] at hk
  cases layout_ok (Procedure.run_procedure.1 h) hk.1
  obtain ⟨v, ⟨kernel, root⟩, w, rfl, hboth, hjoin⟩ := Program.run_bind_some.1 h'
  obtain ⟨x, y, k, r, hx, hy, hi, hkr⟩ := Program.run_query_some.1 hboth
  obtain ⟨rfl, hok⟩ := Program.run_pure_some.1 hjoin
  obtain ⟨rfl, rfl⟩ := joinWrites_ok hok.symm
  obtain ⟨k, rfl, hr⟩ := Option.bind_eq_some_iff.1 hkr.symm
  obtain ⟨r, rfl, hpair⟩ := Option.map_eq_some_iff.1 hr
  cases hpair
  obtain ⟨url, out, hurl, hout⟩ := installZippedImage_ok hx
  obtain ⟨url', out', hurl', hout'⟩ := installZippedImage_ok hy
  refine ⟨⟨url, out, hurl, .append_right (.append_left (hout.mono fun e he => ?_))⟩,
    url', out', hurl', .append_right (.append_left (hout'.mono fun e he => ?_))⟩
  · exact hi.mem_iff.2 (Or.inl he)
  · exact hi.mem_iff.2 (Or.inr he)

theorem installStateful_ok (h : p.installStateful.Run tr (some (.ok ()))) :
    ∃ url out, p.artifactUrl statefulImage = .ok url ∧ Printed tr (unpackLine url) out := by
  unfold installStateful at h
  cases hu : p.artifactUrl statefulImage with
  | error e => simp [hu, Result.within] at h
  | ok url =>
    rw [hu] at h
    obtain ⟨t, e | ⟨⟩, u, rfl, h, h'⟩ := Program.run_bind_some.1 h
    · obtain ⟨v, cleaned, w, rfl, -, h''⟩ := Program.run_bind_some.1 h'
      cases cleaned <;> simp at h''
    · obtain ⟨out, hout⟩ := run_ok h
      exact ⟨url, out, rfl, hout.append_left⟩

theorem postInstall_ok (h : p.postInstall.Run tr (some (.ok ()))) (hk : Knows (· = l) tr) :
    ∃ out, Printed tr (postInstallLine l.inactiveRoot) out := by
  obtain ⟨t, l', u, rfl, h, h'⟩ := Task.run_andThen_ok.1 h
  rw [knows_append] at hk
  cases layout_ok h hk.1
  obtain ⟨out, hout⟩ := run_ok h'
  exact ⟨out, hout.append_right⟩

theorem reboot_ok {timeout : Duration} (h : (p.reboot timeout).Run tr (some (.ok ()))) :
    Restarted tr := by
  obtain ⟨out, hr, -⟩ := Program.run_map_ok.1 h
  exact Link.restart_ok hr

/-- The updater was found if the device has answered `1`. -/
theorem firmwareUpdaterExists_ok {found : Bool}
    (h : p.firmwareUpdaterExists.Run tr (some (.ok found))) :
    ∃ out, Printed tr (Shell.pathExists firmwareUpdater) out ∧ found = (Text.trim out == "1") := by
  exact Link.pathExists_ok (Program.run_within_ok.1 h)

theorem crossystem_ok {key value : String} (h : (p.crossystem key).Run tr (some (.ok value))) :
    ∃ out, Printed tr (Shell.commandLine "crossystem" [key]) out ∧ value = Text.trim out := by
  obtain ⟨out, hr, rfl⟩ := Program.run_within_map_ok.1 h
  exact ⟨out, Link.runCommand_ok hr, rfl⟩

/-- The next boot is to try another slot if the two that the device has told differ, apart from the
    blanks around them. -/
theorem checkFirmwareSlot_ok {target : Option String}
    (h : p.checkFirmwareSlot.Run tr (some (.ok target))) :
    ∃ t u active next, tr = t ++ u ∧ Printed t "crossystem mainfw_act" active ∧
      Printed u "crossystem fw_try_next" next ∧
      target = if Text.trim active = Text.trim next then none else some (Text.trim next) := by
  obtain ⟨t, active, u, rfl, h₁, h₂⟩ := Task.run_andThen_ok.1 h
  obtain ⟨v, next, w, rfl, h₃, h₄⟩ := Task.run_andThen_ok.1 h₂
  obtain ⟨out, hout, rfl⟩ := crossystem_ok h₁
  obtain ⟨out', hout', rfl⟩ := crossystem_ok h₃
  refine ⟨t, v ++ w, out, out', rfl, hout, hout'.append_left, ?_⟩
  split at h₄
  · obtain ⟨-, htarget⟩ := Program.run_pure_some.1 h₄
    cases htarget
    rw [if_pos ‹_›]
  · obtain ⟨-, htarget⟩ := Program.run_pure_some.1 (Task.run_log_bind.1 h₄)
    cases htarget
    rw [if_neg ‹_›]

theorem verifyActiveRoot_ok {s : Slot} (h : p.verifyActiveRoot.Run tr (some (.ok ())))
    (hk : Knows (· = l) tr) (hl : Slot.ofRoot l.inactiveRoot = .ok s) :
    ∃ root, Printed tr "rootdev -s" root ∧ Slot.ofRoot root = .ok s := by
  obtain ⟨t, expected, u, rfl, h, h'⟩ := Task.run_andThen_ok.1 h
  rw [knows_append] at hk
  cases targetSlot_ok h hk.1 hl
  obtain ⟨v, root, w, rfl, h, h'⟩ := Task.run_andThen_ok.1 h'
  obtain ⟨out, hout, rfl⟩ := bootedRoot_ok h
  cases hs : Slot.ofRoot (Text.trim out) with
  | error e => simp [hs] at h'
  | ok booted =>
    simp only [hs] at h'
    split at h'
    · rename_i hb
      rw [Slot.ofRoot_trim, hb] at hs
      exact ⟨out, hout.append_left.append_right, hs⟩
    · simp at h'

theorem isDlcVerified_ok {id : String} {s : Slot} {b : Bool}
    (h : (p.isDlcVerified id s).Run tr (some (.ok b))) :
    ∃ out, Printed tr (checkLine id s) out ∧ b = (Text.trim out == "1") := by
  exact Link.pathExists_ok (Program.run_within_ok.1 h)

theorem verifyDlcsIn_ok {s : Slot} {ids : List String}
    (h : (p.verifyDlcsIn s ids).Run tr (some (.ok ()))) :
    ∀ id ∈ ids, ∃ out, Printed tr (checkLine id s) out ∧ Text.trim out = "1" := by
  induction ids generalizing tr with
  | nil => exact fun _ h => nomatch h
  | cons id ids ih =>
    obtain ⟨t, verified, u, rfl, h, h'⟩ := Task.run_andThen_ok.1 h
    obtain ⟨out, hout, hb⟩ := isDlcVerified_ok h
    split at h'
    · rename_i hv
      refine List.forall_mem_cons.2 ⟨⟨out, hout.append_left, ?_⟩, fun id hid => ?_⟩
      · rw [hv] at hb
        exact beq_iff_eq.1 hb.symm
      · obtain ⟨out, hout, h1⟩ := ih h' id hid
        exact ⟨out, hout.append_right, h1⟩
    · simp at h'

theorem verifyDlcs_ok {s : Slot} (h : p.verifyDlcs.Run tr (some (.ok ())))
    (hk : Knows (· = l) tr) (hl : Slot.ofRoot l.inactiveRoot = .ok s) :
    ∀ id ∈ p.request.dlcIds, ∃ out, Printed tr (checkLine id s) out ∧ Text.trim out = "1" := by
  obtain ⟨t, expected, u, rfl, h, h'⟩ := Task.run_andThen_ok.1 h
  rw [knows_append] at hk
  cases targetSlot_ok h hk.1 hl
  intro id hid
  obtain ⟨out, hout, h1⟩ := verifyDlcsIn_ok h' id hid
  exact ⟨out, hout.append_right, h1⟩

end Plan

/-! ## Stages that succeed -/

section

variable {l : Layout} {tr : List Event} {outcome : StageOutcome}

theorem Stage.executed {s : Stage} (hs : s ≠ .updateFirmware)
    (h : (s.execute p).Run tr (some (.ok outcome))) : ∃ ds, Executed p (s.commands p) tr ds := by
  obtain ⟨_ | e | ds, hr, ho⟩ := (execute_run hs).1 h
  · cases ho
  · cases ho
  · exact ⟨ds, runChain_ok.1 hr⟩

theorem Stage.installPartitions_ok
    (h : (installPartitions.execute p).Run tr (some (.ok outcome))) (hk : Knows (· = l) tr) :
    (∃ url out, p.artifactUrl kernelImage = .ok url ∧
      Printed tr (writeLine url l.inactiveKernel) out) ∧
    ∃ url out, p.artifactUrl rootImage = .ok url ∧
      Printed tr (writeLine url l.inactiveRoot) out := by
  obtain ⟨ds, hd⟩ := executed (by decide) h
  cases hd with
  | cons hc hnil =>
    cases hnil
    obtain ⟨-, ⟨⟩, hc⟩ := Command.kept_run.1 hc
    rw [List.append_nil] at hk ⊢
    exact Plan.installPartitions_ok hc hk

theorem Stage.installStateful_ok
    (h : (installStateful.execute p).Run tr (some (.ok outcome))) :
    ∃ url out, p.artifactUrl statefulImage = .ok url ∧ Printed tr (unpackLine url) out := by
  obtain ⟨ds, hd⟩ := executed (by decide) h
  obtain ⟨a, t, b, d, rfl, hc⟩ := hd.mem (show Command.installStateful ∈ _ by simp [commands])
  obtain ⟨-, ⟨⟩, hc⟩ := Command.kept_run.1 hc
  obtain ⟨url, out, hurl, hout⟩ := Plan.installStateful_ok (Procedure.run_procedure.1 hc)
  exact ⟨url, out, hurl, hout.append_left.append_right⟩

/-- The new root was made the one to boot, and after that the device was restarted, if the request
    allows it. -/
theorem Stage.postInstall_ok (h : (postInstall.execute p).Run tr (some (.ok outcome)))
    (hk : Knows (· = l) tr) : ∃ t u, tr = t ++ u ∧
      (∃ out, Printed t (postInstallLine l.inactiveRoot) out) ∧
      (p.request.preventReboot = false → Restarted u) := by
  obtain ⟨ds, hd⟩ := executed (by decide) h
  cases hd with
  | @cons _ _ _ _ t u hc hrest =>
    obtain ⟨-, ⟨⟩, hc⟩ := Command.kept_run.1 hc
    rw [knows_append] at hk
    refine ⟨t, u, rfl, Plan.postInstall_ok (Procedure.run_procedure.1 hc) hk.1, fun hp => ?_⟩
    obtain ⟨a, v, b, d, rfl, hc⟩ := hrest.mem (show Command.reboot p.rebootTimeout ∈ _ by simp [hp])
    obtain ⟨-, ⟨⟩, hc⟩ := Command.kept_run.1 hc
    exact (reboot_ok (Procedure.run_procedure.1 hc)).append_left.append_right

theorem Stage.verify_ok {slot : Slot} (h : (verify.execute p).Run tr (some (.ok outcome)))
    (hk : Knows (· = l) tr) (hl : Slot.ofRoot l.inactiveRoot = .ok slot) :
    (∃ root, Printed tr "rootdev -s" root ∧ Slot.ofRoot root = .ok slot) ∧
      ∀ id ∈ p.request.dlcIds, ∃ out, Printed tr (checkLine id slot) out ∧ Text.trim out = "1" := by
  obtain ⟨ds, hd⟩ := executed (by decide) h
  constructor
  · obtain ⟨a, t, b, d, rfl, hc⟩ := hd.mem (show Command.verifyActiveRoot ∈ _ by simp [commands])
    obtain ⟨-, ⟨⟩, hc⟩ := Command.kept_run.1 hc
    simp only [knows_append] at hk
    obtain ⟨root, hr, hs⟩ := verifyActiveRoot_ok (Procedure.run_procedure.1 hc) hk.2.1 hl
    exact ⟨root, hr.append_left.append_right, hs⟩
  · intro id hid
    have hne : p.request.dlcIds.isEmpty = false := by
      cases hi : p.request.dlcIds with
      | nil => rw [hi] at hid; cases hid
      | cons _ _ => rfl
    obtain ⟨a, t, b, d, rfl, hc⟩ := hd.mem (show Command.verifyDlcs ∈ _ by simp [commands, hne])
    obtain ⟨-, ⟨⟩, hc⟩ := Command.kept_run.1 hc
    simp only [knows_append] at hk
    obtain ⟨out, hout, h1⟩ := verifyDlcs_ok (Procedure.run_procedure.1 hc) hk.2.1 hl id hid
    exact ⟨out, hout.append_left.append_right, h1⟩

end

/-! ## Installations that succeed -/

/-- A success is reported of nothing but stages that were all passed. -/
theorem Passed.of_success {tr : List Event} {resp : Response}
    (h : p.provision.Run tr (some resp)) (hs : resp.status = .success) : Passed p p.stages tr := by
  cases hv : p.request.validate with
  | error e =>
    obtain ⟨-, ho⟩ := (provision_refused hv).1 h
    cases (gives_some.1 ho)
    cases hs
  | ok =>
    obtain ⟨_ | ⟨s, e⟩, hf, rfl⟩ := (provision_some hv).1 h
    · exact hf
    · cases s <;> cases hs

/-- What the device has done in an installation that can be called a success. It has told a root of
    some slot. Then kernel and root of the other slot were written, the stateful image was unpacked,
    and that other root was made the one to boot, all with status zero and in this order. Unless the
    request prevents it, the device was then restarted, has come up from the other slot, and every
    package that was requested is verified there. -/
def Installed (p : Plan) (tr : List Event) : Prop :=
  ∃ slot l t₁ t₂ t₃ t₄ t₅, tr = t₁ ++ (t₂ ++ (t₃ ++ (t₄ ++ t₅))) ∧
    Probed t₁ slot l ∧ l.Numbered slot ∧
    (∃ root, Printed t₁ "rootdev -s" root ∧
      Text.endNumber? (Text.trim root) = some slot.root) ∧
    (∃ url out, p.artifactUrl kernelImage = .ok url ∧
      Printed t₂ (writeLine url l.inactiveKernel) out) ∧
    (∃ url out, p.artifactUrl rootImage = .ok url ∧
      Printed t₂ (writeLine url l.inactiveRoot) out) ∧
    (∃ url out, p.artifactUrl statefulImage = .ok url ∧ Printed t₃ (unpackLine url) out) ∧
    (∃ out, Printed t₄ (postInstallLine l.inactiveRoot) out) ∧
    (p.request.preventReboot = false → ∃ u v, t₅ = u ++ v ∧ Restarted u ∧
      (∃ root, Printed v "rootdev -s" root ∧
        Text.endNumber? (Text.trim root) = some (8 - slot.root)) ∧
      ∀ id ∈ p.request.dlcIds,
        ∃ out, Printed v (checkLine id slot.other) out ∧ Text.trim out = "1")

/-- **A success can be trusted.** An installation that reports success has done all of it. -/
theorem provision_success {m : Option Layout} {tr : List Event} {resp : Response}
    (h : p.provision.Run tr (some resp)) (hm : Recalls m tr) (hs : resp.status = .success) :
    Installed p tr := by
  have hp := Passed.of_success h hs
  rw [stages, List.cons_append] at hp
  cases hp with
  | @cons _ _ t₁ v _ h₁ hrest =>
  -- The layout that the later stages are told is the one of the probe.
  obtain ⟨a, slot, l, b, rfl, hprobed, hk⟩ := hm.knows_after_passed h₁ p.init_notMem_tail
    (runStages_some.2 (Or.inl ⟨hrest, rfl⟩))
  simp only [List.cons_append, List.nil_append] at hrest
  cases hrest with
  | @cons _ _ t₂ v _ h₂ hrest =>
  cases hrest with
  | @cons _ _ t₃ v _ h₃ hrest =>
  cases hrest with
  | @cons _ _ tf v _ hf hrest =>
  cases hrest with
  | @cons _ _ t₄ v _ h₄ hrest =>
  simp only [knows_append] at hk
  obtain ⟨hk₂, hk₃, -, hk₄, hk₅⟩ := hk
  obtain ⟨hkernel, hroot⟩ := Stage.installPartitions_ok h₂ hk₂
  obtain ⟨url, out, hurl, hout⟩ := Stage.installStateful_ok h₃
  obtain ⟨x, y, rfl, hpost, hrestart⟩ := Stage.postInstall_ok h₄ hk₄
  refine ⟨slot, l, a ++ ⟨.setLayout l, ()⟩ :: b, t₂, t₃ ++ tf, x, y ++ v, by simp,
    hprobed.append_left, hprobed.numbered, ?_, hkernel, hroot,
    ⟨url, out, hurl, hout.append_left⟩, hpost, fun hr => ?_⟩
  · obtain ⟨root, disk, hroot, -, hslot, -⟩ := hprobed
    exact ⟨root, hroot.append_left, Slot.endNumber_of_ofRoot hslot⟩
  · rw [hr] at hrest
    cases hrest with
    | @cons _ _ t₅ v _ h₅ hnil =>
    obtain ⟨⟨root, hroot, hslot⟩, hdlcs⟩ :=
      Stage.verify_ok h₅ (knows_append.1 hk₅).1 hprobed.ofRoot_inactiveRoot
    refine ⟨y, t₅ ++ v, rfl, hrestart hr, ⟨root, hroot.append_left, ?_⟩, fun id hid => ?_⟩
    · rw [← Slot.root_other]
      exact Slot.endNumber_of_ofRoot hslot
    · obtain ⟨out, hout, h1⟩ := hdlcs id hid
      exact ⟨out, hout.append_left, h1⟩

theorem provision_success_obeys :
    ∃ tr, samplePlan.provision.Run tr (some { dut := "dut", status := .success }) ∧
      Recalls none tr ∧ Installed samplePlan tr := by
  obtain ⟨tr, hrun, hm⟩ := provision_obeys
  exact ⟨tr, hrun, hm, provision_success hrun hm rfl⟩

end Reimage
