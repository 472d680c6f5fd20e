/-
  The stages of an installation, one after the other.

  * `Passed`: stages that were completed or skipped, with the events of each, in order;
  * `runStages_run`: the runs of stages; a stage that fails is the last one, and its own chain is
    all that is rolled back;
  * `Stage.spoken`: whatever happens, a stage says its own lines only;
  * `provision_run`: the runs of a whole installation and what is reported of them.
-/
import Reimage.Proofs.Install.Probe
import Reimage.Proofs.Play

namespace Reimage

/-- Stages are completed or skipped, one after the other. They leave the events `tr`. -/
inductive Passed (p : Plan) : (ss : List Stage) → (tr : List Event) → Prop
  | nil : Passed p [] []
  | cons {s : Stage} {ss : List Stage} {t u : List Event} {outcome : StageOutcome} :
    (s.execute p).Run t (some (.ok outcome)) → Passed p ss u → Passed p (s :: ss) (t ++ u)

variable {p : Plan}

/-- Each stage that was passed was run to its end. -/
theorem Passed.mem {ss : List Stage} {tr : List Event} (h : Passed p ss tr) {s : Stage}
    (hs : s ∈ ss) : ∃ t u v outcome, tr = t ++ (u ++ v) ∧
      (s.execute p).Run u (some (.ok outcome)) := by
  induction h with
  | nil => cases hs
  | @cons s' ss u v outcome h _ ih =>
    rcases List.mem_cons.1 hs with rfl | hs
    · exact ⟨[], u, v, outcome, rfl, h⟩
    · obtain ⟨t, w, x, outcome, rfl, h⟩ := ih hs
      exact ⟨u ++ t, w, x, outcome, by simp, h⟩

/-- The runs of stages. -/
theorem runStages_run {ss : List Stage} {tr : List Event} {o : Option (Except RunFailure Unit)} :
    (runStages p ss).Run tr o ↔
      (Passed p ss tr ∧ Gives o (.ok ())) ∨
      ∃ before s after t u, ss = before ++ s :: after ∧ tr = t ++ u ∧ Passed p before t ∧
        ((o = none ∧ (s.execute p).Run u none) ∨
          ∃ e, (s.execute p).Run u (some (.error e)) ∧
            Gives o (.error ⟨s, .context s.title e⟩)) := by
  induction ss generalizing tr with
  | nil =>
    rw [runStages, Program.run_pure]
    constructor
    · rintro ⟨rfl, h⟩
      exact Or.inl ⟨.nil, h⟩
    · rintro (⟨h, ho⟩ | ⟨before, s, after, t, u, h, -⟩)
      · cases h; exact ⟨rfl, ho⟩
      · exact absurd h.symm (by simp)
  | cons s ss ih =>
    rw [runStages, Procedure.run_log_bind, Program.run_bind]
    constructor
    · rintro (⟨rfl, h⟩ | ⟨t, e | outcome, u, rfl, h, h'⟩)
      · exact Or.inr ⟨[], s, ss, [], tr, rfl, rfl, .nil, Or.inl ⟨rfl, h⟩⟩
      · obtain ⟨rfl, ho⟩ := Program.run_pure.1 (Procedure.run_log_bind.1 h')
        exact Or.inr ⟨[], s, ss, [], t, rfl, by simp, .nil, Or.inr ⟨e, h, ho⟩⟩
      · obtain ⟨hp, ho⟩ | ⟨before, s', after, v, w, rfl, rfl, hp, hs⟩ :=
          ih.1 (Procedure.run_log_bind.1 h')
        · exact Or.inl ⟨.cons h hp, ho⟩
        · exact Or.inr ⟨s :: before, s', after, t ++ v, w, rfl, (List.append_assoc ..).symm,
            .cons h hp, hs⟩
    · rintro (⟨h, ho⟩ | ⟨before, s', after, t, u, hss, rfl, hp, hs⟩)
      · cases h with
        | cons h hp =>
          exact Or.inr ⟨_, .ok _, _, rfl, h, Procedure.run_log_bind.2 (ih.2 (Or.inl ⟨hp, ho⟩))⟩
      · cases hp with
        | nil =>
          obtain ⟨rfl, rfl⟩ := List.cons.inj hss
          rcases hs with ⟨rfl, h⟩ | ⟨e, h, ho⟩
          · exact Or.inl ⟨rfl, h⟩
          · exact Or.inr ⟨u, .error e, [], by simp, h,
              Procedure.run_log_bind.2 (Program.run_pure.2 ⟨rfl, ho⟩)⟩
        | cons h hp =>
          obtain ⟨rfl, rfl⟩ := List.cons.inj hss
          exact Or.inr ⟨_, .ok _, _, List.append_assoc .., h,
            Procedure.run_log_bind.2 (ih.2 (Or.inr ⟨_, s', after, _, u, rfl, rfl, hp, hs⟩))⟩

/-- **What a stage says.** -/
theorem Stage.spoken {s : Stage} {tr : List Event} {o : Option (Result StageOutcome)}
    (h : (s.execute p).Run tr o) : Spoken (s.Says p fun _ => True) tr := by
  by_cases hs : s = .init
  · subst hs
    obtain ⟨hu, -⟩ | ⟨t, slot, l, u, rfl, ht, -, hu⟩ := init_run h
    · exact hu.spoken
    · refine spoken_append.2 ⟨ht.spoken, ?_⟩
      exact List.forall_mem_cons.2 ⟨trivial, hu.spoken⟩
  · exact (uttered hs h (knows_true tr)).spoken

theorem Passed.spoken {ss : List Stage} {tr : List Event} (h : Passed p ss tr) :
    Spoken (fun line => ∃ s : Stage, s.Says p (fun _ => True) line) tr := by
  induction h with
  | nil => exact fun _ h => nomatch h
  | cons h _ ih => exact spoken_append.2 ⟨(Stage.spoken h).mono fun _ h => ⟨_, h⟩, ih⟩

/-! ## Whole installations -/

/-- Stages come to their end: the last one was passed, or the given one fails for a reason. Those
    after it are not run. -/
def Ended (p : Plan) (ss : List Stage) (tr : List Event) : Option (Stage × Error) → Prop
  | none => Passed p ss tr
  | some (s, e) => ∃ before after t u, ss = before ++ s :: after ∧ tr = t ++ u ∧
      Passed p before t ∧ (s.execute p).Run u (some (.error e))

/-- Stages are cut short: some were passed, and the next one was not run to its end. -/
def Broken (p : Plan) (ss : List Stage) (tr : List Event) : Prop :=
  ∃ before after t u, ss = before ++ after ∧ tr = t ++ u ∧ Passed p before t ∧
    (u = [] ∨ ∃ s rest, after = s :: rest ∧ (s.execute p).Run u none)

/-- What is reported of stages that came to their end. -/
def Plan.report (p : Plan) : Option (Stage × Error) → Response
  | none => { dut := p.link.dut, status := .success }
  | some (s, e) => RunFailure.response p.link.dut ⟨s, .context s.title e⟩

/-- What is reported of a request that was refused. -/
def Plan.refusal (p : Plan) (e : Error) : Response :=
  { dut := p.link.dut, status := .rpcFailed, error := some e.message }

/-- The stages of an installation, in order. -/
def Plan.stages (p : Plan) : List Stage :=
  [.init, .installPartitions, .installStateful, .updateFirmware, .postInstall]
    ++ if p.request.preventReboot then [] else [.verify]

theorem Plan.itinerary_init (p : Plan) : Stage.init.itinerary p.request = p.stages := by
  cases h : p.request.preventReboot <;>
    simp [Stage.itinerary, Stage.following, Stage.next, stages, h]

theorem Plan.stages_nodup (p : Plan) : p.stages.Nodup := by
  unfold stages
  split <;> decide

theorem Plan.init_notMem_tail (p : Plan) : Stage.init ∉ p.stages.tail :=
  (List.nodup_cons.1 p.stages_nodup).1

theorem runStages_some {ss : List Stage} {tr : List Event} {r : Except RunFailure Unit} :
    (runStages p ss).Run tr (some r) ↔
      (Ended p ss tr none ∧ r = .ok ()) ∨
      ∃ s e, Ended p ss tr (some (s, e)) ∧ r = .error ⟨s, .context s.title e⟩ := by
  rw [runStages_run]
  simp only [Ended, gives_some, reduceCtorEq, false_and, false_or]
  refine or_congr_right ⟨?_, ?_⟩
  · rintro ⟨before, s, after, t, u, rfl, rfl, hp, e, h, rfl⟩
    exact ⟨s, e, ⟨before, after, t, u, rfl, rfl, hp, h⟩, rfl⟩
  · rintro ⟨s, e, ⟨before, after, t, u, rfl, rfl, hp, h⟩, rfl⟩
    exact ⟨before, s, after, t, u, rfl, rfl, hp, e, h, rfl⟩

theorem runStages_none {ss : List Stage} {tr : List Event} :
    (runStages p ss).Run tr none ↔ Broken p ss tr := by
  rw [runStages_run]
  constructor
  · rintro (⟨h, -⟩ | ⟨before, s, after, t, u, rfl, rfl, hp, h⟩)
    · exact ⟨ss, [], tr, [], by simp, by simp, h, Or.inl rfl⟩
    · refine ⟨before, s :: after, t, u, rfl, rfl, hp, Or.inr ⟨s, after, rfl, ?_⟩⟩
      rcases h with ⟨-, h⟩ | ⟨e, h, -⟩
      · exact h
      · exact h.toNone
  · rintro ⟨before, after, t, u, rfl, rfl, hp, rfl | ⟨s, rest, rfl, h⟩⟩
    · cases after with
      | nil => exact Or.inl ⟨by simpa using hp, Or.inl rfl⟩
      | cons s rest => exact Or.inr ⟨before, s, rest, t, [], rfl, rfl, hp, Or.inl ⟨rfl, .cut _⟩⟩
    · exact Or.inr ⟨before, s, rest, t, u, rfl, rfl, hp, Or.inl ⟨rfl, h⟩⟩

theorem runFrom_run {s : Stage} {tr : List Event} {o : Option (Except RunFailure (List Stage))} :
    (runFrom p s).Run tr o ↔ ∃ r, (runStages p (s.itinerary p.request)).Run tr r ∧
      o = r.map fun r => r.map fun _ => s.itinerary p.request :=
  Program.run_bind_pure

/-- A request that is refused never reaches the device. -/
theorem provision_refused {e : Error} (hv : p.request.validate = .error e) {tr : List Event}
    {o : Option Response} : p.provision.Run tr o ↔ tr = [] ∧ Gives o (p.refusal e) := by
  simp only [Plan.provision, hv]
  exact Procedure.run_log_bind.trans Program.run_pure

theorem provision_some (hv : p.request.validate = .ok ()) {tr : List Event} {resp : Response} :
    p.provision.Run tr (some resp) ↔ ∃ f, Ended p p.stages tr f ∧ resp = p.report f := by
  simp only [Plan.provision, hv, Program.run_bind_some, runFrom_run, Plan.itinerary_init]
  constructor
  · rintro ⟨t, a, u, rfl, ⟨r, hr, ha⟩, h⟩
    cases r with
    | none => cases ha
    | some r =>
      obtain ⟨hp, rfl⟩ | ⟨s, e, hf, rfl⟩ := runStages_some.1 hr
      · cases ha
        obtain ⟨rfl, rfl⟩ := Program.run_pure_some.1 (Procedure.run_log_bind.1 h)
        exact ⟨none, by simpa using hp, rfl⟩
      · cases ha
        obtain ⟨rfl, rfl⟩ := Program.run_pure_some.1 h
        exact ⟨some (s, e), by simpa using hf, rfl⟩
  · rintro ⟨_ | ⟨s, e⟩, hf, rfl⟩
    · exact ⟨tr, .ok p.stages, [], by simp, ⟨some (.ok ()), runStages_some.2 (Or.inl ⟨hf, rfl⟩),
        rfl⟩, Procedure.run_log_bind.2 (Program.run_pure_some.2 ⟨rfl, rfl⟩)⟩
    · exact ⟨tr, .error ⟨s, .context s.title e⟩, [], by simp, ⟨some (.error _),
        runStages_some.2 (Or.inr ⟨s, e, hf, rfl⟩), rfl⟩, Program.run_pure_some.2 ⟨rfl, rfl⟩⟩

theorem provision_none (hv : p.request.validate = .ok ()) {tr : List Event} :
    p.provision.Run tr none ↔ Broken p p.stages tr := by
  simp only [Plan.provision, hv, Program.run_bind, runFrom_run, Plan.itinerary_init]
  constructor
  · rintro (⟨-, r, hr, -⟩ | ⟨t, a, u, rfl, ⟨r, hr, ha⟩, h⟩)
    · exact runStages_none.1 hr.toNone
    · have hu : u = [] := by
        cases a with
        | error f => exact (Program.run_pure.1 h).1
        | ok _ => exact (Program.run_pure.1 (Procedure.run_log_bind.1 h)).1
      rw [hu, List.append_nil]
      exact runStages_none.1 hr.toNone
  · intro h
    exact Or.inl ⟨trivial, none, runStages_none.2 h, rfl⟩

/-- An installation says what its stages may say. -/
theorem spoken_provision {tr : List Event} {o : Option Response} (h : p.provision.Run tr o) :
    Spoken (fun line => ∃ s : Stage, s.Says p (fun _ => True) line) tr := by
  cases hv : p.request.validate with
  | error e =>
    obtain ⟨rfl, -⟩ := (provision_refused hv).1 h
    exact fun _ h => nomatch h
  | ok =>
    obtain ⟨before, after, t, u, -, rfl, hp, rfl | ⟨s, rest, rfl, hs⟩⟩ :=
      (provision_none hv).1 h.toNone
    · rw [List.append_nil]
      exact hp.spoken
    · exact spoken_append.2 ⟨hp.spoken, (Stage.spoken hs).mono fun _ h => ⟨s, h⟩⟩

/-- The runs of an installation never take the wish to wipe the stateful partition back. -/
theorem provision_spoken {tr : List Event} {o : Option Response} (h : p.provision.Run tr o) :
    Spoken (· ≠ Plan.unwipeLine) tr :=
  (spoken_provision h).mono fun _ ⟨_, h⟩ => h.spares.ne_unwipeLine

/-- **Stages in order, each on its own.** A request that is refused never reaches the device.
    Otherwise the stages are run in order, each once at most. The first that fails is the last that
    is run, and the events are those of the stages before it, each to its end, and its own. A stage
    says its own lines only, so nothing of an earlier stage is undone. The report tells which stage
    failed, if one did. -/
theorem provision_run (p : Plan) :
    (∀ e, p.request.validate = .error e → ∀ tr o,
      p.provision.Run tr o ↔ tr = [] ∧ Gives o (p.refusal e)) ∧
    (p.request.validate = .ok () → ∀ tr,
      (∀ resp, p.provision.Run tr (some resp) ↔
        ∃ f, Ended p p.stages tr f ∧ resp = p.report f) ∧
      (p.provision.Run tr none ↔ Broken p p.stages tr)) ∧
    p.stages.Nodup ∧
    (∀ (s : Stage) tr o, (s.execute p).Run tr o → Spoken (s.Says p fun _ => True) tr) ∧
    (∀ tr o, p.provision.Run tr o → Spoken (· ≠ Plan.unwipeLine) tr) ∧
    (∀ e, (p.refusal e).status = .rpcFailed) ∧
    ∀ f, ((p.report f).status = .success ↔ f = none) ∧
      ((p.report f).failedState = none ↔ f = none) ∧ ((p.report f).error = none ↔ f = none) ∧
      ((p.report f).status = .firmwareUpdateFailed ↔ ∃ e, f = some (.updateFirmware, e)) ∧
      ((p.report f).status = .provisioningFailed ↔
        ∃ s e, f = some (s, e) ∧ s ≠ .updateFirmware) ∧
      ∀ s e, f = some (s, e) → (p.report f).failedState = some s.title ∧
        (p.report f).error = some (Error.context s.title e).message := by
  refine ⟨fun e hv tr o => provision_refused hv, fun hv tr => ⟨fun resp => provision_some hv,
    provision_none hv⟩, p.stages_nodup, fun s tr o h => Stage.spoken h,
    fun tr o h => provision_spoken h, fun e => rfl, fun f => ?_⟩
  rcases f with _ | ⟨s, e⟩
  · simp [Plan.report]
  · cases s <;> simp [Plan.report, RunFailure.response, Stage.failureStatus]

/-! ## A device that obeys -/

/-- A device on which every command succeeds. Its state is what it tells of its root, which changes
    when it reboots. -/
def obeys : Answers String
  | .isClosed, root => some (false, root)
  | .current, root => some (some ⟨1, "dut"⟩, root)
  | .install _, root => some (true, root)
  | .now, root => some (⟨0⟩, root)
  | .log _, root | .acquire, root | .release, root | .guard _, root | .unguard, root =>
    some ((), root)
  | .awaitCloseBefore _ _, root => some (some (.ok ()), root)
  | .dialBefore _, root => some (some (.ok ⟨2, "dut"⟩), root)
  | .run _ line _ _, root =>
    let out :=
      if line = "rootdev -s" then root
      else if line = "rootdev -s -d" then "/dev/sda\n"
      else "1"
    some (.ok { stdout := Text.Utf8.ofString out },
      if line = "reboot" then "/dev/sda5\n" else root)
  | _, _ => none

/-- An installation with a package and a reboot. -/
def samplePlan : Plan where
  link := { dut := "dut", cacheAddress := "10.0.0.1:8082" }
  request := { imagePath := "gs://images/r100", dlcIds := ["termina"] }

/-- It carries that installation to its end. -/
theorem provision_obeys : ∃ tr,
    samplePlan.provision.Run tr (some { dut := "dut", status := .success }) ∧ Recalls none tr := by
  have hrun := samplePlan.provision.run_play (f := obeys) (none, "/dev/sda3\n")
  have hm := samplePlan.provision.recalls_play (f := obeys) (none, "/dev/sda3\n") [] trivial
  have hresp : (samplePlan.provision.play obeys (none, "/dev/sda3\n")).2.2 =
      some { dut := "dut", status := .success } := by decide +kernel
  rw [hresp] at hrun
  rw [List.append_nil] at hm
  exact ⟨_, hrun, hm⟩

/-- An installation of a request that cannot be served. -/
def unservable : Plan := { samplePlan with request := default }

theorem provision_run_obeys :
    (∃ e, unservable.request.validate = .error e ∧
      unservable.provision.Run [] (some (unservable.refusal e))) ∧
    samplePlan.request.validate = .ok () ∧
    ∃ tr, samplePlan.provision.Run tr (some { dut := "dut", status := .success }) ∧
      Ended samplePlan samplePlan.stages tr none ∧ Spoken (· ≠ Plan.unwipeLine) tr := by
  have hv : samplePlan.request.validate = .ok () := rfl
  obtain ⟨tr, hrun, -⟩ := provision_obeys
  obtain ⟨-, hserved, -, -, hspoken, -, hreport⟩ := provision_run samplePlan
  obtain ⟨f, hended, hf⟩ := ((hserved hv _).1 _).1 hrun
  obtain rfl := (hreport f).1.1 (congrArg Response.status hf).symm
  have hrefused : unservable.request.validate = .error _ := rfl
  have hrefusal := ((provision_run unservable).1 _ hrefused [] _).2 ⟨rfl, gives_some.2 rfl⟩
  exact ⟨⟨_, hrefused, hrefusal⟩, hv, tr, hrun, hended, hspoken _ _ hrun⟩

end Reimage
