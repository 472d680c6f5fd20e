/-
  Which errors a run fails for.

  The artifacts of an installation are fetched from places that are read anew when they are needed.
  If all of them have an address, a run that fails blames no source, as long as nothing it was
  answered does.

  * `Program.Fair`: a step that fails blames no source;
  * `runStages_blameless`: so it is for all stages, and with it for a run.
-/
import Reimage.Proofs.Install.Stages
import Reimage.Proofs.Yields

namespace Reimage

variable {α β : Type} {p : Plan}

/-! ## Errors that blame a source -/

mutual

/-- A source cannot be understood, according to an error or to one of those it was made from. -/
def Error.blamesSource : Error → Bool
  | .invalidSource _ => true
  | .context _ source => source.blamesSource
  | .revert reason failure => reason.blamesSource || failure.blamesSource
  | .multiple errors => anyBlamesSource errors
  | _ => false

def Error.anyBlamesSource : List Error → Bool
  | [] => false
  | e :: es => e.blamesSource || anyBlamesSource es

end

/-- No source is blamed. -/
def Blameless (e : Error) : Prop := e.blamesSource = false

instance : DecidablePred Blameless := fun e => inferInstanceAs (Decidable (e.blamesSource = false))

/-- The error that a question was answered with. -/
def Ask.failure? : (q : Ask) → q.Answer → Option Error
  | .dial, .error e => some e
  | .dialBefore _, some (.error e) => some e
  | .awaitClose _, .error e => some e
  | .awaitCloseBefore _ _, some (.error e) => some e
  | .run _ _ _ _, .error e => some e
  | .start _ _, .error e => some e
  | _, _ => none

/-- The surroundings blame no source. -/
def Event.Blameless (e : Event) : Prop :=
  ∀ f ∈ e.question.failure? e.answer, Reimage.Blameless f

instance : DecidablePred Event.Blameless := fun _ => Option.decidableForallMem _

/-- If a step fails, it blames no source as long as its surroundings do not. -/
abbrev Program.Fair {Q : Type} {A : Q → Type} [Questions Q A] (t : Program Q A (Result α)) : Prop :=
  t.Yields Event.Blameless (Result.ErrorIn Blameless)

namespace Link

variable {l : Link}

theorem fair_install (c : Connection) : (l.install c).Fair :=
  .after fun done => by
    cases done
    · exact .after fun _ => .pure rfl
    · exact .pure trivial

/-- What a question is answered with blames no source, if the surroundings do not. -/
theorem fair_ask (q : Ask) {F : q.Answer → Prop} (h : ∀ a, Event.Blameless ⟨q, a⟩ → F a)
    (hq : ∀ a, q.record a = [⟨q, a⟩] := by exact fun _ => rfl) :
    (Task.ask q).Yields Event.Blameless F := by
  refine Task.yields_ask fun a ha => h a (ha _ ?_)
  rw [hq]
  exact List.mem_singleton_self _

theorem fair_connection : l.connection.Fair := by
  refine .after fun closed => ?_
  split
  · exact .pure rfl
  refine .after fun c => ?_
  split
  · exact .pure trivial
  refine .after fun _ => .after fun c => ?_
  split
  · exact .after fun _ => .pure trivial
  have hdial : (Task.ask .dial).Fair := by
    refine fair_ask .dial fun dialed h => ?_
    cases dialed with
    | ok => trivial
    | error e => exact h e rfl
  refine hdial.bind fun dialed h => ?_
  cases dialed with
  | error e => exact .after fun _ => .pure h
  | ok c => exact (fair_install c).bind fun _ h => .after fun _ => .pure h.map

/-- A command that fails on the device is its own error. -/
theorem fair_runCommand {command : String} {args : List String} {stdin : Option (List UInt8)}
    {mode : StderrMode} : (l.runCommand command args stdin mode).Fair := by
  refine .map (F := fun _ => True) (.of_forall fun _ => trivial) fun r _ => ?_
  cases r with
  | notStarted => rfl
  | finished output =>
    rw [ExecResult.intoStdout]
    split
    · trivial
    · rfl

theorem fair_pathExists {path : String} : (l.pathExists path).Fair :=
  fair_runCommand.map fun _ h => h.map

theorem fair_redial {timeout : Duration} {deadline : Instant} :
    (l.redial timeout deadline).Fair := by
  have hdial : (Task.ask (.dialBefore deadline)).Yields Event.Blameless
      fun dialed => ∀ e, dialed = some (.error e) → Blameless e := by
    refine fair_ask (.dialBefore deadline) fun dialed h e he => ?_
    subst he
    exact h e rfl
  have hend {result : Result Unit} (h : result.ErrorIn Blameless) :
      Program.Fair (Task.ask .release >>= fun _ => pure result) := .after fun _ => .pure h
  refine .after fun _ => hdial.bind fun dialed h => ?_
  match dialed with
  | none => exact .after fun _ => .bind (.pure (F := Result.ErrorIn Blameless) rfl) fun _ => hend
  | some (.error e) => exact .bind (.pure (F := Result.ErrorIn Blameless) (h e rfl)) fun _ => hend
  | some (.ok c) =>
    refine .bind (Task.yields_andThen (fair_install c) fun _ => ?_) fun _ => hend
    exact .after fun _ => .pure trivial

theorem fair_restart {args : List String} {timeout : Duration} :
    (l.restart args timeout).Fair := by
  refine .after fun deadline => Task.yields_andThen fair_connection fun old => ?_
  refine Task.yields_andThen fair_runCommand fun output => .after fun _ => ?_
  have hdrop : (Task.ask (.awaitCloseBefore old deadline)).Yields Event.Blameless
      fun dropped => ∀ e, dropped = some (.error e) → Blameless e := by
    refine fair_ask (.awaitCloseBefore old deadline) fun dropped h e he => ?_
    subst he
    exact h e rfl
  refine hdrop.bind fun dropped h => ?_
  match dropped with
  | none => exact .after fun _ => .pure rfl
  | some (.error e) => exact .pure (h e rfl)
  | some (.ok ()) => exact Task.yields_andThen fair_redial fun _ => .pure trivial

end Link

/-! ## The steps of a plan -/

theorem Slot.ofRoot_blameless (root : String) : (Slot.ofRoot root).ErrorIn Blameless := by
  rw [Slot.ofRoot]
  split
  · rfl
  · rw [Slot.ofRootNumber]
    split
    · trivial
    · split
      · trivial
      · rfl

/-- The name of a package's image below the image directory. -/
def Plan.dlcArtifact (id : String) : String :=
  "dlc/" ++ id ++ "/" ++ dlcPackage ++ "/" ++ dlcImage

/-- All that an installation fetches. -/
def Plan.artifacts (p : Plan) : List String :=
  [kernelImage, rootImage, statefulImage] ++ p.request.dlcIds.map dlcArtifact

/-- Every artifact has an address. -/
def Plan.Served (p : Plan) : Prop := ∀ a ∈ p.artifacts, ∃ url, p.artifactUrl a = .ok url

namespace Plan

theorem fair_run {command : String} {args : List String} : (p.run command args).Fair :=
  Link.fair_runCommand.map fun _ h => h.map

/-- What is added to an error blames no source. -/
theorem blameless_of_within {r : Result α} {text : String} {e : Error}
    (h : r.ErrorIn Blameless) (he : r.within text = .error e) : Blameless e := by
  have hr : (r.within text).ErrorIn Blameless := h.within fun _ h => h
  rwa [he] at hr

theorem fair_within {text : String} {t : Task (Result α)} (h : t.Fair) :
    Program.Fair (t >>= fun r => pure (r.within text)) :=
  h.map fun _ h => h.within fun _ h => h

theorem fair_layout : layout.Fair :=
  .after fun l => by
    cases l
    · exact .pure rfl
    · exact .pure trivial

theorem fair_startSlot : startSlot.Fair :=
  fair_layout.map fun _ h => h.bind fun _ => Slot.ofRoot_blameless _

theorem fair_targetSlot : targetSlot.Fair :=
  fair_layout.map fun _ h => h.bind fun _ => Slot.ofRoot_blameless _

theorem fair_bootedRoot : p.bootedRoot.Fair :=
  Link.fair_runCommand.map fun _ h => (h.within fun _ h => h).map

theorem fair_bootDisk : p.bootDisk.Fair :=
  Link.fair_runCommand.map fun _ h => (h.within fun _ h => h).map

theorem fair_probePartitions : p.probePartitions.Fair := by
  refine Task.yields_andThen fair_bootedRoot fun root => ?_
  refine Task.yields_andThen fair_bootDisk fun disk => ?_
  split
  · exact .pure (blameless_of_within (Slot.ofRoot_blameless root) ‹_›)
  · exact .after fun _ => .after fun _ => .pure trivial

theorem fair_stopSystemDaemons : p.stopSystemDaemons.Fair := by
  refine fair_run.bind fun stopped h => ?_
  split
  · exact .pure (blameless_of_within h ‹_›)
  · exact fair_within fair_run

theorem fair_installStateful (h : p.Served) : p.installStateful.Fair := by
  obtain ⟨url, hurl⟩ := h statefulImage (by simp [artifacts])
  simp only [installStateful, hurl, Result.within]
  refine fair_run.bind fun unpacked h => ?_
  cases unpacked with
  | ok => exact .pure trivial
  | error e =>
    refine .after fun cleaned => ?_
    cases cleaned with
    | ok => exact .pure h
    | error => exact .after fun _ => .pure h

theorem fair_installZippedImage {image output : String}
    (h : ∃ url, p.artifactUrl image = .ok url) : (p.installZippedImage image output).Fair := by
  obtain ⟨url, hurl⟩ := h
  simp only [installZippedImage, hurl, Result.within]
  exact fair_run

theorem joinWrites_blameless {kernel root : Result Unit} (hk : kernel.ErrorIn Blameless)
    (hr : root.ErrorIn Blameless) : (joinWrites kernel root).ErrorIn Blameless := by
  cases kernel <;> cases root <;>
    simp_all [joinWrites, Result.within, Result.ErrorIn, Blameless, Error.blamesSource,
      Error.anyBlamesSource]

theorem fair_installPartitions (h : p.Served) : p.installPartitions.Fair := by
  refine Procedure.yields_andThen (Task.yields_procedure fair_layout) fun l => ?_
  refine (Procedure.yields_both (fair_installZippedImage ?_) (fair_installZippedImage ?_)).map
    fun _ h => joinWrites_blameless h.1 h.2
  · exact h kernelImage (by simp [artifacts])
  · exact h rootImage (by simp [artifacts])

theorem fair_clearDlcArtifacts : p.clearDlcArtifacts.Fair := by
  refine Link.fair_pathExists.bind fun found h => ?_
  split
  · exact .pure (blameless_of_within h ‹_›)
  · exact .pure rfl
  · refine Task.yields_andThen fair_startSlot fun slot => ?_
    refine .after fun stopped => ?_
    -- Whether `dlcservice` was stopped decides only what is logged before the rest.
    obtain e | _ := stopped
    on_goal 1 => refine .after fun _ => ?_
    all_goals
      refine .after fun _ => fair_run.bind fun cleared h => .after fun _ => .after fun started => ?_
      have hcleared : (cleared.within "failed remove inactive verified DLCs").ErrorIn Blameless :=
        h.within fun _ h => h
      cases started
      · exact .after fun _ => .pure hcleared
      · exact .pure hcleared

theorem fair_isDlcVerified {id : String} {slot : Slot} : (p.isDlcVerified id slot).Fair :=
  fair_within Link.fair_pathExists

theorem fair_transferDlc (h : p.Served) {id : String} {slot : Slot}
    (hid : id ∈ p.request.dlcIds) : (p.transferDlc id slot).Fair := by
  obtain ⟨url, hurl⟩ := h (dlcArtifact id)
    (List.mem_append_right _ (List.mem_map_of_mem hid))
  rw [dlcArtifact] at hurl
  simp only [transferDlc, hurl, Result.within]
  refine fair_run.bind fun sent h => ?_
  split
  · exact .pure (blameless_of_within h ‹_›)
  · exact .after fun _ => .pure trivial

theorem fair_installDlc (h : p.Served) {id : String} {slot : Slot}
    (hid : id ∈ p.request.dlcIds) : (p.installDlc id slot).Fair := by
  refine fair_isDlcVerified.bind fun verified hv => ?_
  split
  · exact .pure (blameless_of_within hv ‹_›)
  · exact .after fun _ => .pure trivial
  · exact (fair_transferDlc h hid).map fun _ h => h.map

theorem fair_installDlcsInto (h : p.Served) {slot : Slot} {ids : List String} {n : Nat}
    (hids : ids ⊆ p.request.dlcIds) : (p.installDlcsInto slot n ids).Fair := by
  induction ids generalizing n with
  | nil => exact .pure trivial
  | cons id ids ih =>
    rw [List.cons_subset] at hids
    exact Task.yields_andThen (fair_installDlc h hids.1) fun _ => ih hids.2

theorem fair_installDlcs (h : p.Served) : p.installDlcs.Fair :=
  Task.yields_andThen fair_startSlot fun _ => fair_installDlcsInto h (List.Subset.refl _)

theorem fair_askStable {deadline : Instant} : (p.askStable deadline).Fair := by
  refine .after fun status => ?_
  split
  · exact .pure trivial
  · refine .after fun next => ?_
    split
    · exact .pure rfl
    · exact .pure trivial

theorem fair_pollStable {deadline : Instant} {n : Nat} : (p.pollStable deadline n).Fair := by
  induction n with
  | zero =>
    refine Task.yields_andThen fair_askStable fun next => ?_
    cases next
    · exact .pure trivial
    · exact .pure rfl
  | succ n ih =>
    refine Task.yields_andThen fair_askStable fun next => ?_
    cases next
    · exact .pure trivial
    · exact .after fun _ => ih

theorem fair_crossystem {key : String} : (p.crossystem key).Fair :=
  Link.fair_runCommand.map fun _ h => (h.within fun _ h => h).map

theorem fair_checkFirmwareSlot : p.checkFirmwareSlot.Fair := by
  refine Task.yields_andThen fair_crossystem fun active => ?_
  refine Task.yields_andThen fair_crossystem fun next => ?_
  split
  · exact .pure trivial
  · exact .after fun _ => .pure trivial

theorem fair_verifyFirmware {expected : Option String} : (p.verifyFirmware expected).Fair := by
  have hslot : (p.verifyFirmwareSlot expected).Fair := by
    cases expected with
    | none => exact .pure trivial
    | some _ =>
      refine Task.yields_andThen fair_crossystem fun active => ?_
      split
      · exact .pure trivial
      · exact .pure rfl
  refine Task.yields_andThen hslot fun _ => Task.yields_andThen fair_crossystem fun result => ?_
  split
  · exact .pure rfl
  · exact .pure trivial

theorem fair_verifyActiveRoot : p.verifyActiveRoot.Fair := by
  refine Task.yields_andThen fair_targetSlot fun expected => ?_
  refine Task.yields_andThen fair_bootedRoot fun root => ?_
  have hslot := Slot.ofRoot_blameless root
  split
  · rename_i e h
    rw [h] at hslot
    exact .pure hslot
  · split
    · exact .pure trivial
    · exact .pure rfl

theorem fair_verifyDlcsIn {slot : Slot} {ids : List String} : (p.verifyDlcsIn slot ids).Fair := by
  induction ids with
  | nil => exact .pure trivial
  | cons id ids ih =>
    refine Task.yields_andThen fair_isDlcVerified fun verified => ?_
    split
    · exact ih
    · exact .pure rfl

end Plan

/-! ## Commands, chains and stages -/

theorem Command.fair_kept {c : Command} {t : Task (Result α)} (h : t.Fair) :
    (c.kept t.procedure).Fair :=
  (Task.yields_procedure h).map fun _ h => h.map

theorem Command.fair_execute (h : p.Served) (c : Command) : (c.execute p).Fair := by
  cases c with
  | probePartitions => exact fair_kept Plan.fair_probePartitions
  | wipeStateful => exact fair_kept (Plan.fair_within Plan.fair_run)
  | installPartitions => exact (Plan.fair_installPartitions h).map fun _ h => h.map
  | stopSystemDaemons => exact fair_kept Plan.fair_stopSystemDaemons
  | clearDlcArtifacts => exact fair_kept Plan.fair_clearDlcArtifacts
  | installStateful => exact fair_kept (Plan.fair_installStateful h)
  | installDlcs => exact fair_kept (Plan.fair_installDlcs h)
  | waitForStabilize => exact fair_kept (.after fun _ => Plan.fair_pollStable)
  | runFirmwareUpdater => exact fair_kept (Link.fair_runCommand.map fun _ h => h.map)
  | checkFirmwareSlot =>
    exact (Task.yields_procedure Plan.fair_checkFirmwareSlot).map fun _ h => h.map
  | reboot => exact fair_kept (Link.fair_restart.map fun _ h => h.map)
  | verifyFirmware => exact fair_kept Plan.fair_verifyFirmware
  | postInstall => exact fair_kept (Task.yields_andThen Plan.fair_layout fun _ => Plan.fair_run)
  | clearTpm => exact fair_kept Plan.fair_run
  | verifyActiveRoot => exact fair_kept Plan.fair_verifyActiveRoot
  | verifyDlcs =>
    exact fair_kept (Task.yields_andThen Plan.fair_targetSlot fun _ => Plan.fair_verifyDlcsIn)

theorem Command.fair_revert (c : Command) : (c.revert p).Fair := by
  cases c with
  | wipeStateful | installStateful =>
    exact Task.yields_procedure (Plan.fair_within Plan.fair_run)
  | postInstall =>
    refine Task.yields_procedure (Task.yields_andThen Plan.fair_layout fun _ => ?_)
    exact Plan.fair_within Plan.fair_run
  | clearTpm => exact Task.yields_procedure Plan.fair_run
  | _ => exact .pure trivial

theorem Command.fair_executeAlone (h : p.Served) (c : Command) : (c.executeAlone p).Fair :=
  (c.fair_execute h).map fun _ h => h.within fun _ h => h

theorem rollback_blameless {title : String} {reason : Error} (h : Blameless reason)
    (cs : List Command) : (rollback p title reason cs).Yields Event.Blameless Blameless := by
  induction cs with
  | nil => exact .pure h
  | cons c cs ih =>
    refine .after fun _ => c.fair_revert.bind fun reverted hr => ?_
    cases reverted with
    | ok => exact ih
    | error f => exact .pure (by simpa [Blameless, Error.blamesSource] using ⟨h, hr⟩)

theorem fair_runChainAfter (h : p.Served) {title : String} (executed cs : List Command) :
    (runChainAfter p title executed cs).Fair := by
  induction cs generalizing executed with
  | nil => exact .pure trivial
  | cons c cs ih =>
    refine (c.fair_execute h).bind fun done hd => ?_
    cases done with
    | ok c => exact ih _
    | error e =>
      have hreason : Blameless (.context c.failureText e) := hd
      exact (rollback_blameless hreason executed).map fun _ h => h

theorem Stage.fair_bootFirmware (h : p.Served) {target : Option String} :
    (bootFirmware p target).Fair := by
  have hv := (Command.verifyFirmware target).fair_executeAlone h
  cases target with
  | none => exact .after fun _ => hv.map fun _ h => h.map
  | some target =>
    refine ((Command.reboot p.firmwareRebootTimeout).fair_executeAlone h).bind fun done hd => ?_
    cases done with
    | error e => exact .pure hd
    | ok => exact hv.map fun _ h => h.map

theorem Stage.fair_execute (h : p.Served) (s : Stage) : (s.execute p).Fair := by
  cases s with
  | updateFirmware =>
    rw [execute, runFirmware]
    split
    · exact .pure trivial
    refine Procedure.yields_andThen (Task.yields_procedure (Plan.fair_within Link.fair_pathExists))
      fun found => ?_
    split
    · exact .pure trivial
    refine Procedure.yields_andThen (fair_runChainAfter h _ _) fun executed => ?_
    exact (fair_bootFirmware h).map fun _ h => h.map
  | _ => exact (fair_runChainAfter h _ _).map fun _ h => h.map

/-- The reason for which a run stopped, if it did, blames no source. -/
def RunFailure.Blameless (r : Except RunFailure α) : Prop :=
  ∀ f, r = .error f → Reimage.Blameless f.error

theorem runStages_blameless (h : p.Served) (ss : List Stage) :
    (runStages p ss).Yields Event.Blameless RunFailure.Blameless := by
  induction ss with
  | nil => exact .pure nofun
  | cons s ss ih =>
    refine .after fun _ => (s.fair_execute h).bind fun outcome ho => ?_
    cases outcome with
    | ok => exact .after fun _ => ih
    | error e =>
      refine .after fun _ => .pure ?_
      rintro _ ⟨⟩
      exact ho

/-- A run blames no source if every artifact has an address. -/
theorem runFrom_blameless (h : p.Served) (s : Stage) :
    (runFrom p s).Yields Event.Blameless RunFailure.Blameless :=
  (runStages_blameless h _).map fun
    | .ok _, _ => nofun
    | .error f, h => fun
      | _, rfl => h f rfl

end Reimage
