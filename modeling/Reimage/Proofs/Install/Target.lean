/-
  What a run writes to.

  A run writes to the slot that was not booted when it began, however it ends.

  * `runStages_uttered`: the stages after the first say their lines and leave the layout alone;
  * `runStages_init`: in all that follows the probe, the layout that is told is the one it has set;
  * `runFrom_spares`: what is written and mounted in a run.
-/
import Reimage.Proofs.Install.Stages

namespace Reimage

open Plan

variable {p : Plan} {K : Layout → Prop}

theorem Passed.uttered {ss : List Stage} {tr : List Event} (h : Passed p ss tr)
    (hs : Stage.init ∉ ss) (hk : Knows K tr) :
    Uttered (fun line => ∃ s : Stage, s.Says p K line) tr := by
  induction h with
  | nil => exact uttered_nil
  | cons h _ ih =>
    rw [List.mem_cons, not_or] at hs
    rw [knows_append] at hk
    exact uttered_append.2 ⟨(Stage.uttered (Ne.symm hs.1) h hk.1).mono fun _ h => ⟨_, h⟩,
      ih hs.2 hk.2⟩

/-- The stages after the first say their lines, and leave the layout alone. -/
theorem runStages_uttered {ss : List Stage} {tr : List Event}
    {o : Option (Except RunFailure Unit)} (h : (runStages p ss).Run tr o)
    (hs : Stage.init ∉ ss) (hk : Knows K tr) :
    Uttered (fun line => ∃ s : Stage, s.Says p K line) tr := by
  obtain ⟨before, after, t, u, rfl, rfl, hp, hu⟩ := runStages_none.1 h.toNone
  rw [List.mem_append, not_or] at hs
  rw [knows_append] at hk
  refine uttered_append.2 ⟨hp.uttered hs.1 hk.1, ?_⟩
  obtain rfl | ⟨s, rest, rfl, hu⟩ := hu
  · exact uttered_nil
  · rw [List.mem_cons, not_or] at hs
    exact (Stage.uttered (Ne.symm hs.2.1) hu hk.2).mono fun _ h => ⟨s, h⟩

/-- Once the layout was set in the first stage, it is the one that is told. -/
theorem Recalls.knows_after_init {m : Option Layout} {S : String → Prop} {l : Layout}
    {ss : List Stage} {t u v : List Event} {o : Option (Except RunFailure Unit)}
    (hm : Recalls m (t ++ ⟨.setLayout l, ()⟩ :: (u ++ v))) (hu : Uttered S u)
    (hs : Stage.init ∉ ss) (h : (runStages p ss).Run v o) : Knows (· = l) (u ++ v) := by
  -- Nothing sets the layout again, whatever layouts are told.
  have hv := runStages_uttered h hs (knows_true v)
  have huv : Uttered (fun _ => True) (u ++ v) :=
    uttered_append.2 ⟨hu.mono fun _ _ => trivial, hv.mono fun _ _ => trivial⟩
  exact hm.after_set.knows huv

/-- Once the first stage was passed, the layout that is told is the one of its probe. -/
theorem Recalls.knows_after_passed {m : Option Layout} {ss : List Stage} {t v : List Event}
    {outcome : StageOutcome} {o : Option (Except RunFailure Unit)} (hm : Recalls m (t ++ v))
    (h : (Stage.init.execute p).Run t (some (.ok outcome))) (hs : Stage.init ∉ ss)
    (hv : (runStages p ss).Run v o) :
    ∃ a slot l b, t = a ++ ⟨.setLayout l, ()⟩ :: b ∧ Probed a slot l ∧ Knows (· = l) v := by
  obtain ⟨-, hne⟩ | ⟨a, slot, l, b, rfl, -, hprobed, hb⟩ := Stage.init_run (K := fun _ => True) h
  · exact absurd rfl (hne outcome)
  · rw [List.append_assoc, List.cons_append] at hm
    exact ⟨a, slot, l, b, rfl, hprobed, (knows_append.1 (hm.knows_after_init hb hs hv)).2⟩

/-- The lines of the first stage do not depend on a layout. -/
theorem Stage.Says.of_init {K' : Layout → Prop} {line : String} (h : Stage.Says p K .init line) :
    Stage.Says p K' .init line := by
  cases h with
  | bootedRoot => exact .bootedRoot
  | bootDisk => exact .bootDisk
  | wipe h => exact .wipe h

/-- A run of stages begins with one of the first. If anything comes after that, the first was
    passed. -/
theorem runStages_cons {s : Stage} {ss : List Stage} {tr : List Event}
    {o : Option (Except RunFailure Unit)} (h : (runStages p (s :: ss)).Run tr o) :
    ∃ t u r, tr = t ++ u ∧ (s.execute p).Run t r ∧ (runStages p ss).Run u none ∧
      (u = [] ∨ ∃ outcome, r = some (.ok outcome)) := by
  rw [runStages, Procedure.run_log_bind, Program.run_bind] at h
  obtain ⟨-, h⟩ | ⟨t, e | outcome, u, rfl, h, h'⟩ := h
  · exact ⟨tr, [], none, by simp, h, .cut _, Or.inl rfl⟩
  · obtain ⟨rfl, -⟩ := Program.run_pure.1 (Procedure.run_log_bind.1 h')
    exact ⟨t, [], some (.error e), rfl, h, .cut _, Or.inl rfl⟩
  · exact ⟨t, u, some (.ok outcome), rfl, h, (Procedure.run_log_bind.1 h').toNone,
      Or.inr ⟨outcome, rfl⟩⟩

/-- In all that follows the probe, the layout that is told is the one it has set. -/
theorem runStages_init {m : Option Layout} {ss : List Stage} {tr : List Event}
    {o : Option (Except RunFailure Unit)} (h : (runStages p (.init :: ss)).Run tr o)
    (hs : Stage.init ∉ ss) (hm : Recalls m tr) :
    Uttered (Stage.Says p K .init) tr ∨
      ∃ t slot l u, tr = t ++ ⟨.setLayout l, ()⟩ :: u ∧ Uttered (Stage.Says p K .init) t ∧
        Probed t slot l ∧ Knows (· = l) u ∧
        Uttered (fun line => ∃ s : Stage, s.Says p (· = l) line) u := by
  obtain ⟨t, v, r, rfl, h, h', hv⟩ := runStages_cons h
  obtain ⟨ht, hne⟩ | ⟨t, slot, l, u, rfl, ht, hp, hu⟩ := Stage.init_run (K := K) h
  · obtain rfl | ⟨outcome, rfl⟩ := hv
    · exact Or.inl (by simpa using ht)
    · exact absurd rfl (hne outcome)
  · rw [List.append_assoc, List.cons_append] at hm ⊢
    have hk := hm.knows_after_init hu hs h'
    refine Or.inr ⟨t, slot, l, u ++ v, rfl, ht, hp, hk, uttered_append.2 ⟨?_, ?_⟩⟩
    · exact hu.mono fun _ h => ⟨.init, h.of_init⟩
    · exact runStages_uttered h' hs (knows_append.1 hk).2

/-! ## What is written and mounted -/

/-- A download that is not kept as a file is the kernel or the root that is asked for, and it is
    written to the partition of `l` for it that is not booted. What is mounted is the root of
    these. -/
def Plan.Targets (p : Plan) (l : Layout) (line : String) : Prop :=
  ("curl ".toList <+: line.toList → p.Writes l line) ∧
  ("tmpmnt=".toList <+: line.toList → line = postInstallLine l.inactiveRoot)

theorem Stage.Says.targets {s : Stage} {l : Layout} {line : String}
    (h : s.Says p (· = l) line) : p.Targets l line := by
  refine ⟨fun hc => ?_, fun hm => ?_⟩
  · obtain ⟨l, rfl, hl⟩ := h.spares.of_curl hc
    exact hl
  · obtain ⟨l, rfl, hl⟩ := h.spares.of_mount hm
    exact hl

/-- **The booted slot is never written.** The layout of a probe that succeeds has the numbers of the
    booted slot and of the other one, whatever the device has told of its root and its disk. In a
    run from the first stage, however it ends, nothing but the probe sets the layout; nothing is
    written or mounted before, and after it only partitions that are not booted. -/
theorem runFrom_spares (p : Plan) :
    (∀ tr l, p.probePartitions.Run tr (some (.ok l)) →
      ∃ slot, Probed tr slot l ∧ l.Numbered slot ∧ l.Apart) ∧
    ∀ m tr o, (runFrom p .init).Run tr o → Recalls m tr →
      ((∀ e ∈ tr, ∀ l, e.question ≠ .setLayout l) ∧
        Spoken (Stage.Says p (fun _ => False) .init) tr) ∨
      ∃ t slot l u, tr = t ++ ⟨.setLayout l, ()⟩ :: u ∧
        Probed t slot l ∧ l.Numbered slot ∧ l.Apart ∧
        (∀ e ∈ t ++ u, ∀ l', e.question ≠ .setLayout l') ∧ Knows (· = l) u ∧
        Spoken (fun line => p.Targets l line ∧ ∃ s : Stage, s.Says p (· = l) line) tr := by
  refine ⟨fun tr l h => ?_, fun m tr o h hm => ?_⟩
  · obtain ⟨-, hne⟩ | ⟨t, slot, l', rfl, -, hp, hl⟩ := probePartitions_run (K := fun _ => True) h
    · exact absurd rfl (hne l)
    · cases (gives_some.1 hl)
      exact ⟨slot, hp.append_left, hp.numbered, hp.numbered.apart⟩
  · obtain ⟨r, hrun, -⟩ := runFrom_run.1 h
    rw [itinerary_init] at hrun
    obtain hu | ⟨t, slot, l, u, rfl, ht, hp, hk, hu⟩ := runStages_init hrun p.init_notMem_tail hm
    · exact Or.inl ⟨hu.ne_setLayout, hu.spoken⟩
    · refine Or.inr ⟨t, slot, l, u, rfl, hp, hp.numbered, hp.numbered.apart, ?_, hk, ?_⟩
      · exact List.forall_mem_append.2 ⟨ht.ne_setLayout, hu.ne_setLayout⟩
      · refine spoken_append.2 ⟨ht.spoken.mono fun line h => ?_,
          List.forall_mem_cons.2 ⟨trivial, hu.spoken.mono fun line h => ?_⟩⟩
        · exact ⟨h.of_init.targets, .init, h.of_init⟩
        · obtain ⟨s, hs⟩ := h
          exact ⟨hs.targets, s, hs⟩

/-- The layout of a disk that is booted from slot A. -/
def bootedA : Layout := Layout.ofSlot .a "/dev/sda3" "/dev/sda"

/-- A device that obeys tells of that layout when it is probed. -/
theorem probePartitions_obeys : ∃ tr, samplePlan.probePartitions.Run tr (some (.ok bootedA)) :=
  ⟨_, Procedure.run_procedure.1 (Procedure.run_play_ok (f := obeys)
    (p := samplePlan.probePartitions.procedure) (s := (none, "/dev/sda3\n")) (by decide +kernel))⟩

/-- The layout is set and asked for in an installation on it. -/
theorem runFrom_obeys : ∃ tr,
    (runFrom samplePlan .init).Run tr (some (.ok samplePlan.stages)) ∧ Recalls none tr ∧
      remembered none tr = some bootedA ∧ ∃ e ∈ tr, e.question = .layout := by
  have hrun := Procedure.run_play_ok (f := obeys) (p := runFrom samplePlan .init)
    (s := (none, "/dev/sda3\n")) (a := samplePlan.stages) (by decide +kernel)
  have hm := (runFrom samplePlan .init).recalls_play (f := obeys) (none, "/dev/sda3\n") [] trivial
  have hset : remembered none ((runFrom samplePlan .init).play obeys (none, "/dev/sda3\n")).1 =
      some bootedA := by decide +kernel
  -- two questions cannot be compared, but of what kind they are can
  have hasked : ∃ e ∈ ((runFrom samplePlan .init).play obeys (none, "/dev/sda3\n")).1,
      e.question.ctorIdx = Ask.layout.ctorIdx := by decide +kernel
  rw [List.append_nil] at hm
  obtain ⟨⟨q, a⟩, he, hq⟩ := hasked
  exact ⟨_, hrun, hm, hset, ⟨q, a⟩, he, by cases q <;> first | rfl | cases hq⟩

theorem runFrom_spares_obeys :
    (∃ tr, samplePlan.probePartitions.Run tr (some (.ok bootedA)) ∧
      ∃ slot, Probed tr slot bootedA ∧ bootedA.Numbered slot ∧ bootedA.Apart) ∧
    ∃ tr, (runFrom samplePlan .init).Run tr (some (.ok samplePlan.stages)) ∧ Recalls none tr ∧
      Spoken (fun line => samplePlan.Targets bootedA line ∧
        ∃ s : Stage, s.Says samplePlan (· = bootedA) line) tr := by
  obtain ⟨probe, hprobe⟩ := probePartitions_obeys
  obtain ⟨tr, hrun, hm, hset, -⟩ := runFrom_obeys
  refine ⟨⟨probe, hprobe, (runFrom_spares samplePlan).1 _ _ hprobe⟩, tr, hrun, hm, ?_⟩
  obtain ⟨hnone, -⟩ | ⟨t, slot, l, u, rfl, -, -, -, hother, -, hspoken⟩ :=
    (runFrom_spares samplePlan).2 none tr _ hrun hm
  · rw [remembered_eq hnone] at hset
    cases hset
  · obtain ⟨-, hafter⟩ := List.forall_mem_append.1 hother
    rw [remembered_append, remembered, remembered_eq hafter] at hset
    cases hset
    exact hspoken

end Reimage
