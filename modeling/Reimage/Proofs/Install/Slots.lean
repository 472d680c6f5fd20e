/-
  The slot that a run installs to is the slot that it verifies.

  Packages go to the slot that is not the booted one. What is verified is the slot of the root that
  was not booted. The one slot is read off the name that the device gave to its root, the other off
  a name that was put together from the disk.

  * `Layout.agrees_ofSlot`: in the layout of a booted root, both are the same slot;
  * `Plan.Settled`: as long as that layout is told, every step that needs a slot finds it, and goes
    on as if it had been handed that slot;
  * `runFrom_slots`: so it is in all that follows the probe in a run from the first stage, and
    before that no step needs a slot.
-/
import Reimage.Proofs.Install.Packages
import Reimage.Proofs.Install.Target

namespace Reimage

open Plan

variable {p : Plan} {l : Layout} {s : Slot} {α β : Type}

/-! ## The two slots of a layout -/

/-- The booted root is one of slot `s`, and the root that was not booted is one of the other. -/
structure Layout.Agrees (l : Layout) (s : Slot) : Prop where
  activeRoot : Slot.ofRoot l.activeRoot = .ok s
  inactiveRoot : Slot.ofRoot l.inactiveRoot = .ok s.other
  other_ne : s.other ≠ s
  rootNumber_ne : s.other.rootNumber ≠ s.rootNumber

/-- Both roots of a layout are read back as the slots that they were named for. -/
theorem Layout.agrees_ofSlot {root : String} (h : Slot.ofRoot root = .ok s) (disk : String) :
    (ofSlot s root disk).Agrees s where
  activeRoot := by
    rw [ofSlot_activeRoot]
    exact (Slot.ofRoot_trim root s).2 h
  inactiveRoot := by rw [ofSlot_inactiveRoot, ofRoot_rootDevice]
  other_ne := by cases s <;> decide
  rootNumber_ne := by cases s <;> decide

theorem bootedA_agrees : bootedA.Agrees .a :=
  Layout.agrees_ofSlot (Slot.ofRoot_eq_ok.2 (by decide)) "/dev/sda"

theorem Probed.agrees {tr : List Event} (h : Probed tr s l) : l.Agrees s := by
  obtain ⟨root, disk, -, -, hs, rfl⟩ := h
  exact Layout.agrees_ofSlot hs disk

/-! ## A layout that is remembered -/

/-- Whenever the layout is asked for, it is told as `l`. -/
def Remembers (l : Layout) (tr : List Event) : Prop :=
  ∀ told, (⟨.layout, told⟩ : Event) ∈ tr → told = some l

theorem Remembers.mono {tr u : List Event} (h : Remembers l tr) (hu : ∀ e ∈ u, e ∈ tr) :
    Remembers l u := fun told htold => h told (hu _ htold)

/-- As long as nothing sets the layout, it is told as it was. -/
theorem Recalls.remembers {tr : List Event} (h : Recalls (some l) tr)
    (hset : ∀ e ∈ tr, ∀ l', e.question ≠ .setLayout l') : Remembers l tr := by
  induction tr with
  | nil => exact fun _ h => nomatch h
  | cons e tr ih =>
    obtain ⟨hne, hrest⟩ := List.forall_mem_cons.1 hset
    intro told htold
    obtain ⟨q, a⟩ := e
    cases q
    case layout =>
      obtain ⟨ha, h⟩ := h
      rcases List.mem_cons.1 htold with heq | htold
      · cases heq
        exact ha
      · exact ih h hrest told htold
    case setLayout l' => exact absurd rfl (hne l')
    all_goals
      rcases List.mem_cons.1 htold with heq | htold
      · cases heq
      · exact ih h hrest told htold

/-! ## Looking a slot up -/

/-- A question for the layout gave `a`, or nobody waited for it. -/
def Lookup (l : Layout) (tr : List Event) (o : Option (Result α)) (a : α) : Prop :=
  (tr = [] ∧ o = none) ∨ (tr = [⟨.layout, some l⟩] ∧ Gives o (.ok a))

/-- The run is one of `t`, but for a question for the layout that may come in between. -/
def Informed (l : Layout) (t : Task α) (tr : List Event) (o : Option α) : Prop :=
  ∃ u v, (tr = u ++ v ∨ tr = u ++ ⟨.layout, some l⟩ :: v) ∧ t.Run (u ++ v) o

theorem Informed.after {t : Task (Result α)} {f : α → Task (Result β)} {a : α}
    {u v : List Event} {o : Option (Result β)} (h : t.Run u (some (.ok a)))
    (h' : Informed l (f a) v o) : Informed l (t.andThen f) (u ++ v) o := by
  obtain ⟨x, y, hv, hrun⟩ := h'
  refine ⟨u ++ x, y, ?_, ?_⟩
  · rw [List.append_assoc, List.append_assoc]
    exact hv.imp (congrArg (u ++ ·)) (congrArg (u ++ ·))
  · rw [List.append_assoc]
    exact Task.run_andThen.2 (Or.inr (Or.inr ⟨u, a, x ++ y, rfl, h, hrun⟩))

namespace Plan

variable {tr : List Event}

/-- What a run makes of the layout that it is told. -/
def layoutOf : Option Layout → Result Layout
  | some l => .ok l
  | none => .error (.validation "partition layout has not been probed")

/-- Whatever is told, one question is asked. -/
theorem layout_run_some {r : Result Layout} :
    layout.Run tr (some r) ↔ ∃ told, tr = [⟨.layout, told⟩] ∧ r = layoutOf told := by
  constructor
  · intro h
    obtain ⟨told, u, rfl, h₁⟩ := Task.run_ask_bind_some.1 h
    cases told with
    | none | some =>
      obtain ⟨rfl, rfl⟩ := Program.run_pure_some.1 h₁
      exact ⟨_, rfl, rfl⟩
  · rintro ⟨told, rfl, rfl⟩
    refine Task.run_ask_bind_some.2 ⟨told, [], rfl, ?_⟩
    cases told with
    | none | some => exact Program.run_pure_some.2 ⟨rfl, rfl⟩

/-- The layout is looked up by one question. -/
theorem layout_run {o : Option (Result Layout)} (hl : Remembers l tr) :
    layout.Run tr o ↔ Lookup l tr o l := by
  constructor
  · intro h
    obtain ⟨rfl, h₁⟩ | ⟨t, told, u, rfl, h₁, h₂⟩ := Program.run_bind.1 h
    · obtain ⟨-, rfl⟩ | ⟨told, rfl, -⟩ := Task.run_ask h₁
      · exact Or.inl ⟨rfl, rfl⟩
      · have htold : told = some l := hl told (List.mem_singleton.2 rfl)
        subst htold
        exact Or.inr ⟨rfl, Or.inl rfl⟩
    · cases Task.run_ask_some.1 h₁
      have htold : told = some l := hl told (List.mem_append_left _ (List.mem_singleton.2 rfl))
      subst htold
      obtain ⟨rfl, ho⟩ := Program.run_pure.1 h₂
      exact Or.inr ⟨rfl, ho⟩
  · rintro (⟨rfl, rfl⟩ | ⟨rfl, ho⟩)
    · exact .cut _
    · exact Program.run_bind.2 (Or.inr ⟨_, some l, [], rfl, Task.run_ask_some.2 rfl,
        Program.run_pure.2 ⟨rfl, ho⟩⟩)

/-- What is computed from the layout is looked up like the layout. -/
theorem lookup_run {f : Result Layout → Result α} {a : α} {o : Option (Result α)}
    (hl : Remembers l tr) (hf : f (.ok l) = .ok a) :
    Program.Run (layout >>= fun r => pure (f r)) tr o ↔ Lookup l tr o a := by
  rw [Program.run_bind_pure]
  constructor
  · rintro ⟨r, h, rfl⟩
    obtain ⟨rfl, rfl⟩ | ⟨rfl, rfl | rfl⟩ := (layout_run hl).1 h
    · exact Or.inl ⟨rfl, rfl⟩
    · exact Or.inr ⟨rfl, Or.inl rfl⟩
    · exact Or.inr ⟨rfl, Or.inr (congrArg some hf)⟩
  · rintro (⟨rfl, rfl⟩ | ⟨rfl, rfl | rfl⟩)
    · exact ⟨none, .cut _, rfl⟩
    · exact ⟨none, (layout_run hl).2 (Or.inr ⟨rfl, Or.inl rfl⟩), rfl⟩
    · exact ⟨some (.ok l), (layout_run hl).2 (Or.inr ⟨rfl, Or.inr rfl⟩),
        congrArg some hf.symm⟩

theorem startSlot_run {o : Option (Result Slot)} (hl : Remembers l tr) (hs : l.Agrees s) :
    startSlot.Run tr o ↔ Lookup l tr o s :=
  lookup_run hl hs.activeRoot

theorem targetSlot_run {o : Option (Result Slot)} (hl : Remembers l tr) (hs : l.Agrees s) :
    targetSlot.Run tr o ↔ Lookup l tr o s.other :=
  lookup_run hl hs.inactiveRoot

/-- A task that first looks something up goes on as if it had been handed that. -/
theorem informed_andThen {look : Task (Result α)} {a : α} {f : α → Task (Result β)}
    {o : Option (Result β)} (hlook : ∀ t r, (∀ e ∈ t, e ∈ tr) → look.Run t r → Lookup l t r a)
    (h : (look.andThen f).Run tr o) : Informed l (f a) tr o := by
  obtain ⟨rfl, h₁⟩ | ⟨e, h₁, -⟩ | ⟨t, b, u, rfl, h₁, h₂⟩ := Task.run_andThen.1 h
  · obtain ⟨rfl, -⟩ | ⟨rfl, -⟩ := hlook tr none (fun _ he => he) h₁
    · exact ⟨[], [], Or.inl rfl, .cut _⟩
    · exact ⟨[], [], Or.inr rfl, .cut _⟩
  · obtain ⟨-, ho⟩ | ⟨-, ho⟩ := hlook tr _ (fun _ he => he) h₁
    · cases ho
    · cases gives_some.1 ho
  · obtain ⟨-, ho⟩ | ⟨rfl, ho⟩ := hlook t _ (fun _ => List.mem_append_left u) h₁
    · cases ho
    · cases gives_some.1 ho
      exact ⟨[], u, Or.inr rfl, h₂⟩

theorem informed_startSlot {f : Slot → Task (Result β)} {o : Option (Result β)}
    (hl : Remembers l tr) (hs : l.Agrees s) (h : (startSlot.andThen f).Run tr o) :
    Informed l (f s) tr o :=
  informed_andThen (fun _ _ ht hrun => (startSlot_run (hl.mono ht) hs).1 hrun) h

theorem informed_targetSlot {f : Slot → Task (Result β)} {o : Option (Result β)}
    (hl : Remembers l tr) (hs : l.Agrees s) (h : (targetSlot.andThen f).Run tr o) :
    Informed l (f s.other) tr o :=
  informed_andThen (fun _ _ ht hrun => (targetSlot_run (hl.mono ht) hs).1 hrun) h

/-! ## The steps that need a slot -/

/-- Removes the marks of packages in a slot that is known. -/
def clearDlcArtifactsIn (p : Plan) (slot : Slot) : Task (Result Unit) :=
  p.findDlcs.andThen fun _ => p.clearMarks slot

/-- Checks that the device booted from a slot that is known. -/
def verifyBooted (p : Plan) (expected : Slot) : Task (Result Unit) :=
  p.bootedRoot.andThen fun root =>
    match Slot.ofRoot root with
    | .error e => pure (.error e)
    | .ok booted =>
      if booted = expected then pure (.ok ())
      else pure (.error (.validation ("device booted from root partition "
        ++ booted.rootNumber ++ ", expected " ++ expected.rootNumber)))

/-- Whatever needs the layout or a slot finds it, in any part of a run that leaves the events `tr`:
    `s` is the slot of the booted root, and all that installs or verifies goes on with the other
    one. -/
structure Settled (p : Plan) (l : Layout) (s : Slot) (tr : List Event) : Prop where
  layout : ∀ o, Plan.layout.Run tr o ↔ Lookup l tr o l
  startSlot : ∀ o, Plan.startSlot.Run tr o ↔ Lookup l tr o s
  targetSlot : ∀ o, Plan.targetSlot.Run tr o ↔ Lookup l tr o s.other
  clearDlcArtifacts : ∀ o, p.clearDlcArtifacts.Run tr o →
    Informed l (p.clearDlcArtifactsIn s.other) tr o
  installDlcs : ∀ o, p.installDlcs.Run tr o →
    Informed l (p.installDlcsInto s.other 0 p.request.dlcIds) tr o
  verifyActiveRoot : ∀ o, p.verifyActiveRoot.Run tr o → Informed l (p.verifyBooted s.other) tr o
  verifyDlcs : ∀ o, p.verifyDlcs.Run tr o →
    Informed l (p.verifyDlcsIn s.other p.request.dlcIds) tr o

theorem clearDlcArtifacts_informed {o : Option (Result Unit)} (hl : Remembers l tr)
    (hs : l.Agrees s) (h : p.clearDlcArtifacts.Run tr o) :
    Informed l (p.clearDlcArtifactsIn s.other) tr o := by
  rw [clearDlcArtifacts_eq] at h
  obtain ⟨rfl, h₁⟩ | ⟨e, h₁, ho⟩ | ⟨t, ⟨⟩, u, rfl, h₁, h₂⟩ := Task.run_andThen.1 h
  · refine ⟨tr, [], Or.inl (by simp), ?_⟩
    rw [List.append_nil]
    exact Task.run_andThen.2 (Or.inl ⟨rfl, h₁⟩)
  · refine ⟨tr, [], Or.inl (by simp), ?_⟩
    rw [List.append_nil]
    exact Task.run_andThen.2 (Or.inr (Or.inl ⟨e, h₁, ho⟩))
  · have hu : Remembers l u := hl.mono fun _ => List.mem_append_right t
    exact Informed.after h₁ (informed_startSlot (f := fun slot => p.clearMarks slot.other) hu hs h₂)

theorem Settled.of_remembers (hl : Remembers l tr) (hs : l.Agrees s) : p.Settled l s tr where
  layout _ := layout_run hl
  startSlot _ := startSlot_run hl hs
  targetSlot _ := targetSlot_run hl hs
  clearDlcArtifacts _ h := clearDlcArtifacts_informed hl hs h
  installDlcs _ h := informed_startSlot hl hs h
  verifyActiveRoot _ h := informed_targetSlot hl hs h
  verifyDlcs _ h := informed_targetSlot hl hs h

/-! ## Whole runs -/

theorem asks_probePartitions :
    p.probePartitions.Only fun q => q ≠ .layout := by
  have hconn : ∀ q : Ask, q.Connects → q ≠ .layout := by
    rintro q hq rfl
    exact hq
  refine .bind (.bind (Link.asks_runCommand hconn (by simp)) fun _ => .done _) fun root => ?_
  rcases root with e | root
  · exact .done _
  refine .bind (.bind (Link.asks_runCommand hconn (by simp)) fun _ => .done _) fun disk => ?_
  rcases disk with e | disk
  · exact .done _
  dsimp only
  split
  · exact .done _
  · exact .ask nofun fun _ _ => .ask nofun fun _ _ => .done _

end Plan

/-- The layout is asked for only once it was set, and then it is told as it was set. -/
theorem runStages_remembers {m : Option Layout} {ss : List Stage} {tr : List Event}
    {o : Option (Except RunFailure Unit)} (h : (runStages p (.init :: ss)).Run tr o)
    (hs : Stage.init ∉ ss) (hm : Recalls m tr) :
    (∀ e ∈ tr, e.question ≠ .layout) ∨
      ∃ t slot l u, tr = t ++ ⟨.setLayout l, ()⟩ :: u ∧ Probed t slot l ∧
        (∀ e ∈ t, e.question ≠ .layout) ∧ Remembers l u := by
  obtain ⟨t, v, r, rfl, h, h', hv⟩ := runStages_cons h
  have hset := (runStages_uttered h' hs (knows_true v)).ne_setLayout
  obtain ⟨r', hprobe, -, hne⟩ | ⟨t, l, u, rfl, hprobe, hu⟩ :=
    Stage.init_probes (K := fun _ => True) h
  · have hv : v = [] := hv.resolve_right fun ⟨outcome, hr⟩ => hne outcome hr
    subst hv
    rw [List.append_nil]
    exact Or.inl (asks_probePartitions.of_run hprobe)
  · obtain ⟨-, hne⟩ | ⟨t, slot, l', rfl, -, hp, hl⟩ :=
      probePartitions_run (K := fun _ => True) hprobe
    · exact absurd rfl (hne l)
    · have hasks := asks_probePartitions.of_run hprobe
      simp only [List.append_assoc, List.singleton_append] at hm ⊢
      refine Or.inr ⟨t, slot, l', u ++ v, rfl, hp, fun e he => hasks e (by simp [he]), ?_⟩
      exact hm.after_set.remembers (List.forall_mem_append.2 ⟨hu.ne_setLayout, hset⟩)

/-- **Installation and verification agree on the slot.** Whatever a device has told of its root and
    its disk, in the layout of a probe that succeeds the booted root and the root that was not
    booted belong to different slots. In a run from the first stage, however it ends and whatever
    the device answers, nothing asks for a layout before the probe has set it. In every part of the
    run after that, the layout and both slots are found; the marks are removed and the packages
    installed in the slot that is not the booted one, the device is expected to boot from that slot,
    and the packages are verified there. -/
theorem runFrom_slots (p : Plan) :
    (∀ tr l, p.probePartitions.Run tr (some (.ok l)) → ∃ slot, Probed tr slot l ∧ l.Agrees slot) ∧
    ∀ m tr o, (runFrom p .init).Run tr o → Recalls m tr →
      (∀ e ∈ tr, e.question ≠ .layout) ∨
      ∃ t slot l u, tr = t ++ ⟨.setLayout l, ()⟩ :: u ∧ Probed t slot l ∧ l.Agrees slot ∧
        (∀ e ∈ t, e.question ≠ .layout) ∧ ∀ x, x <:+: u → p.Settled l slot x := by
  refine ⟨fun tr l h => ?_, fun m tr o h hm => ?_⟩
  · obtain ⟨-, hne⟩ | ⟨t, slot, l', rfl, -, hp, hl⟩ := probePartitions_run (K := fun _ => True) h
    · exact absurd rfl (hne l)
    · cases gives_some.1 hl
      exact ⟨slot, hp.append_left, hp.agrees⟩
  · obtain ⟨r, hrun, -⟩ := runFrom_run.1 h
    rw [itinerary_init] at hrun
    obtain hno | ⟨t, slot, l, u, rfl, hp, hno, hl⟩ :=
      runStages_remembers hrun p.init_notMem_tail hm
    · exact Or.inl hno
    · refine Or.inr ⟨t, slot, l, u, rfl, hp, hp.agrees, hno, fun x hx => ?_⟩
      exact .of_remembers (hl.mono fun _ he => hx.subset he) hp.agrees

theorem runFrom_slots_obeys :
    (∃ tr, samplePlan.probePartitions.Run tr (some (.ok bootedA)) ∧
      ∃ slot, Probed tr slot bootedA ∧ bootedA.Agrees slot) ∧
    ∃ t slot l u, (runFrom samplePlan .init).Run (t ++ ⟨.setLayout l, ()⟩ :: u)
        (some (.ok samplePlan.stages)) ∧
      Recalls none (t ++ ⟨.setLayout l, ()⟩ :: u) ∧ Probed t slot l ∧ l.Agrees slot ∧
      (∀ e ∈ t, e.question ≠ .layout) ∧ ∀ x, x <:+: u → samplePlan.Settled l slot x := by
  obtain ⟨probe, hprobe⟩ := probePartitions_obeys
  obtain ⟨tr, hrun, hm, -, e, he, hlayout⟩ := runFrom_obeys
  refine ⟨⟨probe, hprobe, (runFrom_slots samplePlan).1 _ _ hprobe⟩, ?_⟩
  obtain hnone | ⟨t, slot, l, u, rfl, hprobed, hagrees, hbefore, hsettled⟩ :=
    (runFrom_slots samplePlan).2 none tr _ hrun hm
  · exact absurd hlayout (hnone e he)
  · exact ⟨t, slot, l, u, hrun, hm, hprobed, hagrees, hbefore, hsettled⟩

end Reimage
