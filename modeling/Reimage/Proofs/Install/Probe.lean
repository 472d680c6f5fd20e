/-
  How a run comes to know the layout of the disk.

  * `probePartitions_run`: the probe sets the layout that it has computed from the answers of the
    device, or it sets none;
  * `Stage.init_run`: in the first stage the probe alone sets the layout.
-/
import Reimage.Proofs.Install.Utters
import Reimage.Proofs.Link.Success
import Reimage.Proofs.Partition
import Reimage.Proofs.Recalls

namespace Reimage

/-! ## The probe -/

/-- The device has told a root of slot `s` and a disk, and `l` is their layout. -/
def Probed (tr : List Event) (s : Slot) (l : Layout) : Prop :=
  ∃ root disk, Printed tr "rootdev -s" root ∧ Printed tr "rootdev -s -d" disk ∧
    Slot.ofRoot root = .ok s ∧ l = Layout.ofSlot s root disk

theorem Probed.append_left {t u : List Event} {s : Slot} {l : Layout} (h : Probed t s l) :
    Probed (t ++ u) s l := by
  obtain ⟨root, disk, hr, hd, hs⟩ := h
  exact ⟨root, disk, hr.append_left, hd.append_left, hs⟩

theorem Probed.numbered {tr : List Event} {s : Slot} {l : Layout} (h : Probed tr s l) :
    l.Numbered s := by
  obtain ⟨root, disk, -, -, hs, rfl⟩ := h
  exact Layout.numbered_ofSlot hs disk

/-- What is read off the root that is to be booted next is the other slot. -/
theorem Probed.ofRoot_inactiveRoot {tr : List Event} {s : Slot} {l : Layout}
    (h : Probed tr s l) : Slot.ofRoot l.inactiveRoot = .ok s.other := by
  obtain ⟨root, disk, -, -, -, rfl⟩ := h
  rw [Layout.ofSlot_inactiveRoot, Layout.ofRoot_rootDevice]

theorem Layout.ofSlot_trim (s : Slot) (root disk : String) :
    ofSlot s (Text.trim root) (Text.trim disk) = ofSlot s root disk := by
  simp only [ofSlot, Text.trim_trim]

namespace Plan

variable {p : Plan}

theorem bootedRoot_ok {tr : List Event} {root : String}
    (h : p.bootedRoot.Run tr (some (.ok root))) :
    ∃ out, Printed tr "rootdev -s" out ∧ root = Text.trim out := by
  obtain ⟨out, hr, rfl⟩ := Program.run_within_map_ok.1 h
  exact ⟨out, Link.runCommand_ok hr, rfl⟩

theorem bootDisk_ok {tr : List Event} {disk : String}
    (h : p.bootDisk.Run tr (some (.ok disk))) :
    ∃ out, Printed tr "rootdev -s -d" out ∧ disk = Text.trim out := by
  obtain ⟨out, hr, rfl⟩ := Program.run_within_map_ok.1 h
  exact ⟨out, Link.runCommand_ok hr, rfl⟩

/-- **The probe.** It asks for the booted root and for the disk. If both were told and make sense,
    it sets the layout they give, and nothing else ever sets one. -/
theorem probePartitions_run {K : Layout → Prop} {tr : List Event} {o : Option (Result Layout)}
    (h : p.probePartitions.Run tr o) :
    (Uttered (Stage.Says p K .init) tr ∧ ∀ l, o ≠ some (.ok l)) ∨
      ∃ t s l, tr = t ++ [⟨.setLayout l, ()⟩] ∧ Uttered (Stage.Says p K .init) t ∧
        Probed t s l ∧ Gives o (.ok l) := by
  have hroot : p.bootedRoot.Utters (fun _ => True) (Stage.Says p K .init) :=
    utters_bootedRoot .bootedRoot
  have hdisk : p.bootDisk.Utters (fun _ => True) (Stage.Says p K .init) :=
    utters_bootDisk .bootDisk
  obtain ⟨rfl, h₁⟩ | ⟨e, h₁, ho⟩ | ⟨t, root, u, rfl, h₁, h₂⟩ := Task.run_andThen.1 h
  · exact Or.inl ⟨Task.asked h₁ hroot (knows_true _), by simp⟩
  · refine Or.inl ⟨Task.asked h₁ hroot (knows_true _), fun l hl => ?_⟩
    rcases ho with rfl | rfl <;> cases hl
  have hu := Task.asked h₁ hroot (knows_true _)
  obtain ⟨out, hout, rfl⟩ := bootedRoot_ok h₁
  obtain ⟨rfl, h₃⟩ | ⟨e, h₃, ho⟩ | ⟨v, disk, w, rfl, h₃, h₄⟩ := Task.run_andThen.1 h₂
  · exact Or.inl ⟨uttered_append.2 ⟨hu, Task.asked h₃ hdisk (knows_true _)⟩, by simp⟩
  · refine Or.inl ⟨uttered_append.2 ⟨hu, Task.asked h₃ hdisk (knows_true _)⟩, fun l hl => ?_⟩
    rcases ho with rfl | rfl <;> cases hl
  have hv := Task.asked h₃ hdisk (knows_true _)
  obtain ⟨out', hout', rfl⟩ := bootDisk_ok h₃
  cases hs : Slot.ofRoot (Text.trim out) with
  | error e =>
    rw [hs] at h₄
    obtain ⟨rfl, ho⟩ := Program.run_pure.1 h₄
    refine Or.inl ⟨by simp [hu, hv], fun l hl => ?_⟩
    rcases ho with rfl | rfl <;> cases hl
  | ok slot =>
    rw [hs] at h₄
    have hprobed : Probed (t ++ v) slot (Layout.ofSlot slot out out') :=
      ⟨out, out', hout.append_left, hout'.append_right, (Slot.ofRoot_trim out slot).1 hs, rfl⟩
    have hlayout := Layout.ofSlot_trim slot out out'
    obtain ⟨r, h₅, rfl⟩ := Program.run_bind_pure.1 (Task.run_log_bind.1 h₄)
    rw [hlayout] at h₅ ⊢
    obtain ⟨rfl, rfl⟩ | ⟨a, rfl, hr⟩ := Task.run_ask h₅
    · exact Or.inl ⟨by simp [hu, hv], by simp⟩
    · refine Or.inr ⟨t ++ v, slot, _, (List.append_assoc t v _).symm, by simp [hu, hv], hprobed, ?_⟩
      exact hr.imp (fun h => by rw [h]; rfl) fun h => by rw [h]; rfl

end Plan

/-! ## The first stage -/

namespace Stage

variable {p : Plan}

/-- The commands after the probe, and what is undone when one of them fails. -/
theorem utters_afterProbe {K K' : Layout → Prop} {title : String} :
    (runChainAfter p title [.probePartitions]
      (if p.request.preserveStateful then [] else [.wipeStateful])).Utters K' (Says p K .init) := by
  cases hw : p.request.preserveStateful
  · refine .bind (Command.utters_kept (Task.utters_procedure
      (Plan.utters_wipeStateful (.wipe hw)))) fun done => ?_
    cases done with
    | ok c => exact .done _
    | error e => exact .ask trivial fun _ _ => .done _
  · exact .done _

/-- The first stage begins with the probe. What comes after a probe that succeeded does not depend
    on a layout. -/
theorem init_probes {K : Layout → Prop} {tr : List Event} {o : Option (Result StageOutcome)}
    (h : (init.execute p).Run tr o) :
    (∃ r, p.probePartitions.Run tr r ∧ (∀ l, r ≠ some (.ok l)) ∧
      ∀ outcome, o ≠ some (.ok outcome)) ∨
      ∃ t l u, tr = t ++ u ∧ p.probePartitions.Run t (some (.ok l)) ∧
        Uttered (Says p K .init) u := by
  obtain ⟨r, hchain, rfl⟩ := Program.run_bind_pure.1 h
  obtain ⟨rfl, h₁⟩ | ⟨t, e | d, u, rfl, h₁, h₂⟩ := Program.run_bind.1 hchain
  · obtain ⟨_, h₂, -⟩ := Program.run_bind_pure.1 h₁
    exact Or.inl ⟨none, (Procedure.run_procedure.1 h₂).toNone, by simp, by simp⟩
  · obtain ⟨e' | l, h₃, he⟩ := Program.run_bind_pure_some.1 h₁
    · obtain ⟨rfl, hr⟩ := Program.run_pure.1 h₂
      refine Or.inl ⟨some (.error e'), ?_, by simp, fun outcome => ?_⟩
      · rw [List.append_nil]
        exact Procedure.run_procedure.1 h₃
      · rcases hr with rfl | rfl <;> simp [Except.map]
    · cases he
  · obtain ⟨rfl, l, h₃⟩ := Command.kept_run.1 h₁
    exact Or.inr ⟨t, l, u, rfl, Procedure.run_procedure.1 h₃,
      Procedure.asked h₂ utters_afterProbe (knows_true u)⟩

/-- **The first stage.** The layout is set by the probe or not at all. -/
theorem init_run {K : Layout → Prop} {tr : List Event} {o : Option (Result StageOutcome)}
    (h : (init.execute p).Run tr o) :
    (Uttered (Says p K .init) tr ∧ ∀ outcome, o ≠ some (.ok outcome)) ∨
      ∃ t slot l u, tr = t ++ ⟨.setLayout l, ()⟩ :: u ∧ Uttered (Says p K .init) t ∧
        Probed t slot l ∧ Uttered (Says p K .init) u := by
  obtain ⟨r, hp, -, ho⟩ | ⟨t, l, u, rfl, hp, hu⟩ := init_probes (K := K) h
  · obtain ⟨ht, -⟩ | ⟨t, slot, l, rfl, ht, hprobed, -⟩ := Plan.probePartitions_run (K := K) hp
    · exact Or.inl ⟨ht, ho⟩
    · exact Or.inr ⟨t, slot, l, [], rfl, ht, hprobed, uttered_nil⟩
  · obtain ⟨-, hne⟩ | ⟨t, slot, l, rfl, ht, hprobed, -⟩ := Plan.probePartitions_run (K := K) hp
    · exact absurd rfl (hne l)
    · exact Or.inr ⟨t, slot, l, u, List.append_assoc .., ht, hprobed, hu⟩

end Stage

end Reimage
