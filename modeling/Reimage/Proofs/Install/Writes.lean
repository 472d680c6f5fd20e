/-
  The writes of kernel and root, side by side.

  * `Plan.Wrote`: what one write does, which is a command, or nothing if its image has no address;
  * `Joined`: how the outcomes of both are joined;
  * `Plan.SideBySide`: both writes run to their ends, their steps in any order;
  * `Plan.installPartitions_joins`: so runs the step that writes both, and its result depends on
    the outcomes alone.
-/
import Reimage.Proofs.Error
import Reimage.Proofs.Install.Slots
import Reimage.Proofs.Install.Success
import Reimage.Proofs.Link.Issues

namespace Reimage

theorem Interleaved.filterMap {α β : Type} {u v w : List α} (f : α → Option β)
    (h : Interleaved u v w) : Interleaved (u.filterMap f) (v.filterMap f) (w.filterMap f) := by
  induction h with
  | nil => exact .nil
  | @left a u v w _ ih =>
    rw [List.filterMap_cons, List.filterMap_cons]
    split
    · exact ih
    · exact .left ih
  | @right a u v w _ ih =>
    rw [List.filterMap_cons, List.filterMap_cons]
    split
    · exact ih
    · exact .right ih

/-- If two tasks have shared an open link that has a connection, each has seen it open. -/
theorem Link.Open.of_interleaved {cur : Option Connection} {t u v : List Event}
    (hcur : cur.isSome) (ho : Open cur v) (h : Interleaved t u v) : Open cur t ∧ Open cur u := by
  simp only [open_iff_forall hcur] at ho ⊢
  constructor
  · intro e he
    exact ho e (h.mem_iff.2 (Or.inl he))
  · intro e he
    exact ho e (h.mem_iff.2 (Or.inr he))

/-! ## Errors that are joined -/

/-- The outcomes of two steps are joined: each failure counts and says which step it was, and the
    kernel's comes first. -/
inductive Joined : (kernel root joined : Result Unit) → Prop
  | neither : Joined (.ok ()) (.ok ()) (.ok ())
  | kernel (e : Error) :
    Joined (.error e) (.ok ()) (.error (.multiple [.context "failed to install kernel" e]))
  | root (f : Error) :
    Joined (.ok ()) (.error f) (.error (.multiple [.context "failed to install root" f]))
  | both (e f : Error) : Joined (.error e) (.error f) (.error (.multiple
      [.context "failed to install kernel" e, .context "failed to install root" f]))

namespace Joined

variable {kernel root r : Result Unit}

theorem iff_eq : Joined kernel root r ↔ r = Plan.joinWrites kernel root := by
  constructor
  · intro h
    cases h <;> rfl
  · rintro rfl
    rcases kernel with e | ⟨⟩ <;> rcases root with f | ⟨⟩
    · exact .both e f
    · exact .kernel e
    · exact .root f
    · exact .neither

theorem ok_iff (h : Joined kernel root r) : r = .ok () ↔ kernel = .ok () ∧ root = .ok () := by
  cases h <;> simp

/-- Together the failures are as bad as the worst of them. -/
theorem isFatal_iff {e : Error} (h : Joined kernel root (.error e)) : e.isFatal = true ↔
    (∃ f, kernel = .error f ∧ f.isFatal = true) ∨ ∃ f, root = .error f ∧ f.isFatal = true := by
  cases h <;> simp [Error.isFatal_multiple, Error.isFatal_context]

end Joined

namespace Plan

variable {p : Plan} {image output : String} {tr : List Event}

/-- One write: an image without an address is not written, and any other is written by a
    command. -/
inductive Wrote (p : Plan) (image output : String) : List Event → Result Unit → Prop
  | unserved {e : Error} : p.artifactUrl image = .error e →
    Wrote p image output [] (.error (.context "failed to get GS Cache URL" e))
  | ran {url : String} {x : ExecResult} {t : List Event} : p.artifactUrl image = .ok url →
    p.link.Issues t [⟨writeLine url output, x⟩] →
    Wrote p image output t ((x.intoStdout (writeLine url output)).map fun _ => ())

/-- An image that has an address is written from there. -/
theorem Wrote.issues {url : String} {r : Result Unit} (h : p.Wrote image output tr r)
    (hurl : p.artifactUrl image = .ok url) :
    ∃ x, p.link.Issues tr [⟨writeLine url output, x⟩] ∧
      r = (x.intoStdout (writeLine url output)).map fun _ => () := by
  cases h with
  | unserved hurl' => cases hurl.symm.trans hurl'
  | ran hurl' hx =>
    cases hurl.symm.trans hurl'
    exact ⟨_, hx, rfl⟩

theorem installZippedImage_run {r : Result Unit} :
    (p.installZippedImage image output).Run tr (some r) ↔ p.Wrote image output tr r := by
  unfold installZippedImage
  cases hurl : p.artifactUrl image with
  | error e =>
    simp only [Result.within, Program.run_pure_some]
    constructor
    · rintro ⟨rfl, rfl⟩
      exact .unserved hurl
    · intro h
      cases h with
      | unserved hurl' =>
        cases hurl.symm.trans hurl'
        exact ⟨rfl, rfl⟩
      | ran hurl' => cases hurl.symm.trans hurl'
  | ok url =>
    simp only [Result.within, run, Link.issues_runCommand]
    constructor
    · rintro ⟨x, hx, rfl⟩
      exact .ran hurl hx
    · intro h
      exact h.issues hurl

/-- The device was handed a command, or the outcome of the command says that it was not. -/
def HandedIn (line : String) (r : Result Unit) (handed : List String) : Prop :=
  handed = [line] ∨ handed = [] ∧
    ∃ message, r = .error (.transport ("failed to start `" ++ line ++ "`: " ++ message))

/-- The command that writes an image is handed in, whatever becomes of it. -/
theorem Wrote.handedIn {url : String} {r : Result Unit} (h : p.Wrote image output tr r)
    (hurl : p.artifactUrl image = .ok url) :
    HandedIn (writeLine url output) r (Reimage.lines tr) := by
  obtain ⟨x, hx, rfl⟩ := h.issues hurl
  obtain ⟨htr, message, rfl⟩ | ⟨t, c, a, rfl, ht, -, -⟩ :=
    Link.exec_run none (Link.Issues.singleton_iff.1 hx)
  · exact Or.inr ⟨htr, message, rfl⟩
  · refine Or.inl ?_
    rw [lines_append, ht]
    rfl

/-- Once there is a connection, nothing keeps the command from being handed in. -/
theorem Wrote.lines_held {url : String} {r : Result Unit} {cur : Option Connection}
    (h : p.Wrote image output tr r) (hurl : p.artifactUrl image = .ok url) (hcur : cur.isSome)
    (ho : Link.Open cur tr) : Reimage.lines tr = [writeLine url output] := by
  obtain ⟨x, hx, -⟩ := h.issues hurl
  exact hx.lines_held hcur ho

/-- Both writes into the slot that is not booted have come to their ends, their steps in any
    order. -/
def SideBySide (p : Plan) (l : Layout) (v : List Event) (kernel root : Result Unit) : Prop :=
  ∃ t u, Interleaved t u v ∧ p.Wrote kernelImage l.inactiveKernel t kernel ∧
    p.Wrote rootImage l.inactiveRoot u root

/-- Unless no layout is known, the step has come to its result when both writes have come to
    theirs. -/
theorem installPartitions_run {r : Result Unit} : p.installPartitions.Run tr (some r) ↔
    (tr = [⟨.layout, none⟩] ∧
      r = .error (.validation "partition layout has not been probed")) ∨
    ∃ l v kernel root, tr = ⟨.layout, some l⟩ :: v ∧ p.SideBySide l v kernel root ∧
      Joined kernel root r := by
  constructor
  · intro h
    obtain ⟨ho, -⟩ | ⟨e, h₁, ho⟩ | ⟨t, l, v, rfl, h₁, h₂⟩ := Procedure.run_andThen.1 h
    · cases ho
    · obtain ⟨told, rfl, he⟩ := layout_run_some.1 (Procedure.run_procedure.1 h₁)
      cases told with
      | none =>
        cases he
        exact Or.inl ⟨rfl, by simpa using ho⟩
      | some l => cases he
    · obtain ⟨told, rfl, hl⟩ := layout_run_some.1 (Procedure.run_procedure.1 h₁)
      cases told with
      | none => cases hl
      | some l' =>
        cases hl
        obtain ⟨⟨kernel, root⟩, h₃, rfl⟩ := Program.run_bind_pure_some.1 h₂
        obtain ⟨t, u, k, f, ht, hu, hv, ho⟩ := Program.run_query_some.1 h₃
        obtain ⟨rfl, rfl⟩ : k = some kernel ∧ f = some root := by
          cases k <;> cases f <;> simp_all
        exact Or.inr ⟨l, v, kernel, root, rfl,
          ⟨t, u, hv, installZippedImage_run.1 ht, installZippedImage_run.1 hu⟩, Joined.iff_eq.2 rfl⟩
  · rintro (⟨rfl, rfl⟩ | ⟨l, v, kernel, root, rfl, ⟨t, u, hv, ht, hu⟩, hr⟩)
    · refine Procedure.run_andThen.2 (Or.inr (Or.inl ⟨_, ?_, Or.inr rfl⟩))
      exact Procedure.run_procedure.2 (layout_run_some.2 ⟨none, rfl, rfl⟩)
    · refine Procedure.run_andThen.2 (Or.inr (Or.inr ⟨[⟨.layout, some l⟩], l, v, rfl, ?_, ?_⟩))
      · exact Procedure.run_procedure.2 (layout_run_some.2 ⟨some l, rfl, rfl⟩)
      · refine Program.run_bind_pure_some.2 ⟨(kernel, root), ?_, Joined.iff_eq.1 hr⟩
        exact Program.run_query_some.2 ⟨t, u, some kernel, some root,
          installZippedImage_run.2 ht, installZippedImage_run.2 hu, hv, rfl⟩

/-- **No failure of a write is lost.** The step ends when both writes have ended. Its result is made
    of their two outcomes, whatever the order of their steps: it is a success if both are, and else
    it holds each failure, the kernel's first. Each write whose image has an address is handed to
    the device, unless its outcome says that there was no connection. -/
theorem installPartitions_joins (p : Plan) :
    (∀ tr r, p.installPartitions.Run tr (some r) ↔
      (tr = [⟨.layout, none⟩] ∧
        r = .error (.validation "partition layout has not been probed")) ∨
      ∃ l v kernel root, tr = ⟨.layout, some l⟩ :: v ∧ p.SideBySide l v kernel root ∧
        Joined kernel root r) ∧
    (∀ l kernel root, ∃ r, (∀ r', Joined kernel root r' ↔ r' = r) ∧
      (r = .ok () ↔ kernel = .ok () ∧ root = .ok ()) ∧
      (∀ e, r = .error e → (e.isFatal = true ↔ (∃ f, kernel = .error f ∧ f.isFatal = true) ∨
        ∃ f, root = .error f ∧ f.isFatal = true)) ∧
      ∀ v, p.SideBySide l v kernel root →
        p.installPartitions.Run (⟨.layout, some l⟩ :: v) (some r)) ∧
    ∀ l v kernel root kernelUrl rootUrl, p.artifactUrl kernelImage = .ok kernelUrl →
      p.artifactUrl rootImage = .ok rootUrl → p.SideBySide l v kernel root →
      (∃ t u, Interleaved t u (lines v) ∧ HandedIn (writeLine kernelUrl l.inactiveKernel) kernel t ∧
        HandedIn (writeLine rootUrl l.inactiveRoot) root u) ∧
      ∀ cur, cur.isSome → Link.Open cur v → Interleaved [writeLine kernelUrl l.inactiveKernel]
        [writeLine rootUrl l.inactiveRoot] (lines v) := by
  refine ⟨fun tr r => installPartitions_run, fun l kernel root => ?_, ?_⟩
  · have hjoined : Joined kernel root (joinWrites kernel root) := Joined.iff_eq.2 rfl
    refine ⟨joinWrites kernel root, fun r' => Joined.iff_eq, hjoined.ok_iff, ?_, ?_⟩
    · intro e he
      rw [he] at hjoined
      exact hjoined.isFatal_iff
    · intro v hv
      exact installPartitions_run.2 (Or.inr ⟨l, v, kernel, root, rfl, hv, hjoined⟩)
  · rintro l v kernel root kernelUrl rootUrl hkernelUrl hrootUrl ⟨t, u, hv, ht, hu⟩
    have hlines : Interleaved (lines t) (lines u) (lines v) := hv.filterMap _
    constructor
    · exact ⟨lines t, lines u, hlines, ht.handedIn hkernelUrl, hu.handedIn hrootUrl⟩
    · intro cur hcur ho
      obtain ⟨hot, hou⟩ := ho.of_interleaved hcur hv
      rwa [ht.lines_held hkernelUrl hcur hot, hu.lines_held hrootUrl hcur hou] at hlines

/-! ## Both writes fail -/

def sampleKernelUrl : String := "10.0.0.1:8082/download/images/r100/full_dev_part_KERN.bin.gz"

def sampleRootUrl : String := "10.0.0.1:8082/download/images/r100/full_dev_part_ROOT.bin.gz"

def sampleKernelLine : String := writeLine sampleKernelUrl "/dev/sda4"

def sampleRootLine : String := writeLine sampleRootUrl "/dev/sda5"

/-- The write of the root breaks off with its session, and only then the device refuses that of the
    kernel. -/
def lateKernel : List Event :=
  let c : Connection := ⟨1, "dut"⟩
  Link.found c ++ Link.sent c sampleRootLine none .separate (.error (.transport "channel closed"))
    ++ [⟨.run c sampleKernelLine none .separate, .ok { status := 1 }⟩]

/-- The kernel's failure still comes first. -/
theorem installPartitions_joins_lateKernel :
    samplePlan.installPartitions.Run (⟨.layout, some bootedA⟩ :: lateKernel)
      (some (.error (.multiple [
        .context "failed to install kernel" (.commandFailed sampleKernelLine 1 ""),
        .context "failed to install root" (.transport
          ("failed to start `" ++ sampleRootLine ++ "`: Transport error: channel closed"))]))) ∧
      Interleaved [sampleKernelLine] [sampleRootLine] (lines lateKernel) := by
  obtain ⟨-, hresult, hhanded⟩ := installPartitions_joins samplePlan
  have hkernelUrl : samplePlan.artifactUrl kernelImage = .ok sampleKernelUrl := rfl
  have hrootUrl : samplePlan.artifactUrl rootImage = .ok sampleRootUrl := rfl
  have hkernel : samplePlan.Wrote kernelImage "/dev/sda4"
      (Link.sent ⟨1, "dut"⟩ sampleKernelLine none .separate (.ok { status := 1 }))
      (((ExecResult.finished { status := 1 }).intoStdout sampleKernelLine).map fun _ => ()) :=
    .ran hkernelUrl (Link.Issues.singleton_iff.2 (Link.run_exec_sent _ _))
  have hsilent : Text.trim (Text.Utf8.lossy []) = "" := by decide +kernel
  have hrefused : (ExecResult.finished { status := 1 }).intoStdout sampleKernelLine =
      .error (.commandFailed sampleKernelLine 1 "") := by
    simp [ExecResult.intoStdout, hsilent]
  rw [hrefused] at hkernel
  have hroot : samplePlan.Wrote rootImage "/dev/sda5"
      (Link.sent ⟨1, "dut"⟩ sampleRootLine none .separate (.error (.transport "channel closed")))
      (.error (.transport
        ("failed to start `" ++ sampleRootLine ++ "`: Transport error: channel closed"))) :=
    .ran hrootUrl (Link.Issues.singleton_iff.2 (Link.run_exec_sent _ _))
  have hside : samplePlan.SideBySide bootedA lateKernel _ _ :=
    ⟨_, _, .left (.left (.right (.right (.right (.left .nil))))), hkernel, hroot⟩
  constructor
  · obtain ⟨r, hjoined, -, -, hrun⟩ := hresult bootedA _ _
    rw [(hjoined _).1 (.both _ _)]
    exact hrun _ hside
  · exact (hhanded _ _ _ _ _ _ hkernelUrl hrootUrl hside).2 (some ⟨1, "dut"⟩) rfl (by decide)

end Plan

end Reimage
