/-
  Marks of verified packages, and the packages that are transferred.

  Before packages are installed, the marks that were left in the slot by an earlier image are to be
  removed. They are looked for below the directory of the images, and no mark is there.

  * `Plan.staleMarks_covers`: what the pattern of the removed files covers;
  * `Plan.not_covers_verifiedMark`: it covers no mark, whatever the package and the slots;
  * `Marked`: a device that tells truly which marks it has, and on which a removal removes what its
    pattern covers;
  * `Stage.installStateful_transfers`: so a package is transferred exactly if it had no mark before.
-/
import Mathlib.Data.Set.Basic
import Reimage.Proofs.Install.Places
import Reimage.Proofs.Install.Slots
import Reimage.Proofs.Install.Success

namespace Reimage

open Reimage.Path Plan

variable {p : Plan} {l : Layout} {slot : Slot} {tr : List Event} {id : String}

/-! ## What is removed -/

namespace Plan

theorem parts_staleMarks (s : Slot) :
    parts (staleMarks s) = ["var", "cache", "dlc", "*", "*", s.dlcName, "verified"] := by
  cases s <;> decide

/-- The files that are removed are below the directory of the images. -/
theorem staleMarks_covers {s : Slot} {path : String} : Covers (staleMarks s) path ↔
    ∃ x y, target path = ["var", "cache", "dlc", x, y, s.dlcName, "verified"] := by
  have hname : s.dlcName ≠ "*" := by cases s <;> decide
  rw [Covers, parts_staleMarks]
  simp [fits_cons, fits_nil, hname]

/-- Marks are not below the directory of the images, so none is removed. -/
theorem not_covers_verifiedMark (h : Request.validDlcId id = true) (s s' : Slot) :
    ¬Covers (staleMarks s) (verifiedMark id s') := by
  rw [staleMarks_covers, target_verifiedMark h]
  rintro ⟨x, y, heq⟩
  obtain ⟨rfl, he⟩ | ⟨rfl, he⟩ | ⟨-, -, he⟩ := enter_cases ["var", "lib", "dlcservice", "dlc"] id
  all_goals
    rw [he] at heq
    simp at heq

/-- Removes the files that a pattern covers. -/
def removeLine (pattern : String) : String := "rm -f " ++ pattern

theorem isPrefix_removeLine {pattern : String} :
    "rm -f ".toList <+: (removeLine pattern).toList := by
  simp [removeLine, String.toList_append]

theorem commandLine_staleMarks (s : Slot) :
    Shell.commandLine "rm" ["-f", staleMarks s] = removeLine (staleMarks s) := by
  cases s <;> decide

/-! ## The lines of one package -/

theorem toList_transferLine (id : String) (slot : Slot) (url : String) :
    ∃ rest, (transferLine id slot url).toList =
      "mkdir -p /var/cache/dlc/".toList ++ (id.toList ++ '/' :: rest) := by
  have hdir : (dlcSlotDir id slot).isEmpty = false := by
    simp [dlcSlotDir, dlcCacheDir]
  rw [transferLine, Shell.commandLine_empty, Shell.commandLine_cons (by decide) (by decide),
    Shell.commandLine_cons (by decide) hdir, Shell.commandLine_cons hdir (by decide), dlcSlotDir,
    dlcCacheDir]
  simp only [String.toList_append, List.append_assoc]
  exact ⟨_, rfl⟩

/-- The line that transfers a package tells which package it is. -/
theorem transferLine_inj {id' : String} {slot' : Slot} {url url' : String}
    (h : '/' ∉ id.toList) (h' : '/' ∉ id'.toList)
    (heq : transferLine id slot url = transferLine id' slot' url') : id = id' := by
  obtain ⟨rest, hrest⟩ := toList_transferLine id slot url
  obtain ⟨rest', hrest'⟩ := toList_transferLine id' slot' url'
  rw [heq, hrest', List.append_cancel_left_eq] at hrest
  -- Both ids end at the first slash.
  have hname : ∀ {name : List Char} (rest : List Char), '/' ∉ name →
      (name ++ '/' :: rest).takeWhile (· != '/') = name := by
    intro name rest hname
    rw [List.takeWhile_append_of_pos fun c hc => ?_]
    · simp
    · rw [bne_iff_ne]
      rintro rfl
      exact hname hc
  have htake := congrArg (List.takeWhile (· != '/')) hrest
  rw [hname rest' h', hname rest h] at htake
  exact String.toList_inj.1 htake.symm

theorem ne_transferLine {line start : String} (h : start.toList <+: line.toList)
    (hapart : BeginApart start "mkdir") (url : String) : line ≠ transferLine id slot url := by
  rintro rfl
  exact hapart.not_isPrefix h (isPrefix_transferLine id slot url)

theorem checkLine_ne_transferLine (id' : String) (slot' : Slot) (url : String) :
    checkLine id' slot' ≠ transferLine id slot url :=
  ne_transferLine (Shell.isPrefix_pathExists _) (by decide) url

end Plan

/-- In the stage that installs packages, nothing is removed by a pattern but the stale marks. -/
theorem Stage.Says.staleMarks {K : Layout → Prop} {pattern : String}
    (h : Says p K .installStateful (removeLine pattern)) : ∃ s, pattern = Plan.staleMarks s := by
  have hrm : "rm -f ".toList <+: (removeLine pattern).toList := isPrefix_removeLine
  have hremove : BeginApart "rm -rf" "rm -f " := by decide
  have htest : BeginApart "[ -e " "rm -f " := by decide
  have hmake : BeginApart "mkdir" "rm -f " := by decide
  generalize hline : removeLine pattern = line at h hrm
  cases h with
  | clearDlcs s =>
    rw [commandLine_staleMarks] at hline
    exact ⟨s, by simpa [removeLine] using hline⟩
  | stopUi | stopUpdates | stopDlcs | startDlcs => exact absurd hrm (by decide)
  | findDlcs | checkDlc => exact absurd hrm (htest.not_isPrefix (Shell.isPrefix_pathExists _))
  | unpack => exact absurd hrm (hremove.not_isPrefix (isPrefix_unpackLine _))
  | cleanUp => exact absurd hrm (hremove.not_isPrefix isPrefix_cleanUpLine)
  | transferDlc => exact absurd hrm (hmake.not_isPrefix (isPrefix_transferLine _ _ _))

/-! ## A device with marks -/

/-- The device has given `a` for a command line. Before that it had `marks`, and after it `marks'`.
    It tells truly whether it has the mark of a package. A removal takes away nothing but what its
    pattern covers, and if it succeeds, all of that. Nothing else changes the marks. -/
structure MarkStep (marks : Set String) (line : String) (a : Result Finished)
    (marks' : Set String) : Prop where
  tells : ∀ id slot f, line = checkLine id slot → a = .ok f → f.status = 0 →
    (Text.trim (Text.Utf8.lossy f.stdout) = "1" ↔ verifiedMark id slot ∈ marks)
  removes : ∀ pattern, line = removeLine pattern →
    marks' ⊆ marks ∧ ∀ mark ∈ marks, ¬Covers pattern mark → mark ∈ marks'
  clears : ∀ pattern f, line = removeLine pattern → a = .ok f → f.status = 0 →
    ∀ mark ∈ marks', ¬Covers pattern mark
  keeps : (∀ pattern, line ≠ removeLine pattern) → marks' = marks

/-- The removal of stale marks leaves every mark in its place. -/
theorem MarkStep.mem_iff {marks marks' : Set String} {line : String} {a : Result Finished}
    {K : Layout → Prop} (h : MarkStep marks line a marks')
    (hl : Stage.Says p K .installStateful line) (hid : Request.validDlcId id = true) :
    verifiedMark id slot ∈ marks' ↔ verifiedMark id slot ∈ marks := by
  by_cases hremove : ∃ pattern, line = removeLine pattern
  · obtain ⟨pattern, rfl⟩ := hremove
    obtain ⟨s, rfl⟩ := hl.staleMarks
    obtain ⟨hsub, hkept⟩ := h.removes _ rfl
    constructor
    · intro hmark
      exact hsub hmark
    · intro hmark
      exact hkept _ hmark (not_covers_verifiedMark hid s slot)
  · rw [h.keeps fun pattern heq => hremove ⟨pattern, heq⟩]

/-- The events are those of a device that has `marks` at first. -/
def Marked : (marks : Set String) → List Event → Prop
  | _, [] => True
  | marks, ⟨.run _ line _ _, a⟩ :: tr => ∃ marks', MarkStep marks line a marks' ∧ Marked marks' tr
  | marks, _ :: tr => Marked marks tr

/-- As long as nothing is removed but stale marks, a device has the marks it had at first, and tells
    so. -/
theorem Marked.tells {marks : Set String} {K : Layout → Prop} {out : String}
    (h : Marked marks tr) (hs : Spoken (Stage.Says p K .installStateful) tr)
    (hid : Request.validDlcId id = true) (hout : Printed tr (checkLine id slot) out) :
    Text.trim out = "1" ↔ verifiedMark id slot ∈ marks := by
  induction tr generalizing marks with
  | nil =>
    obtain ⟨c, stdin, mode, f, hmem, -⟩ := hout
    cases hmem
  | cons e tr ih =>
    obtain ⟨he, hrest⟩ := List.forall_mem_cons.1 hs
    obtain ⟨c, stdin, mode, f, hmem, hf, rfl⟩ := hout
    obtain ⟨q, a⟩ := e
    cases q
    case run c' line stdin' mode' =>
      obtain ⟨marks', hstep, h⟩ := h
      rcases List.mem_cons.1 hmem with heq | hmem
      · cases heq
        exact hstep.tells id slot f rfl rfl hf
      · rw [ih h hrest ⟨c, stdin, mode, f, hmem, hf, rfl⟩]
        exact hstep.mem_iff he hid
    all_goals
      rcases List.mem_cons.1 hmem with heq | hmem
      · cases heq
      · exact ih h hrest ⟨c, stdin, mode, f, hmem, hf, rfl⟩

/-! ## What is transferred -/

/-- The package is not transferred, unless the device has said that its mark is not there. -/
def Warranted (id : String) (slot : Slot) (tr : List Event) : Prop :=
  Spoken (fun line => ∀ url, line ≠ transferLine id slot url) tr ∨
    ∃ out, Printed tr (checkLine id slot) out ∧ Text.trim out ≠ "1"

theorem Warranted.append {t u : List Event} (ht : Warranted id slot t) (hu : Warranted id slot u) :
    Warranted id slot (t ++ u) := by
  rcases ht with ht | ⟨out, hout, hne⟩
  · rcases hu with hu | ⟨out, hout, hne⟩
    · exact Or.inl (spoken_append.2 ⟨ht, hu⟩)
    · exact Or.inr ⟨out, hout.append_right, hne⟩
  · exact Or.inr ⟨out, hout.append_left, hne⟩

theorem Warranted.of_utters {α : Type} {t : Task α} {o : Option α} (hrun : t.Run tr o)
    (ht : t.Utters (fun _ => True) fun line => ∀ url, line ≠ transferLine id slot url) :
    Warranted id slot tr :=
  Or.inl (Task.asked hrun ht (knows_true tr)).spoken

namespace Plan

/-- A package is transferred only after the device has said that its mark is not there. -/
theorem warranted_installDlc {id' : String} {o : Option (Result Bool)} (h : '/' ∉ id.toList)
    (h' : '/' ∉ id'.toList) (hrun : (p.installDlc id' slot).Run tr o) : Warranted id slot tr := by
  by_cases heq : id' = id
  · subst heq
    have hcheck : (p.isDlcVerified id' slot).Utters (fun _ => True)
        fun line => ∀ url, line ≠ transferLine id' slot url :=
      utters_isDlcVerified (checkLine_ne_transferLine id' slot)
    obtain ⟨-, h₁⟩ | ⟨t, verified, u, rfl, h₁, h₂⟩ := Program.run_bind.1 hrun
    · exact .of_utters h₁ hcheck
    rcases verified with e | ⟨_ | _⟩
    · obtain ⟨rfl, -⟩ := Program.run_pure.1 h₂
      rw [List.append_nil]
      exact .of_utters h₁ hcheck
    · obtain ⟨out, hout, hb⟩ := isDlcVerified_ok h₁
      exact Or.inr ⟨out, hout.append_left, by simpa using hb⟩
    · obtain ⟨rfl, -⟩ := Program.run_pure.1 (Task.run_log_bind.1 h₂)
      rw [List.append_nil]
      exact .of_utters h₁ hcheck
  · refine .of_utters hrun (utters_installDlc (checkLine_ne_transferLine id' slot) ?_)
    intro url url' hline
    exact heq (transferLine_inj h' h hline)

theorem warranted_installDlcsInto {ids : List String} {n : Nat} {o : Option (Result Nat)}
    (h : '/' ∉ id.toList) (hids : ∀ id' ∈ ids, '/' ∉ id'.toList)
    (hrun : (p.installDlcsInto slot n ids).Run tr o) : Warranted id slot tr := by
  induction ids generalizing n tr with
  | nil =>
    obtain ⟨rfl, -⟩ := Program.run_pure.1 hrun
    exact Or.inl fun _ he => nomatch he
  | cons id' ids ih =>
    obtain ⟨hid', hids⟩ := List.forall_mem_cons.1 hids
    obtain ⟨-, h₁⟩ | ⟨e, h₁, -⟩ | ⟨t, new, u, rfl, h₁, h₂⟩ := Task.run_andThen.1 hrun
    · exact warranted_installDlc h hid' h₁
    · exact warranted_installDlc h hid' h₁
    · exact (warranted_installDlc h hid' h₁).append (ih hids h₂)

theorem transferDlc_ok (h : (p.transferDlc id slot).Run tr (some (.ok ()))) :
    ∃ url out, Printed tr (transferLine id slot url) out := by
  unfold transferDlc at h
  dsimp only at h
  split at h
  · simp at h
  · rename_i url _
    obtain ⟨t, r, u, rfl, h₁, h₂⟩ := Program.run_bind_some.1 h
    rcases r with e | ⟨⟩
    · simp [Result.within] at h₂
    · obtain ⟨out, hout⟩ := run_ok h₁
      exact ⟨url, out, hout.append_left⟩

/-- A package that was installed had its mark, or was transferred. -/
theorem installDlc_ok {new : Bool} (h : (p.installDlc id slot).Run tr (some (.ok new))) :
    (∃ out, Printed tr (checkLine id slot) out ∧ Text.trim out = "1") ∨
      ∃ url out, Printed tr (transferLine id slot url) out := by
  obtain ⟨t, r, u, rfl, h₁, h₂⟩ := Program.run_bind_some.1 h
  rcases r with e | ⟨_ | _⟩
  · simp [Result.within] at h₂
  · obtain ⟨⟨⟩, h₃, -⟩ := Program.run_map_ok.1 h₂
    obtain ⟨url, out, hout⟩ := transferDlc_ok h₃
    exact Or.inr ⟨url, out, hout.append_right⟩
  · obtain ⟨out, hout, hb⟩ := isDlcVerified_ok h₁
    exact Or.inl ⟨out, hout.append_left, by simpa using hb.symm⟩

theorem installDlcsInto_ok {ids : List String} {m n : Nat}
    (h : (p.installDlcsInto slot m ids).Run tr (some (.ok n))) : ∀ id ∈ ids,
      (∃ out, Printed tr (checkLine id slot) out ∧ Text.trim out = "1") ∨
        ∃ url out, Printed tr (transferLine id slot url) out := by
  induction ids generalizing m tr with
  | nil => exact fun _ h => nomatch h
  | cons id ids ih =>
    obtain ⟨t, new, u, rfl, h₁, h₂⟩ := Task.run_andThen_ok.1 h
    refine List.forall_mem_cons.2 ⟨?_, fun id hid => ?_⟩
    · obtain ⟨out, hout, hone⟩ | ⟨url, out, hout⟩ := installDlc_ok h₁
      · exact Or.inl ⟨out, hout.append_left, hone⟩
      · exact Or.inr ⟨url, out, hout.append_left⟩
    · obtain ⟨out, hout, hone⟩ | ⟨url, out, hout⟩ := ih h₂ id hid
      · exact Or.inl ⟨out, hout.append_right, hone⟩
      · exact Or.inr ⟨url, out, hout.append_right⟩

theorem warranted_installDlcs {o : Option (Result Nat)} (hl : Remembers l tr) (hs : l.Agrees slot)
    (h : '/' ∉ id.toList) (hids : ∀ id' ∈ p.request.dlcIds, '/' ∉ id'.toList)
    (hrun : p.installDlcs.Run tr o) : Warranted id slot.other tr := by
  obtain ⟨-, h₁⟩ | ⟨e, h₁, -⟩ | ⟨t, s, u, rfl, h₁, h₂⟩ := Task.run_andThen.1 hrun
  · exact .of_utters h₁ utters_startSlot
  · exact .of_utters h₁ utters_startSlot
  · obtain ⟨-, ho⟩ | ⟨-, ho⟩ :=
      (startSlot_run (hl.mono fun _ => List.mem_append_left u) hs).1 h₁
    · cases ho
    · cases gives_some.1 ho
      exact (Warranted.of_utters h₁ utters_startSlot).append
        (warranted_installDlcsInto h hids h₂)

theorem installDlcs_ok {n : Nat} (hl : Remembers l tr) (hs : l.Agrees slot)
    (h : p.installDlcs.Run tr (some (.ok n))) : ∀ id ∈ p.request.dlcIds,
      (∃ out, Printed tr (checkLine id slot.other) out ∧ Text.trim out = "1") ∨
        ∃ url out, Printed tr (transferLine id slot.other url) out := by
  obtain ⟨t, s, u, rfl, h₁, h₂⟩ := Task.run_andThen_ok.1 h
  obtain ⟨-, ho⟩ | ⟨-, ho⟩ := (startSlot_run (hl.mono fun _ => List.mem_append_left u) hs).1 h₁
  · cases ho
  · cases gives_some.1 ho
    intro id hid
    obtain ⟨out, hout, hone⟩ | ⟨url, out, hout⟩ := installDlcsInto_ok h₂ id hid
    · exact Or.inl ⟨out, hout.append_right, hone⟩
    · exact Or.inr ⟨url, out, hout.append_right⟩

end Plan

/-! ## The whole stage -/

namespace Stage

open Plan

/-- In a run of the stage, a package is transferred only after the device has said that its mark is
    not there. -/
theorem warranted {o : Option (Result StageOutcome)} (hs : l.Agrees slot) (h : '/' ∉ id.toList)
    (hids : ∀ id' ∈ p.request.dlcIds, '/' ∉ id'.toList)
    (hrun : (installStateful.execute p).Run tr o) (hl : Remembers l tr) :
    Warranted id slot.other tr := by
  have hstop : BeginApart "stop " "mkdir" := by decide
  have hstart : BeginApart "start " "mkdir" := by decide
  have htest : BeginApart "[ -e " "mkdir" := by decide
  have hremove : BeginApart "rm -" "mkdir" := by decide
  have hclean : ∀ url, cleanUpLine ≠ transferLine id slot.other url :=
    ne_transferLine (by decide : "rm -".toList <+: cleanUpLine.toList) hremove
  obtain ⟨r, hchain, -⟩ := (execute_run (by decide)).1 hrun
  refine runChain_trace (P := fun t => Remembers l t → Warranted id slot.other t) hchain
    (fun _ => Or.inl fun _ he => nomatch he) ?_ ?_ ?_ hl
  · intro t u ht hu hl
    exact (ht (hl.mono fun _ => List.mem_append_left u)).append
      (hu (hl.mono fun _ => List.mem_append_right t))
  · intro c hc t o ht hl
    simp only [commands, List.mem_append, List.mem_singleton, mem_unless] at hc
    obtain ((rfl | ⟨-, rfl⟩) | rfl) | ⟨-, rfl⟩ := hc
    all_goals obtain ⟨r', ht, -⟩ := Program.run_bind_pure.1 ht
    all_goals rw [Procedure.run_procedure] at ht
    · refine .of_utters ht (utters_stopSystemDaemons (ne_transferLine ?_ hstop)
        (ne_transferLine ?_ hstop)) <;> decide
    · refine .of_utters ht (utters_clearDlcArtifacts
        (ne_transferLine (Shell.isPrefix_pathExists _) htest) (ne_transferLine ?_ hstop)
        (fun s => ne_transferLine ?_ hremove) (ne_transferLine ?_ hstart))
      · decide
      · cases s <;> decide
      · decide
    · refine .of_utters ht (utters_installStateful (fun url _ => ?_) hclean)
      exact ne_transferLine (isPrefix_unpackLine url) (by decide)
    · exact warranted_installDlcs hl hs h hids ht
  · intro c hc t o ht hl
    simp only [commands, List.mem_append, List.mem_singleton, mem_unless] at hc
    obtain ((rfl | ⟨-, rfl⟩) | rfl) | ⟨-, rfl⟩ := hc
    · obtain ⟨rfl, -⟩ := Program.run_pure.1 ht
      exact Or.inl fun _ he => nomatch he
    · obtain ⟨rfl, -⟩ := Program.run_pure.1 ht
      exact Or.inl fun _ he => nomatch he
    · exact .of_utters (Procedure.run_procedure.1 ht) (utters_revertInstallStateful hclean)
    · obtain ⟨rfl, -⟩ := Program.run_pure.1 ht
      exact Or.inl fun _ he => nomatch he

/-- In a run of the stage that is completed, every package had its mark or was transferred. -/
theorem installDlcs_completed {outcome : StageOutcome} (hs : l.Agrees slot)
    (hrun : (installStateful.execute p).Run tr (some (.ok outcome))) (hl : Remembers l tr)
    (hid : id ∈ p.request.dlcIds) :
    (∃ out, Printed tr (checkLine id slot.other) out ∧ Text.trim out = "1") ∨
      ∃ url out, Printed tr (transferLine id slot.other url) out := by
  obtain ⟨ds, hd⟩ := executed (by decide) hrun
  have hne : p.request.dlcIds.isEmpty = false := by
    rw [List.isEmpty_eq_false_iff]
    exact List.ne_nil_of_mem hid
  obtain ⟨a, t, b, d, rfl, hc⟩ := hd.mem (show Command.installDlcs ∈ _ by simp [commands, hne])
  obtain ⟨-, n, hc⟩ := Command.kept_run.1 hc
  have ht : Remembers l t := hl.mono fun e he => by simp [he]
  obtain ⟨out, hout, hone⟩ | ⟨url, out, hout⟩ :=
    installDlcs_ok ht hs (Procedure.run_procedure.1 hc) id hid
  · exact Or.inl ⟨out, hout.append_left.append_right, hone⟩
  · exact Or.inr ⟨url, out, hout.append_left.append_right⟩

end Stage

/-! ## An honest device -/

/-- A command that succeeds and prints `out`. -/
def prints (out : String) : Result Finished := .ok { stdout := Text.Utf8.ofString out }

/-- A device on which every command succeeds. Its state is the paths that are there. It removes
    stale marks and tells of every path whether it is there. -/
def honest : Answers (List String)
  | .isClosed, paths => some (false, paths)
  | .current, paths => some (some ⟨1, "dut"⟩, paths)
  | .log _, paths | .guard _, paths | .unguard, paths => some ((), paths)
  | .run _ line _ _, paths =>
    match [staleMarks .a, staleMarks .b].find? fun pattern => line == removeLine pattern with
    | some pattern => some (prints "", paths.filter fun path => !decide (Covers pattern path))
    | none =>
      if paths.any fun path => line == Shell.pathExists path then some (prints "1", paths)
      else some (prints "0", paths)
  | _, _ => none

theorem any_pathExists {paths : List String} {path : String} :
    (paths.any fun x => Shell.pathExists path == Shell.pathExists x) = true ↔ path ∈ paths := by
  rw [List.any_eq_true]
  constructor
  · rintro ⟨x, hx, heq⟩
    have hpath : path = x := by simpa [Shell.pathExists] using heq
    rwa [hpath]
  · intro hpath
    exact ⟨path, hpath, beq_self_eq_true _⟩

/-- What an honest device does to its marks, and what it tells of them. -/
theorem markStep_honest {K : Layout → Prop} {line : String} {c : Connection}
    {stdin : Option (List UInt8)} {mode : StderrMode} {paths paths' : List String}
    {a : Result Finished} (h : honest (.run c line stdin mode) paths = some (a, paths'))
    (hl : Stage.Says p K .installStateful line) :
    MarkStep {m | m ∈ paths} line a {m | m ∈ paths'} := by
  simp only [honest] at h
  split at h
  · rename_i pattern hfind
    have hapart : BeginApart "[ -e " "rm -f " := by decide
    have hline : line = removeLine pattern := by simpa using List.find?_some hfind
    subst hline
    cases h
    have hinj : ∀ {pattern'}, removeLine pattern = removeLine pattern' → pattern' = pattern := by
      intro pattern' heq
      simpa [removeLine, eq_comm] using heq
    have hmem : ∀ {path}, path ∈ paths.filter (fun path => !decide (Covers pattern path)) ↔
        path ∈ paths ∧ ¬Covers pattern path := by
      simp
    refine ⟨fun id slot f heq => ?_, fun pattern' heq => ?_, fun pattern' f heq _ _ => ?_,
      fun hne => absurd rfl (hne pattern)⟩
    · have htest := Shell.isPrefix_pathExists (verifiedMark id slot)
      rw [← checkLine, ← heq] at htest
      exact absurd isPrefix_removeLine (hapart.not_isPrefix htest)
    · rw [hinj heq]
      exact ⟨fun path hpath => (hmem.1 hpath).1, fun path hpath hnot => hmem.2 ⟨hpath, hnot⟩⟩
    · rw [hinj heq]
      exact fun path hpath => (hmem.1 hpath).2
  · rename_i hfind
    have hne : ∀ pattern, line ≠ removeLine pattern := by
      rintro pattern rfl
      obtain ⟨s, rfl⟩ := hl.staleMarks
      have hs : staleMarks s ∈ [staleMarks .a, staleMarks .b] := by cases s <;> simp
      exact absurd (beq_self_eq_true _) (List.find?_eq_none.1 hfind _ hs)
    have hanswer : paths' = paths ∧ ∀ f, a = .ok f → (Text.trim (Text.Utf8.lossy f.stdout) = "1" ↔
        paths.any (fun path => line == Shell.pathExists path) = true) := by
      split at h <;> rename_i hany <;> cases h <;> refine ⟨rfl, fun f hf => ?_⟩ <;> cases hf
      · exact iff_of_true (by decide +kernel) hany
      · exact iff_of_false (by decide +kernel) hany
    obtain ⟨rfl, htells⟩ := hanswer
    refine ⟨fun id slot f heq hf _ => ?_, fun pattern heq => absurd heq (hne pattern),
      fun pattern f heq => absurd heq (hne pattern), fun _ => rfl⟩
    rw [htells f hf, heq, checkLine]
    exact any_pathExists

/-- What is played on an honest device are events of a device with marks. -/
theorem marked_honest {K : Layout → Prop} {q : Ask} {s s' : Option Layout × List String}
    {a : q.Answer} (h : q.answered honest s = some (a, s')) {tr : List Event}
    (htr : Spoken (Stage.Says p K .installStateful) tr → Marked {m | m ∈ s'.2} tr)
    (hs : Spoken (Stage.Says p K .installStateful) (q.record a ++ tr)) :
    Marked {m | m ∈ s.2} (q.record a ++ tr) := by
  obtain ⟨m, paths⟩ := s
  obtain ⟨hq, hrest⟩ := spoken_append.1 hs
  cases q
  case run c line stdin mode =>
    obtain ⟨⟨a', paths'⟩, hrun, h⟩ := Option.map_eq_some_iff.1 h
    cases h
    exact ⟨_, markStep_honest hrun (hq _ (List.mem_singleton.2 rfl)), htr hrest⟩
  case layout | setLayout | isClosed | current | guard | unguard | log =>
    cases h
    exact htr hrest
  all_goals cases h

/-- An installation of two packages. -/
def twoPackages : Plan where
  link := { dut := "dut", cacheAddress := "10.0.0.1:8082" }
  request := { imagePath := "gs://images/r100", dlcIds := ["termina", "borealis"] }

/-- The paths of a device on which one of the two packages was left with a mark. -/
def leftPaths : List String := [dlcLibDir, verifiedMark "termina" .b]

/-- What is played on it, from the state in which the disk is known. -/
def leftPlay : List Event × (Option Layout × List String) × Option (Result StageOutcome) :=
  (Stage.installStateful.execute twoPackages).play honest (some bootedA, leftPaths)

/-- The stage is completed on this device. -/
theorem leftPlay_run : (Stage.installStateful.execute twoPackages).Run leftPlay.1
    (some (.ok .completed)) := by
  have hrun := (Stage.installStateful.execute twoPackages).run_play (f := honest)
    (some bootedA, leftPaths)
  have hdone : leftPlay.2.2.map Except.toOption = some (some .completed) := by decide +kernel
  obtain ⟨e | outcome, hr, ho⟩ := Option.map_eq_some_iff.1 hdone
  · cases ho
  · cases ho
    rwa [← leftPlay, hr] at hrun

theorem leftPlay_remembers : Remembers bootedA leftPlay.1 := by
  have hrecalls := (Stage.installStateful.execute twoPackages).recalls_play (f := honest)
    (some bootedA, leftPaths) [] trivial
  rw [List.append_nil] at hrecalls
  exact hrecalls.remembers
    (Stage.uttered (by decide) leftPlay_run (knows_true leftPlay.1)).ne_setLayout

theorem leftPlay_marked : Marked {m | m ∈ leftPaths} leftPlay.1 := by
  have hspoken := Stage.spoken leftPlay_run
  have hmarked := (Stage.installStateful.execute twoPackages).play_induct (f := honest)
    (I := fun s tr => Spoken (Stage.Says twoPackages (fun _ => True) .installStateful) tr →
      Marked {m | m ∈ s.2} tr)
    (fun _ _ _ _ h _ htr => marked_honest h htr) (some bootedA, leftPaths) [] fun _ => trivial
  rw [List.append_nil] at hmarked
  exact hmarked hspoken

/-! ## What is decided by the marks -/

namespace Stage

/-- **Marks that were left are not removed.** The pattern of the files that are removed covers the
    mark of no package that is accepted, in neither slot. So on a device that tells truly which
    marks it has, and on which a removal removes what its pattern covers, it is the marks from
    before the stage that decide: a package that had one in the slot to be written is never
    transferred, and if the stage is completed, every package that had none was. -/
theorem installStateful_transfers (hv : p.request.validate = .ok ())
    (hs : l.Agrees slot) :
    (∀ id ∈ p.request.dlcIds, ∀ s s' : Slot, ¬Covers (staleMarks s) (verifiedMark id s')) ∧
    ∀ marks tr o, (installStateful.execute p).Run tr o → Remembers l tr → Marked marks tr →
      ∀ id ∈ p.request.dlcIds,
        (verifiedMark id slot.other ∈ marks →
          Spoken (fun line => ∀ url, line ≠ transferLine id slot.other url) tr) ∧
        (verifiedMark id slot.other ∉ marks → o = some (.ok .completed) →
          ∃ url out, Printed tr (transferLine id slot.other url) out) := by
  have hvalid := Request.validDlcId_of_mem hv
  have hplain : ∀ id ∈ p.request.dlcIds, '/' ∉ id.toList := fun id hid =>
    (Request.plain_of_validDlcId (hvalid id hid)).2
  refine ⟨fun id hid => not_covers_verifiedMark (hvalid id hid), ?_⟩
  intro marks tr o hrun hl hmarks id hid
  have hspoken := spoken hrun
  refine ⟨fun hmark => ?_, fun hmark ho => ?_⟩
  · obtain hnever | ⟨out, hout, hne⟩ := warranted hs (hplain id hid) hplain hrun hl
    · exact hnever
    · exact absurd ((hmarks.tells hspoken (hvalid id hid) hout).2 hmark) hne
  · subst ho
    obtain ⟨out, hout, hone⟩ | htransferred := installDlcs_completed hs hrun hl hid
    · exact absurd ((hmarks.tells hspoken (hvalid id hid) hout).1 hone) hmark
    · exact htransferred

/-- Of the two packages, the one with a mark is never transferred, and the other one is. -/
theorem installStateful_transfers_left :
    Spoken (fun line => ∀ url, line ≠ transferLine "termina" .b url) leftPlay.1 ∧
    ∃ url out, Printed leftPlay.1 (transferLine "borealis" .b url) out := by
  have hv : twoPackages.request.validate = .ok () := rfl
  obtain ⟨-, htransfers⟩ := installStateful_transfers hv bootedA_agrees
  have h := htransfers _ _ _ leftPlay_run leftPlay_remembers leftPlay_marked
  refine ⟨(h "termina" (by decide)).1 (by decide), (h "borealis" (by decide)).2 ?_ rfl⟩
  decide

/-- **A mark is left behind.** The stage is completed on a device that removes what it is told to
    remove, and a package is skipped because of a mark that was there before. -/
theorem mark_left_behind : twoPackages.request.validate = .ok () ∧
    "termina" ∈ twoPackages.request.dlcIds ∧ bootedA.Agrees .a ∧
    ¬Covers (staleMarks .b) (verifiedMark "termina" .b) ∧
    ∃ tr marks, (installStateful.execute twoPackages).Run tr (some (.ok .completed)) ∧
      Remembers bootedA tr ∧ Marked marks tr ∧
      Spoken (fun line => ∀ url, line ≠ transferLine "termina" .b url) tr := by
  have hid : Request.validDlcId "termina" = true := by decide
  refine ⟨rfl, by decide, bootedA_agrees, not_covers_verifiedMark hid .b .b, leftPlay.1, _,
    leftPlay_run, leftPlay_remembers, leftPlay_marked, ?_⟩
  have hwarranted : Warranted "termina" Slot.a.other leftPlay.1 :=
    warranted bootedA_agrees (by decide) (by decide) leftPlay_run leftPlay_remembers
  obtain hnever | ⟨out, hout, hne⟩ := hwarranted
  · exact hnever
  · have htells := leftPlay_marked.tells (spoken leftPlay_run) hid hout
    exact absurd (htells.2 (by decide)) hne

end Stage

end Reimage
