/-
  Commands that are run over a link, one after the other.

  What a task does with a link is often a few commands and nothing else. Then its trace falls into
  the runs of these commands.

  * `Link.Issues`: a trace is that of some commands, each with what was reported of it;
  * `Link.issues_runCommand`: a command that gives its output is one of them;
  * `Link.Issues.lines_sublist`, `Link.Issues.lines_held`: what the device is handed of them, which
    is all of them once there is a connection.
-/
import Reimage.Proofs.Link.Open

namespace Reimage

/-- A command line that was run over a link, and what was reported of it. -/
structure Issued where
  line : String
  result : ExecResult

namespace Link

variable {l : Link} {cur : Option Connection} {tr t u : List Event}

/-- The trace is that of the commands, one after the other, and of nothing else. -/
inductive Issues (l : Link) : List Event → List Issued → Prop
  | nil : Issues l [] []
  | cons {line : String} {r : ExecResult} {t u : List Event} {rest : List Issued} :
    (l.exec line).Run t (some r) → Issues l u rest → Issues l (t ++ u) (⟨line, r⟩ :: rest)

namespace Issues

variable {issued before after : List Issued} {line : String} {r : ExecResult}

theorem append (h : l.Issues t before) (h' : l.Issues u after) :
    l.Issues (t ++ u) (before ++ after) := by
  induction h with
  | nil => exact h'
  | cons hrun _ ih =>
    rw [List.append_assoc]
    exact .cons hrun ih

theorem split (h : l.Issues tr (before ++ after)) :
    ∃ t u, tr = t ++ u ∧ l.Issues t before ∧ l.Issues u after := by
  induction before generalizing tr with
  | nil => exact ⟨[], tr, rfl, .nil, h⟩
  | cons i before ih =>
    cases h with
    | cons hrun hrest =>
      obtain ⟨t, u, rfl, ht, hu⟩ := ih hrest
      exact ⟨_, u, (List.append_assoc ..).symm, .cons hrun ht, hu⟩

theorem singleton_iff : l.Issues tr [⟨line, r⟩] ↔ (l.exec line).Run tr (some r) := by
  constructor
  · intro h
    cases h with
    | cons hrun hrest =>
      cases hrest
      rwa [List.append_nil]
  · intro hrun
    rw [← List.append_nil tr]
    exact .cons hrun .nil

/-- Each command has run in some part of the trace. -/
theorem exists_infix {i : Issued} (h : l.Issues tr issued) (hi : i ∈ issued) :
    ∃ t, t <:+: tr ∧ (l.exec i.line).Run t (some i.result) := by
  obtain ⟨before, after, rfl⟩ := List.append_of_mem hi
  obtain ⟨t, v, rfl, -, hv⟩ := h.split
  cases hv with
  | @cons line r u w rest hrun _ => exact ⟨u, ⟨t, w, by simp⟩, hrun⟩

/-- The device is handed nothing but the lines of the commands, in their order. -/
theorem lines_sublist (h : l.Issues tr issued) :
    (lines tr).Sublist (issued.map Issued.line) := by
  induction h with
  | nil => exact List.Sublist.refl _
  | cons hrun _ ih =>
    rw [lines_append, List.map_cons]
    obtain hnone | hone := exec_lines hrun
    · rw [hnone]
      exact ih.cons _
    · rw [hone]
      exact ih.cons_cons _

/-- If every command ran to its end, the device was handed all of them. -/
theorem lines_eq (h : l.Issues tr issued) (hrun : ∀ i ∈ issued, i.result.started = true) :
    lines tr = issued.map Issued.line := by
  induction h with
  | nil => rfl
  | cons hexec _ ih =>
    obtain ⟨hstarted, hrest⟩ := List.forall_mem_cons.1 hrun
    rw [lines_append, ih hrest, List.map_cons]
    obtain ⟨-, message, rfl⟩ | ⟨t, c, a, rfl, ht, -, -⟩ := exec_run none hexec
    · cases hstarted
    · rw [lines_append, ht]
      rfl

/-- **Once there is a connection, the device is handed every command.** -/
theorem lines_held (h : l.Issues tr issued) (hcur : cur.isSome) (ho : Open cur tr) :
    lines tr = issued.map Issued.line := by
  induction h generalizing cur with
  | nil => rfl
  | cons hexec _ ih =>
    obtain ⟨hfirst, hrest⟩ := open_append.1 ho
    rw [lines_append, ih (hfirst.held_isSome hcur) hrest, List.map_cons]
    obtain ⟨c, a, rfl, -⟩ := exec_run_held hcur hfirst hexec
    exact congrArg (· ++ _) (lines_sent c a)

end Issues

/-- A command that gives its output, and what is made of the output. -/
theorem issues_runCommand {α : Type} {command : String} {args : List String}
    {f : Result String → α} {b : α} :
    Program.Run (l.runCommand command args >>= fun r => pure (f r)) tr (some b) ↔
      ∃ r, l.Issues tr [⟨Shell.commandLine command args, r⟩] ∧
        b = f (r.intoStdout (Shell.commandLine command args)) := by
  simp only [Issues.singleton_iff, Program.run_bind_pure_some, runCommand]
  constructor
  · rintro ⟨_, ⟨r, hrun, rfl⟩, rfl⟩
    exact ⟨r, hrun, rfl⟩
  · rintro ⟨r, hrun, rfl⟩
    exact ⟨_, ⟨r, hrun, rfl⟩, rfl⟩

/-- A path is looked for by one command, and is there if the output reads `1`. -/
theorem issues_pathExists {path : String} {found : Result Bool} :
    (l.pathExists path).Run tr (some found) ↔ ∃ r, l.Issues tr [⟨Shell.pathExists path, r⟩] ∧
      found = (r.intoStdout (Shell.pathExists path)).map fun output => Text.trim output == "1" := by
  have h : (l.pathExists path).Run tr (some found) ↔ ∃ r,
      l.Issues tr [⟨Shell.commandLine (Shell.pathExists path) [], r⟩] ∧
        found = (r.intoStdout (Shell.commandLine (Shell.pathExists path) [])).map
          fun output => Text.trim output == "1" := issues_runCommand
  rwa [Shell.commandLine_nil] at h

end Link

end Reimage
