/-
  What a link that reports success has seen the device do.

  * `Link.runCommand_ok`: a command that gave its output ran on the device and ended with status
    zero;
  * `Link.restart_ok`: a restart that succeeded saw the old connection drop and made a new one
    current after that.
-/
import Reimage.Link.Basic
import Reimage.Proofs.Runs
import Reimage.Proofs.Shell

namespace Reimage

/-- The device ran `line` to its end with status zero, and the output reads `out`. -/
def Printed (tr : List Event) (line out : String) : Prop :=
  ∃ c stdin mode f, (⟨.run c line stdin mode, .ok f⟩ : Event) ∈ tr ∧ f.status = 0 ∧
    Text.Utf8.lossy f.stdout = out

/-- The device was sent to reboot, then the connection `old` was seen to drop, and then a connection
    was opened and made current. -/
def Restarted (tr : List Event) : Prop :=
  ∃ t u v w old c deadline, tr = t ++ u ++ v ++ w ∧
    (∃ args out, Printed t (Shell.commandLine "reboot" args) out) ∧
    (⟨.awaitCloseBefore old deadline, some (.ok ())⟩ : Event) ∈ u ∧
    (⟨.dialBefore deadline, some (.ok c)⟩ : Event) ∈ v ∧ (⟨.install c, true⟩ : Event) ∈ w

theorem Printed.mono {t u : List Event} {line out : String} (h : Printed t line out)
    (htu : ∀ e ∈ t, e ∈ u) : Printed u line out := by
  obtain ⟨c, stdin, mode, f, hf, h⟩ := h
  exact ⟨c, stdin, mode, f, htu _ hf, h⟩

theorem Printed.append_left {t u : List Event} {line out : String} (h : Printed t line out) :
    Printed (t ++ u) line out :=
  h.mono fun _ => List.mem_append_left u

theorem Printed.append_right {t u : List Event} {line out : String} (h : Printed u line out) :
    Printed (t ++ u) line out :=
  h.mono fun _ => List.mem_append_right t

theorem Restarted.append_left {t u : List Event} (h : Restarted t) : Restarted (t ++ u) := by
  obtain ⟨a, b, c, d, old, new, deadline, rfl, hr, ho, hd, hi⟩ := h
  exact ⟨a, b, c, d ++ u, old, new, deadline, by simp, hr, ho, hd, List.mem_append_left _ hi⟩

theorem Restarted.append_right {t u : List Event} (h : Restarted u) : Restarted (t ++ u) := by
  obtain ⟨a, b, c, d, old, new, deadline, rfl, ⟨args, out, hr⟩, ho, hd, hi⟩ := h
  exact ⟨t ++ a, b, c, d, old, new, deadline, by simp, ⟨args, out, hr.append_right⟩, ho, hd, hi⟩

namespace ExecResult

theorem intoStdout_eq_ok {command out : String} {r : ExecResult} :
    r.intoStdout command = .ok out ↔
      ∃ f, r = .finished f ∧ f.status = 0 ∧ Text.Utf8.lossy f.stdout = out := by
  cases r with
  | notStarted _ => simp [intoStdout]
  | finished f =>
    by_cases h : f.status = 0 <;> simp [intoStdout, h]

end ExecResult

namespace Link

variable {l : Link}

theorem exec_finished {command : String} {stdin : Option (List UInt8)} {mode : StderrMode}
    {tr : List Event} {f : Finished}
    (h : (l.exec command stdin mode).Run tr (some (.finished f))) :
    ∃ c, (⟨.run c command stdin mode, .ok f⟩ : Event) ∈ tr := by
  obtain ⟨t, e | c, u, rfl, -, h⟩ := Program.run_bind_some.1 h
  · obtain ⟨-, h⟩ := Program.run_pure_some.1 h
    cases h
  · obtain ⟨a, h, ha⟩ := Program.run_bind_pure_some.1 h
    cases Task.run_ask_some.1 h
    cases a with
    | error e => cases ha
    | ok g =>
      cases ha
      exact ⟨c, List.mem_append_right _ (List.mem_singleton.2 rfl)⟩

/-- **A command that gave its output.** -/
theorem runCommand_ok {command : String} {args : List String} {stdin : Option (List UInt8)}
    {mode : StderrMode} {tr : List Event} {out : String}
    (h : (l.runCommand command args stdin mode).Run tr (some (.ok out))) :
    Printed tr (Shell.commandLine command args) out := by
  obtain ⟨r, hrun, hr⟩ := Program.run_bind_pure_some.1 h
  obtain ⟨f, rfl, hf, rfl⟩ := ExecResult.intoStdout_eq_ok.1 hr.symm
  obtain ⟨c, hc⟩ := exec_finished hrun
  exact ⟨c, stdin, mode, f, hc, hf, rfl⟩

theorem pathExists_ok {path : String} {tr : List Event} {b : Bool}
    (h : (l.pathExists path).Run tr (some (.ok b))) :
    ∃ out, Printed tr (Shell.pathExists path) out ∧ b = (Text.trim out == "1") := by
  obtain ⟨out, hrun, rfl⟩ := Program.run_map_ok.1 h
  have hp := runCommand_ok hrun
  rw [Shell.commandLine_nil] at hp
  exact ⟨out, hp, rfl⟩

theorem install_ok {c : Connection} {tr : List Event}
    (h : (l.install c).Run tr (some (.ok ()))) : (⟨.install c, true⟩ : Event) ∈ tr := by
  obtain ⟨t, done, u, rfl, h, h'⟩ := Program.run_bind_some.1 h
  cases Task.run_ask_some.1 h
  cases done with
  | true => exact List.mem_append_left _ (List.mem_singleton.2 rfl)
  | false =>
    obtain ⟨-, -, v, -, -, h'⟩ := Program.run_bind_some.1 h'
    obtain ⟨-, h'⟩ := Program.run_pure_some.1 h'
    cases h'

/-- The steps of a successful redial, in their order. -/
theorem redial_sublist {timeout : Duration} {deadline : Instant} {tr : List Event}
    (h : (l.redial timeout deadline).Run tr (some (.ok ()))) :
    ∃ c, List.Sublist [(⟨.acquire, ()⟩ : Event), ⟨.dialBefore deadline, some (.ok c)⟩,
      ⟨.install c, true⟩] tr := by
  obtain ⟨t, _, u, rfl, hl, h₁⟩ := Program.run_bind_some.1 h
  cases Task.run_ask_some.1 hl
  obtain ⟨v, dialed, w, rfl, hd, h₂⟩ := Program.run_bind_some.1 h₁
  cases Task.run_ask_some.1 hd
  match dialed with
  | none => simp [Program.run_bind_some] at h₂
  | some (.error e) => simp [Program.run_bind_some] at h₂
  | some (.ok c) =>
    obtain ⟨x, r, y, rfl, h₃, h₄⟩ := Program.run_bind_some.1 h₂
    obtain ⟨_, _, _, -, -, h₅⟩ := Program.run_bind_some.1 h₄
    obtain ⟨-, rfl⟩ := Program.run_pure_some.1 h₅
    obtain ⟨x, ⟨⟩, z, rfl, hi, -⟩ := Task.run_andThen_ok.1 h₃
    have hc : (⟨.install c, true⟩ : Event) ∈ x ++ z ++ y :=
      List.mem_append_left _ (List.mem_append_left _ (install_ok hi))
    exact ⟨c, ((List.singleton_sublist.2 hc).cons_cons _).cons_cons _⟩

theorem redial_ok {timeout : Duration} {deadline : Instant} {tr : List Event}
    (h : (l.redial timeout deadline).Run tr (some (.ok ()))) :
    ∃ c v w, tr = v ++ w ∧ (⟨.dialBefore deadline, some (.ok c)⟩ : Event) ∈ v ∧
      (⟨.install c, true⟩ : Event) ∈ w := by
  obtain ⟨c, hc⟩ := redial_sublist h
  have hc' : List.Sublist ([_, _] ++ [_]) tr := hc
  obtain ⟨v, w, rfl, hv, hw⟩ := List.append_sublist_iff.1 hc'
  exact ⟨c, v, w, rfl, hv.subset (by simp), hw.subset (by simp)⟩

/-- **A restart that succeeded.** -/
theorem restart_ok {args : List String} {timeout : Duration} {tr : List Event} {out : String}
    (h : (l.restart args timeout).Run tr (some (.ok out))) : Restarted tr := by
  obtain ⟨t, deadline, u, rfl, -, h₁⟩ := Program.run_bind_some.1 h
  obtain ⟨v, old, w, rfl, -, h₂⟩ := Task.run_andThen_ok.1 h₁
  obtain ⟨x, printed, y, rfl, hr, h₃⟩ := Task.run_andThen_ok.1 h₂
  rw [Task.run_log_bind] at h₃
  obtain ⟨z, dropped, w, rfl, hd, h₄⟩ := Program.run_bind_some.1 h₃
  cases Task.run_ask_some.1 hd
  match dropped with
  | none => simp at h₄
  | some (.error e) => simp at h₄
  | some (.ok ()) =>
    obtain ⟨w, ⟨⟩, s, rfl, h₅, -⟩ := Task.run_andThen_ok.1 h₄
    obtain ⟨c, a, b, rfl, hdial, hi⟩ := redial_ok h₅
    refine .append_right (.append_right ?_)
    refine ⟨x, [⟨.awaitCloseBefore old deadline, some (.ok ())⟩], a, b ++ s, old, c, deadline, ?_,
      ⟨args, printed, runCommand_ok hr⟩, List.mem_singleton.2 rfl, hdial,
      List.mem_append_left _ hi⟩
    simp [Ask.record]

end Link

end Reimage
