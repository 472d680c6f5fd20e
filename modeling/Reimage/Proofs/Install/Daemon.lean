/-
  The package service is started again.

  The marks of packages are removed while the package service is stopped. Between the stop and the
  start the task is guarded by a job that starts the service, and it takes the guard back when it
  starts the service itself.

  * `Plan.clearMarks_run`, `Plan.clearMarks_rests`: what was handed in, at the end and wherever the
    task may be dropped;
  * `Plan.StartsAgain`: a start was handed in after the stop, or a job that guards the task will
    hand it in;
  * `Plan.clearDlcArtifacts_starts`: that is so wherever the task is dropped, except while it waits
    for the stop itself.
-/
import Reimage.Proofs.Install.Packages
import Reimage.Proofs.Install.Slots
import Reimage.Proofs.Link.Open
import Reimage.Service

namespace Reimage.Plan

open Link

variable {p : Plan} {cur : Option Connection} {tr : List Event} {slot : Slot}

/-! ## One command -/

section

variable {command : String} {args : List String}

theorem run_run_held {r : Result Unit} (hcur : cur.isSome) (ho : Open cur tr)
    (h : (p.run command args).Run tr (some r)) :
    ∃ c a, tr = sent c (Shell.commandLine command args) none .separate a ∧
      (r = .ok () ↔ ∃ f, a = .ok f ∧ f.status = 0) := by
  obtain ⟨out, h₁, rfl⟩ := Program.run_bind_pure_some.1 h
  obtain ⟨result, h₂, rfl⟩ := Program.run_bind_pure_some.1 h₁
  obtain ⟨c, a, rfl, rfl⟩ := exec_run_held hcur ho h₂
  refine ⟨c, a, rfl, ?_⟩
  rcases a with e | f
  · simp [ExecResult.ofAttempt, ExecResult.intoStdout, Except.map]
  · by_cases hf : f.status = 0 <;>
      simp [ExecResult.ofAttempt, ExecResult.intoStdout, Except.map, hf]

theorem run_rests_held {q : Ask} (hcur : cur.isSome) (ho : Open cur tr)
    (h : (p.run command args).Rests tr (some q)) :
    ∃ c, tr = found c ∧ q = .run c (Shell.commandLine command args) none .separate :=
  exec_rests_held hcur ho (Task.rests_map.1 (Task.rests_map.1 h))

end

/-! ## Removal -/

/-- The line that removes the marks in a slot. -/
def clearLine (slot : Slot) : String := Shell.commandLine "rm" ["-f", staleMarks slot]

/-- The guard of a task that has stopped the package service. -/
abbrev startJob : Job := .startDaemon "dlcservice"

theorem clearStopped_run {r : Result Unit} (hcur : cur.isSome) (ho : Open cur tr)
    (h : (p.clearStopped slot).Run tr (some r)) :
    ∃ c₁ a c₂ b, tr = ⟨.guard startJob, ()⟩ :: (sent c₁ (clearLine slot) none .separate a ++
        ⟨.unguard, ()⟩ :: sent c₂ "start dlcservice" none .separate b) ∧
      (r = .ok () ↔ ∃ f, a = .ok f ∧ f.status = 0) := by
  obtain ⟨_, t₁, rfl, h₁⟩ := Task.run_ask_bind_some.1 h
  obtain ⟨t₂, cleared, t₃, rfl, h₂, h₃⟩ := Program.run_bind_some.1 h₁
  obtain ⟨ho₂, ho₃⟩ := open_append.1 (show Open cur (t₂ ++ t₃) from ho)
  obtain ⟨c₁, a, rfl, hcleared⟩ := run_run_held hcur ho₂ h₂
  obtain ⟨_, t₄, rfl, h₄⟩ := Task.run_ask_bind_some.1 h₃
  obtain ⟨t₅, started, t₆, rfl, h₅, h₆⟩ := Program.run_bind_some.1 h₄
  obtain ⟨ho₅, -⟩ := open_append.1 (show Open (some c₁) (t₅ ++ t₆) from ho₃)
  obtain ⟨c₂, b, rfl, -⟩ := run_run_held rfl ho₅ h₅
  have hlast : t₆ = [] ∧ r = cleared.within "failed remove inactive verified DLCs" := by
    rcases started with e | ⟨⟩
    · exact Program.run_pure_some.1 (Task.run_log_bind.1 h₆)
    · exact Program.run_pure_some.1 h₆
  obtain ⟨rfl, rfl⟩ := hlast
  refine ⟨c₁, a, c₂, b, by simp [Ask.record, clearLine]; rfl, ?_⟩
  rw [← hcleared]
  rcases cleared with e | ⟨⟩ <;> simp [Result.within]

/-- The task waits for the removal, guarded, or for the start. -/
theorem clearStopped_rests {q : Ask} (hcur : cur.isSome) (ho : Open cur tr)
    (h : (p.clearStopped slot).Rests tr (some q)) :
    (∃ c, tr = ⟨.guard startJob, ()⟩ :: found c ∧ q = .run c (clearLine slot) none .separate) ∨
      ∃ c₁ a c₂, tr = ⟨.guard startJob, ()⟩ :: (sent c₁ (clearLine slot) none .separate a ++
        ⟨.unguard, ()⟩ :: found c₂) ∧ q = .run c₂ "start dlcservice" none .separate := by
  obtain ⟨hq, -⟩ | ⟨_, t₁, rfl, h₁⟩ := Task.rests_ask_bind.1 h
  · exact hq.elim
  obtain ⟨q', hq, h₂⟩ | ⟨t₂, cleared, t₃, rfl, h₂, h₃⟩ := Task.rests_bind.1 h₁
  · cases hq
    obtain ⟨c, rfl, rfl⟩ := run_rests_held hcur (show Open cur t₁ from ho) h₂
    exact Or.inl ⟨c, rfl, rfl⟩
  obtain ⟨ho₂, ho₃⟩ := open_append.1 (show Open cur (t₂ ++ t₃) from ho)
  obtain ⟨c₁, a, rfl, -⟩ := run_run_held hcur ho₂ h₂
  obtain ⟨hq, -⟩ | ⟨_, t₄, rfl, h₄⟩ := Task.rests_ask_bind.1 h₃
  · exact hq.elim
  obtain ⟨q', hq, h₅⟩ | ⟨t₅, started, t₆, rfl, -, h₆⟩ := Task.rests_bind.1 h₄
  · cases hq
    obtain ⟨c₂, rfl, rfl⟩ := run_rests_held rfl (show Open (some c₁) t₄ from ho₃) h₅
    exact Or.inr ⟨c₁, a, c₂, rfl, rfl⟩
  · rcases started with e | ⟨⟩
    · cases (Task.rests_pure.1 (Task.rests_log_bind.1 h₆)).2
    · cases (Task.rests_pure.1 h₆).2

/-- **What is handed in to remove the marks**, once there is a connection: the stop, the removal and
    the start, whatever becomes of them. No guard is left. The result is the one of the removal. -/
theorem clearMarks_run {r : Result Unit} (hcur : cur.isSome) (ho : Open cur tr)
    (h : (p.clearMarks slot).Run tr (some r)) :
    lines tr = ["stop dlcservice", clearLine slot, "start dlcservice"] ∧ armed [] tr = [] ∧
      ∃ c a, (⟨.run c (clearLine slot) none .separate, a⟩ : Event) ∈ tr ∧
        (r = .ok () ↔ ∃ f, a = .ok f ∧ f.status = 0) := by
  obtain ⟨t₁, stopped, t₂, rfl, h₁, h₂⟩ := Program.run_bind_some.1 h
  obtain ⟨ho₁, ho₂⟩ := open_append.1 ho
  obtain ⟨c, b, rfl, -⟩ := run_run_held hcur ho₁ h₁
  have hrest : (p.clearStopped slot).Run t₂ (some r) := by
    rcases stopped with e | ⟨⟩
    · exact Task.run_log_bind.1 h₂
    · exact h₂
  obtain ⟨c₁, a, c₂, b', rfl, hr⟩ := clearStopped_run (show (some c).isSome from rfl) ho₂ hrest
  refine ⟨rfl, rfl, c₁, a, ?_, hr⟩
  simp [sent, clearLine]

/-- **Where the removal of the marks may be dropped**, once there is a connection: while it waits
    for the stop, unguarded; for the removal, guarded; or for the start, unguarded again. -/
theorem clearMarks_rests {q : Ask} (hcur : cur.isSome) (ho : Open cur tr)
    (h : (p.clearMarks slot).Rests tr (some q)) : (held cur tr).isSome ∧
      ((handed tr (some q) = ["stop dlcservice"] ∧ q.line? = some "stop dlcservice" ∧
          armed [] tr = []) ∨
        (handed tr (some q) = ["stop dlcservice", clearLine slot] ∧
          q.line? = some (clearLine slot) ∧ armed [] tr = [startJob]) ∨
        (handed tr (some q) = ["stop dlcservice", clearLine slot, "start dlcservice"] ∧
          q.line? = some "start dlcservice" ∧ armed [] tr = [])) := by
  obtain ⟨q', hq, h₁⟩ | ⟨t₁, stopped, t₂, rfl, h₁, h₂⟩ := Task.rests_bind.1 h
  · cases hq
    obtain ⟨c, rfl, rfl⟩ := run_rests_held hcur ho h₁
    exact ⟨rfl, Or.inl ⟨rfl, rfl, rfl⟩⟩
  obtain ⟨ho₁, ho₂⟩ := open_append.1 ho
  obtain ⟨c, b, rfl, -⟩ := run_run_held hcur ho₁ h₁
  have hrest : (p.clearStopped slot).Rests t₂ (some q) := by
    rcases stopped with e | ⟨⟩
    · exact Task.rests_log_bind.1 h₂
    · exact h₂
  obtain ⟨c₁, rfl, rfl⟩ | ⟨c₁, a, c₂, rfl, rfl⟩ :=
    clearStopped_rests (show (some c).isSome from rfl) ho₂ hrest
  · exact ⟨rfl, Or.inr (Or.inl ⟨rfl, rfl, rfl⟩)⟩
  · exact ⟨rfl, Or.inr (Or.inr ⟨rfl, rfl, rfl⟩)⟩

/-! ## Before the stop -/

/-- The line that looks for the directory of the packages. -/
def findLine : String := Shell.pathExists dlcLibDir

theorem findDlcs_unguarded :
    p.findDlcs.Only fun q => (∀ job, q ≠ .guard job) ∧ q ≠ .unguard := by
  have hconnects : ∀ q : Ask, q.Connects → (∀ job, q ≠ .guard job) ∧ q ≠ .unguard := by
    intro q hq
    constructor
    · rintro job rfl
      exact hq
    · rintro rfl
      exact hq
  refine .bind (.bind (asks_runCommand hconnects fun c => ⟨nofun, nofun⟩) fun _ => .done _) ?_
  intro found
  rcases found with e | ⟨_ | _⟩ <;> exact .done _

/-- Looking for the directory is one command at most. If it succeeds, the link has a connection. -/
theorem findDlcs_run (cur : Option Connection) {r : Result Unit} (h : p.findDlcs.Run tr (some r)) :
    armed [] tr = [] ∧ (lines tr = [] ∨ lines tr = [findLine]) ∧
      (r = .ok () → lines tr = [findLine] ∧ (held cur tr).isSome) := by
  refine ⟨armed_eq (findDlcs_unguarded.of_run h) [], ?_⟩
  obtain ⟨t, present, u, rfl, h₁, h₂⟩ := Program.run_bind_some.1 h
  obtain ⟨out, h₃, rfl⟩ := Program.run_bind_pure_some.1 h₁
  obtain ⟨result, h₄, rfl⟩ := Program.run_bind_pure_some.1 h₃
  rw [Shell.commandLine_nil] at h₂ h₄
  have hu : u = [] := by
    split at h₂ <;> exact (Program.run_pure_some.1 h₂).1
  subst hu
  rw [List.append_nil]
  obtain ⟨hlines, message, rfl⟩ | ⟨t, c, a, rfl, hlines, hheld, rfl⟩ := exec_run cur h₄
  · refine ⟨Or.inl hlines, ?_⟩
    rintro rfl
    simp [ExecResult.intoStdout, Except.map, Result.within] at h₂
  · have hfind : lines (t ++ [⟨.run c (Shell.pathExists dlcLibDir) none .separate, a⟩]) =
        [findLine] := by
      rw [lines_append, hlines]
      rfl
    refine ⟨Or.inr hfind, fun _ => ⟨hfind, ?_⟩⟩
    rw [held_append]
    exact hheld

theorem findDlcs_rests {q : Ask} (h : p.findDlcs.Rests tr (some q)) :
    handed tr (some q) = [] ∨ handed tr (some q) = [findLine] := by
  obtain ⟨q', hq, h₁⟩ | ⟨t, present, u, rfl, -, h₂⟩ := Task.rests_bind.1 h
  · cases hq
    have h₃ := Task.rests_map.1 (Task.rests_map.1 h₁)
    rw [Shell.commandLine_nil] at h₃
    obtain ⟨hlines, hq | ⟨c, rfl⟩⟩ := exec_rests h₃
    · exact Or.inl (by simp [handed, hlines, hq])
    · refine Or.inr ?_
      rw [handed, hlines]
      rfl
  · split at h₂ <;> cases (Task.rests_pure.1 h₂).2

theorem startSlot_asks {r : Result Slot} (h : startSlot.Run tr (some r)) :
    ∃ told, tr = [⟨.layout, told⟩] := by
  obtain ⟨l, h₁, -⟩ := Program.run_bind_pure_some.1 h
  obtain ⟨told, u, rfl, h₂⟩ := Task.run_ask_bind_some.1 h₁
  have hu : u = [] := by
    cases told <;> exact (Program.run_pure_some.1 h₂).1
  subst hu
  exact ⟨told, rfl⟩

theorem not_startSlot_rests {q : Ask} : ¬startSlot.Rests tr (some q) := by
  intro h
  obtain ⟨hq, -⟩ | ⟨told, u, -, h₁⟩ := Task.rests_ask_bind.1 (Task.rests_map.1 h)
  · exact hq
  · cases told <;> cases (Task.rests_pure.1 h₁).2

/-! ## The start -/

/-- After the stop, wherever the task is dropped, the service is started again: a start was handed
    in, or a job that guards the task hands it in before it waits for anything else. -/
def StartsAgain (p : Plan) (cur : Option Connection) (tr : List Event) (q : Ask) : Prop :=
  (∃ t u, handed tr (some q) = t ++ "stop dlcservice" :: u ∧ "start dlcservice" ∈ u) ∨
    ∃ job ∈ armed [] tr, ∀ u w, (Service.carryOut p.link job).Rests u w →
      Open (held cur tr) u → "start dlcservice" ∈ handed u w

/-- The job that guards the task hands the start in, before it waits for anything else. -/
theorem startJob_rests {w : Option Ask} (hcur : cur.isSome) (ho : Open cur tr)
    (h : (Service.carryOut p.link startJob).Rests tr w) : "start dlcservice" ∈ handed tr w := by
  obtain ⟨q, rfl, h₁⟩ | ⟨t, started, u, rfl, h₁, -⟩ := Task.rests_bind.1 h
  · obtain ⟨c, rfl, rfl⟩ := exec_rests_held hcur ho (Task.rests_map.1 h₁)
    exact List.mem_singleton.2 rfl
  · obtain ⟨result, h₂, -⟩ := Program.run_bind_pure_some.1 h₁
    obtain ⟨c, a, rfl, -⟩ := exec_run_held hcur (open_append.1 ho).1 h₂
    rw [handed, lines_append, lines_sent]
    exact List.mem_append_left _ (List.mem_append_left _ (List.mem_singleton.2 rfl))

/-- Wherever the removal of the marks is dropped, once there is a connection, the service is started
    again unless the stop itself was waited for. -/
theorem clearMarks_startsAgain {t : List Event} {q : Ask} (ht : armed [] t = [])
    (hlines : lines t = [findLine]) (hcur : (held cur t).isSome) (ho : Open (held cur t) tr)
    (h : (p.clearMarks slot).Rests tr (some q)) :
    p.StartsAgain cur (t ++ tr) q ↔ q.line? ≠ some "stop dlcservice" := by
  have hhanded : handed (t ++ tr) (some q) = findLine :: handed tr (some q) := by
    rw [handed, lines_append, hlines]
    rfl
  have harmed : armed [] (t ++ tr) = armed [] tr := by rw [armed_append, ht]
  have hstart : "start dlcservice" ≠ findLine := by decide
  have hclear : clearLine slot ≠ "stop dlcservice" := by cases slot <;> decide
  rw [StartsAgain, hhanded, harmed, held_append]
  obtain ⟨hheld, ⟨hh, hq, ha⟩ | ⟨hh, hq, ha⟩ | ⟨hh, hq, ha⟩⟩ := clearMarks_rests hcur ho h
  · rw [hh, hq, ha]
    refine iff_of_false ?_ (not_not_intro rfl)
    rintro (⟨u, v, huv, hv⟩ | ⟨job, hjob, -⟩)
    · have hmem : "start dlcservice" ∈ [findLine, "stop dlcservice"] := by
        rw [huv]
        exact List.mem_append_right u (List.mem_cons_of_mem _ hv)
      exact absurd hmem (by simp [hstart])
    · cases hjob
  · rw [hh, hq, ha]
    refine iff_of_true (Or.inr ⟨startJob, List.mem_singleton.2 rfl, fun u w hrest hu => ?_⟩)
      fun heq => hclear (Option.some.inj heq)
    exact startJob_rests hheld hu hrest
  · rw [hh, hq, ha]
    refine iff_of_true (Or.inl ⟨[findLine], [clearLine slot, "start dlcservice"], rfl, ?_⟩) ?_
    · simp
    · decide

/-! ## Where it may be dropped -/

/-- An answer to the look for the directory of the packages. -/
def present : Finished := { stdout := Text.Utf8.ofString "1" }

def onlyConnection : Connection := ⟨1, "dut"⟩

/-- What comes before the removal of the marks on a device that has packages. -/
def foundDlcs : List Event :=
  sent onlyConnection findLine none .separate (.ok present) ++ [⟨.layout, some bootedA⟩]

section

variable {c : Connection} {command : String} {args : List String}

theorem open_foundDlcs : Open cur foundDlcs := open_append.2 ⟨open_sent, trivial⟩

theorem run_run_sent {f : Finished} (hf : f.status = 0) :
    (p.run command args).Run (sent c (Shell.commandLine command args) none .separate (.ok f))
      (some (.ok ())) := by
  refine Program.run_bind_pure_some.2 ⟨_, Program.run_bind_pure_some.2
    ⟨_, run_exec_sent c (.ok f), rfl⟩, ?_⟩
  simp [ExecResult.ofAttempt, ExecResult.intoStdout, Except.map, hf]

theorem rests_run_found : (p.run command args).Rests (found c)
    (some (.run c (Shell.commandLine command args) none .separate)) :=
  Task.rests_map.2 (Task.rests_map.2 (rests_exec_found c))

theorem findDlcs_sent :
    p.findDlcs.Run (sent c findLine none .separate (.ok present)) (some (.ok ())) := by
  have htrim : Text.trim (Text.Utf8.lossy present.stdout) = "1" := by decide +kernel
  have hstatus : present.status = 0 := rfl
  have hfound : (p.link.pathExists dlcLibDir).Run
      (sent c findLine none .separate (.ok present)) (some (.ok true)) := by
    refine Program.run_bind_pure_some.2 ⟨_, Program.run_bind_pure_some.2
      ⟨_, run_exec_sent c (.ok present), rfl⟩, ?_⟩
    simp [ExecResult.ofAttempt, ExecResult.intoStdout, Except.map, hstatus, htrim]
  exact Program.run_bind_some.2 ⟨_, _, [], (List.append_nil _).symm, hfound, .done _⟩

/-- Where the removal of the marks rests, the whole does. -/
theorem foundDlcs_rests {w : Option Ask} (h : (p.clearMarks .b).Rests tr w) :
    p.clearDlcArtifacts.Rests (foundDlcs ++ tr) w := by
  have hslot : startSlot.Run [⟨.layout, some bootedA⟩] (some (.ok .a)) :=
    (startSlot_run (by simp [Remembers]) bootedA_agrees).2 (Or.inr ⟨rfl, Or.inr rfl⟩)
  rw [clearDlcArtifacts_eq, foundDlcs, List.append_assoc]
  exact Task.rests_andThen.2 (Or.inr (Or.inr ⟨_, (), _, rfl, findDlcs_sent,
    Task.rests_andThen.2 (Or.inr (Or.inr ⟨_, .a, _, rfl, hslot, h⟩))⟩))

theorem clearMarks_rests_stop (p : Plan) (slot : Slot) (c : Connection) :
    (p.clearMarks slot).Rests (found c) (some (.run c "stop dlcservice" none .separate)) :=
  Task.rests_bind.2 (Or.inl ⟨_, rfl, rests_run_found⟩)

theorem clearMarks_rests_removal (p : Plan) (slot : Slot) (c : Connection) :
    (p.clearMarks slot).Rests
      (sent c "stop dlcservice" none .separate (.ok {}) ++ ⟨.guard startJob, ()⟩ :: found c)
      (some (.run c (clearLine slot) none .separate)) := by
  refine Task.rests_bind.2 (Or.inr ⟨_, .ok (), _, rfl, run_run_sent rfl, ?_⟩)
  refine Task.rests_ask_bind.2 (Or.inr ⟨(), found c, rfl, ?_⟩)
  exact Task.rests_bind.2 (Or.inl ⟨_, rfl, rests_run_found⟩)

end

/-! ## Stop and start -/

/-- What is handed in before the end, and what comes of it. -/
theorem clearDlcArtifacts_run {r : Result Unit} (h : p.clearDlcArtifacts.Run tr (some r))
    (ho : Open cur tr) : armed [] tr = [] ∧
      (((lines tr = [] ∨ lines tr = [findLine]) ∧ ∃ e, r = .error e) ∨
        ∃ slot, lines tr = [findLine, "stop dlcservice", clearLine slot, "start dlcservice"] ∧
          ∃ c a, (⟨.run c (clearLine slot) none .separate, a⟩ : Event) ∈ tr ∧
            (r = .ok () ↔ ∃ f, a = .ok f ∧ f.status = 0)) := by
  rw [clearDlcArtifacts_eq] at h
  obtain ⟨hr, -⟩ | ⟨e, h₁, hr⟩ | ⟨t, ⟨⟩, u, rfl, h₁, h₂⟩ := Task.run_andThen.1 h
  · cases hr
  · cases gives_some.1 hr
    obtain ⟨harmed, hlines, -⟩ := findDlcs_run cur h₁
    exact ⟨harmed, Or.inl ⟨hlines, e, rfl⟩⟩
  obtain ⟨harmed, -, hfound⟩ := findDlcs_run cur h₁
  obtain ⟨hlines, hheld⟩ := hfound rfl
  rw [armed_append, harmed, lines_append, hlines]
  obtain ⟨hr, -⟩ | ⟨e, h₃, hr⟩ | ⟨v, slot, w, rfl, h₃, h₄⟩ := Task.run_andThen.1 h₂
  · cases hr
  · cases gives_some.1 hr
    obtain ⟨told, rfl⟩ := startSlot_asks h₃
    exact ⟨rfl, Or.inl ⟨Or.inr rfl, e, rfl⟩⟩
  · obtain ⟨told, rfl⟩ := startSlot_asks h₃
    have ho₂ : Open (held cur t) w := (open_append.1 ho).2
    obtain ⟨hclear, hnone, c, a, hmem, hr⟩ := clearMarks_run hheld ho₂ h₄
    refine ⟨hnone, Or.inr ⟨slot.other, ?_, c, a, by simp [hmem], hr⟩⟩
    rw [lines_append, hclear]
    rfl

/-- The only place in which it may be dropped and no start follows. -/
theorem clearDlcArtifacts_rests {q : Ask} (h : p.clearDlcArtifacts.Rests tr (some q))
    (ho : Open cur tr) (hstop : "stop dlcservice" ∈ handed tr (some q)) :
    p.StartsAgain cur tr q ↔ q.line? ≠ some "stop dlcservice" := by
  rw [clearDlcArtifacts_eq] at h
  have hne : "stop dlcservice" ≠ findLine := by decide
  obtain ⟨q', hq, h₁⟩ | ⟨e, hq, -⟩ | ⟨t, ⟨⟩, u, rfl, h₁, h₂⟩ := Task.rests_andThen.1 h
  · cases hq
    obtain hnil | hfind := findDlcs_rests h₁
    · rw [hnil] at hstop
      cases hstop
    · rw [hfind, List.mem_singleton] at hstop
      exact absurd hstop hne
  · cases hq
  obtain ⟨harmed, -, hfound⟩ := findDlcs_run cur h₁
  obtain ⟨hlines, hheld⟩ := hfound rfl
  obtain ⟨q', hq, h₃⟩ | ⟨e, hq, -⟩ | ⟨v, slot, w, rfl, h₃, h₄⟩ := Task.rests_andThen.1 h₂
  · exact absurd (hq ▸ h₃) not_startSlot_rests
  · cases hq
  · obtain ⟨told, rfl⟩ := startSlot_asks h₃
    rw [← List.append_assoc] at ho ⊢
    refine clearMarks_startsAgain ?_ ?_ ?_ (open_append.1 ho).2 h₄
    · rw [armed_append, harmed]
      rfl
    · rw [lines_append, hlines]
      rfl
    · rw [held_append]
      exact hheld

/-- **The package service is started again.** Say the link stays open. If the removal of the marks
    comes to its end, no guard is left, and it has handed in nothing but a look for the directory,
    and has failed; or it has handed in the stop, the removal and one start, in this order and
    whatever became of them, and has succeeded exactly if the removal has. If it is dropped after
    the stop was handed in, the service is started again, except where it is dropped while it waits
    for the stop itself. -/
theorem clearDlcArtifacts_starts (p : Plan) :
    (∀ cur tr r, p.clearDlcArtifacts.Run tr (some r) → Open cur tr → armed [] tr = [] ∧
      (((lines tr = [] ∨ lines tr = [findLine]) ∧ ∃ e, r = .error e) ∨
        ∃ slot, lines tr = [findLine, "stop dlcservice", clearLine slot, "start dlcservice"] ∧
          ∃ c a, (⟨.run c (clearLine slot) none .separate, a⟩ : Event) ∈ tr ∧
            (r = .ok () ↔ ∃ f, a = .ok f ∧ f.status = 0))) ∧
    ∀ cur tr q, p.clearDlcArtifacts.Rests tr (some q) → Open cur tr →
      "stop dlcservice" ∈ handed tr (some q) →
        (p.StartsAgain cur tr q ↔ q.line? ≠ some "stop dlcservice") := by
  constructor
  · intro cur tr r h ho
    exact clearDlcArtifacts_run h ho
  · intro cur tr q h ho hstop
    exact clearDlcArtifacts_rests h ho hstop

/-- A task that is dropped while it waits for the removal is followed by a start. -/
theorem clearDlcArtifacts_starts_removal : ∃ (p : Plan) (tr : List Event) (q : Ask),
    p.clearDlcArtifacts.Rests tr (some q) ∧ q.line? = some (clearLine .b) ∧
      p.StartsAgain none tr q := by
  obtain ⟨-, hdropped⟩ := clearDlcArtifacts_starts default
  have hremoval := foundDlcs_rests (clearMarks_rests_removal default .b onlyConnection)
  refine ⟨default, _, _, hremoval, rfl, (hdropped none _ _ hremoval ?_ (by decide)).2 (by decide)⟩
  exact open_append.2 ⟨open_foundDlcs, open_append.2 ⟨open_sent, open_found⟩⟩

/-- **The package service stays stopped.** The task is dropped while it waits for the stop that was
    handed in. No start was, and nothing guards the task. -/
theorem left_stopped : ∃ (p : Plan) (tr : List Event) (q : Ask),
    p.clearDlcArtifacts.Rests tr (some q) ∧ Open none tr ∧
      handed tr (some q) = [findLine, "stop dlcservice"] ∧ armed [] tr = [] ∧
      ¬p.StartsAgain none tr q := by
  have hstop := clearMarks_rests_stop default .b onlyConnection
  refine ⟨default, _, _, foundDlcs_rests hstop, open_append.2 ⟨open_foundDlcs, open_found⟩, rfl,
    rfl, fun hstarts => ?_⟩
  exact (clearMarks_startsAgain rfl rfl rfl open_found hstop).1 hstarts rfl

end Reimage.Plan
