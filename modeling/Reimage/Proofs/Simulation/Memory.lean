/-
  What the simulated world remembers of tasks.

  Nothing that goes on in the world changes the layout except a task that sets it, or the guards of
  a task except the task itself. So the world tells the layout as it was set, and starts in the
  place of a task that is dropped what its questions have left it guarded by.

  * `Kept`: what most steps leave as it was;
  * `Played`, `played_of_answer`, `guardsOf_of_answer`: what a question leaves of the layout, and of
    the guards of the task that asks it and of all others;
  * `spawned_forget`, `played_forget`: what is started where a task is dropped.
-/
import Reimage.Proofs.Drop
import Reimage.Proofs.Recalls
import Reimage.Simulation.World

namespace Reimage

/-- Whether a question leaves the layout, the guards and the numbers of tasks alone. -/
def Ask.Keeps : Ask → Prop
  | .setLayout _ | .guard _ | .unguard | .spawn _ => False
  | _ => True

namespace Simulation.World

variable {w w' w'' : World} {place : Place} {q : Ask} {a : q.Answer} {t u : List Event} {task : Nat}

/-- The layout, the guards and the numbers of tasks are as they were. -/
structure Kept (w w' : World) : Prop where
  layout : w'.layout = w.layout
  guards : w'.guards = w.guards
  nextTask : w'.nextTask = w.nextTask
  spawned : w'.spawned = w.spawned

theorem Kept.refl (w : World) : Kept w w := ⟨rfl, rfl, rfl, rfl⟩

theorem kept_begin (w : World) (place : Place) (q : Ask) : Kept w (w.begin place q) := by
  cases q <;> exact ⟨rfl, rfl, rfl, rfl⟩

theorem kept_perform (w : World) (e : Errand) : Kept w (w.perform e).2.2 := by
  cases e with
  | dial =>
    rw [perform]
    split <;> exact ⟨rfl, rfl, rfl, rfl⟩
  | run | start => exact ⟨rfl, rfl, rfl, rfl⟩

theorem kept_of_work (h : w.work? = some w') : Kept w w' := by
  obtain ⟨o, -, rfl⟩ := Option.map_eq_some_iff.1 h
  obtain ⟨hlayout, hguards, hnext, hspawned⟩ := kept_perform
    { w with orders := w.orders.eraseP fun o => decide (o.since.nanos ≤ w.clock.nanos) } o.errand
  exact ⟨hlayout, hguards, hnext, hspawned⟩

theorem kept_of_reply {outcome : Outcome} (h : w.reply? place = some (outcome, w')) :
    Kept w w' := by
  obtain ⟨r, -, hr⟩ := Option.map_eq_some_iff.1 h
  cases hr
  exact ⟨rfl, rfl, rfl, rfl⟩

theorem kept_of_answer (h : w.answer? place q = some (a, w')) (hq : q.Keeps) : Kept w w' := by
  cases q
  case setLayout | guard | unguard | spawn => exact hq.elim
  case sleep | acquire | awaitClose =>
    simp only [answer?] at h
    split at h <;> cases h
    exact .refl _
  case awaitCloseBefore =>
    simp only [answer?] at h
    split at h
    · cases h
      exact .refl _
    · split at h <;> cases h
      exact .refl _
  case dial | run | start =>
    simp only [answer?] at h
    split at h
    · rename_i hr
      cases h
      exact kept_of_reply hr
    · cases h
  case dialBefore =>
    simp only [answer?] at h
    split at h
    · rename_i hr
      cases h
      exact kept_of_reply hr
    · split at h <;> cases h
      exact .refl _
  case register =>
    simp only [answer?] at h
    split at h <;> cases h <;> exact ⟨rfl, rfl, rfl, rfl⟩
  case awaitOperation =>
    simp only [answer?, awaitOperation?] at h
    split at h <;> cases h
    exact ⟨rfl, rfl, rfl, rfl⟩
  case abort => cases h
  all_goals
    cases h
    exact ⟨rfl, rfl, rfl, rfl⟩

/-! ## Questions -/

/-- What is started in the place of a task, if it is dropped now. -/
def guardsOf (w : World) (task : Nat) : List Job :=
  (w.guards.filter fun g => g.1 == task).map (·.2)

/-- No job that is still to be started has the number `front`, nor a number that is to come. -/
structure Ahead (front : Nat) (w : World) : Prop where
  lt_nextTask : front < w.nextTask
  of_mem_spawned {e : Nat × Job} : e ∈ w.spawned → e.1 ≠ front ∧ e.1 < w.nextTask

/-- From one world to another a task has left the events `tr`: it was told the layout as it was set,
    and its guards are those that it has left. -/
structure Played (w : World) (task : Nat) (tr : List Event) (w' : World) : Prop where
  recalls : Recalls w.layout tr
  layout : w'.layout = remembered w.layout tr
  guards : w'.guardsOf task = armed (w.guardsOf task) tr
  le_nextTask : w.nextTask ≤ w'.nextTask
  ahead {front : Nat} : Ahead front w → Ahead front w'

theorem Kept.guardsOf_eq (h : Kept w w') (task : Nat) : w'.guardsOf task = w.guardsOf task := by
  rw [guardsOf, guardsOf, h.guards]

theorem Kept.played (h : Kept w w') (task : Nat) : Played w task [] w' where
  recalls := trivial
  layout := h.layout
  guards := h.guardsOf_eq task
  le_nextTask := Nat.le_of_eq h.nextTask.symm
  ahead hw := ⟨h.nextTask ▸ hw.lt_nextTask, fun he => h.nextTask ▸ hw.of_mem_spawned (h.spawned ▸ he)⟩

theorem Played.refl (w : World) (task : Nat) : Played w task [] w := (Kept.refl w).played task

theorem Played.trans (h : Played w task t w') (h' : Played w' task u w'') :
    Played w task (t ++ u) w'' where
  recalls := recalls_append.2 ⟨h.recalls, h.layout ▸ h'.recalls⟩
  layout := by rw [remembered_append, ← h.layout, h'.layout]
  guards := by rw [armed_append, ← h.guards, h'.guards]
  le_nextTask := Nat.le_trans h.le_nextTask h'.le_nextTask
  ahead hw := h'.ahead (h.ahead hw)

/-- A job is started with a number of its own. -/
theorem played_spawn (w : World) (job : Job) (task : Nat) : Played w task [] (w.spawn job) where
  recalls := trivial
  layout := rfl
  guards := rfl
  le_nextTask := Nat.le_succ _
  ahead hw := by
    refine ⟨Nat.lt_succ_of_lt hw.lt_nextTask, fun {e} he => ?_⟩
    rcases List.mem_append.1 he with he | he
    · obtain ⟨hne, hlt⟩ := hw.of_mem_spawned he
      exact ⟨hne, Nat.lt_succ_of_lt hlt⟩
    · cases List.mem_singleton.1 he
      exact ⟨Nat.ne_of_gt hw.lt_nextTask, Nat.lt_succ_self _⟩

/-- **What a question leaves** of the layout and the guards is what its record says. -/
theorem played_of_answer (h : w.answer? place q = some (a, w')) :
    Played w place.1 (q.record a) w' := by
  cases q
  case setLayout l =>
    cases h
    exact ⟨trivial, rfl, rfl, Nat.le_refl _, fun hw => ⟨hw.1, hw.2⟩⟩
  case guard job =>
    cases h
    refine ⟨trivial, rfl, ?_, Nat.le_refl _, fun hw => ⟨hw.1, hw.2⟩⟩
    simp [guardsOf, Ask.record, armed]
  case unguard =>
    cases h
    refine ⟨trivial, rfl, ?_, Nat.le_refl _, fun hw => ⟨hw.1, hw.2⟩⟩
    have hfirst : ∀ gs : List (Nat × Job), gs.eraseP (fun _ => true) = gs.tail := by
      intro gs
      cases gs <;> simp
    have htail := List.eraseP_filter (p := fun _ => true) (f := fun g => g.1 == place.1)
      (l := w.guards)
    simp only [hfirst, Bool.true_and] at htail
    simp [guardsOf, Ask.record, armed, ← htail]
  case spawn job =>
    cases h
    have hspawn := played_spawn w job place.1
    exact ⟨trivial, hspawn.layout, hspawn.guards, hspawn.le_nextTask, hspawn.ahead⟩
  case layout =>
    cases h
    exact ⟨⟨rfl, trivial⟩, rfl, rfl, Nat.le_refl _, id⟩
  all_goals
    have hkept := (kept_of_answer h trivial).played place.1
    exact ⟨trivial, hkept.layout, hkept.guards, hkept.le_nextTask, hkept.ahead⟩

/-- The questions of another task leave the guards of a task as they are. -/
theorem guardsOf_of_answer (h : w.answer? place q = some (a, w')) (hne : task ≠ place.1) :
    w'.guardsOf task = w.guardsOf task := by
  cases q
  case guard job =>
    cases h
    simp [guardsOf, hne.symm]
  case unguard =>
    cases h
    obtain heq | ⟨g, u, v, -, hg, hguards, heq⟩ :=
      List.exists_or_eq_self_of_eraseP (fun g => g.1 == place.1) w.guards
    · simp [guardsOf, heq]
    · have hother : g.1 ≠ task := fun htask => hne (htask.symm.trans (beq_iff_eq.1 hg))
      simp only [guardsOf, heq]
      simp [hguards, hother]
  case setLayout | spawn =>
    cases h
    rfl
  all_goals exact (kept_of_answer h trivial).guardsOf_eq task

/-! ## Drops -/

/-- Where a task is dropped, what it is guarded by is started. -/
theorem spawned_forget (w : World) (task : Nat) :
    (w.forget task).spawned.map (·.2) = w.spawned.map (·.2) ++ w.guardsOf task := by
  have hspawn : ∀ (jobs : List Job) (w : World),
      (jobs.foldl spawn w).spawned.map (·.2) = w.spawned.map (·.2) ++ jobs := by
    intro jobs
    induction jobs with
    | nil => simp
    | cons job jobs ih =>
      intro w
      rw [List.foldl_cons, ih]
      simp [spawn]
  exact hspawn _ _

/-- Nothing else is left of it, and nothing becomes different for other tasks. -/
theorem played_forget (w : World) {front : Nat} (hne : task ≠ front) :
    Played w front [] (w.forget task) := by
  have hspawn : ∀ (jobs : List Job) (w : World), Played w front [] (jobs.foldl spawn w) := by
    intro jobs
    induction jobs with
    | nil => exact fun w => .refl w front
    | cons job jobs ih => exact fun w => (played_spawn w job front).trans (ih _)
  have hother (g : Nat × Job) : (g.1 == front && g.1 != task) = (g.1 == front) := by
    by_cases hg : g.1 = front
    · simp [hg, hne.symm]
    · simp [hg]
  have hlost : Played w front [] { w with
      lock := w.lock.filter fun p => p.1 != task
      waiters := w.waiters.filter fun e => e.1.1 != task
      guards := w.guards.filter fun g => g.1 != task } := by
    refine ⟨trivial, rfl, ?_, Nat.le_refl _, fun hw => ⟨hw.1, hw.2⟩⟩
    simp only [guardsOf, List.filter_filter, hother]
    rfl
  exact hlost.trans (hspawn _ _)

end Simulation.World

end Reimage
