/-
  What a session plays.

  A session runs tasks side by side, each until it has to wait. What it plays of the procedure in
  front is one of the runs of that procedure, whatever the tasks in the background do meanwhile.
  Those leave the layout of the disk alone, so the run is told it as it was set. So what is proved of
  all runs holds of what a session plays.

  * `Program.Becomes`: what is left of a program after the events of a trace;
  * `Strand.run_plays`, `Activity.run_plays` and their likes for `resume`: going on with a task plays
    a part of one of its runs;
  * `Session.Aside`: what the other tasks do meanwhile, and `Session.Goes`: how far the procedure in
    front has come;
  * `Session.run_stopped`: to its end or its drop, a session plays a run of it.
-/
import Reimage.Proofs.Service.Jobs
import Reimage.Proofs.Simulation.Memory
import Reimage.Simulation.Session

namespace Reimage

variable {α : Type} {tr t u v w : List Event}

/-! ## What is left of a program -/

section
variable {Q : Type} {A : Q → Type} [Questions Q A] {p p' p'' : Program Q A α}

/-- After the events `tr` the program goes on as `p'`. -/
def Program.Becomes (p : Program Q A α) (tr : List Event) (p' : Program Q A α) : Prop :=
  ∀ u o, p'.Run u o → p.Run (tr ++ u) o

theorem Program.Becomes.refl (p : Program Q A α) : p.Becomes [] p := fun _ _ h => h

theorem Program.Becomes.trans (h : p.Becomes t p') (h' : p'.Becomes u p'') :
    p.Becomes (t ++ u) p'' := fun v o hv => by
  rw [List.append_assoc]
  exact h _ o (h' v o hv)

theorem Program.Becomes.ask {q : Q} {next : A q → Program Q A α} {a : A q}
    (h : Questions.does q t (some a)) : (Program.ask q next).Becomes t (next a) :=
  fun _ _ hu => .ask h hu

end

/-- Two tasks side by side go on as what is left of each. -/
theorem Program.Becomes.both {left left' right right' : Task (Result Unit)}
    {next : Result Unit × Result Unit → Procedure α} (hl : left.Becomes u left')
    (hr : right.Becomes v right') (h : Interleaved u v w) :
    Becomes (.ask (Call.both left right) next : Procedure α) w
      (.ask (Call.both left' right') next) := by
  have hdoes {x : List Event} {o : Option (Result Unit × Result Unit)}
      (hx : Questions.does (A := Call.Answer) (Call.both left' right') x o) :
      Questions.does (A := Call.Answer) (Call.both left right) (w ++ x) o := by
    obtain ⟨u', v', l, r, hl', hr', hx, rfl⟩ := hx
    exact ⟨u ++ u', v ++ v', l, r, hl _ _ hl', hr _ _ hr', h.append_append hx, rfl⟩
  intro x o hx
  cases hx with
  | cut =>
    exact .stop (hdoes ⟨[], [], none, none, .cut _, .cut _, .nil, rfl⟩)
  | stop hx => exact .stop (hdoes hx)
  | ask hx hrest =>
    rw [← List.append_assoc]
    exact .ask (hdoes hx) hrest

/-- Two tasks that have ended are followed by what comes after them. -/
theorem Program.Becomes.join {l r : Result Unit} {next : Result Unit × Result Unit → Procedure α} :
    Becomes (.ask (Call.both (.done l) (.done r)) next : Procedure α) [] (next (l, r)) :=
  .ask ⟨[], [], some l, some r, .done l, .done r, .nil, rfl⟩

/-- A procedure never sets the layout. -/
def Procedure.Calm (p : Procedure α) : Prop :=
  ∀ tr o, p.Run tr o → ∀ e ∈ tr, ∀ l, e.question ≠ .setLayout l

theorem Procedure.Calm.of_becomes {p p' : Procedure α} (hp : p.Calm) (h : p.Becomes tr p') :
    p'.Calm :=
  fun u o hu e he => hp _ o (h u o hu) e (List.mem_append_right _ he)

theorem Procedure.Calm.map {β : Type} {p : Procedure α} (hp : p.Calm) (f : α → β) :
    Procedure.Calm (p.bind fun a => .done (f a)) := by
  intro tr o hrun
  obtain ⟨r, h, -⟩ := Program.run_bind_pure.1 hrun
  exact hp tr r h

/-- The events after which something is left set no layout either. -/
theorem Procedure.Calm.of_becomes_nil {p p' : Procedure α} (hp : p.Calm) (h : p.Becomes tr p') :
    ∀ e ∈ tr, ∀ l, e.question ≠ .setLayout l :=
  fun e he => hp _ none (h [] none (.cut _)) e (List.mem_append_left _ he)

namespace Simulation

open World (Played)

/-! ## Tasks -/

variable {place : Place} {task front : Nat} {world world' : World}

/-- What is left of a task. -/
def Strand.rest : Strand α → Task α
  | .ended result => .done result
  | .waiting q next => Program.ask q next

/-- What is left of a procedure. -/
def Activity.rest : Activity α → Procedure α
  | .ended result => .done result
  | .waiting q next => .ask (Call.one q) next
  | .split left right next => .ask (Call.both left.rest right.rest) next

/-- From one world to another, a task whose program was `p` has gone on to `p'`, and no other task
    has. -/
def World.Plays {Q : Type} {A : Q → Type} [Questions Q A] (world : World) (task : Nat)
    (p p' : Program Q A α) (world' : World) : Prop :=
  ∃ tr, p.Becomes tr p' ∧ Played world task tr world' ∧
    ∀ other, other ≠ task → world'.guardsOf other = world.guardsOf other

namespace World.Plays

variable {Q : Type} {A : Q → Type} [Questions Q A] {p p' p'' : Program Q A α} {world'' : World}

theorem refl (world : World) (task : Nat) (p : Program Q A α) : world.Plays task p p world :=
  ⟨[], .refl p, .refl world task, fun _ _ => rfl⟩

theorem trans (h : world.Plays task p p' world') (h' : world'.Plays task p' p'' world'') :
    world.Plays task p p'' world'' := by
  obtain ⟨t, ht, hplayed, hothers⟩ := h
  obtain ⟨u, hu, hplayed', hothers'⟩ := h'
  exact ⟨t ++ u, ht.trans hu, hplayed.trans hplayed', fun other hne =>
    (hothers' other hne).trans (hothers other hne)⟩

theorem of_kept (h : World.Kept world world') : world.Plays task p p world' :=
  ⟨[], .refl p, h.played task, fun other _ => h.guardsOf_eq other⟩

end World.Plays

theorem plays_ask {q : Ask} {next : q.Answer → Task α} {a : q.Answer}
    (h : world.answer? place q = some (a, world')) :
    world.Plays place.1 (Program.ask q next) (next a) world' :=
  ⟨q.record a, .ask ⟨a, rfl, rfl⟩, World.played_of_answer h, fun _ => World.guardsOf_of_answer h⟩

theorem plays_one {q : Ask} {next : q.Answer → Procedure α} {a : q.Answer}
    (h : world.answer? (task, 0) q = some (a, world')) :
    world.Plays task (Program.ask (Call.one q) next) (next a) world' :=
  ⟨q.record a, .ask ⟨a, rfl, rfl⟩, World.played_of_answer h, fun _ => World.guardsOf_of_answer h⟩

theorem Strand.run_plays (p : Task α) (place : Place) (world : World) :
    world.Plays place.1 p (Strand.run place p world).1.rest (Strand.run place p world).2 := by
  induction p generalizing world with
  | done a => exact .refl _ _ _
  | ask q next ih =>
    have hbegin : world.Plays place.1 (Program.ask q next) (Program.ask q next)
      (world.begin place q) := .of_kept (World.kept_begin world place q)
    rw [Strand.run]
    split
    next a world' ha => exact (hbegin.trans (plays_ask ha)).trans (ih a world')
    next => exact hbegin

theorem Strand.resume_plays (s : Strand α) (place : Place) (world : World) :
    world.Plays place.1 s.rest (s.resume place world).1.rest (s.resume place world).2.1 := by
  cases s with
  | ended result => exact .refl _ _ _
  | waiting q next =>
    rw [Strand.resume]
    split
    next a world' ha =>
      have hrun := run_plays (next a) place world'
      exact (plays_ask ha).trans hrun
    next => exact .refl _ _ _

/-- Two tasks that go on one after the other go on side by side. -/
theorem plays_both {left left' right right' : Task (Result Unit)} {between : World}
    (next : Result Unit × Result Unit → Procedure α)
    (hl : world.Plays task left left' between) (hr : between.Plays task right right' world') :
    world.Plays task (.ask (Call.both left right) next : Procedure α)
      (.ask (Call.both left' right') next) world' := by
  obtain ⟨u, hu, hplayed, hothers⟩ := hl
  obtain ⟨v, hv, hplayed', hothers'⟩ := hr
  exact ⟨u ++ v, .both hu hv (.append v u), hplayed.trans hplayed', fun other hne =>
    (hothers' other hne).trans (hothers other hne)⟩

theorem plays_join {l r : Result Unit} {next : Result Unit × Result Unit → Procedure α} :
    world.Plays task (.ask (Call.both (.done l) (.done r)) next : Procedure α) (next (l, r))
      world :=
  ⟨[], .join, .refl world task, fun _ _ => rfl⟩

theorem Activity.run_plays (p : Procedure α) (task : Nat) (world : World) :
    world.Plays task p (Activity.run task p world).1.rest (Activity.run task p world).2 := by
  induction p generalizing world with
  | done a => exact .refl _ _ _
  | ask c next ih =>
    cases c with
    | one q =>
      have hbegin : world.Plays task (Program.ask (Call.one q) next)
        (Program.ask (Call.one q) next) (world.begin (task, 0) q) :=
        .of_kept (World.kept_begin world (task, 0) q)
      rw [Activity.run]
      split
      next a world' ha => exact (hbegin.trans (plays_one ha)).trans (ih a world')
      next => exact hbegin
    | both left right =>
      have hl := Strand.run_plays left (task, 1) world
      rw [Activity.run]
      generalize Strand.run (task, 1) left world = ran at hl ⊢
      obtain ⟨left', between⟩ := ran
      have hr := Strand.run_plays right (task, 2) between
      simp only
      generalize Strand.run (task, 2) right between = ran at hr ⊢
      obtain ⟨right', world'⟩ := ran
      have hboth := plays_both next hl hr
      cases left' with
      | waiting => exact hboth
      | ended l =>
        cases right' with
        | waiting => exact hboth
        | ended r => exact (hboth.trans plays_join).trans (ih (l, r) world')

theorem Activity.resume_plays (main : Activity α) (task : Nat) (world : World) :
    world.Plays task main.rest (main.resume task world).1.rest (main.resume task world).2.1 := by
  cases main with
  | ended result => exact .refl _ _ _
  | waiting q next =>
    rw [Activity.resume]
    split
    next a world' ha =>
      have hrun := run_plays (next a) task world'
      exact (plays_one ha).trans hrun
    next => exact .refl _ _ _
  | split left right next =>
    have hl := left.resume_plays (task, 1) world
    rw [Activity.resume]
    generalize left.resume (task, 1) world = resumed at hl ⊢
    obtain ⟨left', between, movedLeft⟩ := resumed
    have hr := right.resume_plays (task, 2) between
    simp only
    generalize right.resume (task, 2) between = resumed at hr ⊢
    obtain ⟨right', world', movedRight⟩ := resumed
    have hboth := plays_both next hl hr
    cases left' with
    | waiting => exact hboth
    | ended l =>
      cases right' with
      | waiting => exact hboth
      | ended r =>
        have hrun := run_plays (next (l, r)) task world'
        exact (hboth.trans plays_join).trans hrun

/-! ## Tasks in the background -/

/-- What a task has left that never sets the layout, and that is another one than `front`. -/
theorem World.Plays.aside {p p' : Procedure α} (h : world.Plays task p p' world') (hp : p.Calm)
    (hne : task ≠ front) : p'.Calm ∧ Played world front [] world' := by
  obtain ⟨tr, hbecomes, hplayed, hothers⟩ := h
  refine ⟨hp.of_becomes hbecomes, trivial, ?_, hothers front hne.symm, hplayed.le_nextTask,
    hplayed.ahead⟩
  exact hplayed.layout.trans (remembered_eq (hp.of_becomes_nil hbecomes) _)

namespace Session

variable {ρ : Type} {s s' s'' : Session ρ}

/-- The tasks in the background are others than `front`, and they leave the layout alone. -/
structure Fit (front : Nat) (s : Session ρ) : Prop where
  ahead : World.Ahead front s.world
  of_mem_tasks {t : Nat × Activity (Option ρ)} : t ∈ s.tasks →
    t.1 ≠ front ∧ t.1 < s.world.nextTask ∧ t.2.rest.Calm

/-- A task in the background stays one when numbers are given to others. -/
theorem Fit.later {t : Nat × Activity (Option ρ)} {next : Nat} (hs : s.Fit front) (ht : t ∈ s.tasks)
    (hle : s.world.nextTask ≤ next) : t.1 ≠ front ∧ t.1 < next ∧ t.2.rest.Calm := by
  obtain ⟨hne, hlt, hcalm⟩ := hs.of_mem_tasks ht
  exact ⟨hne, Nat.lt_of_lt_of_le hlt hle, hcalm⟩

/-- From one session to another, nothing has become different for the task `front`. -/
structure Aside (front : Nat) (s s' : Session ρ) : Prop where
  played : Played s.world front [] s'.world
  fit : s'.Fit front

theorem Aside.refl (hs : s.Fit front) : Aside front s s := ⟨.refl _ _, hs⟩

theorem Aside.trans (h : Aside front s s') (h' : Aside front s' s'') : Aside front s s'' :=
  ⟨h.played.trans h'.played, h'.fit⟩

/-- A step for each of some things, as long as those are fit for it. -/
theorem aside_foldl {ε : Type} {P : Nat → ε → Prop} {step : Session ρ → ε → Session ρ}
    (hstep : ∀ s e, s.Fit front → P s.world.nextTask e → Aside front s (step s e))
    (hP : ∀ n m e, n ≤ m → P n e → P m e) (es : List ε) (hs : s.Fit front)
    (hes : ∀ e ∈ es, P s.world.nextTask e) : Aside front s (es.foldl step s) := by
  induction es generalizing s with
  | nil => exact .refl hs
  | cons e es ih =>
    obtain ⟨he, hes⟩ := List.forall_mem_cons.1 hes
    have hfirst := hstep s e hs he
    exact hfirst.trans (ih hfirst.fit fun e he => hP _ _ e hfirst.played.le_nextTask (hes e he))

theorem aside_dropTask (hs : s.Fit front) (task : Nat) : Aside front s (s.dropTask task) := by
  rw [dropTask]
  split
  next hany =>
    obtain ⟨t, ht, hdrop⟩ := List.any_eq_true.1 hany
    have htask : t.1 = task := beq_iff_eq.1 (Bool.and_eq_true_iff.1 hdrop).1
    have hforget := World.played_forget s.world (htask ▸ (hs.of_mem_tasks ht).1)
    exact ⟨hforget, hforget.ahead hs.ahead, fun ht =>
      hs.later (List.mem_of_mem_filter ht) hforget.le_nextTask⟩
  next => exact .refl hs

theorem aside_dropDropped (hs : s.Fit front) : Aside front s s.dropDropped := by
  have hcleared : Aside front s { s with world := { s.world with
      dropped := []
      spawned := s.world.spawned.filter fun e => !s.world.dropped.contains e.1 } } := by
    refine ⟨⟨trivial, rfl, rfl, Nat.le_refl _, fun hw => ?_⟩, ?_, hs.of_mem_tasks⟩
    · exact ⟨hw.lt_nextTask, fun he => hw.of_mem_spawned (List.mem_of_mem_filter he)⟩
    · exact ⟨hs.ahead.lt_nextTask, fun he => hs.ahead.of_mem_spawned (List.mem_of_mem_filter he)⟩
  have hdrops := aside_foldl (P := fun _ _ => True) (fun s task hs _ => aside_dropTask hs task)
    (fun _ _ _ _ h => h) s.world.dropped hcleared.fit fun _ _ => trivial
  exact hcleared.trans hdrops

theorem calm_carryOut (l : Link) (job : Job) : (Service.carryOut l job).procedure.Calm := by
  intro tr o hrun e he line hset
  have hworks := Task.Only.of_run (Service.works_carryOut job) (Procedure.run_procedure.1 hrun) e he
  rw [hset] at hworks
  exact hworks

theorem aside_startSpawned (hs : s.Fit front) : Aside front s s.startSpawned := by
  have hcleared : Aside front s { s with world := { s.world with spawned := [] } } :=
    ⟨⟨trivial, rfl, rfl, Nat.le_refl _, fun hw => ⟨hw.lt_nextTask, nofun⟩⟩,
      ⟨hs.ahead.lt_nextTask, nofun⟩, hs.of_mem_tasks⟩
  refine hcleared.trans (aside_foldl (P := fun n (e : Nat × Job) => e.1 ≠ front ∧ e.1 < n) ?_
    (fun _ _ _ hle h => ⟨h.1, Nat.lt_of_lt_of_le h.2 hle⟩) _ hcleared.fit fun e he =>
      hs.ahead.of_mem_spawned he)
  rintro s ⟨task, job⟩ hs ⟨hne, hlt⟩
  have hrun := Activity.run_plays (α := Option ρ)
    ((Service.carryOut s.world.link job).procedure.bind fun _ => .done none) task s.world
  obtain ⟨hcalm, hplayed⟩ := hrun.aside ((calm_carryOut s.world.link job).map _) hne
  refine ⟨hplayed, hplayed.ahead hs.ahead, fun {t} ht => ?_⟩
  rcases List.mem_append.1 ht with ht | ht
  · exact hs.later ht hplayed.le_nextTask
  · cases List.mem_singleton.1 ht
    exact ⟨hne, Nat.lt_of_lt_of_le hlt hplayed.le_nextTask, hcalm⟩

theorem aside_stepTasks {tasks : List (Nat × Activity (Option ρ))}
    (hs : Fit front ⟨world, tasks⟩) : Aside front ⟨world, tasks⟩
      ⟨(stepTasks tasks world).2.1, (stepTasks tasks world).1⟩ := by
  induction tasks generalizing world with
  | nil => exact .refl hs
  | cons t rest ih =>
    obtain ⟨task, main⟩ := t
    obtain ⟨hne, hlt, hcalm⟩ := hs.of_mem_tasks List.mem_cons_self
    obtain ⟨hcalm', hplayed⟩ := (main.resume_plays task world).aside hcalm hne
    have hrest : Fit front ⟨(main.resume task world).2.1, rest⟩ :=
      ⟨hplayed.ahead hs.ahead, fun ht =>
        hs.later (List.mem_cons_of_mem _ ht) hplayed.le_nextTask⟩
    have hsteps := ih hrest
    refine ⟨hplayed.trans hsteps.played, hsteps.fit.ahead, fun ht => ?_⟩
    rcases List.mem_cons.1 ht with rfl | ht
    · exact ⟨hne, Nat.lt_of_lt_of_le hlt
        (Nat.le_trans hplayed.le_nextTask hsteps.played.le_nextTask), hcalm'⟩
    · exact hsteps.fit.of_mem_tasks ht

/-! ## The procedure in front -/

variable {w : World} {p p' : Procedure α}

/-- Since the world was `w`, the procedure `p` in front has gone on to `p'`. -/
structure Goes (front : Nat) (w : World) (p : Procedure α) (s : Session ρ) (p' : Procedure α) :
    Prop where
  played : ∃ tr, p.Becomes tr p' ∧ Played w front tr s.world
  fit : s.Fit front

theorem Goes.aside (h : Goes front w p s p') (hs : Aside front s s') : Goes front w p s' p' := by
  obtain ⟨tr, hbecomes, hplayed⟩ := h.played
  have hall := hplayed.trans hs.played
  rw [List.append_nil] at hall
  exact ⟨⟨tr, hbecomes, hall⟩, hs.fit⟩

/-- What changes nothing that tasks have left leaves the procedure where it is. -/
theorem Goes.of_kept (h : Goes front w p s p') (hkept : World.Kept s.world world) :
    Goes front w p { s with world := world } p' := by
  have hplayed := hkept.played front
  refine h.aside ⟨hplayed, hplayed.ahead h.fit.ahead, fun ht => ?_⟩
  rw [hkept.nextTask]
  exact h.fit.of_mem_tasks ht

theorem Goes.resume {main : Activity α} (h : Goes front w p s main.rest) :
    Goes front w p { s with world := (main.resume front s.world).2.1 }
      (main.resume front s.world).1.rest := by
  obtain ⟨tr, hbecomes, hplayed⟩ := h.played
  obtain ⟨u, hbecomes', hplayed', -⟩ := main.resume_plays front s.world
  exact ⟨⟨tr ++ u, hbecomes.trans hbecomes', hplayed.trans hplayed'⟩,
    hplayed'.ahead h.fit.ahead, fun ht => h.fit.later ht hplayed'.le_nextTask⟩

theorem Goes.step {main : Activity α} (h : Goes front w p s main.rest) :
    Goes front w p (s.step front main).1 (s.step front main).2.1.rest := by
  have hdropped := h.resume.aside (aside_dropDropped h.resume.fit)
  have hsteps := hdropped.aside (aside_stepTasks hdropped.fit)
  have hagain := hsteps.aside (aside_dropDropped hsteps.fit)
  exact hagain.aside (aside_startSpawned hagain.fit)

theorem Goes.settle {main : Activity α} (fuel : Nat) (h : Goes front w p s main.rest) :
    Goes front w p (s.settle front fuel main).1 (s.settle front fuel main).2.rest := by
  induction fuel generalizing s main with
  | zero => exact h
  | succ fuel ih =>
    have hstep := h.step
    rw [Session.settle]
    split
    next s' main' hs =>
      rw [hs] at hstep
      exact ih hstep
    next s' main' hs =>
      rw [hs] at hstep
      exact hstep

/-- The result of a procedure that has stopped, if it has one. -/
def Stop.result? : Stop α → Option α
  | .ended result => some result
  | .cancelled | .expired => none

/-- The tasks that a session can go on with in the background: their numbers are not to come, and
    they leave the layout alone. -/
structure Ready (s : Session ρ) : Prop where
  of_mem_tasks {t : Nat × Activity (Option ρ)} : t ∈ s.tasks →
    t.1 < s.world.nextTask ∧ t.2.rest.Calm
  of_mem_spawned {e : Nat × Job} : e ∈ s.world.spawned → e.1 < s.world.nextTask

theorem Fit.ready (h : s.Fit front) : s.Ready :=
  ⟨fun ht => (h.of_mem_tasks ht).2, fun he => (h.ahead.of_mem_spawned he).2⟩

/-- A run of `p` that has begun in the world `w`, as the session `s` shows it where it has stopped.
    The layout is told and kept as it was set. Where the task was dropped, what it had left itself
    guarded by is started in its place. -/
structure Stopped (front : Nat) (w : World) (p : Procedure α) (s : Session ρ) (stop : Stop α)
    (tr : List Event) : Prop where
  run : p.Run tr stop.result?
  recalls : Recalls w.layout tr
  layout : s.world.layout = remembered w.layout tr
  guards_of_ended {r : α} : stop = .ended r →
    s.world.guardsOf front = armed (w.guardsOf front) tr
  spawned_of_cancelled : stop = .cancelled →
    ∃ before, s.world.spawned.map (·.2) = before ++ armed (w.guardsOf front) tr
  ready : s.Ready

theorem Goes.exists_ended {r : α} (h : Goes front w p s (.done r)) :
    ∃ tr, Stopped front w p s (.ended r) tr := by
  obtain ⟨tr, hbecomes, hplayed⟩ := h.played
  have hrun := hbecomes [] (some r) (.done r)
  rw [List.append_nil] at hrun
  exact ⟨tr, hrun, hplayed.recalls, hplayed.layout, fun _ => hplayed.guards, nofun, h.fit.ready⟩

theorem Goes.exists_cut (h : Goes front w p s p') : ∃ tr, Stopped front w p s .expired tr := by
  obtain ⟨tr, hbecomes, hplayed⟩ := h.played
  have hrun := hbecomes [] none (.cut p')
  rw [List.append_nil] at hrun
  exact ⟨tr, hrun, hplayed.recalls, hplayed.layout, nofun, nofun, h.fit.ready⟩

/-- The task in front is dropped. -/
theorem Goes.exists_forgotten (h : Goes front w p s p') {stop : Stop α}
    (hstop : stop.result? = none) :
    ∃ tr, Stopped front w p { s with world := s.world.forget front } stop tr := by
  obtain ⟨tr, hbecomes, hplayed⟩ := h.played
  have hrun := hbecomes [] none (.cut p')
  rw [List.append_nil] at hrun
  have hforget := World.played_forget s.world (Nat.ne_of_lt (Nat.lt_succ_self front))
  refine ⟨tr, hstop ▸ hrun, hplayed.recalls, hforget.layout.trans hplayed.layout, ?_, fun _ => ?_,
    fun ht => (h.fit.later ht hforget.le_nextTask).2,
    fun he => ((hforget.ahead h.fit.ahead).of_mem_spawned he).2⟩
  · rintro r rfl
    cases hstop
  · exact ⟨_, hplayed.guards ▸ World.spawned_forget s.world front⟩

theorem Goes.advance {main : Activity α} (limit : Option Nat) (fuel : Nat)
    (h : Goes front w p s main.rest) : ∃ tr, Stopped front w p
      (advance front limit fuel s main).1 (advance front limit fuel s main).2 tr := by
  induction fuel generalizing s main with
  | zero => exact h.exists_cut
  | succ fuel ih =>
    have hsettled := h.settle patience
    rw [Session.advance]
    generalize s.settle front patience main = settled at hsettled ⊢
    obtain ⟨s', main'⟩ := settled
    simp only
    split
    next => exact hsettled.exists_ended
    next =>
      split
      next world hwork =>
        have hworked := hsettled.of_kept (World.kept_of_work hwork)
        split
        next => exact hworked.exists_forgotten rfl
        next => exact ih hworked
      next =>
        split
        next => exact hsettled.exists_forgotten rfl
        next =>
          split
          next => exact hsettled.exists_forgotten rfl
          next => exact ih (hsettled.of_kept ⟨rfl, rfl, rfl, rfl⟩)

/-- **A session plays a run.** Let the tasks in the background be ready. What a session plays of a
    procedure in front, to its end, to its drop or until nobody looks further, is a run of it. The
    layout is told as it was set last, and the session is ready again. A task that is dropped leaves
    to be started what it is guarded by. -/
theorem run_stopped (hs : s.Ready) (p : Procedure α) (limit : Option Duration) :
    ∃ tr, Stopped s.world.nextTask s.world p (s.run p limit).1 (s.run p limit).2 tr := by
  have hbegun := Activity.run_plays p s.world.nextTask
    { s.world with nextTask := s.world.nextTask + 1 }
  obtain ⟨tr, hbecomes, hplayed, -⟩ := hbegun
  have hgoes : Goes s.world.nextTask { s.world with nextTask := s.world.nextTask + 1 } p
      { s with world := (Activity.run s.world.nextTask p
        { s.world with nextTask := s.world.nextTask + 1 }).2 }
      (Activity.run s.world.nextTask p
        { s.world with nextTask := s.world.nextTask + 1 }).1.rest := by
    refine ⟨⟨tr, hbecomes, hplayed⟩, hplayed.ahead ⟨Nat.lt_succ_self _, fun he => ?_⟩, fun ht => ?_⟩
    · have hlt := hs.of_mem_spawned he
      exact ⟨Nat.ne_of_lt hlt, Nat.lt_succ_of_lt hlt⟩
    · obtain ⟨hlt, hcalm⟩ := hs.of_mem_tasks ht
      exact ⟨Nat.ne_of_lt hlt,
        Nat.lt_of_lt_of_le (Nat.lt_succ_of_lt hlt) hplayed.le_nextTask, hcalm⟩
  obtain ⟨tr, hstopped⟩ := hgoes.advance (limit.map fun d => s.world.clock.nanos + d.nanos) patience
  exact ⟨tr, hstopped.run, hstopped.recalls, hstopped.layout, hstopped.guards_of_ended,
    hstopped.spawned_of_cancelled, hstopped.ready⟩

/-- Without tasks in the background a session is ready. -/
theorem Ready.of_nil (htasks : s.tasks = []) (hspawned : s.world.spawned = []) : s.Ready := by
  refine ⟨fun ht => ?_, fun he => ?_⟩
  · rw [htasks] at ht
    cases ht
  · rw [hspawned] at he
    cases he

/-- It stays ready when its record is cleared, -/
theorem Ready.clearRecord (hs : s.Ready) : s.clearRecord.Ready :=
  ⟨hs.of_mem_tasks, hs.of_mem_spawned⟩

/-- when the tasks in the background go on for a while, -/
theorem Ready.idle (hs : s.Ready) (d : Duration) : (s.idle d).Ready := by
  obtain ⟨tr, hstopped⟩ := run_stopped hs
    (Task.procedure (Task.ask (.sleep ⟨s.world.clock.nanos + d.nanos⟩))) none
  exact hstopped.ready

/-- and when a procedure is started in the background that leaves the layout alone. -/
theorem Ready.spawn (hs : s.Ready) {q : Procedure ρ} (hq : q.Calm) : (s.spawn q).1.Ready := by
  have hbegun := Activity.run_plays (α := Option ρ) (q.bind fun r => .done (some r))
    s.world.nextTask { s.world with nextTask := s.world.nextTask + 1 }
  obtain ⟨tr, hbecomes, hplayed, -⟩ := hbegun
  have hnext := Nat.lt_of_lt_of_le (Nat.lt_succ_self s.world.nextTask) hplayed.le_nextTask
  refine ⟨fun {t} ht => ?_, fun he => ?_⟩
  · rcases List.mem_append.1 ht with ht | ht
    · obtain ⟨hlt, hcalm⟩ := hs.of_mem_tasks ht
      exact ⟨Nat.lt_trans hlt hnext, hcalm⟩
    · cases List.mem_singleton.1 ht
      exact ⟨hnext, (hq.map some).of_becomes hbecomes⟩
  · refine ((hplayed.ahead ⟨Nat.lt_succ_self _, fun he => ?_⟩).of_mem_spawned he).2
    have hlt := hs.of_mem_spawned he
    exact ⟨Nat.ne_of_lt hlt, Nat.lt_succ_of_lt hlt⟩

end Session

end Simulation

end Reimage
