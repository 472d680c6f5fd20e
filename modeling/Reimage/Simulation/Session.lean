/-
  Running tasks side by side in a simulated world.

  A session is the world with the tasks in the background. One more task may run in front: the
  session goes on until that task has ended, is dropped, or a time limit has passed. The clock moves
  only when no task can go on, and then straight to the next time at which one can.

  Tasks that were started are run after the one that started them came to wait.
-/
import Reimage.Simulation.World

namespace Reimage.Simulation

/-- A task that was run as far as it could. -/
inductive Strand (α : Type) where
  | ended (result : α)
  | waiting (q : Ask) (next : q.Answer → Task α)

/-- Runs a task until it has to wait. -/
def Strand.run {α : Type} (place : Place) : Task α → World → Strand α × World
  | Program.done result, w => (.ended result, w)
  | Program.ask q next, w =>
    match (w.begin place q).answer? place q with
    | some (a, w) => run place (next a) w
    | none => (.waiting q next, w.begin place q)

/-- Goes on with a task, and tells whether it could. -/
def Strand.resume {α : Type} (place : Place) (w : World) : Strand α → Strand α × World × Bool
  | .ended result => (.ended result, w, false)
  | .waiting q next =>
    match w.answer? place q with
    | some (a, w) =>
      let (s, w) := Strand.run place (next a) w
      (s, w, true)
    | none => (.waiting q next, w, false)

/-- When a task that waits may go on. -/
def Strand.times {α : Type} (place : Place) (w : World) : Strand α → List Nat
  | .ended _ => []
  | .waiting q _ => w.times place q

/-- A procedure that was run as far as it could. -/
inductive Activity (α : Type) where
  | ended (result : α)
  | waiting (q : Ask) (next : q.Answer → Procedure α)
  /-- Two tasks that run side by side. -/
  | split (left right : Strand (Result Unit)) (next : Result Unit × Result Unit → Procedure α)

namespace Activity

/-- Runs a procedure until it has to wait. -/
def run {α : Type} (task : Nat) : Procedure α → World → Activity α × World
  | .done result, w => (.ended result, w)
  | .ask (.one q) next, w =>
    match (w.begin (task, 0) q).answer? (task, 0) q with
    | some (a, w) => run task (next a) w
    | none => (.waiting q next, w.begin (task, 0) q)
  | .ask (.both left right) next, w =>
    let (left, w) := Strand.run (task, 1) left w
    let (right, w) := Strand.run (task, 2) right w
    match left, right with
    | .ended l, .ended r => run task (next (l, r)) w
    | left, right => (.split left right next, w)

/-- Goes on with a procedure, and tells whether it could. -/
def resume {α : Type} (task : Nat) (w : World) : Activity α → Activity α × World × Bool
  | .ended result => (.ended result, w, false)
  | .waiting q next =>
    match w.answer? (task, 0) q with
    | some (a, w) =>
      let (s, w) := run task (next a) w
      (s, w, true)
    | none => (.waiting q next, w, false)
  | .split left right next =>
    let (left, w, movedLeft) := left.resume (task, 1) w
    let (right, w, movedRight) := right.resume (task, 2) w
    match left, right with
    | .ended l, .ended r =>
      let (s, w) := run task (next (l, r)) w
      (s, w, true)
    | left, right => (.split left right next, w, movedLeft || movedRight)

/-- When a procedure that waits may go on. -/
def times {α : Type} (task : Nat) (w : World) : Activity α → List Nat
  | .ended _ => []
  | .waiting q _ => w.times (task, 0) q
  | .split left right _ => left.times (task, 1) w ++ right.times (task, 2) w

/-- The result of a procedure that has ended. -/
def result? {α : Type} : Activity α → Option α
  | .ended result => some result
  | _ => none

end Activity

/-- A world with tasks in the background. Some of them give a result, which is kept; jobs give
    none. -/
structure Session (ρ : Type) where
  world : World
  tasks : List (Nat × Activity (Option ρ)) := []

namespace Session

variable {ρ α : Type}

/-- Starts the tasks of jobs that were spawned, without running them yet. -/
def startSpawned (s : Session ρ) : Session ρ :=
  let start := fun (s : Session ρ) (e : Nat × Job) =>
    let work : Procedure Unit := (Service.carryOut s.world.link e.2).procedure
    let (a, w) := Activity.run e.1 (work.bind fun _ => .done none) s.world
    { world := w, tasks := s.tasks ++ [(e.1, a)] }
  s.world.spawned.foldl start { s with world := { s.world with spawned := [] } }

/-- Drops a task in the background, unless it has ended. -/
def dropTask (s : Session ρ) (task : Nat) : Session ρ :=
  if s.tasks.any fun t => t.1 == task && t.2.result?.isNone then
    { world := s.world.forget task, tasks := s.tasks.filter fun t => t.1 != task }
  else s

/-- Drops the tasks that are to be dropped. Jobs that have not started yet are never started. -/
def dropDropped (s : Session ρ) : Session ρ :=
  let tasks := s.world.dropped
  let w := { s.world with
    dropped := [], spawned := s.world.spawned.filter fun e => !tasks.contains e.1 }
  tasks.foldl dropTask { s with world := w }

/-- Lets every task go on once, and tells whether one could. -/
def stepTasks : List (Nat × Activity (Option ρ)) → World →
    List (Nat × Activity (Option ρ)) × World × Bool
  | [], w => ([], w, false)
  | (task, a) :: rest, w =>
    let (a, w, moved) := a.resume task w
    let (rest, w, movedRest) := stepTasks rest w
    ((task, a) :: rest, w, moved || movedRest)

/-- Lets the task in front and all others go on once, and tells whether one could. -/
def step (front : Nat) (s : Session ρ) (main : Activity α) : Session ρ × Activity α × Bool :=
  let (main, w, movedMain) := main.resume front s.world
  let s := { s with world := w }.dropDropped
  let (tasks, w, movedTasks) := stepTasks s.tasks s.world
  let s : Session ρ := { world := w, tasks := tasks }
  let spawned := !s.world.spawned.isEmpty || !s.world.dropped.isEmpty
  (s.dropDropped.startSpawned, main, movedMain || movedTasks || spawned)

/-- Lets tasks go on until none can. `fuel` bounds the number of rounds. -/
def settle (front : Nat) : (fuel : Nat) → Session ρ → Activity α → Session ρ × Activity α
  | 0, s, main => (s, main)
  | fuel + 1, s, main =>
    match s.step front main with
    | (s, main, true) => settle front fuel s main
    | (s, main, false) => (s, main)

/-- The next time at which something can happen. -/
def nextTime? (front : Nat) (s : Session ρ) (main : Activity α) : Option Nat :=
  let times := main.times front s.world ++ s.world.orderTimes
    ++ s.tasks.flatMap fun t => t.2.times t.1 s.world
  (times.filter fun t => decide (s.world.clock.nanos < t)).min?

/-- How the task in front came to stop. -/
inductive Stop (α : Type) where
  | ended (result : α)
  | cancelled
  /-- The time limit has passed, or nothing can happen any more. -/
  | expired

/-- How often tasks go on, and how many errands are done and times reached, before a session is
    given up. -/
def patience : Nat := 1000000

/-- Runs the session until the task in front has stopped. -/
def advance (front : Nat) (limit : Option Nat) : (fuel : Nat) → Session ρ → Activity α →
    Session ρ × Stop α
  | 0, s, _ => (s, .expired)
  | fuel + 1, s, main =>
    let (s, main) := s.settle front patience main
    match main with
    | .ended result => (s, .ended result)
    | main =>
      match s.world.work? with
      | some w =>
        if w.isCancelled then ({ s with world := w.forget front }, .cancelled)
        else advance front limit fuel { s with world := w } main
      | none =>
        let stop := ({ s with world := s.world.forget front }, .expired)
        match s.nextTime? front main with
        | none => stop
        | some t =>
          if (limit.map fun l => decide (l < t)).getD false then stop
          else advance front limit fuel { s with world := { s.world with clock := ⟨t⟩ } } main

/-- Runs a procedure in front. -/
def run (s : Session ρ) (p : Procedure α) (limit : Option Duration := none) :
    Session ρ × Stop α :=
  let front := s.world.nextTask
  let w := { s.world with nextTask := front + 1 }
  let till := limit.map fun d => s.world.clock.nanos + d.nanos
  let (main, w) := Activity.run front p w
  advance front till patience { s with world := w } main

/-- Answers one question of a program that runs in front with the number `front`. There is no
    answer if the question can never be answered. -/
def answer (s : Session ρ) (front : Nat) (q : Call) : Option (q.Answer × Session ρ) :=
  let (a, w) := Activity.run front (Program.query q) s.world
  match a with
  | .ended r => some (r, { s with world := w })
  | a =>
    match advance front none patience { s with world := w } a with
    | (s, .ended r) => some (r, s)
    | _ => none

/-- Lets the tasks in the background go on for a while. -/
def idle (s : Session ρ) (d : Duration) : Session ρ :=
  let till : Instant := ⟨s.world.clock.nanos + d.nanos⟩
  (s.run (Task.procedure (Task.ask (.sleep till)))).1

/-- Starts a procedure in the background, and gives the number of its task. -/
def spawn (s : Session ρ) (p : Procedure ρ) : Session ρ × Nat :=
  let task := s.world.nextTask
  let (a, w) := Activity.run task (p.bind fun r => .done (some r))
    { s.world with nextTask := task + 1 }
  ({ world := w, tasks := s.tasks ++ [(task, a)] }, task)

/-- The result of a task in the background, if it has ended. -/
def result? (s : Session ρ) (task : Nat) : Option ρ :=
  ((s.tasks.lookup task).bind Activity.result?).join

/-- Forgets what was recorded, to start a new record. -/
def clearRecord (s : Session ρ) : Session ρ :=
  { s with world := { s.world with log := [], device := { s.world.device with record := [] } } }

end Session

end Reimage.Simulation
