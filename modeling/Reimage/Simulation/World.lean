/-
  Surroundings of tasks in which time is virtual.

  The world holds everything that tasks share: the clock, the device, the link with its lock, the
  operations, the log, and the errands, which are the dials and commands that block whoever runs
  them. Errands are done one at a time, in the order they were handed in.

  A question of a task is first handed in (`World.begin`) and answered as soon as it can be
  (`World.answer?`). A place names the task that asks, and the branch of it where it has two.
-/
import Reimage.Service
import Reimage.Simulation.Device

namespace Reimage.Simulation

/-- The number of a task, and of its branch where it has two. -/
abbrev Place := Nat × Nat

/-- What blocks whoever runs it. -/
inductive Errand
  | dial
  | run (c : Connection) (command : String) (stdin : Option (List UInt8)) (mode : StderrMode)
  | start (c : Connection) (command : String)

/-- What came of an errand. -/
inductive Outcome
  | dialed (r : Result Connection)
  | ran (r : Result Finished)
  | started (r : Result Crash.Running)

/-- An errand that was handed in. -/
structure Order where
  place : Place
  errand : Errand
  /-- It is not done before. -/
  since : Instant

/-- An outcome that is known from a time on. -/
structure Reply where
  place : Place
  outcome : Outcome
  since : Instant

/-- What a dial finds: a connection or an error, and how long that took. -/
structure Dialed where
  result : Result Connection
  device : Device
  log : List LogLine := []
  takes : Duration := ⟨0⟩

/-- How addresses are dialed. -/
abbrev Network := Device → String → Dialed

/-- The network that leads to the device, whatever the address. -/
def Network.direct : Network := fun d address =>
  let (r, d) := d.dial address
  { result := r, device := d }

structure World where
  device : Device := {}
  network : Network := .direct
  /-- The device's address, or why there is none. -/
  address : Result String
  link : Link
  clock : Instant := ⟨0⟩
  current : Current := {}
  layout : Option Layout := none
  registry : Registry := {}
  /-- How many operations were named. -/
  named : Nat := 0
  /-- Tasks that wait for operations. -/
  waiters : List (Place × Waiter) := []
  /-- The place that holds the lock of dials, and behind it those that wait for it, in order. -/
  lock : List Place := []
  orders : List Order := []
  replies : List Reply := []
  /-- What is started in the place of tasks that are dropped, the latest first. -/
  guards : List (Nat × Job) := []
  /-- The number of the next task. -/
  nextTask : Nat := 0
  /-- Jobs whose tasks are still to be started. -/
  spawned : List (Nat × Job) := []
  /-- The service's tasks. -/
  tracked : List Nat := []
  /-- Tasks to be dropped. -/
  dropped : List Nat := []
  /-- The log, the last line first. -/
  log : List LogLine := []
  /-- Whether the next dial that should be done by a deadline is done at the deadline only. -/
  lateDial : Bool := false
  /-- The task in front is dropped when the device sees a command with this text. -/
  cancelOn : Option String := none

namespace World

/-! ## Errands -/

/-- Hands in an errand. -/
def order (w : World) (place : Place) (errand : Errand) (since : Instant) : World :=
  { w with orders := w.orders ++ [⟨place, errand, since⟩] }

/-- Does an errand. -/
def perform (w : World) : Errand → Outcome × Duration × World
  | .dial =>
    match w.address with
    | .error e => (.dialed (.error e), ⟨0⟩, w)
    | .ok address =>
      let d := w.network w.device address
      (.dialed d.result, d.takes,
        { w with device := d.device, log := d.log.reverse ++ w.log })
  | .run c command stdin mode =>
    let (r, d) := w.device.run w.clock c command stdin mode
    (.ran r, ⟨0⟩, { w with device := d })
  | .start c command =>
    let (r, d) := w.device.start w.clock c command
    (.started r, ⟨0⟩, { w with device := d })

/-- Does the first errand whose time has come; none if there is none. -/
def work? (w : World) : Option World :=
  (w.orders.find? fun o => decide (o.since.nanos ≤ w.clock.nanos)).map fun o =>
    let rest := w.orders.eraseP fun o => decide (o.since.nanos ≤ w.clock.nanos)
    let (outcome, takes, w) := { w with orders := rest }.perform o.errand
    { w with replies := ⟨o.place, outcome, ⟨w.clock.nanos + takes.nanos⟩⟩ :: w.replies }

/-- The reply for a place, once it is known. -/
def reply? (w : World) (place : Place) : Option (Outcome × World) :=
  (w.replies.find? fun r => r.place == place && decide (r.since.nanos ≤ w.clock.nanos)).map
    fun r => (r.outcome, { w with replies := w.replies.filter fun r => r.place != place })

/-- Whether a command with the text to wait for was seen. -/
def isCancelled (w : World) : Bool :=
  match w.cancelOn with
  | some text => w.device.record.any fun r => Text.contains r.command text
  | none => false

/-! ## Questions -/

/-- Whether a time has come. -/
def isPast (w : World) (t : Instant) : Bool := decide (t.nanos ≤ w.clock.nanos)

/-- Hands in a question. -/
def begin (w : World) (place : Place) : Ask → World
  | .acquire => { w with lock := w.lock ++ [place] }
  | .dial => w.order place .dial w.clock
  | .dialBefore deadline =>
    { w with lateDial := false }.order place .dial (if w.lateDial then deadline else w.clock)
  | .run c command stdin mode => w.order place (.run c command stdin mode) w.clock
  | .start c command => w.order place (.start c command) w.clock
  | .awaitOperation _ _ => { w with waiters := (place, .start) :: w.waiters }
  | _ => w

/-- Lets a task that waits for an operation go on as far as it can. -/
def awaitOperation? (w : World) (place : Place) (name : String) (deadline : Instant) :
    Option (Result Operation × World) :=
  match (w.waiters.lookup place).map (Waiter.settle w.registry name (w.isPast deadline)) with
  | some (.returned r) =>
    some (r, { w with waiters := w.waiters.filter fun e => e.1 != place })
  | _ => none

/-- Adds lines to the log. -/
def logged (w : World) (lines : List LogLine) : World := { w with log := lines.reverse ++ w.log }

/-- Answers a question, if that is possible yet. -/
def answer? (w : World) (place : Place) : (q : Ask) → Option (q.Answer × World)
  | .log line => some ((), w.logged [line])
  | .now => some (w.clock, w)
  | .sleep till => if w.isPast till then some ((), w) else none
  | .abort _ => none
  | .isClosed => some (w.current.closed, w)
  | .current => some (w.current.connection, w)
  | .install c =>
    let (s, done) := w.current.install c
    some (done, { w with current := s })
  | .closeLink =>
    let (s, c) := w.current.close
    some (c, { w with current := s })
  | .acquire => if w.lock.head? == some place then some ((), w) else none
  | .release => some ((), { w with lock := w.lock.erase place })
  | .dial =>
    match w.reply? place with
    | some (.dialed r, w) => some (r, w)
    | _ => none
  | .dialBefore deadline =>
    match w.reply? place with
    | some (.dialed r, w) => some (some r, w)
    | _ => if w.isPast deadline then some (none, w) else none
  | .disconnect c => some ((), { w with device := w.device.closeAt c.id w.clock })
  | .awaitClose c => if w.device.isClosed c.id w.clock then some (.ok (), w) else none
  | .awaitCloseBefore c deadline =>
    if w.device.isClosed c.id w.clock then some (some (.ok ()), w)
    else if w.isPast deadline then some (none, w) else none
  | .run _ _ _ _ =>
    match w.reply? place with
    | some (.ran r, w) => some (r, w)
    | _ => none
  | .start _ _ =>
    match w.reply? place with
    | some (.started r, w) => some (r, w)
    | _ => none
  | .layout => some (w.layout, w)
  | .setLayout l => some ((), { w with layout := some l })
  | .guard job => some ((), { w with guards := (place.1, job) :: w.guards })
  | .unguard => some ((), { w with guards := w.guards.eraseP fun g => g.1 == place.1 })
  | .register =>
    match w.registry.register [Operation.nameOf w.named] with
    | some (r, .ok op) => some (.ok op, { w with registry := r, named := w.named + 1 })
    | some (r, .error e) => some (.error e, { w with registry := r })
    | none => none
  | .setResult op result =>
    let (r, outcome, log) := w.registry.setResult op result
    some (outcome, { w with registry := r }.logged log)
  | .operation op => some (w.registry.get op, w)
  | .awaitOperation op deadline => w.awaitOperation? place op deadline
  | .closeRegistry =>
    let (r, log) := w.registry.close
    some ((), { w with registry := r }.logged log)
  | .spawn job =>
    some (w.nextTask,
      { w with nextTask := w.nextTask + 1, spawned := w.spawned ++ [(w.nextTask, job)] })
  | .track task => some ((), { w with tracked := w.tracked ++ [task] })
  | .takeTracked => some (w.tracked, { w with tracked := [] })
  | .drop task => some ((), { w with dropped := w.dropped ++ [task] })

/-- When a task that waits for an answer may go on, as far as the clock decides that. -/
def times (w : World) (place : Place) : Ask → List Nat
  | .sleep till => [till.nanos]
  | .dialBefore deadline => deadline.nanos :: replyTimes
  | .dial | .run _ _ _ _ | .start _ _ => replyTimes
  | .awaitClose c => (w.device.closing? c.id).toList
  | .awaitCloseBefore c deadline => deadline.nanos :: (w.device.closing? c.id).toList
  | .awaitOperation _ deadline => [deadline.nanos]
  | _ => []
where
  replyTimes : List Nat := (w.replies.filter fun r => r.place == place).map (·.since.nanos)

/-- When errands may be done. -/
def orderTimes (w : World) : List Nat := w.orders.map (·.since.nanos)

/-- Starts a job. -/
def spawn (w : World) (job : Job) : World :=
  { w with nextTask := w.nextTask + 1, spawned := w.spawned ++ [(w.nextTask, job)] }

/-- Drops all that a task holds and waits for, and starts what was to be started in its place.
    What it handed in is still done. -/
def forget (w : World) (task : Nat) : World :=
  let jobs := (w.guards.filter fun g => g.1 == task).map (·.2)
  let w := { w with
    lock := w.lock.filter fun p => p.1 != task
    waiters := w.waiters.filter fun e => e.1.1 != task
    guards := w.guards.filter fun g => g.1 != task }
  jobs.foldl spawn w

end World

end Reimage.Simulation
