/-
  What background tasks ask.

  A background task works on the device and records the result of its operation. It registers no
  operation, sets no layout, and has nothing to do with the other tasks of its service.

  * `Service.works_carryOut`: what a task asks for its job is work;
  * `Service.Calls.Runs.works`: so it is for every background task in a run.
-/
import Reimage.Proofs.Link.Lines
import Reimage.Proofs.Service.Calls

namespace Reimage

/-- A question that is about no task of a service, neither registers nor forgets operations, and
    leaves the layout of the disk alone. -/
def Ask.Works : Ask → Prop
  | .register | .closeRegistry | .spawn _ | .track _ | .takeTracked | .drop _ | .setLayout _ => False
  | _ => True

/-- All that a task asks is work. -/
abbrev Task.Works {α : Type} (t : Task α) : Prop := t.Asks (fun _ _ => True) Ask.Works

section

variable {α β : Type}

theorem Task.works_ask_bind {q : Ask} {f : q.Answer → Task α} (hf : ∀ a, (f a).Works)
    (h : q.Works := by exact True.intro) : Task.Works (Task.ask q >>= f) := .bind (.query h) hf

theorem Ask.Connects.works {q : Ask} (h : q.Connects) : q.Works := by
  cases q <;> trivial

theorem Task.works_andThen {t : Task (Result α)} {f : α → Task (Result β)} (ht : t.Works)
    (hf : ∀ a, (f a).Works) : (t.andThen f).Works :=
  .bind ht fun
    | .ok a => hf a
    | .error _ => .done _

end

namespace Link

variable {l : Link}

theorem works_install (c : Connection) : (l.install c).Works :=
  l.asks_install (fun _ h => h.works) c

theorem works_connection : l.connection.Works := l.asks_connection fun _ h => h.works

theorem works_runCommand {command : String} {args : List String} {stdin : Option (List UInt8)}
    {mode : StderrMode} : (l.runCommand command args stdin mode).Works :=
  asks_runCommand (fun _ h => h.works) fun _ => trivial

theorem works_forceReconnect : l.forceReconnect.Works := by
  refine Task.works_ask_bind fun _ => .bind ?_ fun _ => Task.works_ask_bind fun _ => .done _
  refine Task.works_andThen (.query trivial) fun c => ?_
  refine Task.works_andThen (works_install c) fun _ => ?_
  exact Task.works_ask_bind fun _ => .done _

theorem works_redial {timeout : Duration} {deadline : Instant} :
    (l.redial timeout deadline).Works := by
  refine Task.works_ask_bind fun _ => Task.works_ask_bind fun dialed => ?_
  match dialed with
  | none => exact Task.works_ask_bind fun _ => Task.works_ask_bind fun _ => .done _
  | some (.error e) => exact Task.works_ask_bind fun _ => .done _
  | some (.ok c) =>
    refine .bind (Task.works_andThen (works_install c) fun _ => ?_) fun _ => ?_
    · exact Task.works_ask_bind fun _ => .done _
    · exact Task.works_ask_bind fun _ => .done _

theorem works_close : l.close.Works :=
  Task.works_ask_bind fun c => by
    cases c
    · exact .done _
    · exact .query trivial

theorem works_restart {args : List String} {timeout : Duration} :
    (l.restart args timeout).Works := by
  refine .bind ?_ fun deadline => ?_
  · refine Task.works_ask_bind fun now => ?_
    split
    · exact .done _
    · exact Task.works_ask_bind nofun
  refine Task.works_andThen works_connection fun old => ?_
  refine Task.works_andThen works_runCommand fun output => ?_
  refine Task.works_ask_bind fun _ => Task.works_ask_bind fun dropped => ?_
  match dropped with
  | none => exact Task.works_ask_bind fun _ => .done _
  | some (.error _) => exact .done _
  | some (.ok ()) => exact Task.works_andThen works_redial fun _ => .done _

end Link

namespace Service

open Link (Move)

variable {l : Link}

theorem works_record {label op : String} {outcome : Result OperationResponse} :
    (record label op outcome).Works := by
  cases outcome
  all_goals
    refine Task.works_ask_bind fun _ => Task.works_ask_bind fun recorded => ?_
    cases recorded
    · exact .query trivial
    · exact .done _

/-- A background task leaves the tasks of the service alone. -/
theorem works_carryOut (job : Job) : (carryOut l job).Works := by
  cases job with
  | startDaemon name =>
    refine .bind Link.works_runCommand fun started => ?_
    cases started
    · exact .query trivial
    · exact .done _
  | restart => exact .bind Link.works_restart fun _ => works_record
  | cache => exact .bind Link.works_runCommand fun _ => works_record
  | reconnect => exact .bind Link.works_forceReconnect fun _ => works_record

theorem works_work (job : Job) : (work l job).Works := .bind (works_carryOut job) fun _ => .done _

namespace Calls

variable {s : Calls}

/-- **Only calls start, take and abort tasks.** What a background task asks is work. -/
theorem Runs.works {service : Service} {uses : Nat → Option Use} {tr : List Move}
    (h : Runs service.link (start service uses) tr s) :
    (∀ i t, uses i = none → s.tasks i = some t → t.Works) ∧
    ∀ i e, uses i = none → .does i e ∈ tr → e.question.Works := by
  refine h.induct (I := fun tr s => (∀ i t, uses i = none → s.tasks i = some t → t.Works) ∧
    ∀ i e, uses i = none → .does i e ∈ tr → e.question.Works) ⟨fun i t hi ht => ?_, nofun⟩ ?_
  · simp [start, hi] at ht
  rintro u s₁ m s₂ - ⟨htasks, hasks⟩ hstep
  cases hstep with
  | @does j q f a s₂ hj _ hserves =>
    refine ⟨fun i t hi ht => ?_, fun i e hi he => ?_⟩
    · by_cases hij : i = j
      · subst hij
        rw [tasks_put_self, Option.some_inj] at ht
        subst ht
        cases htasks i _ hi hj with
        | ask _ hf => exact hf a trivial
      · rw [tasks_put_of_ne hij] at ht
        obtain heq | ⟨k, job, -, heq⟩ := hserves.tasks_cases
        · exact htasks i t hi (heq ▸ ht)
        · rw [heq] at ht
          by_cases hik : i = k
          · rw [hik, Function.update_self, Option.some_inj] at ht
            exact ht ▸ works_work job
          · rw [Function.update_of_ne hik] at ht
            exact htasks i t hi ht
    · rw [List.mem_append, List.mem_singleton] at he
      obtain he | he := he
      · exact hasks i e hi he
      · obtain ⟨rfl, rfl⟩ := Link.Move.does.inj he
        cases htasks i _ hi hj with
        | ask hq _ => exact hq

end Calls

end Service

end Reimage
