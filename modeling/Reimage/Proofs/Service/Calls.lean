/-
  Calls on one service, any number of them, in any interleaving with the tasks they start.

  A call that starts an operation registers it, starts its task and remembers the task, in three
  steps. Closing takes the tasks, aborts them one by one, closes the registry and lets go of the
  connection. The questions for the registry and for the tasks are answered from what the calls
  share; the device, the network and the clock may answer anything.

  * `Calls.Runs.run_own`: what a call has asked is a run of its task.
-/
import Reimage.Proofs.Link.Calls
import Reimage.Proofs.Steps
import Reimage.Service

namespace Reimage

namespace Service

open Link (Move own)

/-! ## Calls -/

/-- A call that begins background work, or ends it. -/
inductive Use
  | restart (args : List String)
  | cache (source : CacheProxy.Source) (destination : CacheProxy.Destination)
  | reconnect
  | close

/-- What a task gives. -/
inductive Reply
  /-- A call gives the operation it has started. -/
  | started (r : Result Operation)
  | closed
  /-- The work of an operation is done. -/
  | worked

/-- What a call does. -/
def Use.task (s : Service) : Use → Task Reply
  | restart args => do return .started (← s.restart args)
  | cache source destination => do return .started (← s.cache source destination)
  | reconnect => do return .started (← s.forceReconnect)
  | close => do
    s.close
    return .closed

/-- What a background task does. -/
def work (l : Link) (job : Job) : Task Reply := do
  carryOut l job
  return .worked

/-- The operations, the tasks the service remembers, those it has aborted, and what is left of every
    call and task. -/
structure Calls where
  registry : Registry := {}
  tracked : List Nat := []
  aborted : List Nat := []
  tasks : Nat → Option (Task Reply)

namespace Calls

/-- No call has begun. -/
def start (s : Service) (uses : Nat → Option Use) : Calls where
  tasks i := (uses i).map (Use.task s)

/-- The task has given its result. -/
def ended (s : Calls) (i : Nat) : Bool :=
  match s.tasks i with
  | some (.done _) => true
  | _ => false

/-- Task `i` goes on as `t`. -/
def put (s : Calls) (i : Nat) (t : Task Reply) : Calls :=
  { s with tasks := Function.update s.tasks i (some t) }

/-- `q` may be answered with `a`, which leads to `t`. A name for an operation may be any that is
    free, and a number for a task any that is new. -/
def Serves (l : Link) (s : Calls) : (q : Ask) → q.Answer → Calls → Prop
  | .register, a, t => ∃ candidates r, s.registry.register candidates = some (r, a) ∧
    t = { s with registry := r }
  | .setResult op result, a, t => a = (s.registry.setResult op result).2.1 ∧
    t = { s with registry := (s.registry.setResult op result).1 }
  | .operation op, a, t => a = s.registry.get op ∧ t = s
  | .closeRegistry, _, t => t = { s with registry := s.registry.close.1 }
  | .spawn job, i, t => s.tasks i = none ∧ t = s.put i (work l job)
  -- Tasks that have ended need not be remembered any longer.
  | .track i, _, t => t = { s with tracked := s.tracked.filter (fun j => !s.ended j) ++ [i] }
  | .takeTracked, is, t => is = s.tracked ∧ t = { s with tracked := [] }
  | .drop i, _, t => t = { s with aborted := i :: s.aborted }
  | _, _, t => t = s

/-- One question of one task. A task that was aborted stops where it would wait. -/
inductive Step (l : Link) (s : Calls) : Move → Calls → Prop
  | does {i : Nat} {q : Ask} {f : q.Answer → Task Reply} {a : q.Answer} {t : Calls} :
    s.tasks i = some (Program.ask q f) → (i ∈ s.aborted → ¬q.Waits) → s.Serves l q a t →
    Step l s (.does i ⟨q, a⟩) (t.put i (f a))

/-- Any number of questions. -/
abbrev Runs (l : Link) : Calls → List Move → Calls → Prop := Steps (Step l)

section

variable {l : Link} {s s' : Calls} {m : Move} {tr : List Move} {i j : Nat} {t : Task Reply}

theorem tasks_put_self : (s.put i t).tasks i = some t := Function.update_self ..

theorem tasks_put_of_ne (h : j ≠ i) : (s.put i t).tasks j = s.tasks j :=
  Function.update_of_ne h _ _

/-- An answer leaves every task as it is. It may begin another. -/
theorem Serves.tasks_cases {q : Ask} {a : q.Answer} (h : s.Serves l q a s') :
    s'.tasks = s.tasks ∨
      ∃ i job, s.tasks i = none ∧ s'.tasks = Function.update s.tasks i (some (work l job)) := by
  cases q with
  | spawn job =>
    obtain ⟨hnew, rfl⟩ := h
    exact .inr ⟨a, job, hnew, rfl⟩
  | register =>
    obtain ⟨_, _, -, rfl⟩ := h
    exact .inl rfl
  | setResult _ _ | operation _ | takeTracked =>
    obtain ⟨-, rfl⟩ := h
    exact .inl rfl
  | _ =>
    cases h
    exact .inl rfl

theorem Serves.tasks_eq {q : Ask} {a : q.Answer} (h : s.Serves l q a s') (hi : s.tasks i ≠ none) :
    s'.tasks i = s.tasks i := by
  obtain heq | ⟨j, job, hnew, heq⟩ := h.tasks_cases
  · rw [heq]
  · rw [heq, Function.update_of_ne]
    rintro rfl
    exact hi hnew

theorem Step.tasks_of_ne (h : Step l s m s') (hi : m.caller ≠ i) (ht : s.tasks i ≠ none) :
    s'.tasks i = s.tasks i := by
  cases h with
  | does _ _ hserves => exact (tasks_put_of_ne (Ne.symm hi)).trans (hserves.tasks_eq ht)

/-- The result of task `i`, if it has one. -/
def result (s : Calls) (i : Nat) : Option Reply :=
  match s.tasks i with
  | some (.done r) => some r
  | _ => none

/-- **The history of a call is a run of its task.** -/
theorem Runs.run_own (h : Runs l s tr s') (ht : s.tasks i = some t) :
    t.Run (own i tr) (s'.result i) := by
  induction h generalizing t with
  | nil s =>
    match t with
    | .done r => simpa [result, ht] using Program.Run.done r
    | Program.ask q f => simpa [result, ht] using Program.Run.cut _
  | @cons s s' s'' m tr h₁ h₂ ih =>
    by_cases hm : m.caller = i
    · subst hm
      cases h₁ with
      | @does j q f a _ hq _ _ =>
        cases ht.symm.trans hq
        rw [Link.own_cons, Move.caller, Link.Move.own_does_self]
        exact .ask ⟨a, rfl, rfl⟩ (ih tasks_put_self)
    · rw [Link.own_cons, Link.Move.own_of_ne hm, List.nil_append]
      exact ih ((h₁.tasks_of_ne hm (by simp [ht])).trans ht)

end

end Calls

end Service

end Reimage
