/-
  Tasks that are dropped.

  A task can be dropped where it waits for an answer. The question it waits for was asked, so a
  command that is waited for was handed in, and its session runs on without the task. The jobs that
  guard the task are started in its place.

  * `Task.Rests`: where a task may be found, which is where it waits or at its end;
  * `Task.rests_bind`: two tasks, one after the other, rest where the first waits or the second
    rests;
  * `handed`, `armed`: the command lines that were handed in, and the jobs that guard the task.
-/
import Reimage.Proofs.Asks
import Reimage.Proofs.Link.Calls

namespace Reimage

variable {α β : Type}

/-! ## Where a task rests -/

/-- The task has asked what `tr` tells, and now it waits for the answer to a question, or has
    ended. -/
inductive Task.Rests {α : Type} : Task α → List Event → Option Ask → Prop
  | ended (a : α) : Rests (.done a) [] none
  | waits {q : Ask} {f : q.Answer → Task α} : q.Waits →
    Rests (Program.ask q f) [] (some q)
  | ask {q : Ask} {f : q.Answer → Task α} (a : q.Answer) {tr : List Event} {w : Option Ask} :
    Rests (f a) tr w → Rests (Program.ask q f) (q.record a ++ tr) w

namespace Task

variable {tr : List Event} {w : Option Ask}

@[simp] theorem rests_pure {a : α} : Rests (pure a) tr w ↔ tr = [] ∧ w = none := by
  constructor
  · intro h
    cases h
    exact ⟨rfl, rfl⟩
  · rintro ⟨rfl, rfl⟩
    exact .ended a

/-- A task rests at its end after each of its runs to the end. -/
theorem rests_none {t : Task α} : t.Rests tr none ↔ ∃ a, t.Run tr (some a) := by
  induction t generalizing tr with
  | done a =>
    constructor
    · intro h
      cases h
      exact ⟨a, .done a⟩
    · rintro ⟨b, h⟩
      cases h
      exact .ended a
  | ask q next ih =>
    constructor
    · intro h
      cases h with
      | ask a h =>
        obtain ⟨b, hrun⟩ := (ih a).1 h
        exact ⟨b, .ask ⟨a, rfl, rfl⟩ hrun⟩
    · rintro ⟨b, h⟩
      cases h with
      | @ask _ _ t u a _ h hrun =>
        obtain ⟨a', rfl, ha⟩ := h
        cases ha
        exact .ask a ((ih a).2 ⟨b, hrun⟩)

/-- **Where two tasks rest, one after the other.** The first waits, or it has ended and the second
    rests. -/
theorem rests_bind {t : Task α} {f : α → Task β} : Rests (t >>= f) tr w ↔
    (∃ q, w = some q ∧ t.Rests tr (some q)) ∨
      ∃ u a v, tr = u ++ v ∧ t.Run u (some a) ∧ (f a).Rests v w := by
  induction t generalizing tr with
  | done a =>
    constructor
    · intro h
      exact Or.inr ⟨[], a, tr, rfl, .done a, h⟩
    · rintro (⟨q, -, h⟩ | ⟨u, b, v, rfl, h, h'⟩)
      · cases h
      · cases h
        exact h'
  | ask q next ih =>
    constructor
    · intro h
      cases h with
      | waits hq => exact Or.inl ⟨q, rfl, .waits hq⟩
      | ask a h =>
        obtain ⟨q', rfl, h'⟩ | ⟨u, b, v, rfl, h₁, h₂⟩ := (ih a).1 h
        · exact Or.inl ⟨q', rfl, .ask a h'⟩
        · exact Or.inr ⟨q.record a ++ u, b, v, (List.append_assoc ..).symm,
            .ask ⟨a, rfl, rfl⟩ h₁, h₂⟩
    · rintro (⟨q', rfl, h⟩ | ⟨u, b, v, rfl, h, h'⟩)
      · cases h with
        | waits hq => exact .waits hq
        | ask a h => exact .ask a ((ih a).2 (Or.inl ⟨q', rfl, h⟩))
      · cases h with
        | @ask _ _ t u a _ h hrun =>
          obtain ⟨a', rfl, ha⟩ := h
          cases ha
          rw [List.append_assoc]
          exact .ask a ((ih a).2 (Or.inr ⟨_, b, v, rfl, hrun, h'⟩))

theorem rests_map {t : Task α} {f : α → β} :
    Rests (t >>= fun a => pure (f a)) tr w ↔ t.Rests tr w := by
  rw [rests_bind]
  constructor
  · rintro (⟨q, rfl, h⟩ | ⟨u, a, v, rfl, h, h'⟩)
    · exact h
    · obtain ⟨rfl, rfl⟩ := rests_pure.1 h'
      rw [List.append_nil]
      exact rests_none.2 ⟨a, h⟩
  · intro h
    cases w with
    | some q => exact Or.inl ⟨q, rfl, h⟩
    | none =>
      obtain ⟨a, h⟩ := rests_none.1 h
      exact Or.inr ⟨tr, a, [], (List.append_nil tr).symm, h, rests_pure.2 ⟨rfl, rfl⟩⟩

/-- One question, and then another task. -/
theorem rests_ask_bind {q : Ask} {f : q.Answer → Task β} : Rests (Task.ask q >>= f) tr w ↔
    (q.Waits ∧ tr = [] ∧ w = some q) ∨ ∃ a u, tr = q.record a ++ u ∧ (f a).Rests u w := by
  constructor
  · intro h
    cases h with
    | waits hq => exact Or.inl ⟨hq, rfl, rfl⟩
    | ask a h => exact Or.inr ⟨a, _, rfl, h⟩
  · rintro (⟨hq, rfl, rfl⟩ | ⟨a, u, rfl, h⟩)
    · exact .waits hq
    · exact .ask a h

/-- Nobody waits for a log line. -/
theorem rests_log_bind {line : LogLine} {t : Task β} :
    Rests (Task.log line >>= fun _ => t) tr w ↔ t.Rests tr w := by
  rw [Task.log, rests_ask_bind]
  constructor
  · rintro (⟨hq, -⟩ | ⟨a, u, rfl, h⟩)
    · exact hq.elim
    · exact h
  · intro h
    exact Or.inr ⟨(), tr, rfl, h⟩

theorem rests_andThen {t : Task (Result α)} {f : α → Task (Result β)} :
    (t.andThen f).Rests tr w ↔
      (∃ q, w = some q ∧ t.Rests tr (some q)) ∨
      (∃ e, w = none ∧ t.Run tr (some (.error e))) ∨
      ∃ u a v, tr = u ++ v ∧ t.Run u (some (.ok a)) ∧ (f a).Rests v w := by
  rw [Task.andThen, rests_bind]
  refine or_congr_right ⟨?_, ?_⟩
  · rintro ⟨u, e | a, v, rfl, h, h'⟩
    · obtain ⟨rfl, rfl⟩ := rests_pure.1 h'
      exact Or.inl ⟨e, rfl, by rwa [List.append_nil]⟩
    · exact Or.inr ⟨u, a, v, rfl, h, h'⟩
  · rintro (⟨e, rfl, h⟩ | ⟨u, a, v, rfl, h, h'⟩)
    · exact ⟨tr, .error e, [], (List.append_nil tr).symm, h, rests_pure.2 ⟨rfl, rfl⟩⟩
    · exact ⟨u, .ok a, v, rfl, h, h'⟩

/-- What a task has asked where it rests, whatever is answered. -/
theorem Only.of_rests {P : Ask → Prop} {t : Task α} (ht : t.Only P) (h : t.Rests tr w) :
    (∀ e ∈ tr, P e.question) ∧ ∀ q, w = some q → P q := by
  induction h with
  | ended a => exact ⟨nofun, nofun⟩
  | @waits q f hq =>
    cases ht with
    | ask hP _ => exact ⟨nofun, fun q' h => Option.some.inj h ▸ hP⟩
  | @ask q f a tr w _ ih =>
    cases ht with
    | ask hP ht =>
      obtain ⟨htr, hw⟩ := ih (ht a trivial)
      refine ⟨List.forall_mem_append.2 ⟨fun e he => ?_, htr⟩, hw⟩
      rw [Ask.eq_of_mem_record he]
      exact hP

end Task

/-! ## What was handed in -/

/-- The command line that a question hands in. -/
def Ask.line? : Ask → Option String
  | .run _ line _ _ | .start _ line => some line
  | _ => none

/-- The command lines of a trace, in order. -/
def lines (tr : List Event) : List String := tr.filterMap fun e => e.question.line?

/-- The command lines that were handed in, the one that is waited for included. -/
def handed (tr : List Event) (w : Option Ask) : List String := lines tr ++ (w.bind Ask.line?).toList

@[simp] theorem lines_append (t u : List Event) : lines (t ++ u) = lines t ++ lines u :=
  List.filterMap_append

theorem lines_eq_nil {tr : List Event} (h : ∀ e ∈ tr, e.question.line? = none) : lines tr = [] :=
  List.filterMap_eq_nil_iff.2 h

/-! ## What guards a task -/

/-- The jobs that are started if the task is dropped after `tr`, where it was guarded by `jobs`
    before. -/
def armed : (jobs : List Job) → List Event → List Job
  | jobs, [] => jobs
  | jobs, ⟨.guard job, _⟩ :: tr => armed (job :: jobs) tr
  | jobs, ⟨.unguard, _⟩ :: tr => armed jobs.tail tr
  | jobs, _ :: tr => armed jobs tr

theorem armed_append (jobs : List Job) (t u : List Event) :
    armed jobs (t ++ u) = armed (armed jobs t) u := by
  induction t generalizing jobs with
  | nil => rfl
  | cons e t ih =>
    obtain ⟨q, a⟩ := e
    cases q <;> exact ih _

theorem armed_eq {tr : List Event}
    (h : ∀ e ∈ tr, (∀ job, e.question ≠ .guard job) ∧ e.question ≠ .unguard) (jobs : List Job) :
    armed jobs tr = jobs := by
  induction tr with
  | nil => rfl
  | cons e tr ih =>
    obtain ⟨⟨hguard, hunguard⟩, hrest⟩ := List.forall_mem_cons.1 h
    obtain ⟨q, a⟩ := e
    cases q
    case guard job => exact absurd rfl (hguard job)
    case unguard => exact absurd rfl hunguard
    all_goals exact ih hrest

end Reimage
