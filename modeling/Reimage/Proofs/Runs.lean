/-
  Runs of tasks and procedures, in surroundings that may answer anything.

  A trace lists the questions that were asked with their answers; log lines leave no event. A run
  relates a program to a trace and to its result, or to no result if it was cut short, because an
  answer never came or because nobody looked further. So a statement about all runs is about every
  device, and about every moment of what happens with it. A question that still waits for its answer
  is seen in the runs in which it gets one.

  * `Program.run_bind`: a run of two programs, one after the other, is a run of each;
  * `Program.SameRuns`: what programs may be put for each other in;
  * `Procedure.run_procedure`: a task runs as a procedure just as it runs by itself;
  * `Task.leads`: what a task was asked tells its result, so a longer run goes on from there.
-/
import Mathlib.Data.List.Basic
import Reimage.Link.Ask

namespace Reimage

/-! ## Traces -/

/-- A question with its answer. -/
structure Event where
  question : Ask
  answer : question.Answer

/-- What a question leaves in the trace. -/
def Ask.record : (q : Ask) → q.Answer → List Event
  | .log _, _ => []
  | q, a => [⟨q, a⟩]

/-- A question leaves itself in the trace, or nothing. -/
theorem Ask.eq_of_mem_record {q : Ask} {a : q.Answer} {e : Event} (h : e ∈ q.record a) :
    e = ⟨q, a⟩ := by
  cases q
  case log => exact nomatch h
  all_goals exact List.mem_singleton.1 h

/-- `w` consists of `u` and `v`, each in its order. -/
inductive Interleaved {α : Type} : List α → List α → List α → Prop
  | nil : Interleaved [] [] []
  | left {a : α} {u v w : List α} : Interleaved u v w → Interleaved (a :: u) v (a :: w)
  | right {a : α} {u v w : List α} : Interleaved u v w → Interleaved u (a :: v) (a :: w)

theorem Interleaved.mem_iff {α : Type} {u v w : List α} (h : Interleaved u v w) {a : α} :
    a ∈ w ↔ a ∈ u ∨ a ∈ v := by
  induction h with
  | nil => simp
  | left _ ih => simp only [List.mem_cons, ih, or_assoc]
  | right _ ih => simp only [List.mem_cons, ih, or_left_comm]

theorem Interleaved.append {α : Type} (v : List α) : ∀ u : List α, Interleaved u v (u ++ v)
  | [] => by
    induction v with
    | nil => exact .nil
    | cons _ _ ih => exact .right ih
  | _ :: u => .left (append v u)

theorem Interleaved.append_append {α : Type} {u v w u' v' w' : List α} (h : Interleaved u v w)
    (h' : Interleaved u' v' w') : Interleaved (u ++ u') (v ++ v') (w ++ w') := by
  induction h with
  | nil => exact h'
  | left _ ih => exact .left ih
  | right _ ih => exact .right ih

/-! ## Runs of programs -/

/-- Questions with what becomes of them: `does q tr o` says that asking `q` leaves the events `tr`,
    and that the answer is `o`, or does not come. -/
class Questions (Q : Type) (A : Q → Type) where
  does : (q : Q) → List Event → Option (A q) → Prop

namespace Program

variable {Q : Type} {A : Q → Type} {α β : Type}

/-- The runs of a program. -/
inductive Run [Questions Q A] {α : Type} : Program Q A α → List Event → Option α → Prop
  /-- Nobody looks further. -/
  | cut (p : Program Q A α) : Run p [] none
  | done (a : α) : Run (.done a) [] (some a)
  | ask {q : Q} {f : A q → Program Q A α} {t u : List Event} {a : A q} {o : Option α} :
    Questions.does q t (some a) → Run (f a) u o → Run (.ask q f) (t ++ u) o
  /-- The answer never comes. -/
  | stop {q : Q} {f : A q → Program Q A α} {t : List Event} :
    Questions.does (A := A) q t none → Run (.ask q f) t none

@[simp] theorem bind_done (a : α) (f : α → Program Q A β) :
    ((.done a : Program Q A α) >>= f) = f a := rfl

@[simp] theorem bind_ask (q : Q) (next : A q → Program Q A α) (f : α → Program Q A β) :
    ((.ask q next : Program Q A α) >>= f) = .ask q fun a => next a >>= f := rfl

theorem bind_assoc {γ : Type} (p : Program Q A α) (f : α → Program Q A β)
    (g : β → Program Q A γ) : p >>= f >>= g = p >>= fun a => f a >>= g := by
  induction p with
  | done a => rfl
  | ask q next ih => exact congrArg (Program.ask q) (funext ih)

variable [Questions Q A]

@[simp] theorem run_pure {a : α} {tr : List Event} {o : Option α} :
    (pure a : Program Q A α).Run tr o ↔ tr = [] ∧ (o = none ∨ o = some a) := by
  constructor
  · intro h
    cases h with
    | cut => exact ⟨rfl, Or.inl rfl⟩
    | done => exact ⟨rfl, Or.inr rfl⟩
  · rintro ⟨rfl, rfl | rfl⟩
    · exact .cut _
    · exact .done a

theorem run_query_some {q : Q} {tr : List Event} {a : A q} :
    (query q : Program Q A (A q)).Run tr (some a) ↔ Questions.does q tr (some a) := by
  constructor
  · intro h
    cases h with
    | ask h h' =>
      obtain ⟨rfl, h' | h'⟩ := run_pure.1 h'
      · cases h'
      · cases h'; rwa [List.append_nil]
  · intro h
    simpa [query] using Run.ask (f := .done) h (.done a)

/-- **A run of two programs, one after the other.** Either the first was cut short, or it has given
    a result and the second has run on that. -/
theorem run_bind {p : Program Q A α} {f : α → Program Q A β} {tr : List Event} {o : Option β} :
    (p >>= f).Run tr o ↔ (o = none ∧ p.Run tr none) ∨
      ∃ t a u, tr = t ++ u ∧ p.Run t (some a) ∧ (f a).Run u o := by
  constructor
  · intro h
    induction p generalizing tr with
    | done a => exact Or.inr ⟨[], a, tr, rfl, .done a, h⟩
    | ask q next ih =>
      rw [bind_ask] at h
      cases h with
      | cut => exact Or.inl ⟨rfl, .cut _⟩
      | stop h => exact Or.inl ⟨rfl, .stop h⟩
      | ask h h' =>
        obtain ⟨rfl, h₁⟩ | ⟨t, a, u, rfl, h₁, h₂⟩ := ih _ h'
        · exact Or.inl ⟨rfl, .ask h h₁⟩
        · exact Or.inr ⟨_, a, u, (List.append_assoc ..).symm, .ask h h₁, h₂⟩
  · rintro (⟨rfl, h⟩ | ⟨t, a, u, rfl, h₁, h₂⟩)
    · induction p generalizing tr with
      | done a => cases h; exact .cut _
      | ask q next ih =>
        cases h with
        | cut => exact .cut _
        | stop h => exact .stop h
        | ask h h' => exact Run.ask (f := fun a => next a >>= f) h (ih _ h')
    · induction p generalizing t with
      | done b => cases h₁; exact h₂
      | ask q next ih =>
        cases h₁ with
        | ask h h' => rw [List.append_assoc]; exact .ask h (ih _ _ h')

/-- Every run can be cut short at its end. -/
theorem Run.toNone {p : Program Q A α} {tr : List Event} {o : Option α} (h : p.Run tr o) :
    p.Run tr none := by
  induction h with
  | cut p => exact .cut p
  | done a => exact .cut _
  | ask h _ ih => exact .ask h ih
  | stop h => exact .stop h

/-- A run whose result is changed at the end. -/
theorem run_bind_pure {p : Program Q A α} {f : α → β} {tr : List Event} {o : Option β} :
    (p >>= fun a => pure (f a)).Run tr o ↔ ∃ r, p.Run tr r ∧ o = r.map f := by
  simp only [run_bind, run_pure]
  constructor
  · rintro (⟨rfl, h⟩ | ⟨t, a, u, rfl, h, rfl, ho⟩)
    · exact ⟨none, h, rfl⟩
    · rw [List.append_nil]
      rcases ho with rfl | rfl
      · exact ⟨none, h.toNone, rfl⟩
      · exact ⟨some a, h, rfl⟩
  · rintro ⟨_ | a, h, rfl⟩
    · exact Or.inl ⟨rfl, h⟩
    · exact Or.inr ⟨tr, a, [], (List.append_nil tr).symm, h, rfl, Or.inr rfl⟩

/-- A run to the end of two programs. -/
theorem run_bind_some {p : Program Q A α} {f : α → Program Q A β} {tr : List Event} {b : β} :
    (p >>= f).Run tr (some b) ↔
      ∃ t a u, tr = t ++ u ∧ p.Run t (some a) ∧ (f a).Run u (some b) := by
  simp [run_bind]

@[simp] theorem run_pure_some {a b : α} {tr : List Event} :
    (pure a : Program Q A α).Run tr (some b) ↔ tr = [] ∧ b = a := by
  simp

@[simp] theorem run_bind_pure_some {p : Program Q A α} {f : α → β} {tr : List Event} {b : β} :
    (p >>= fun a => pure (f a)).Run tr (some b) ↔ ∃ a, p.Run tr (some a) ∧ b = f a := by
  rw [run_bind_pure]
  constructor
  · rintro ⟨_ | a, h, hb⟩
    · cases hb
    · exact ⟨a, h, Option.some.inj hb⟩
  · rintro ⟨a, h, rfl⟩
    exact ⟨some a, h, rfl⟩

/-- What passes its results on through `f` succeeds with what `f` makes of a success. -/
theorem run_map_ok {p : Program Q A (Result α)} {f : α → β} {tr : List Event} {b : β} :
    (p >>= fun r => pure (r.map f)).Run tr (some (.ok b)) ↔
      ∃ a, p.Run tr (some (.ok a)) ∧ b = f a := by
  rw [run_bind_pure_some]
  constructor
  · rintro ⟨e | a, h, hb⟩
    · cases hb
    · exact ⟨a, h, Except.ok.inj hb⟩
  · rintro ⟨a, h, rfl⟩
    exact ⟨.ok a, h, rfl⟩

/-- What only adds to its errors succeeds as it would without that. -/
theorem run_within_ok {p : Program Q A (Result α)} {text : String} {tr : List Event} {a : α} :
    (p >>= fun r => pure (r.within text)).Run tr (some (.ok a)) ↔ p.Run tr (some (.ok a)) := by
  rw [run_bind_pure_some]
  constructor
  · rintro ⟨e | b, h, ha⟩
    · cases ha
    · cases ha; exact h
  · intro h
    exact ⟨.ok a, h, rfl⟩

theorem run_within_map_ok {p : Program Q A (Result α)} {text : String} {f : α → β}
    {tr : List Event} {b : β} :
    (p >>= fun r => pure ((r.within text).map f)).Run tr (some (.ok b)) ↔
      ∃ a, p.Run tr (some (.ok a)) ∧ b = f a := by
  have h : ((p >>= fun r => pure (r.within text)) >>= fun r => pure (r.map f)).Run tr
      (some (.ok b)) ↔ _ := run_map_ok
  rw [bind_assoc] at h
  simp only [run_within_ok] at h
  exact h

/-! ## Programs with the same runs -/

/-- Two programs have the same runs. -/
def SameRuns (p q : Program Q A α) : Prop := ∀ tr o, p.Run tr o ↔ q.Run tr o

namespace SameRuns

variable {p q : Program Q A α}

theorem refl (p : Program Q A α) : p.SameRuns p := fun _ _ => Iff.rfl

/-- Two programs may differ in what they do after a result that the first part never gives. -/
theorem bind {f g : α → Program Q A β} (h : p.SameRuns q)
    (hf : ∀ t a, p.Run t (some a) → (f a).SameRuns (g a)) : (p >>= f).SameRuns (q >>= g) := by
  intro tr o
  rw [run_bind, run_bind]
  refine or_congr (and_congr_right fun _ => h tr none) ?_
  constructor
  · rintro ⟨t, a, u, rfl, ht, hu⟩
    exact ⟨t, a, u, rfl, (h t _).1 ht, (hf t a ht u o).1 hu⟩
  · rintro ⟨t, a, u, rfl, ht, hu⟩
    exact ⟨t, a, u, rfl, (h t _).2 ht, (hf t a ((h t _).2 ht) u o).2 hu⟩

end SameRuns

end Program

/-! ## Runs of tasks and procedures -/

variable {α β : Type}

/-- A question gets an answer. -/
instance : Questions Ask Ask.Answer where
  does q tr o := ∃ a, tr = q.record a ∧ o = some a

/-- A step of a procedure. Two tasks that run side by side may take their steps in any order. -/
instance : Questions Call Call.Answer where
  does
    | .one q, tr, o => ∃ a, tr = q.record a ∧ o = some a
    | .both left right, tr, o => ∃ u v l r, left.Run u l ∧ right.Run v r ∧
      Interleaved u v tr ∧ o = l.bind fun a => r.map fun b => (a, b)

@[simp] theorem Task.run_ask_some {q : Ask} {tr : List Event} {a : q.Answer} :
    (Task.ask q).Run tr (some a) ↔ tr = q.record a := by
  simp [Task.ask, Program.run_query_some, Questions.does]

theorem Task.run_ask_bind_some {q : Ask} {f : q.Answer → Task β} {tr : List Event} {b : β} :
    (Task.ask q >>= f).Run tr (some b) ↔
      ∃ a u, tr = q.record a ++ u ∧ (f a).Run u (some b) := by
  simp [Program.run_bind_some]

/-- A question that was asked, or not even that. -/
theorem Task.run_ask {q : Ask} {tr : List Event} {o : Option q.Answer}
    (h : (Task.ask q).Run tr o) :
    (o = none ∧ tr = []) ∨ ∃ a, tr = q.record a ∧ (o = none ∨ o = some a) := by
  cases h with
  | cut => exact Or.inl ⟨rfl, rfl⟩
  | stop h =>
    obtain ⟨a, -, h⟩ := h
    cases h
  | ask h h' =>
    obtain ⟨a, rfl, ha⟩ := h
    obtain ⟨rfl, ho⟩ := Program.run_pure.1 h'
    exact Or.inr ⟨a, List.append_nil _, ha ▸ ho⟩

@[simp] theorem Task.procedure_ask (q : Ask) (next : q.Answer → Task α) :
    Task.procedure (Program.ask q next) =
      Program.ask (Call.one q) fun a => Task.procedure (next a) := rfl

/-- A task runs as a procedure just as it runs by itself. -/
@[simp] theorem Procedure.run_procedure {t : Task α} {tr : List Event} {o : Option α} :
    (Task.procedure t).Run tr o ↔ t.Run tr o := by
  induction t generalizing tr with
  | done a => exact Program.run_pure.trans Program.run_pure.symm
  | ask q next ih =>
    rw [Task.procedure_ask]
    constructor
    · intro h
      cases h with
      | cut => exact .cut _
      | stop h => exact .stop h
      | ask h h' => exact .ask h ((ih _).1 h')
    · intro h
      cases h with
      | cut => exact .cut _
      | stop h => exact .stop h
      | ask h h' =>
        exact Program.Run.ask (q := Call.one q) (f := fun a => Task.procedure (next a)) h
          ((ih _).2 h')

/-- Log lines leave no trace. -/
@[simp] theorem Task.run_log_bind {line : LogLine} {t : Task α} {tr : List Event}
    {o : Option α} : (Task.log line >>= fun _ => t).Run tr o ↔ t.Run tr o := by
  constructor
  · intro h
    cases h with
    | cut => exact .cut _
    | stop h => obtain ⟨a, -, h⟩ := h; cases h
    | ask h h' =>
      obtain ⟨a, rfl, -⟩ := h
      exact h'
  · intro h
    exact Program.Run.ask (q := Ask.log line) (t := []) ⟨(), rfl, rfl⟩ h

/-- Log lines leave no trace. -/
@[simp] theorem Procedure.run_log_bind {line : LogLine} {p : Procedure α} {tr : List Event}
    {o : Option α} :
    (Task.procedure (Task.log line) >>= fun _ => p).Run tr o ↔
      p.Run tr o := by
  constructor
  · intro h
    cases h with
    | cut => exact .cut _
    | stop h => obtain ⟨a, -, h⟩ := h; cases h
    | ask h h' =>
      obtain ⟨a, rfl, -⟩ := h
      exact h'
  · intro h
    exact Program.Run.ask (q := Call.one (.log line)) (t := []) ⟨(), rfl, rfl⟩ h

/-- A run of what goes on after success. -/
theorem Procedure.run_andThen {t : Procedure (Result α)} {f : α → Procedure (Result β)}
    {tr : List Event} {o : Option (Result β)} :
    (t.andThen f).Run tr o ↔
      (o = none ∧ t.Run tr none) ∨
      (∃ e, t.Run tr (some (.error e)) ∧ (o = none ∨ o = some (.error e))) ∨
      ∃ u a v, tr = u ++ v ∧ t.Run u (some (.ok a)) ∧ (f a).Run v o := by
  rw [Procedure.andThen, Program.run_bind]
  refine or_congr_right ⟨?_, ?_⟩
  · rintro ⟨u, a | a, v, rfl, h, h'⟩
    · obtain ⟨rfl, ho⟩ := Program.run_pure.1 h'
      exact Or.inl ⟨a, by rwa [List.append_nil], ho⟩
    · exact Or.inr ⟨u, a, v, rfl, h, h'⟩
  · rintro (⟨e, h, h'⟩ | ⟨u, a, v, rfl, h, h'⟩)
    · exact ⟨tr, .error e, [], (List.append_nil tr).symm, h, Program.run_pure.2 ⟨rfl, h'⟩⟩
    · exact ⟨u, .ok a, v, rfl, h, h'⟩

@[simp] theorem Task.procedure_bind (t : Task α) (f : α → Task β) :
    Task.procedure (t >>= f) = Task.procedure t >>= fun a => Task.procedure (f a) := by
  induction t with
  | done a => rfl
  | ask q next ih =>
    exact congrArg (Program.ask (Call.one q)) (funext fun a => ih a)

theorem Task.procedure_andThen (t : Task (Result α)) (f : α → Task (Result β)) :
    Task.procedure (t.andThen f) = (Task.procedure t).andThen fun a => Task.procedure (f a) := by
  rw [Task.andThen, Procedure.andThen, Task.procedure_bind]
  congr 1
  funext r
  cases r <;> rfl

/-- A run of what goes on after success. -/
theorem Task.run_andThen {t : Task (Result α)} {f : α → Task (Result β)} {tr : List Event}
    {o : Option (Result β)} :
    (t.andThen f).Run tr o ↔
      (o = none ∧ t.Run tr none) ∨
      (∃ e, t.Run tr (some (.error e)) ∧ (o = none ∨ o = some (.error e))) ∨
      ∃ u a v, tr = u ++ v ∧ t.Run u (some (.ok a)) ∧ (f a).Run v o := by
  rw [← Procedure.run_procedure, Task.procedure_andThen, Procedure.run_andThen]
  simp only [Procedure.run_procedure]

/-- A run of what succeeded after success. -/
theorem Task.run_andThen_ok {t : Task (Result α)} {f : α → Task (Result β)} {tr : List Event}
    {b : β} : (t.andThen f).Run tr (some (.ok b)) ↔
      ∃ u a v, tr = u ++ v ∧ t.Run u (some (.ok a)) ∧ (f a).Run v (some (.ok b)) := by
  simp [Task.run_andThen]

/-- A run of what succeeded after success. -/
theorem Procedure.run_andThen_ok {t : Procedure (Result α)} {f : α → Procedure (Result β)}
    {tr : List Event} {b : β} : (t.andThen f).Run tr (some (.ok b)) ↔
      ∃ u a v, tr = u ++ v ∧ t.Run u (some (.ok a)) ∧
        (f a).Run v (some (.ok b)) := by
  simp [Procedure.run_andThen]

/-! ## Runs that go on -/

/-- What a question leaves tells its answer. -/
theorem Ask.record_append_inj {q : Ask} {a b : q.Answer} {u v : List Event}
    (h : q.record a ++ u = q.record b ++ v) : a = b ∧ u = v := by
  cases q
  case log => exact ⟨rfl, h⟩
  all_goals
    obtain ⟨he, hu⟩ := List.cons.inj h
    cases he
    exact ⟨rfl, hu⟩

/-- After the events `tr` the procedure has given `a`: whatever is run after it, and whatever
    happens then, runs with `a` from there. -/
structure Procedure.Leads (p : Procedure α) (tr : List Event) (a : α) : Prop where
  run {β : Type} {f : α → Procedure β} {u : List Event} {o : Option β} :
    (p >>= f).Run (tr ++ u) o → (f a).Run u o

/-- **A task does what it is answered.** -/
theorem Task.leads {t : Task α} {tr : List Event} {a : α} (h : t.Run tr (some a)) :
    t.procedure.Leads tr a := by
  refine ⟨fun {β f u o} hrun => ?_⟩
  induction t generalizing tr with
  | done b =>
    cases h
    exact hrun
  | ask q next ih =>
    cases h with
    | @ask _ _ _ v x _ hx hnext =>
      obtain ⟨y, rfl, hxy⟩ := hx
      cases hxy
      rw [List.append_assoc] at hrun
      generalize hw : q.record x ++ (v ++ u) = w at hrun
      rw [Task.procedure_ask, Program.bind_ask] at hrun
      cases hrun with
      | cut =>
        obtain ⟨-, hvu⟩ := List.append_eq_nil_iff.1 hw
        rw [(List.append_eq_nil_iff.1 hvu).2]
        exact .cut _
      | ask hz hrest =>
        obtain ⟨z, rfl, hz⟩ := hz
        cases hz
        obtain ⟨rfl, rfl⟩ := Ask.record_append_inj hw
        exact ih _ hnext hrest
      | stop hz =>
        obtain ⟨z, -, hz⟩ := hz
        cases hz

namespace Procedure.Leads

variable {p : Procedure α} {t u : List Event} {a : α} {b : β}

theorem pure (a : α) : Leads (Pure.pure a : Procedure α) [] a := ⟨id⟩

theorem bind {f : α → Procedure β} (hp : p.Leads t a) (hf : (f a).Leads u b) :
    Leads (p >>= f) (t ++ u) b := by
  refine ⟨fun h => ?_⟩
  rw [Program.bind_assoc, List.append_assoc] at h
  exact hf.run (hp.run h)

end Procedure.Leads

/-- A task whose result is changed at the end. -/
theorem Task.leads_map {t : Task α} {f : α → β} {tr : List Event} {b : β}
    (h : Program.Run (t.procedure >>= fun a => pure (f a)) tr (some b)) :
    Procedure.Leads (t.procedure >>= fun a => pure (f a)) tr b := by
  obtain ⟨a, ha, rfl⟩ := Program.run_bind_pure_some.1 h
  have hleads := (Task.leads (Procedure.run_procedure.1 ha)).bind (f := fun a => pure (f a))
    (.pure (f a))
  rwa [List.append_nil] at hleads

end Reimage
