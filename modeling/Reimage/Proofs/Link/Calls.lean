/-
  Calls that share one link, any number of them, in any interleaving.

  A move is one question of one call with its answer. The questions for what the calls share, which
  are the current connection and the lock that dials take, are answered from there. The device, the
  network and the clock may answer anything. A call may also be dropped where it waits, and gives
  the lock back.

  * `Calls.Runs.induct`: what every move preserves holds after every run;
  * `Calls.Runs.run_own`: what one call has asked is a run of its task.
-/
import Mathlib.Logic.Function.Basic
import Reimage.Link.Basic
import Reimage.Proofs.Runs
import Reimage.Proofs.Steps

namespace Reimage

/-- The questions at which a task waits, and where it may be dropped. -/
def Ask.Waits : Ask → Prop
  | .sleep _ | .acquire | .dial | .dialBefore _ | .awaitClose _ | .awaitCloseBefore _ _ => True
  | .run _ _ _ _ | .start _ _ | .awaitOperation _ _ => True
  | _ => False

namespace Link

/-! ## Calls -/

/-- One use of a link. -/
inductive Use
  | connect
  | exec (command : String) (stdin : Option (List UInt8)) (mode : StderrMode)
  | stream (command : String)
  | reconnect
  | wait
  | restart (args : List String) (timeout : Duration)
  | close

/-- What a use of a link gives. -/
inductive Reply
  | connect (r : Result Connection)
  | exec (r : ExecResult)
  | stream (r : Result Crash.Running)
  | reconnect (r : Result Unit)
  | wait (r : Result Unit)
  | restart (r : Result String)
  | close

/-- The caller learns that the use failed. -/
def Reply.Failed : Reply → Prop
  | connect r => ∃ e, r = .error e
  | exec r => ∃ message, r = .notStarted message
  | stream r => ∃ e, r = .error e
  | reconnect r | wait r => ∃ e, r = .error e
  | restart r => ∃ e, r = .error e
  | close => False

/-- What a use of a link does. -/
def Use.task (l : Link) : Use → Task Reply
  | connect => do return .connect (← l.connection)
  | exec command stdin mode => do return .exec (← l.exec command stdin mode)
  | stream command => do return .stream (← l.stream command)
  | reconnect => do return .reconnect (← l.forceReconnect)
  | wait => do return .wait (← l.wait)
  | restart args timeout => do return .restart (← l.restart args timeout)
  | close => do
    l.close
    return .close

/-! ## What calls share -/

/-- The current connection, and the call that holds the lock. -/
structure Shared where
  current : Current := {}
  holder : Option Nat := none

namespace Shared

/-- Call `i` gives the lock back, if it holds it. -/
def free (s : Shared) (i : Nat) : Shared :=
  if s.holder = some i then { s with holder := none } else s

/-- `a` may be the answer to `q`. -/
def Admits (s : Shared) : (q : Ask) → q.Answer → Prop
  | .isClosed, a => a = s.current.closed
  | .current, a => a = s.current.connection
  | .install c, a => a = (s.current.install c).2
  | .closeLink, a => a = s.current.close.2
  | .acquire, _ => s.holder = none
  | _, _ => True

/-- What is shared after call `i` has asked `q`. -/
def after (s : Shared) (i : Nat) : Ask → Shared
  | .install c => { s with current := (s.current.install c).1 }
  | .closeLink => { s with current := s.current.close.1 }
  | .acquire => { s with holder := some i }
  | .release => s.free i
  | _ => s

end Shared

/-! ## Runs -/

/-- One step of one call. -/
inductive Move
  /-- A question of call `i` is answered. -/
  | does (i : Nat) (e : Event)
  /-- Call `i` is dropped. -/
  | drops (i : Nat)

/-- The call that moves. -/
def Move.caller : Move → Nat
  | .does i _ | .drops i => i

/-- What a move adds to the history of call `i`. -/
def Move.own (i : Nat) : Move → List Event
  | .does j e => if j = i then e.question.record e.answer else []
  | .drops _ => []

/-- The history of call `i`: what it has asked, with the answers. -/
def own (i : Nat) (tr : List Move) : List Event := tr.flatMap (Move.own i)

/-- Calls on one link: what they share, and what is left of each that was not dropped. -/
structure Calls where
  shared : Shared
  tasks : Nat → Option (Task Reply)

namespace Calls

/-- No call has begun. -/
def start (l : Link) (uses : Nat → Use) : Calls := ⟨{}, fun i => some ((uses i).task l)⟩

/-- The connection that is current, and whether the link is closed. -/
abbrev current (s : Calls) : Current := s.shared.current

/-- One move. -/
inductive Step (s : Calls) : Move → Calls → Prop
  | does {i : Nat} {q : Ask} {f : q.Answer → Task Reply} {a : q.Answer} :
    s.tasks i = some (Program.ask q f) → s.shared.Admits q a →
    Step s (.does i ⟨q, a⟩) ⟨s.shared.after i q, Function.update s.tasks i (some (f a))⟩
  | drops {i : Nat} {q : Ask} {f : q.Answer → Task Reply} :
    s.tasks i = some (Program.ask q f) → q.Waits →
    Step s (.drops i) ⟨s.shared.free i, Function.update s.tasks i none⟩

/-- Any number of moves. -/
inductive Runs : Calls → List Move → Calls → Prop
  | nil (s : Calls) : Runs s [] s
  | cons {s s' s'' : Calls} {m : Move} {tr : List Move} : Step s m s' → Runs s' tr s'' →
    Runs s (m :: tr) s''

end Calls

/-! ## Histories -/

@[simp] theorem own_nil (i : Nat) : own i [] = [] := rfl

@[simp] theorem own_append (i : Nat) (t u : List Move) : own i (t ++ u) = own i t ++ own i u :=
  List.flatMap_append

@[simp] theorem own_cons (i : Nat) (m : Move) (tr : List Move) :
    own i (m :: tr) = m.own i ++ own i tr := rfl

@[simp] theorem Move.own_does_self (i : Nat) (e : Event) :
    (Move.does i e).own i = e.question.record e.answer := if_pos rfl

theorem Move.own_of_ne {i : Nat} {m : Move} (h : m.caller ≠ i) : m.own i = [] := by
  cases m with
  | does j e => exact if_neg h
  | drops j => rfl

theorem Move.own_drops (i j : Nat) : (Move.drops j).own i = [] := rfl

theorem own_snoc_of_ne {i : Nat} {m : Move} (h : m.caller ≠ i) (tr : List Move) :
    own i (tr ++ [m]) = own i tr := by
  rw [own_append, own_cons, Move.own_of_ne h, own_nil, List.append_nil, List.append_nil]

theorem own_snoc_does (i : Nat) (tr : List Move) (e : Event) :
    own i (tr ++ [.does i e]) = own i tr ++ e.question.record e.answer := by
  rw [own_append, own_cons, Move.own_does_self, own_nil, List.append_nil]

theorem record_eq (q : Ask) (a : q.Answer) :
    q.record a = [] ∧ (∃ line, q = .log line) ∨ q.record a = [⟨q, a⟩] := by
  cases q <;> simp [Ask.record]

/-- A move adds nothing to the history of call `i`, or it is what call `i` has done. -/
theorem Move.own_eq (i : Nat) (m : Move) : m.own i = [] ∨ ∃ e, m = .does i e ∧ m.own i = [e] := by
  by_cases hi : m.caller = i
  · subst hi
    cases m with
    | drops j => exact .inl rfl
    | does j e =>
      rw [Move.caller, Move.own_does_self]
      exact (record_eq e.question e.answer).imp And.left fun h => ⟨e, rfl, h⟩
  · exact .inl (Move.own_of_ne hi)

/-- An event of a history is a move, with the rest of the history around it. -/
theorem own_eq_append_cons {i : Nat} {tr : List Move} {past rest : List Event} {e : Event}
    (h : own i tr = past ++ e :: rest) :
    ∃ u v, tr = u ++ .does i e :: v ∧ own i u = past ∧ own i v = rest := by
  induction tr generalizing past with
  | nil => simp at h
  | cons m tr ih =>
    rw [own_cons] at h
    obtain hm | ⟨e', rfl, hm⟩ := m.own_eq i
    · rw [hm] at h
      obtain ⟨u, v, rfl, hu, hv⟩ := ih h
      exact ⟨m :: u, v, rfl, by rw [own_cons, hm, hu, List.nil_append], hv⟩
    · rw [hm] at h
      cases past with
      | nil =>
        cases h
        exact ⟨[], tr, rfl, rfl, rfl⟩
      | cons x past =>
        obtain ⟨rfl, h'⟩ := List.cons.inj h
        obtain ⟨u, v, rfl, hu, hv⟩ := ih h'
        exact ⟨.does i e' :: u, v, rfl, by rw [own_cons, hm, hu]; rfl, hv⟩

/-- The moves of a call come in the order of its history. -/
theorem map_own_sublist (i : Nat) (tr : List Move) :
    List.Sublist ((own i tr).map (.does i)) tr := by
  induction tr with
  | nil => exact .slnil
  | cons m tr ih =>
    rw [own_cons]
    obtain hm | ⟨e, rfl, hm⟩ := m.own_eq i
    · rw [hm]
      exact ih.cons m
    · rw [hm]
      exact ih.cons_cons _

/-- What is in the history of a call was one of its moves. -/
theorem exists_of_mem_own {i : Nat} {tr : List Move} {e : Event} (h : e ∈ own i tr) :
    ∃ u v, tr = u ++ .does i e :: v := by
  obtain ⟨past, rest, h⟩ := List.append_of_mem h
  obtain ⟨u, v, rfl, -, -⟩ := own_eq_append_cons h
  exact ⟨u, v, rfl⟩

namespace Calls

variable {s s' s'' : Calls} {tr u v : List Move} {m : Move}

theorem runs_iff_steps : s.Runs tr s' ↔ Steps Step s tr s' := by
  constructor
  · intro h
    induction h with
    | nil s => exact .nil s
    | cons h₁ _ ih => exact .cons h₁ ih
  · intro h
    induction h with
    | nil s => exact .nil s
    | cons h₁ _ ih => exact .cons h₁ ih

theorem Runs.append (h : s.Runs u s') (h' : s'.Runs v s'') : s.Runs (u ++ v) s'' :=
  runs_iff_steps.2 ((runs_iff_steps.1 h).append (runs_iff_steps.1 h'))

theorem Runs.snoc (h : s.Runs tr s') (h' : s'.Step m s'') : s.Runs (tr ++ [m]) s'' :=
  h.append (.cons h' (.nil _))

/-- A run in two parts. -/
theorem runs_append : s.Runs (u ++ v) s'' ↔ ∃ s', s.Runs u s' ∧ s'.Runs v s'' := by
  refine ⟨fun h => ?_, fun ⟨s', h, h'⟩ => h.append h'⟩
  obtain ⟨s', h₁, h₂⟩ := (runs_iff_steps.1 h).split
  exact ⟨s', runs_iff_steps.2 h₁, runs_iff_steps.2 h₂⟩

theorem runs_cons : s.Runs (m :: tr) s'' ↔ ∃ s', s.Step m s' ∧ s'.Runs tr s'' := by
  refine ⟨fun h => ?_, fun ⟨s', h, h'⟩ => .cons h h'⟩
  cases h with
  | cons h h' => exact ⟨_, h, h'⟩

/-- What every move preserves holds after every run. -/
theorem Runs.induct {I : List Move → Calls → Prop} (h : s.Runs tr s') (h₀ : I [] s)
    (hI : ∀ {u s m s'}, I u s → Step s m s' → I (u ++ [m]) s') : I tr s' :=
  (runs_iff_steps.1 h).induct h₀ fun _ => hI

/-- A move of one call leaves the others as they are. -/
theorem Step.tasks_of_ne (h : s.Step m s') {i : Nat} (hi : m.caller ≠ i) :
    s'.tasks i = s.tasks i := by
  cases h <;> exact Function.update_of_ne (Ne.symm hi) _ _

theorem Step.exists_task (h : s.Step m s') : ∃ t, s.tasks m.caller = some t := by
  cases h with
  | does h _ | drops h _ => exact ⟨_, h⟩

/-- A move of a call that is there after it is an answer to the call. -/
theorem Step.eq_does {t : Task Reply} (h : s.Step m s') (ht : s'.tasks m.caller = some t) :
    ∃ i e t', m = .does i e ∧ s.tasks i = some t' := by
  cases h with
  | does h _ => exact ⟨_, _, _, rfl, h⟩
  | drops => simp [Move.caller] at ht

theorem Step.exists_task_after {i : Nat} {e : Event} (h : s.Step (.does i e) s') :
    ∃ t, s'.tasks i = some t := by
  cases h
  exact ⟨_, Function.update_self ..⟩

/-- A call that was dropped does nothing more. -/
theorem Runs.of_tasks_eq_none (h : s.Runs tr s') {i : Nat} (hi : s.tasks i = none) :
    own i tr = [] ∧ s'.tasks i = none := by
  induction h with
  | nil => exact ⟨rfl, hi⟩
  | @cons s _ _ m tr h₁ _ ih =>
    have hm : m.caller ≠ i := by
      rintro rfl
      obtain ⟨t, ht⟩ := h₁.exists_task
      simp [hi] at ht
    obtain ⟨h₂, h₃⟩ := ih ((h₁.tasks_of_ne hm).trans hi)
    exact ⟨by rw [own_cons, Move.own_of_ne hm, h₂, List.nil_append], h₃⟩

/-- The result of call `i`, if it has one. -/
def result (s : Calls) (i : Nat) : Option Reply :=
  match s.tasks i with
  | some (.done r) => some r
  | _ => none

/-- **The history of a call is a run of its task.** -/
theorem Runs.run_own (h : s.Runs tr s') {i : Nat} {t : Task Reply} (ht : s.tasks i = some t) :
    t.Run (own i tr) (s'.result i) := by
  induction h generalizing t with
  | nil s =>
    match t with
    | .done r => simpa [result, ht] using Program.Run.done r
    | Program.ask q f => simpa [result, ht] using Program.Run.cut _
  | @cons s s' s'' m tr h₁ h₂ ih =>
    by_cases hm : m.caller = i
    · subst hm
      cases h₁ with
      | @does j q f a hq _ =>
        cases ht.symm.trans hq
        rw [own_cons, Move.caller, Move.own_does_self]
        exact .ask ⟨a, rfl, rfl⟩ (ih (Function.update_self ..))
      | @drops j q f hq _ =>
        obtain ⟨h₃, h₄⟩ := h₂.of_tasks_eq_none (i := j) (Function.update_self ..)
        simpa [Move.caller, Move.own_drops, h₃, result, h₄] using Program.Run.cut t
    · rw [own_cons, Move.own_of_ne hm, List.nil_append]
      exact ih ((h₁.tasks_of_ne hm).trans ht)

end Calls

/-- A run of given moves, found one move at a time. -/
theorem exists_runs_cons {s s' : Calls} {m : Move} {tr : List Move} {P : Calls → Prop}
    (h : s.Step m s') (hs : ∃ s'', s'.Runs tr s'' ∧ P s'') : ∃ s'', s.Runs (m :: tr) s'' ∧ P s'' :=
  hs.imp fun _ => And.imp_left (.cons h)

end Link

end Reimage
