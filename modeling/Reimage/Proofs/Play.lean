/-
  Runs in surroundings that are known.

  Surroundings answer questions from a state, or leave them without an answer; the layout is
  remembered for them. Tasks that run side by side are run one after the other.

  * `Procedure.run_play`: what is played is a run;
  * `Task.play_bind`: what is played of one task after another;
  * `Procedure.play_induct`: what passes back over every answer holds of what is played;
  * `Procedure.recalls_play`: so it tells the layout as it was set last.
-/
import Reimage.Proofs.Recalls

namespace Reimage

variable {σ α β : Type}

/-- How questions are answered from a state. -/
abbrev Answers (σ : Type) := (q : Ask) → σ → Option (q.Answer × σ)

/-- The answer to a question, where the layout is remembered. -/
def Ask.answered (f : Answers σ) :
    (q : Ask) → Option Layout × σ → Option (q.Answer × (Option Layout × σ))
  | .layout, (m, s) => some (m, (m, s))
  | .setLayout l, (_, s) => some ((), (some l, s))
  | q, (m, s) => (f q s).map fun (a, s) => (a, (m, s))

/-- Runs a task. Gives the trace, the state at its end, and the result if there is one. -/
def Task.play (f : Answers σ) : Task α → Option Layout × σ →
    List Event × (Option Layout × σ) × Option α
  | Program.done a, s => ([], s, some a)
  | Program.ask q next, s =>
    match q.answered f s with
    | none => ([], s, none)
    | some (a, s) =>
      let (t, r) := play f (next a) s
      (q.record a ++ t, r)

/-- Runs a procedure. -/
def Procedure.play (f : Answers σ) : Procedure α → Option Layout × σ →
    List Event × (Option Layout × σ) × Option α
  | .done a, s => ([], s, some a)
  | .ask (.one q) next, s =>
    match q.answered f s with
    | none => ([], s, none)
    | some (a, s) =>
      let (t, r) := play f (next a) s
      (q.record a ++ t, r)
  | .ask (.both left right) next, s =>
    match left.play f s with
    | (t, s, none) => (t, s, none)
    | (t, s, some a) =>
      match right.play f s with
      | (u, s, none) => (t ++ u, s, none)
      | (u, s, some b) =>
        let (v, r) := play f (next (a, b)) s
        (t ++ u ++ v, r)

variable {f : Answers σ}

theorem Task.run_play (t : Task α) (s : Option Layout × σ) :
    t.Run (t.play f s).1 (t.play f s).2.2 := by
  induction t generalizing s with
  | done a => exact .done a
  | ask q next ih =>
    rw [play]
    split
    · exact .cut _
    · exact .ask ⟨_, rfl, rfl⟩ (ih _ _)

/-- What is played is a run. -/
theorem Procedure.run_play (p : Procedure α) (s : Option Layout × σ) :
    p.Run (p.play f s).1 (p.play f s).2.2 := by
  induction p generalizing s with
  | done a => exact .done a
  | ask c next ih =>
    cases c with
    | one q =>
      rw [play]
      split
      · exact .cut _
      · exact .ask ⟨_, rfl, rfl⟩ (ih _ _)
    | both left right =>
      rw [play]
      have hl := left.run_play (f := f) s
      split
      · rename_i t s' h
        rw [h] at hl
        exact .stop ⟨t, [], none, none, hl, .cut _, by simpa using Interleaved.append [] t, rfl⟩
      · rename_i t s' a h
        have hr := right.run_play (f := f) s'
        rw [h] at hl
        split
        · rename_i u s'' h
          rw [h] at hr
          exact .stop ⟨t, u, some a, none, hl, hr, .append u t, rfl⟩
        · rename_i u s'' b h
          rw [h] at hr
          exact .ask ⟨t, u, some a, some b, hl, hr, .append u t, rfl⟩ (ih _ _)

/-- What is played to a success. -/
theorem Procedure.run_play_ok {ε : Type} {p : Procedure (Except ε α)} {s : Option Layout × σ} {a : α}
    (h : (p.play f s).2.2.bind Except.toOption = some a) :
    p.Run (p.play f s).1 (some (.ok a)) := by
  have hrun := p.run_play (f := f) s
  obtain ⟨r, hr, ha⟩ := Option.bind_eq_some_iff.1 h
  rw [hr] at hrun
  cases r with
  | error e => cases ha
  | ok b =>
    cases ha
    exact hrun

/-! ## One task after another -/

namespace Task

variable {t : Task α} {k : α → Task β} {q : Ask} {s s' : Option Layout × σ} {tr : List Event}

theorem play_ask_some {a : q.Answer} (h : q.answered f s = some (a, s')) :
    (ask q).play f s = (q.record a, s', some a) := by
  rw [ask, Program.query, play]
  simp [h, play]

theorem play_ask_none (h : q.answered f s = none) : (ask q).play f s = ([], s, none) := by
  rw [ask, Program.query, play]
  simp [h]

/-- One task after another: the second one is played from where the first has ended, if it has. -/
theorem play_bind (t : Task α) (k : α → Task β) (s : Option Layout × σ) :
    (t >>= k).play f s =
      match t.play f s with
      | (tr, s', none) => (tr, s', none)
      | (tr, s', some a) => (tr ++ ((k a).play f s').1, ((k a).play f s').2) := by
  induction t generalizing s with
  | done a => rfl
  | ask q next ih =>
    rw [Program.bind_ask, play, play]
    cases q.answered f s with
    | none => rfl
    | some r =>
      simp only [ih]
      rcases play f (next r.1) r.2 with ⟨tr, s', _ | a⟩ <;> simp

/-- After a task that has given `a`, the next one is played from there. -/
theorem play_bind_some {a : α} (h : t.play f s = (tr, s', some a)) :
    (t >>= k).play f s = (tr ++ ((k a).play f s').1, ((k a).play f s').2) := by
  rw [play_bind, h]

/-- After a task that never ends nothing is played. -/
theorem play_bind_none (h : t.play f s = (tr, s', none)) :
    (t >>= k).play f s = (tr, s', none) := by
  rw [play_bind, h]

/-- What two tasks give, one after the other, the second gives after a result of the first. -/
theorem exists_play_of_bind {b : β} (h : (t >>= k).play f s = (tr, s', some b)) :
    ∃ u s₁ a v, t.play f s = (u, s₁, some a) ∧ (k a).play f s₁ = (v, s', some b) ∧
      tr = u ++ v := by
  rcases ht : t.play f s with ⟨u, s₁, _ | a⟩
  · rw [play_bind_none ht] at h
    cases h
  · rw [play_bind_some ht] at h
    obtain ⟨htr, h⟩ := Prod.mk.inj h
    exact ⟨u, s₁, a, _, rfl, Prod.ext rfl h, htr.symm⟩

theorem play_andThen_ok {t : Task (Result α)} {k : α → Task (Result β)} {a : α}
    (h : t.play f s = (tr, s', some (.ok a))) :
    (t.andThen k).play f s = (tr ++ ((k a).play f s').1, ((k a).play f s').2) :=
  play_bind_some h

theorem play_andThen_none {t : Task (Result α)} {k : α → Task (Result β)}
    (h : t.play f s = (tr, s', none)) : (t.andThen k).play f s = (tr, s', none) :=
  play_bind_none h

theorem play_andThen_error {t : Task (Result α)} {k : α → Task (Result β)} {e : Error}
    (h : t.play f s = (tr, s', some (.error e))) :
    (t.andThen k).play f s = (tr, s', some (.error e)) := by
  rw [andThen, play_bind_some h]
  exact Prod.ext (List.append_nil tr) rfl

/-- A task whose result is changed after success. -/
theorem play_andThen_pure {t : Task (Result α)} {g : α → β} {r : Result α}
    (h : t.play f s = (tr, s', some r)) :
    (t.andThen fun a => pure (.ok (g a))).play f s = (tr, s', some (r.map g)) := by
  rw [andThen, play_bind_some h]
  cases r <;> exact Prod.ext (List.append_nil tr) rfl

end Task

/-! ## What holds of the traces -/

section

variable {I : Option Layout × σ → List Event → Prop}

/-- What holds of a trace from the state at its end, and passes back over every answer, holds from
    the state at its beginning. -/
theorem Task.play_induct (hI : ∀ (q : Ask) s a s', q.answered f s = some (a, s') →
    ∀ tr, I s' tr → I s (q.record a ++ tr)) (t : Task α) (s : Option Layout × σ)
    (tr : List Event) (htr : I (t.play f s).2.1 tr) : I s ((t.play f s).1 ++ tr) := by
  induction t generalizing s tr with
  | done a => exact htr
  | ask q next ih =>
    rw [play] at htr ⊢
    cases h : q.answered f s with
    | none => simpa only [h, List.nil_append] using htr
    | some r =>
      simp only [h] at htr ⊢
      rw [List.append_assoc]
      exact hI q s _ _ h _ (ih _ _ _ htr)

theorem Procedure.play_induct (hI : ∀ (q : Ask) s a s', q.answered f s = some (a, s') →
    ∀ tr, I s' tr → I s (q.record a ++ tr)) (p : Procedure α) (s : Option Layout × σ)
    (tr : List Event) (htr : I (p.play f s).2.1 tr) : I s ((p.play f s).1 ++ tr) := by
  induction p generalizing s tr with
  | done a => exact htr
  | ask c next ih =>
    cases c with
    | one q =>
      rw [play] at htr ⊢
      cases h : q.answered f s with
      | none => simpa only [h, List.nil_append] using htr
      | some r =>
        simp only [h] at htr ⊢
        rw [List.append_assoc]
        exact hI q s _ _ h _ (ih _ _ _ htr)
    | both left right =>
      rw [play] at htr ⊢
      have hl := left.play_induct hI s
      rcases h : left.play f s with ⟨t, s', _ | a⟩
      · simp only [h] at htr hl ⊢
        exact hl _ htr
      · have hr := right.play_induct hI s'
        simp only [h] at htr hl ⊢
        rcases h' : right.play f s' with ⟨u, s'', _ | b⟩
        · simp only [h'] at htr hr ⊢
          rw [List.append_assoc]
          exact hl _ (hr _ htr)
        · simp only [h'] at htr hr ⊢
          rw [List.append_assoc, List.append_assoc]
          exact hl _ (hr _ (ih _ _ _ htr))

end

/-- What comes after an answer is remembered from there. -/
theorem Ask.recalls_answered {q : Ask} {s s' : Option Layout × σ} {a : q.Answer}
    (h : q.answered f s = some (a, s')) {tr : List Event} (htr : Recalls s'.1 tr) :
    Recalls s.1 (q.record a ++ tr) := by
  obtain ⟨m, s⟩ := s
  cases q
  case layout =>
    cases h
    exact ⟨rfl, htr⟩
  case setLayout =>
    cases h
    exact htr
  all_goals
    obtain ⟨⟨b, s''⟩, -, h⟩ := Option.map_eq_some_iff.1 h
    cases h
    exact htr

/-- What is played tells the layout as it was set last. -/
theorem Procedure.recalls_play (p : Procedure α) (s : Option Layout × σ) (tr : List Event)
    (htr : Recalls (p.play f s).2.1.1 tr) : Recalls s.1 ((p.play f s).1 ++ tr) :=
  p.play_induct (I := fun s tr => Recalls s.1 tr) (fun _ _ _ _ h _ => Ask.recalls_answered h) s tr
    htr

end Reimage
