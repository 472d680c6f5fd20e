/-
  Two programs that keep in step, and what that means on clocks that are apart.

  Two runs of one program may find different times on the clock, and they hold on to them: what one
  waits for, the other waits for later. `Program.InStep` relates two programs that ask alike as long
  as they are answered alike, and `Lag.Same` points of time that are the same in both runs.

  * `Program.InStep.bind`: programs that are put together from such programs keep in step;
  * `Task.Only.inStep`: a program that never looks at the clock keeps in step with itself;
  * `Habits.play_alike`: on a device that does the same again, procedures that keep in step hand in
    the same commands and give the same.
-/
import Mathlib.Data.Option.Basic
import Reimage.Proofs.Habits

namespace Reimage

variable {α β α' β' : Type}

/-! ## Programs that keep in step -/

/-- What two programs ask goes together, as long as the answers they get do; and so do their
    results. `pairs q q' X` says that `q` and `q'` go together, and that their answers do if `X`
    relates them. -/
inductive Program.InStep {Q : Type} {A : Q → Type}
    (pairs : (q q' : Q) → (A q → A q' → Prop) → Prop) (R : α → α' → Prop) :
    Program Q A α → Program Q A α' → Prop
  | done {a : α} {a' : α'} : R a a' → InStep pairs R (.done a) (.done a')
  | ask {q q' : Q} {f : A q → Program Q A α} {f' : A q' → Program Q A α'} {X : A q → A q' → Prop} :
    pairs q q' X → (∀ a a', X a a' → InStep pairs R (f a) (f' a')) →
    InStep pairs R (.ask q f) (.ask q' f')

namespace Program

variable {Q : Type} {A : Q → Type} {pairs : (q q' : Q) → (A q → A q' → Prop) → Prop}
  {R : α → α' → Prop} {S : β → β' → Prop}

theorem InStep.bind {p : Program Q A α} {p' : Program Q A α'} {f : α → Program Q A β}
    {f' : α' → Program Q A β'} (hp : p.InStep pairs R p')
    (hf : ∀ a a', R a a' → (f a).InStep pairs S (f' a')) :
    (p >>= f).InStep pairs S (p' >>= f') := by
  induction hp with
  | done h => exact hf _ _ h
  | ask h _ ih => exact .ask h ih

/-- A program whose questions go with themselves keeps in step with itself. -/
theorem Asks.inStep {P : Q → Prop} {p : Program Q A α} (hp : p.Asks (fun _ _ => True) P)
    (hP : ∀ q, P q → pairs q q Eq) : p.InStep pairs Eq p := by
  induction hp with
  | done a => exact .done rfl
  | ask h _ ih =>
    refine .ask (hP _ h) ?_
    rintro a _ rfl
    exact ih a trivial

end Program

/-! ## Clocks that are apart -/

/-- How far the clocks of two runs are apart: one is `second` ahead of the other if that one is
    `first` ahead of it. -/
structure Lag where
  first : Nat
  second : Nat

/-- The same point, by the one clock and by the other. -/
def Lag.Same (g : Lag) (t u : Instant) : Prop := t.nanos + g.first = u.nanos + g.second

/-- The lag of clocks that show `t` and `u`. -/
def Lag.between (t u : Instant) : Lag := ⟨u.nanos, t.nanos⟩

variable {g : Lag} {t u t' u' : Instant} {ds : List Duration}

theorem Lag.same_between (t u : Instant) : (Lag.between t u).Same t u := Nat.add_comm ..

namespace Lag.Same

theorem plus (h : g.Same t u) (d : Duration) : g.Same (t.plus d) (u.plus d) := by
  simp only [Lag.Same, Instant.plus] at *
  omega

theorem after? (h : g.Same t u) {d : Duration} {deadline due : Instant}
    (hdeadline : t.after? d = some deadline) (hdue : u.after? d = some due) :
    g.Same deadline due := by
  simp only [Lag.Same, Instant.nanos_of_after? hdeadline, Instant.nanos_of_after? hdue] at *
  omega

theorem later (h : g.Same t u) (h' : g.Same t' u') : g.Same (t.later t') (u.later u') := by
  simp only [Lag.Same, Instant.later] at *
  omega

theorem timely (h : g.Same t u) {deadline due ready ready' : Instant} (hd : g.Same deadline due)
    (hr : g.Same ready ready') : Timely t deadline ready ↔ Timely u due ready' := by
  simp only [Lag.Same, Timely] at *
  omega

/-- A wait ends alike if what is waited for is there at the same point. -/
theorem race (h : g.Same t u) {deadline due : Instant} (hd : g.Same deadline due)
    {r r' : Option (Instant × α)}
    (hr : Option.Rel (fun x y => g.Same x.1 y.1 ∧ x.2 = y.2) r r') :
    (Reimage.race t deadline r).1 = (Reimage.race u due r').1 ∧
      g.Same (Reimage.race t deadline r).2 (Reimage.race u due r').2 := by
  cases hr with
  | none => exact ⟨rfl, h.later hd⟩
  | @some x y hxy =>
    obtain ⟨ready, a⟩ := x
    obtain ⟨ready', _⟩ := y
    obtain ⟨hready, rfl⟩ := hxy
    have htimely := h.timely hd hready
    simp only [Reimage.race]
    by_cases hx : Timely t deadline ready
    · rw [if_pos hx, if_pos (htimely.1 hx)]
      exact ⟨rfl, h.later hready⟩
    · rw [if_neg hx, if_neg (mt htimely.2 hx)]
      exact ⟨rfl, h.later hd⟩

end Lag.Same

/-- A question that is always answered, and has nothing to do with the clock. -/
def Ask.Steady : Ask → Prop
  | .log _ | .isClosed | .current | .install _ | .acquire | .release | .dial | .disconnect _
  | .run _ _ _ _ | .layout | .setLayout _ | .guard _ | .unguard => True
  | _ => False

/-- Questions that go together in two runs whose clocks are apart, and their answers. Either clock
    can show the limits `ds`. -/
inductive Ask.Pairs (g : Lag) (ds : List Duration) :
    (q q' : Ask) → (q.Answer → q'.Answer → Prop) → Prop
  | same {q : Ask} : q.Steady → Pairs g ds q q Eq
  | now : Pairs g ds .now .now fun (t u : Instant) =>
    g.Same t u ∧ ∀ d ∈ ds, (t.after? d).isSome ∧ (u.after? d).isSome
  | sleep {t u : Instant} : g.Same t u → Pairs g ds (.sleep t) (.sleep u) fun _ _ => True
  | awaitCloseBefore (c : Connection) {t u : Instant} : g.Same t u →
    Pairs g ds (.awaitCloseBefore c t) (.awaitCloseBefore c u)
      fun (r r' : Option (Result Unit)) => r = r'
  | dialBefore {t u : Instant} : g.Same t u →
    Pairs g ds (.dialBefore t) (.dialBefore u) fun (r r' : Option (Result Connection)) => r = r'

/-- The same of procedures. Tasks that run side by side leave the clock alone. -/
inductive Call.Pairs (g : Lag) (ds : List Duration) :
    (c c' : Call) → (c.Answer → c'.Answer → Prop) → Prop
  | one {q q' : Ask} {X : q.Answer → q'.Answer → Prop} : Ask.Pairs g ds q q' X →
    Pairs g ds (.one q) (.one q') X
  | both {left right : Task (Result Unit)} : left.Only Ask.Steady → right.Only Ask.Steady →
    Pairs g ds (.both left right) (.both left right) Eq

/-- Two tasks keep in step. -/
abbrev Task.InStep (g : Lag) (ds : List Duration) (R : α → α' → Prop) (t : Task α) (t' : Task α') :
    Prop := Program.InStep (Ask.Pairs g ds) R t t'

/-- Two procedures keep in step. -/
abbrev Procedure.InStep (g : Lag) (ds : List Duration) (R : α → α' → Prop) (p : Procedure α)
    (p' : Procedure α') : Prop := Program.InStep (Call.Pairs g ds) R p p'

theorem Ask.Connects.steady {q : Ask} (h : q.Connects) : q.Steady := by
  cases q <;> trivial

/-- A task that never looks at the clock keeps in step with itself. -/
theorem Task.Only.inStep {t : Task α} (ht : t.Only Ask.Steady) : Task.InStep g ds Eq t t :=
  Program.Asks.inStep ht fun _ => .same

theorem Task.InStep.procedure {R : α → α' → Prop} {t : Task α} {t' : Task α'}
    (h : Task.InStep g ds R t t') : Procedure.InStep g ds R t.procedure t'.procedure := by
  induction h with
  | done h => exact .done h
  | ask h _ ih => exact .ask (.one h) ih

/-! ## On a device that does the same again -/

/-- The settings of both runs are the same but for the clock. -/
structure Lag.Apart (g : Lag) (s s' : Setting) : Prop where
  layout : s.1 = s'.1
  slot : s.2.slot = s'.2.slot
  reboots : s.2.reboots = s'.2.reboots
  clock : g.Same s.2.clock s'.2.clock

namespace Lag.Apart

variable {s s' : Setting}

theorem byClock (h : g.Apart s s') (ht : g.Same t u) :
    g.Apart (Reimage.byClock t s) (Reimage.byClock u s') := ⟨h.layout, h.slot, h.reboots, ht⟩

end Lag.Apart

/-- The points of time that were read off the clock. -/
def readings (tr : List Event) : List Instant :=
  tr.filterMap fun
    | ⟨.now, t⟩ => some t
    | _ => none

@[simp] theorem readings_append (t u : List Event) :
    readings (t ++ u) = readings t ++ readings u :=
  List.filterMap_append

/-- From wherever a run has looked at the clock, it can show the limits. -/
def Shows (ds : List Duration) (tr : List Event) : Prop :=
  ∀ t ∈ readings tr, ∀ d ∈ ds, (t.after? d).isSome

instance (ds : List Duration) (tr : List Event) : Decidable (Shows ds tr) :=
  inferInstanceAs (Decidable (∀ t ∈ readings tr, ∀ d ∈ ds, _))

@[simp] theorem shows_append {t u : List Event} :
    Shows ds (t ++ u) ↔ Shows ds t ∧ Shows ds u := by
  simp only [Shows, readings_append, List.forall_mem_append]

namespace Habits

/-- Both runs have handed in the same commands, stand at settings that are the same but for the
    clock, and have given results that go together. -/
structure Alike (g : Lag) (R : α → α' → Prop) (o : List Event × Setting × Option α)
    (o' : List Event × Setting × Option α') : Prop where
  lines : lines o.1 = lines o'.1
  setting : g.Apart o.2.1 o'.2.1
  result : ∃ a a', o.2.2 = some a ∧ o'.2.2 = some a' ∧ R a a'

theorem Alike.after {R : α → α' → Prop} {t t' : List Event} {o : List Event × Setting × Option α}
    {o' : List Event × Setting × Option α'} (ht : Reimage.lines t = Reimage.lines t')
    (h : Alike g R o o') : Alike g R (t ++ o.1, o.2) (t' ++ o'.1, o'.2) :=
  ⟨by rw [lines_append, lines_append, ht, h.lines], h.setting, h.result⟩

variable {w : Habits} {order : List Bool} {s s' : Setting}

/-- A question that has nothing to do with the clock is answered alike. -/
theorem answered_steady {q : Ask} (hq : q.Steady) (hs : g.Apart s s') :
    ∃ a s₁ s₁', q.answered w.answer s = some (a, s₁) ∧ q.answered w.answer s' = some (a, s₁') ∧
      g.Apart s₁ s₁' := by
  obtain ⟨m, ⟨t, slot, n⟩⟩ := s
  obtain ⟨m', ⟨u, slot', n'⟩⟩ := s'
  obtain ⟨rfl, rfl, rfl, ht⟩ := hs
  have ht : g.Same t u := ht
  cases q with
  | run | dial => exact ⟨_, _, _, rfl, rfl, rfl, rfl, rfl, ht.plus _⟩
  | log | acquire | release | disconnect | guard | unguard | isClosed | current | install | layout
  | setLayout => exact ⟨_, _, _, rfl, rfl, rfl, rfl, rfl, ht⟩
  | _ => exact hq.elim

/-- A task that never looks at the clock is played alike. -/
theorem play_steady {t : Task α} (ht : t.Only Ask.Steady) (hs : g.Apart s s') :
    Alike g Eq (t.play w.answer s) (t.play w.answer s') := by
  induction ht generalizing s s' with
  | done a => exact ⟨rfl, hs, a, a, rfl, rfl, rfl⟩
  | ask hq _ ih =>
    obtain ⟨a, s₁, s₁', h, h', hs⟩ := answered_steady (w := w) hq hs
    rw [Task.play, Task.play]
    simp only [h, h']
    exact (ih a trivial hs).after rfl

/-- So is each of its moves. -/
theorem move?_steady {t : Task α} (ht : t.Only Ask.Steady) (hs : g.Apart s s') :
    (∃ tr t' s₁ s₁', w.move? t s = some (tr, t', s₁) ∧ w.move? t s' = some (tr, t', s₁') ∧
      t'.Only Ask.Steady ∧ g.Apart s₁ s₁') ∨
    (w.move? t s = none ∧ w.move? t s' = none) := by
  cases ht with
  | done a => exact Or.inr ⟨rfl, rfl⟩
  | ask hq hnext =>
    obtain ⟨a, s₁, s₁', h, h', hs⟩ := answered_steady (w := w) hq hs
    exact Or.inl ⟨_, _, s₁, s₁', by rw [move?, h]; rfl, by rw [move?, h']; rfl, hnext a trivial, hs⟩

/-- So are two of them, side by side. -/
theorem sideBySide_steady (w : Habits) (order : List Bool) {left : Task α} {right : Task β}
    (hleft : left.Only Ask.Steady) (hright : right.Only Ask.Steady) (ht : g.Same t t')
    (hu : g.Same u u') (hs : g.Apart s s') :
    Alike g Eq (w.sideBySide order (left, t) (right, u) s)
      (w.sideBySide order (left, t') (right, u') s') := by
  induction order generalizing left right t t' u u' s s' with
  | nil =>
    have h := play_steady (w := w) hleft (hs.byClock ht)
    have h' := play_steady (w := w) hright (h.setting.byClock hu)
    obtain ⟨a, _, ha, ha', rfl⟩ := h.result
    obtain ⟨b, _, hb, hb', rfl⟩ := h'.result
    simp only [sideBySide]
    refine ⟨?_, h'.setting.byClock (h.setting.clock.later h'.setting.clock), (a, b), (a, b), ?_⟩
    · rw [lines_append, lines_append, h.lines, h'.lines]
    · rw [ha, ha', hb, hb']
      exact ⟨rfl, rfl, rfl⟩
  | cons first order ih =>
    cases first with
    | true =>
      rw [sideBySide, sideBySide]
      obtain ⟨tr, next, s₁, s₁', h, h', hnext, hs₁⟩ | ⟨h, h'⟩ :=
        move?_steady (w := w) hleft (hs.byClock ht)
      · simp only [h, h']
        exact (ih hnext hright hs₁.clock hu hs₁).after rfl
      · simp only [h, h']
        exact ih hleft hright ht hu hs
    | false =>
      rw [sideBySide, sideBySide]
      obtain ⟨tr, next, s₁, s₁', h, h', hnext, hs₁⟩ | ⟨h, h'⟩ :=
        move?_steady (w := w) hright (hs.byClock hu)
      · simp only [h, h']
        exact (ih hleft hnext ht hs₁.clock hs₁).after rfl
      · simp only [h, h']
        exact ih hleft hright ht hu hs

/-- Questions that go together are answered so. -/
theorem answered_pairs {q q' : Ask} {X : q.Answer → q'.Answer → Prop} (h : Ask.Pairs g ds q q' X)
    (hs : g.Apart s s') :
    ∃ a a' s₁ s₁', q.answered w.answer s = some (a, s₁) ∧
      q'.answered w.answer s' = some (a', s₁') ∧ g.Apart s₁ s₁' ∧
      lines (q.record a) = lines (q'.record a') ∧
      (Shows ds (q.record a) → Shows ds (q'.record a') → X a a') := by
  cases h with
  | same hq =>
    obtain ⟨a, s₁, s₁', h, h', hs₁⟩ := answered_steady (w := w) hq hs
    exact ⟨a, a, s₁, s₁', h, h', hs₁, rfl, fun _ _ => rfl⟩
  | now =>
    refine ⟨s.2.clock, s'.2.clock, s, s', rfl, rfl, hs, rfl, fun h h' => ⟨hs.clock, fun d hd => ?_⟩⟩
    exact ⟨h _ (List.mem_singleton.2 rfl) d hd, h' _ (List.mem_singleton.2 rfl) d hd⟩
  | sleep h =>
    exact ⟨(), (), _, _, rfl, rfl, hs.byClock (hs.clock.later h), rfl, fun _ _ => trivial⟩
  | awaitCloseBefore c h =>
    have hready : Option.Rel (fun x y => g.Same x.1 y.1 ∧ x.2 = y.2)
        ((w.closing s.2.reboots).map fun x => (s.2.clock.plus x.1, x.2))
        ((w.closing s'.2.reboots).map fun x => (s'.2.clock.plus x.1, x.2)) := by
      rw [← hs.reboots]
      cases w.closing s.2.reboots with
      | none => exact .none
      | some r => exact .some ⟨hs.clock.plus _, rfl⟩
    obtain ⟨hr, ht⟩ := hs.clock.race h hready
    exact ⟨_, _, _, _, rfl, rfl, hs.byClock ht, rfl, fun _ _ => hr⟩
  | dialBefore h =>
    have hready : Option.Rel (fun x y => g.Same x.1 y.1 ∧ x.2 = y.2)
        (some (s.2.clock.plus (w.dialing s.2.reboots).1, (w.dialing s.2.reboots).2))
        (some (s'.2.clock.plus (w.dialing s'.2.reboots).1, (w.dialing s'.2.reboots).2)) := by
      rw [← hs.reboots]
      exact .some ⟨hs.clock.plus _, rfl⟩
    obtain ⟨hr, ht⟩ := hs.clock.race h hready
    exact ⟨_, _, _, _, rfl, rfl, hs.byClock ht, rfl, fun _ _ => hr⟩

/-- **What keeps in step is played alike.** -/
theorem play_alike {R : α → α' → Prop} {p : Procedure α} {p' : Procedure α'}
    (h : Procedure.InStep g ds R p p') (hs : g.Apart s s')
    (hshows : Shows ds (w.play order p s).1) (hshows' : Shows ds (w.play order p' s').1) :
    Alike g R (w.play order p s) (w.play order p' s') := by
  induction h generalizing s s' with
  | @done a a' h => exact ⟨rfl, hs, a, a', rfl, rfl, h⟩
  | @ask c c' f f' X hc _ ih =>
    cases hc with
    | one hq =>
      rw [play] at hshows hshows'
      rw [play, play]
      obtain ⟨a, a', s₁, s₁', h, h', hs₁, hlines, hX⟩ := answered_pairs (w := w) hq hs
      simp only [h, h', shows_append] at hshows hshows' ⊢
      exact (ih a a' (hX hshows.1 hshows'.1) hs₁ hshows.2 hshows'.2).after hlines
    | both hleft hright =>
      rw [play] at hshows hshows'
      rw [play, play]
      have hside := w.sideBySide_steady order hleft hright hs.clock hs.clock hs
      generalize w.sideBySide order _ _ s = o at hside hshows ⊢
      generalize w.sideBySide order _ _ s' = o' at hside hshows' ⊢
      obtain ⟨tr, s₁, r⟩ := o
      obtain ⟨tr', s₁', r'⟩ := o'
      obtain ⟨hlines, hs₁, a, a', rfl, rfl, ha⟩ := hside
      simp only [shows_append] at hshows hshows'
      exact (ih a a' ha hs₁ hshows.2 hshows'.2).after hlines

end Habits

end Reimage
