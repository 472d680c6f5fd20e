/-
  How calls on one link change its connection.

  The invariant of every run (`Sound`) joins what each call keeps to by itself with two facts about
  the calls together: a call whose history ends under the lock holds it, and while a call that found
  no connection there is dialing, there is none.

  * `Step.current`, `Step.holder`: all that a move does to what calls share;
  * `SlotProtocol`, `slotProtocol`: what that gives for the connection, in every interleaving.
-/
import Reimage.Proofs.Link.Discipline

namespace Reimage.Link

variable {past : List Event} {c : Connection} {e : Event}

/-! ## Histories under the lock -/

/-- The lock was taken and not given back. -/
def Locked (past : List Event) : Prop :=
  ∃ u v, past = u ++ ⟨.acquire, ()⟩ :: v ∧ ∀ e ∈ v, e.question ≠ .release

/-- There was no connection when the lock was taken, and nothing but a dial has happened since. -/
inductive FoundNone : List Event → Prop
  | found {past : List Event} : FoundNone (past ++ [⟨.acquire, ()⟩] ++ [⟨.current, none⟩])
  | dialed {past : List Event} {r : Result Connection} : FoundNone past →
    FoundNone (past ++ [⟨.dial, r⟩])

theorem FirstDial.foundNone (h : FirstDial past c) : FoundNone past := by
  obtain ⟨u, rfl⟩ := h
  rw [show ∀ a b d : Event, u ++ [a, b, d] = u ++ [a] ++ [b] ++ [d] by simp]
  exact .dialed .found

theorem Locked.snoc (h : Locked past) (he : e.question ≠ .release) : Locked (past ++ [e]) := by
  obtain ⟨u, v, rfl, hv⟩ := h
  refine ⟨u, v ++ [e], by simp, fun e' he' => ?_⟩
  rcases List.mem_append.1 he' with he' | he'
  · exact hv e' he'
  · rwa [List.mem_singleton.1 he']

theorem locked_acquire : Locked (past ++ [⟨.acquire, ()⟩]) := ⟨past, [], rfl, by simp⟩

theorem FoundNone.locked (h : FoundNone past) : Locked past := by
  induction h with
  | found => exact locked_acquire.snoc (by simp)
  | dialed _ ih => exact ih.snoc (by simp)

theorem Redial.locked (h : Redial past c) : Locked past := by
  obtain ⟨u, rfl⟩ | ⟨deadline, u, rfl⟩ := h
  · exact ⟨u, [_], rfl, by simp⟩
  · exact ⟨u, [_], rfl, by simp⟩

theorem Locked.of_snoc (h : Locked (past ++ [e])) :
    e = ⟨.acquire, ()⟩ ∨ e.question ≠ .release ∧ Locked past := by
  obtain ⟨u, v, huv, hv⟩ := h
  obtain ⟨-, rfl⟩ | ⟨v, rfl, rfl⟩ := split_snoc huv
  · exact .inl rfl
  · exact .inr ⟨hv _ (by simp), u, v, rfl, fun e he => hv e (by simp [he])⟩

theorem FoundNone.of_snoc (h : FoundNone (past ++ [e])) :
    e = ⟨.current, none⟩ ∨ ∃ r, e = ⟨.dial, r⟩ ∧ FoundNone past := by
  generalize hp : past ++ [e] = p at h
  cases h with
  | found => exact .inl (List.singleton_inj.1 (List.append_inj' hp rfl).2)
  | dialed h =>
    obtain ⟨rfl, he⟩ := List.append_inj' hp rfl
    exact .inr ⟨_, List.singleton_inj.1 he, h⟩

/-! ## What a move does to what calls share -/

namespace Shared

variable {s : Shared} {i : Nat}

@[simp] theorem free_current : (s.free i).current = s.current := by
  unfold free
  split <;> rfl

theorem free_holder :
    (s.free i).holder = s.holder ∧ s.holder ≠ some i ∨
      (s.free i).holder = none ∧ s.holder = some i := by
  unfold free
  split
  · exact .inr ⟨rfl, ‹_›⟩
  · exact .inl ⟨rfl, ‹_›⟩

end Shared

namespace Calls

variable {s s' : Calls} {m : Move}

/-- All that a move does to the connection. -/
theorem Step.current (h : s.Step m s') : s'.current = s.current ∨
    (∃ i known, m = .does i ⟨.closeLink, known⟩ ∧ s'.current = ⟨none, true⟩) ∨
    ∃ i c, m = .does i ⟨.install c, true⟩ ∧ s.current.closed = false ∧
      s'.current = ⟨some c, false⟩ := by
  cases h with
  | drops => exact .inl Shared.free_current
  | @does i q f a _ ha =>
    cases q with
    | install c =>
      cases hs : s.current.closed with
      | true => exact .inl (by simp [Calls.current, Shared.after, Current.install, hs])
      | false =>
        have ha : a = true := by simpa [Shared.Admits, Current.install, hs] using ha
        subst ha
        exact .inr (.inr ⟨i, c, rfl, rfl, by simp [Calls.current, Shared.after, Current.install, hs]⟩)
    | closeLink => exact .inr (.inl ⟨i, a, rfl, rfl⟩)
    | release => exact .inl Shared.free_current
    | _ => exact .inl rfl

/-- All that a move does to the lock. -/
theorem Step.holder (h : s.Step m s') :
    s'.shared.holder = s.shared.holder ∨
    (∃ i, m = .does i ⟨.acquire, ()⟩ ∧ s.shared.holder = none ∧ s'.shared.holder = some i) ∨
    (m = .drops m.caller ∨ m = .does m.caller ⟨.release, ()⟩) ∧
      s.shared.holder = some m.caller := by
  cases h with
  | @drops i _ _ _ _ =>
    obtain ⟨h, -⟩ | ⟨-, h⟩ := s.shared.free_holder (i := i)
    · exact .inl h
    · exact .inr (.inr ⟨.inl rfl, h⟩)
  | @does i q f a _ ha =>
    cases q with
    | acquire => exact .inr (.inl ⟨i, rfl, ha, rfl⟩)
    | release =>
      obtain ⟨h, -⟩ | ⟨-, h⟩ := s.shared.free_holder (i := i)
      · exact .inl h
      · exact .inr (.inr ⟨.inr rfl, h⟩)
    | _ => exact .inl rfl

end Calls

/-! ## The invariant -/

/-- What holds after every run `tr`. -/
structure Sound (uses : Nat → Use) (tr : List Move) (s : Calls) : Prop where
  obeys : ∀ i t, s.tasks i = some t → t.Obeys (Fits (uses i)) (Ends (uses i)) (own i tr)
  closed : s.current.closed = true → s.current.connection = none
  holds : ∀ i t, s.tasks i = some t → Locked (own i tr) → s.shared.holder = some i
  empty : ∀ i t, s.tasks i = some t → FoundNone (own i tr) → s.current.connection = none

namespace Sound

variable {uses : Nat → Use} {tr : List Move} {s s' : Calls} {m : Move} {i : Nat}

theorem start (l : Link) : Sound uses [] (Calls.start l uses) where
  obeys i t ht := by cases ht; exact Use.obeys l (uses i)
  closed := by simp [Calls.start]
  holds i t _ h := by obtain ⟨u, v, h, -⟩ := h; cases u <;> cases h
  empty i t _ h := by
    generalize hp : own i [] = past at h
    cases h <;> simp at hp

/-- What a call asks fits its history. -/
theorem fits (h : Sound uses tr s) {q : Ask} {f : q.Answer → Task Reply}
    (hq : s.tasks i = some (Program.ask q f)) : Fits (uses i) (own i tr) q := by
  cases h.obeys i _ hq with
  | ask hq _ => exact hq

theorem fits_of_step (h : Sound uses tr s) {e : Event} (hm : s.Step (.does i e) s') :
    Fits (uses i) (own i tr) e.question := by
  cases hm with
  | does hq _ => exact h.fits hq

/-- A call that ended did so with what fits its history. -/
theorem ends (h : Sound uses tr s) {r : Reply} (hr : s.result i = some r) :
    Ends (uses i) (own i tr) r := by
  unfold Calls.result at hr
  split at hr
  · rename_i r' ht
    cases hr
    cases h.obeys i _ ht with
    | done h => exact h
  · cases hr

/-- A call that offers a connection holds the lock. -/
theorem holder_of_install (h : Sound uses tr s) {installed : Bool}
    (hm : s.Step (.does i ⟨.install c, installed⟩) s') : s.shared.holder = some i := by
  obtain ⟨t, ht⟩ := hm.exists_task
  refine h.holds i t ht ?_
  obtain hc | hc := (h.fits_of_step hm).installs c rfl
  · exact hc.foundNone.locked
  · exact hc.locked

theorem locked_own_does {e : Event} (hl : Locked (own i (tr ++ [.does i e]))) :
    e = ⟨.acquire, ()⟩ ∨ e.question ≠ .release ∧ Locked (own i tr) := by
  rw [own_snoc_does] at hl
  obtain ⟨hr, line, hq⟩ | hr := record_eq e.question e.answer
  · rw [hr, List.append_nil] at hl
    exact .inr ⟨by simp [hq], hl⟩
  · rw [hr] at hl
    exact hl.of_snoc

theorem foundNone_own_does {e : Event} (hn : FoundNone (own i (tr ++ [.does i e]))) :
    e = ⟨.current, none⟩ ∨ e.question.Plain ∧ FoundNone (own i tr) := by
  rw [own_snoc_does] at hn
  obtain ⟨hr, line, hq⟩ | hr := record_eq e.question e.answer
  · rw [hr, List.append_nil] at hn
    exact .inr ⟨hq ▸ trivial, hn⟩
  · rw [hr] at hn
    exact hn.of_snoc.imp_right fun ⟨_, he, hn⟩ => ⟨congrArg Event.question he ▸ trivial, hn⟩

theorem step_obeys (h : Sound uses tr s) (hm : s.Step m s') (i : Nat) (t : Task Reply)
    (ht : s'.tasks i = some t) :
    t.Obeys (Fits (uses i)) (Ends (uses i)) (own i (tr ++ [m])) := by
  by_cases hi : m.caller = i
  · subst hi
    cases hm with
    | @does j q f a hq _ =>
      simp only [Move.caller, Function.update_self] at ht
      cases ht
      cases h.obeys j _ hq with
      | ask _ hf => simpa [Move.caller] using hf a
    | drops => simp [Move.caller] at ht
  · rw [own_snoc_of_ne hi]
    exact h.obeys i t (hm.tasks_of_ne hi ▸ ht)

theorem step_closed (h : Sound uses tr s) (hm : s.Step m s') (hs : s'.current.closed = true) :
    s'.current.connection = none := by
  obtain h' | ⟨i, known, -, h'⟩ | ⟨i, c, -, -, h'⟩ := hm.current
  · exact h' ▸ h.closed (h' ▸ hs)
  · rw [h']
  · rw [h'] at hs
    cases hs

theorem step_holds (h : Sound uses tr s) (hm : s.Step m s') (i : Nat) (t : Task Reply)
    (ht : s'.tasks i = some t) (hl : Locked (own i (tr ++ [m]))) :
    s'.shared.holder = some i := by
  by_cases hi : m.caller = i
  · subst hi
    obtain ⟨j, e, t', rfl, ht'⟩ := hm.eq_does ht
    rcases locked_own_does hl with rfl | ⟨he, hl⟩
    · cases hm; rfl
    · have hj := h.holds j t' ht' hl
      obtain hs | ⟨k, -, hs, -⟩ | ⟨hs | hs, -⟩ := hm.holder
      · rw [hs, hj]; rfl
      · simp [hj] at hs
      · cases hs
      · cases hs; exact absurd rfl he
  · rw [own_snoc_of_ne hi] at hl
    have hj := h.holds i t (hm.tasks_of_ne hi ▸ ht) hl
    obtain hs | ⟨k, -, hs, -⟩ | ⟨-, hs⟩ := hm.holder
    · rw [hs, hj]
    · simp [hj] at hs
    · exact absurd (Option.some.inj (hs.symm.trans hj)) hi

theorem step_empty (h : Sound uses tr s) (hm : s.Step m s') (i : Nat) (t : Task Reply)
    (ht : s'.tasks i = some t) (hn : FoundNone (own i (tr ++ [m]))) :
    s'.current.connection = none := by
  by_cases hi : m.caller = i
  · subst hi
    obtain ⟨j, e, t', rfl, ht'⟩ := hm.eq_does ht
    rcases foundNone_own_does hn with rfl | ⟨he, hn⟩
    · cases hm with
      | does _ ha => exact ha.symm
    · have hj := h.empty j t' ht' hn
      obtain hs | ⟨k, known, hs, -⟩ | ⟨k, c, hs, -⟩ := hm.current
      · rw [hs, hj]
      · cases hs; exact he.elim
      · cases hs; exact he.elim
  · rw [own_snoc_of_ne hi] at hn
    have ht' := hm.tasks_of_ne hi ▸ ht
    obtain hs | ⟨k, known, -, hs⟩ | ⟨k, c, rfl, -, -⟩ := hm.current
    · rw [hs, h.empty i t ht' hn]
    · rw [hs]
    · -- Two calls would hold the lock.
      have h₁ := h.holds i t ht' hn.locked
      have h₂ := h.holder_of_install hm
      exact absurd (Option.some.inj (h₂.symm.trans h₁)) hi

theorem step (h : Sound uses tr s) (hm : s.Step m s') : Sound uses (tr ++ [m]) s' where
  obeys := h.step_obeys hm
  closed := h.step_closed hm
  holds := h.step_holds hm
  empty := h.step_empty hm

end Sound

/-- The invariant holds after every run. -/
theorem Calls.Runs.sound {l : Link} {uses : Nat → Use} {tr : List Move} {s : Calls}
    (h : (Calls.start l uses).Runs tr s) : Sound uses tr s :=
  h.induct (.start l) Sound.step

/-! ## The protocol -/

/-- The last thing that was done is to dial `c`. -/
def Dialed (past : List Event) (c : Connection) : Prop :=
  past.getLast? = some ⟨.dial, .ok c⟩ ∨
    ∃ deadline, past.getLast? = some ⟨.dialBefore deadline, some (.ok c)⟩

/-- `c` was the current connection right after one of the moves that call `i` has made in `tr`. -/
def CurrentDuring (l : Link) (uses : Nat → Use) (i : Nat) (tr : List Move) (c : Connection) :
    Prop :=
  ∃ u e v s, tr = u ++ .does i e :: v ∧ (Calls.start l uses).Runs (u ++ [.does i e]) s ∧
    s.current.connection = some c

/-- How calls for `uses` change the connection of `l` and work on it, in every interleaving. -/
structure SlotProtocol (l : Link) (uses : Nat → Use) : Prop where
  /-- Once a call to close has ended, the link is closed. -/
  closes : ∀ {tr s i}, (Calls.start l uses).Runs tr s → s.result i = some .close →
    s.current.closed = true
  /-- A closed link stays closed, and has no connection from then on. -/
  closed_forever : ∀ {tr s u s'}, (Calls.start l uses).Runs tr s → s.current.closed = true →
    s.Runs u s' → s'.current = ⟨none, true⟩
  /-- The connection changes when the link is closed, and when a call installs what it has just
      dialed. -/
  changes : ∀ {tr s m s'}, (Calls.start l uses).Runs tr s → s.Step m s' →
    s'.current ≠ s.current →
    (∃ i known, m = .does i ⟨.closeLink, known⟩ ∧ s'.current = ⟨none, true⟩) ∨
    ∃ i c, m = .does i ⟨.install c, true⟩ ∧ Dialed (own i tr) c ∧ s'.current = ⟨some c, false⟩
  /-- A call to reconnect that failed has changed nothing by any of its moves. -/
  reconnect_failed : ∀ {tr s i r u e v s₁ s₂}, (Calls.start l uses).Runs tr s →
    uses i = .reconnect → s.result i = some r → r.Failed → tr = u ++ .does i e :: v →
    (Calls.start l uses).Runs u s₁ → s₁.Step (.does i e) s₂ → s₂.current = s₁.current
  /-- A call to restart that failed has changed nothing, but that it may have installed the first
      connection of the link. -/
  restart_failed : ∀ {tr s i args timeout r u e v s₁ s₂}, (Calls.start l uses).Runs tr s →
    uses i = .restart args timeout → s.result i = some r → r.Failed →
    tr = u ++ .does i e :: v → (Calls.start l uses).Runs u s₁ → s₁.Step (.does i e) s₂ →
    s₂.current = s₁.current ∨
      ∃ c, e = ⟨.install c, true⟩ ∧ FirstDial (own i u) c ∧ s₁.current = ⟨none, false⟩
  /-- What a call works on was current after one of its earlier moves. -/
  works_on_current : ∀ {tr s i q f c}, (Calls.start l uses).Runs tr s →
    s.tasks i = some (Program.ask q f) → q.target = some c → CurrentDuring l uses i tr c
  /-- The same for the connection that a call gives to its caller. -/
  gives_current : ∀ {tr s i c}, (Calls.start l uses).Runs tr s →
    s.result i = some (.connect (.ok c)) → CurrentDuring l uses i tr c
  /-- A connection that is offered to a closed link is refused. To close it is the next thing that
      the call does, which is not a point where a call can be dropped; and the call fails. -/
  refused : ∀ {tr s i c installed s'}, (Calls.start l uses).Runs tr s →
    s.current.closed = true → s.Step (.does i ⟨.install c, installed⟩) s' →
    installed = false ∧ s'.current = ⟨none, true⟩ ∧
    (∃ f, s'.tasks i = some (Program.ask (.disconnect c) f)) ∧
    ∀ {u s'' r}, s'.Runs u s'' → s''.result i = some r → r.Failed
  /-- A call that begins after the link was closed asks for nothing but the clock and whether the
      link is closed, and fails. Only reconnecting still dials then. -/
  late : ∀ {tr s i u s'}, (Calls.start l uses).Runs tr s → s.current.closed = true →
    (uses i).Checks → own i tr = [] → s.Runs u s' →
    (∀ {q f}, s'.tasks i = some (Program.ask q f) → Harmless q) ∧
    ∀ {r}, s'.result i = some r → r.Failed

theorem FirstDial.dialed (h : FirstDial past c) : Dialed past c := by
  obtain ⟨u, rfl⟩ := h
  exact .inl (by simp)

theorem Redial.dialed (h : Redial past c) : Dialed past c := by
  obtain ⟨u, rfl⟩ | ⟨deadline, u, rfl⟩ := h
  · exact .inl (by simp)
  · exact .inr ⟨deadline, by simp⟩

variable {l : Link} {uses : Nat → Use} {tr u : List Move} {s s' : Calls} {m : Move} {i : Nat}

namespace Calls

theorem Step.closed (h : s.Step m s') (hs : s.current.closed = true) :
    s'.current.closed = true := by
  obtain h' | ⟨i, known, -, h'⟩ | ⟨i, c, -, h', -⟩ := h.current
  · rwa [h']
  · rw [h']
  · rw [h'] at hs
    cases hs

/-- A closed link stays closed. -/
theorem Runs.closed (h : s.Runs tr s') (hs : s.current.closed = true) :
    s'.current.closed = true :=
  h.induct hs fun hs hm => hm.closed hs

theorem Runs.closed_forever (h : (start l uses).Runs tr s) (hs : s.current.closed = true)
    (hu : s.Runs u s') : s'.current = ⟨none, true⟩ := by
  have hc := hu.closed hs
  have hn := (h.append hu).sound.closed hc
  cases hs' : s'.current
  simp_all

/-- What is in the history of a call was one of the moves. -/
theorem Runs.exists_step (h : s.Runs tr s') {e : Event} (he : e ∈ own i tr) :
    ∃ u v s₁ s₂, tr = u ++ .does i e :: v ∧ s.Runs u s₁ ∧ s₁.Step (.does i e) s₂ ∧
      s₂.Runs v s' := by
  obtain ⟨u, v, rfl⟩ := exists_of_mem_own he
  obtain ⟨s₁, h₁, h₂⟩ := runs_append.1 h
  obtain ⟨s₂, h₂, h₃⟩ := runs_cons.1 h₂
  exact ⟨u, v, s₁, s₂, rfl, h₁, h₂, h₃⟩

theorem Step.answer_install {installed : Bool}
    (h : s.Step (.does i ⟨.install c, installed⟩) s') :
    installed = !s.current.closed ∧ s'.current = (s.current.install c).1 := by
  cases h with
  | does _ ha =>
    refine ⟨?_, rfl⟩
    cases hs : s.current.closed <;> simpa [Shared.Admits, Current.install, hs] using ha

theorem Step.answer_isClosed {a : Bool} (h : s.Step (.does i ⟨.isClosed, a⟩) s') :
    a = s.current.closed := by
  cases h with
  | does _ ha => exact ha

/-- What a call is given is current then, and what it has installed. -/
theorem Step.current_of_took (h : s.Step (.does i e) s')
    (he : e = ⟨.current, some c⟩ ∨ e = ⟨.install c, true⟩) :
    s'.current.connection = some c := by
  obtain rfl | rfl := he
  · cases h with
    | does _ ha => exact ha.symm
  · obtain ⟨ha, hs⟩ := h.answer_install
    have hc : s.current.closed = false := by simpa using ha
    rw [hs, Current.install, hc]
    rfl

theorem Runs.currentDuring (h : (start l uses).Runs tr s) (hc : Took (own i tr) c) :
    CurrentDuring l uses i tr c := by
  have : ∃ e ∈ own i tr, e = ⟨.current, some c⟩ ∨ e = ⟨.install c, true⟩ :=
    hc.elim (fun h => ⟨_, h, .inl rfl⟩) fun h => ⟨_, h, .inr rfl⟩
  obtain ⟨e, he, htook⟩ := this
  obtain ⟨u, v, s₁, s₂, rfl, h₁, h₂, -⟩ := h.exists_step he
  exact ⟨u, e, v, s₂, rfl, h₁.snoc h₂, h₂.current_of_took htook⟩

/-- A call that begins after the link was closed never finds it open. -/
theorem Runs.not_opened (hs : s.current.closed = true)
    (hi : own i tr = []) (hu : s.Runs u s') : ¬ Opened (own i (tr ++ u)) := by
  rw [own_append, hi, List.nil_append]
  intro ho
  obtain ⟨v, w, s₁, s₂, rfl, h₁, h₂, -⟩ := hu.exists_step ho
  have := h₂.answer_isClosed
  rw [h₁.closed hs] at this
  cases this

end Calls

theorem Use.run_close {t : List Event} (u : Use) (h : (u.task l).Run t (some .close)) :
    ∃ known, (⟨.closeLink, known⟩ : Event) ∈ t := by
  cases u with
  | close =>
    obtain ⟨a, _, b, rfl, h, -⟩ := Program.run_bind_some.1 h
    obtain ⟨c, known, d, rfl, h, -⟩ := Program.run_bind_some.1 h
    cases Task.run_ask_some.1 h
    exact ⟨known, by simp [Ask.record]⟩
  | _ =>
    obtain ⟨_, _, h⟩ := Program.run_bind_pure_some.1 h
    cases h

namespace Calls

theorem Runs.closed_of_result (h : (start l uses).Runs tr s) (hr : s.result i = some .close) :
    s.current.closed = true := by
  have hrun := h.run_own (i := i) rfl
  rw [hr] at hrun
  obtain ⟨known, hc⟩ := (uses i).run_close hrun
  obtain ⟨u, v, s₁, s₂, rfl, -, h₂, h₃⟩ := h.exists_step hc
  refine h₃.closed ?_
  cases h₂
  rfl

/-- What a call that does not close the link does to the connection. -/
theorem Runs.current_of_does (h : (start l uses).Runs tr s) (hu : uses i ≠ .close)
    (hm : s.Step (.does i e) s') : s'.current = s.current ∨
      ∃ c, e = ⟨.install c, true⟩ ∧ s.current.closed = false := by
  obtain hs | ⟨j, known, hj, -⟩ | ⟨j, c, hj, hs, -⟩ := hm.current
  · exact .inl hs
  · cases hj
    exact absurd ((h.sound.fits_of_step hm).closes rfl) hu
  · cases hj
    exact .inr ⟨c, rfl, hs⟩

theorem Runs.changes (h : (start l uses).Runs tr s) (hm : s.Step m s')
    (hne : s'.current ≠ s.current) :
    (∃ i known, m = .does i ⟨.closeLink, known⟩ ∧ s'.current = ⟨none, true⟩) ∨
    ∃ i c, m = .does i ⟨.install c, true⟩ ∧ Dialed (own i tr) c ∧ s'.current = ⟨some c, false⟩ := by
  obtain hs | hs | ⟨i, c, rfl, -, hs⟩ := hm.current
  · exact absurd hs hne
  · exact .inl hs
  · refine .inr ⟨i, c, rfl, ?_, hs⟩
    obtain hc | hc := (h.sound.fits_of_step hm).installs c rfl
    · exact hc.dialed
    · exact hc.dialed

theorem Runs.reconnect_failed (h : (start l uses).Runs tr s) (hu : uses i = .reconnect) {r : Reply}
    (hr : s.result i = some r) (hf : r.Failed) {v : List Move} {s₁ s₂ : Calls}
    (htr : tr = u ++ .does i e :: v) (h₁ : (start l uses).Runs u s₁)
    (hm : s₁.Step (.does i e) s₂) : s₂.current = s₁.current := by
  subst htr
  obtain hs | ⟨c, rfl, -⟩ := h₁.current_of_does (by simp [hu]) hm
  · exact hs
  · exact absurd (by simp [Ask.record]) ((h.sound.ends hr).reconnect hu hf c)

theorem Runs.restart_failed (h : (start l uses).Runs tr s) {args : List String}
    {timeout : Duration} (hu : uses i = .restart args timeout) {r : Reply}
    (hr : s.result i = some r) (hf : r.Failed) {v : List Move} {s₁ s₂ : Calls}
    (htr : tr = u ++ .does i e :: v) (h₁ : (start l uses).Runs u s₁)
    (hm : s₁.Step (.does i e) s₂) : s₂.current = s₁.current ∨
      ∃ c, e = ⟨.install c, true⟩ ∧ FirstDial (own i u) c ∧ s₁.current = ⟨none, false⟩ := by
  subst htr
  obtain hs | ⟨c, rfl, hs⟩ := h₁.current_of_does (by simp [hu]) hm
  · exact .inl hs
  · have hc : FirstDial (own i u) c :=
      (h.sound.ends hr).restart args timeout hu hf _ c (own i v) (by simp [Ask.record])
    obtain ⟨t, ht⟩ := hm.exists_task
    have hn := h₁.sound.empty i t ht hc.foundNone
    refine .inr ⟨c, rfl, hc, ?_⟩
    cases hs₁ : s₁.current
    simp_all

theorem Runs.refused (h : (start l uses).Runs tr s) (hs : s.current.closed = true)
    {installed : Bool} (hm : s.Step (.does i ⟨.install c, installed⟩) s') :
    installed = false ∧ s'.current = ⟨none, true⟩ ∧
    (∃ f, s'.tasks i = some (Program.ask (.disconnect c) f)) ∧
    ∀ {u s'' r}, s'.Runs u s'' → s''.result i = some r → r.Failed := by
  have ha : installed = false := by simpa [hs] using hm.answer_install.1
  subst ha
  have hown := own_snoc_does i tr ⟨.install c, false⟩
  have h' := h.snoc hm
  refine ⟨rfl, h.closed_forever hs (.cons hm (.nil _)), ?_, ?_⟩
  · obtain ⟨t, ht⟩ := hm.exists_task_after
    cases hown ▸ h'.sound.obeys i t ht with
    | done hr => exact absurd rfl (hr.settled _ (List.getLast?_concat ..))
    | ask hq _ =>
      obtain rfl := hq.refused c (List.getLast?_concat ..)
      exact ⟨_, ht⟩
  · intro u s'' r hu hr
    by_contra hf
    have hend := ((h'.append hu).sound.ends hr).ready hf
    refine hend.unrefused ⟨.install c, false⟩ ?_ rfl
    simp [Ask.record]

theorem Runs.late (h : (start l uses).Runs tr s) (hs : s.current.closed = true)
    (hc : (uses i).Checks) (hi : own i tr = []) (hu : s.Runs u s') :
    (∀ {q f}, s'.tasks i = some (Program.ask q f) → Harmless q) ∧
    ∀ {r}, s'.result i = some r → r.Failed := by
  have hno := Runs.not_opened hs hi hu
  have hsound := (h.append hu).sound
  refine ⟨fun hq => ?_, fun hr => ?_⟩
  · exact ((hsound.fits hq).opened hc).resolve_right hno
  · by_contra hf
    exact hno (((hsound.ends hr).ready hf).opened hc)

end Calls

/-- **The protocol of the connection.** -/
theorem slotProtocol (l : Link) (uses : Nat → Use) : SlotProtocol l uses where
  closes h hr := h.closed_of_result hr
  closed_forever h hs hu := h.closed_forever hs hu
  changes h hm hne := h.changes hm hne
  reconnect_failed h hu hr hf htr h₁ hm := h.reconnect_failed hu hr hf htr h₁ hm
  restart_failed h hu hr hf htr h₁ hm := h.restart_failed hu hr hf htr h₁ hm
  works_on_current h hq hc := h.currentDuring ((h.sound.fits hq).targets _ hc)
  gives_current h hr := h.currentDuring ((h.sound.ends hr).took _ rfl)
  refused h hs hm := h.refused hs hm
  late h hs hc hi hu := h.late hs hc hi hu

end Reimage.Link
