/-
  Waiting for the system services.

  An installation asks for the status of the services, and after each pause again, until they run or
  the next point to ask at lies behind a deadline. No count bounds the questions: what bounds them
  is the clock, which goes on by the pause at least from one to the next.

  * `Clocked`: surroundings with an exact clock, in which every command comes to an end, however it
    ends and whenever;
  * `Round.From`: one question for the status, and `Polls`: the rounds of a wait;
  * `Plan.Ticks`: how far apart the rounds are at least;
  * `Plan.pollStable_polls`, `Plan.waitForStabilize_polls`: a wait takes rounds, and as many as it
    may take are enough;
  * `Polls.length_le`: there are no more of them than pauses fit into the time limit, and one;
  * `waitForStabilize_rounds`: what becomes of a wait.
-/
import Reimage.Install.Plan
import Reimage.Proofs.Link.Open
import Reimage.Proofs.Link.Timetable
import Reimage.Proofs.Text.Blank

namespace Reimage

variable {σ α : Type} {f : Answers σ} {clock : σ → Instant}

/-! ## Surroundings with a clock -/

/-- A question of a command. -/
def Ask.Commands : Ask → Prop
  | .run _ _ _ _ => True
  | q => q.Connects

/-- Surroundings with an exact clock, in which every command comes to an end. -/
structure Clocked (f : Answers σ) (clock : σ → Instant) : Prop where
  /-- Reading the clock takes no time. -/
  now (s : σ) : f .now s = some (clock s, s)
  /-- A pause ends at its end. -/
  sleep (t : Instant) (s : σ) :
    ∃ s', f (.sleep t) s = some ((), s') ∧ clock s' = (clock s).later t
  /-- What a command asks is answered in any way, and may take any time. -/
  command (q : Ask) (s : σ) : q.Commands →
    ∃ a s', f q s = some (a, s') ∧ (clock s).nanos ≤ (clock s').nanos

theorem Ask.Connects.commands {q : Ask} (h : q.Connects) : q.Commands := by
  cases q <;> trivial

theorem Ask.answered_command {q : Ask} (hq : q.Commands) (m : Option Layout) (s : σ) :
    q.answered f (m, s) = (f q s).map fun (a, s) => (a, (m, s)) := by
  cases q <;> first | rfl | exact hq.elim

theorem Ask.answered_abort (message : String) (s : Option Layout × σ) :
    (Ask.abort message).answered f s = none := by
  cases h : (Ask.abort message).answered f s with
  | none => rfl
  | some r => exact r.1.elim

namespace Clocked

theorem answered_now (hf : Clocked f clock) (m : Option Layout) (s : σ) :
    Ask.now.answered f (m, s) = some (clock s, (m, s)) := by
  simp [Ask.answered, hf.now s]

/-- A task that asks only what commands ask comes to its end, and the clock does not go back. -/
theorem play_ends (hf : Clocked f clock) {t : Task α} (ht : t.Only Ask.Commands)
    (m : Option Layout) (s : σ) : ∃ tr s' a, t.play f (m, s) = (tr, (m, s'), some a) ∧
      (clock s).nanos ≤ (clock s').nanos := by
  induction ht generalizing s with
  | done a => exact ⟨[], s, a, rfl, Nat.le_refl _⟩
  | @ask q next hq _ ih =>
    obtain ⟨a, s₁, ha, hle⟩ := hf.command q s hq
    obtain ⟨tr, s', b, hplay, hle'⟩ := ih a trivial s₁
    refine ⟨q.record a ++ tr, s', b, ?_, Nat.le_trans hle hle'⟩
    rw [Task.play, Ask.answered_command hq, ha]
    simp [hplay]

end Clocked

/-! ## Rounds -/

theorem Plan.isStable_iff {r : Result String} : isStable r = true ↔
    ∃ output, r = .ok output ∧ "start/running".toList <:+: output.toList := by
  cases r with
  | error e => simp [isStable]
  | ok output => simp [isStable, Text.contains, Text.containsChars_iff]

/-- One question for the status of the system services. -/
structure Round where
  /-- When it was begun. -/
  begun : Instant
  events : List Event
  /-- When it was answered, or had failed. -/
  ended : Instant
  answer : Result String

/-- The command that tells the status of the system services. -/
def Plan.status (p : Plan) : Task (Result String) :=
  p.link.runCommand "status" ["system-services"]

/-- The round is the question for the status that begins at `s`, and it ends at `s'`. -/
structure Round.From (f : Answers σ) (clock : σ → Instant) (p : Plan) (s : Option Layout × σ)
    (round : Round) (s' : Option Layout × σ) : Prop where
  play : p.status.play f s = (round.events, s', some round.answer)
  begun : round.begun = clock s.2
  ended : round.ended = clock s'.2
  le : round.begun.nanos ≤ round.ended.nanos

/-- The rounds of a wait that begins at `s`, with all that is asked, where the wait ends, and its
    result. -/
inductive Polls (f : Answers σ) (clock : σ → Instant) (p : Plan) (deadline : Instant) :
    Option Layout × σ → List Round → List Event → Option Layout × σ → Option (Result Unit) → Prop
  /-- The services run. -/
  | up {s s' : Option Layout × σ} {round : Round} : round.From f clock p s s' →
    Plan.isStable round.answer = true →
    Polls f clock p deadline s [round] round.events s' (some (.ok ()))
  /-- The next point to ask at lies behind the deadline. -/
  | late {s s' : Option Layout × σ} {round : Round} {next : Instant} : round.From f clock p s s' →
    Plan.isStable round.answer = false → round.ended.after? p.stabilizePoll = some next →
    deadline.nanos < next.nanos →
    Polls f clock p deadline s [round] (round.events ++ [⟨.now, round.ended⟩]) s'
      (some (.error p.notStable))
  /-- The clock cannot show the next point to ask at. -/
  | lost {s s' : Option Layout × σ} {round : Round} : round.From f clock p s s' →
    Plan.isStable round.answer = false → round.ended.after? p.stabilizePoll = none →
    Polls f clock p deadline s [round] (round.events ++ [⟨.now, round.ended⟩]) s' none
  /-- It is waited until the next point, and asked again. -/
  | again {s s' s'' t : Option Layout × σ} {round : Round} {rounds : List Round} {tr : List Event}
      {next : Instant} {o : Option (Result Unit)} : round.From f clock p s s' →
    Plan.isStable round.answer = false → round.ended.after? p.stabilizePoll = some next →
    next.nanos ≤ deadline.nanos → (Ask.sleep next).answered f s' = some ((), s'') →
    clock s''.2 = next → Polls f clock p deadline s'' rounds tr t o →
    Polls f clock p deadline s (round :: rounds)
      (round.events ++ ⟨.now, round.ended⟩ :: ⟨.sleep next, ()⟩ :: tr) t o

section
variable {p : Plan} {deadline next : Instant} {s s' : Option Layout × σ} {round : Round}

/-! ## One round -/

/-- Every question for the status is a round. -/
theorem Clocked.exists_round (hf : Clocked f clock) (p : Plan) (m : Option Layout) (s : σ) :
    ∃ (round : Round) (s' : σ), round.From f clock p (m, s) (m, s') := by
  have hcommands : p.status.Only Ask.Commands :=
    Link.asks_runCommand (fun _ h => h.commands) fun _ => trivial
  obtain ⟨tr, s', a, hplay, hle⟩ := hf.play_ends hcommands m s
  exact ⟨⟨clock s, tr, clock s', a⟩, s', hplay, rfl, rfl, hle⟩

/-- The deadline of a task, where the clock shows `clock s`. -/
theorem Clocked.deadline_play (hf : Clocked f clock) (d : Duration) (s : Option Layout × σ) :
    (Task.deadline d).play f s = ([⟨.now, clock s.2⟩], s, (clock s.2).after? d) := by
  rw [Task.deadline, Task.play_bind_some (Task.play_ask_some (hf.answered_now s.1 s.2))]
  cases (clock s.2).after? d with
  | none =>
    simp only
    rw [Task.play_bind_none (Task.play_ask_none (Ask.answered_abort _ _))]
    rfl
  | some t => rfl

theorem Plan.askStable_eq (p : Plan) (deadline : Instant) :
    p.askStable deadline = p.status >>= fun r =>
      if isStable r then pure (.ok none)
      else Task.deadline p.stabilizePoll >>= fun next =>
        pure (if deadline.nanos < next.nanos then .error p.notStable else .ok (some next)) := by
  rw [askStable]
  refine congrArg (p.status >>= ·) (funext fun r => ?_)
  split
  · rfl
  · refine congrArg (Task.deadline p.stabilizePoll >>= ·) (funext fun next => ?_)
    split <;> rfl

namespace Round.From

/-- After a round in which the services run there is no other. -/
theorem play_up (h : round.From f clock p s s') (hup : Plan.isStable round.answer = true) :
    (p.askStable deadline).play f s = (round.events, s', some (.ok none)) := by
  rw [Plan.askStable_eq, Task.play_bind_some h.play, hup]
  exact Prod.ext (List.append_nil _) rfl

/-- After any other round it is looked when to ask again. -/
theorem play_down (hf : Clocked f clock) (h : round.From f clock p s s')
    (hdown : Plan.isStable round.answer = false) (deadline : Instant) :
    (p.askStable deadline).play f s = (round.events ++ [⟨.now, round.ended⟩], s',
      (round.ended.after? p.stabilizePoll).map fun next =>
        if deadline.nanos < next.nanos then .error p.notStable else .ok (some next)) := by
  have hdue := hf.deadline_play p.stabilizePoll s'
  rw [← h.ended] at hdue
  rw [Plan.askStable_eq, Task.play_bind_some h.play, hdown, if_neg Bool.false_ne_true]
  cases hnext : round.ended.after? p.stabilizePoll with
  | none =>
    rw [hnext] at hdue
    rw [Task.play_bind_none hdue]
    rfl
  | some next =>
    rw [hnext] at hdue
    rw [Task.play_bind_some hdue]
    rfl

end Round.From

/-! ## All rounds -/

section
variable {left : Nat} {tr : List Event}

/-- A wait is over when the services run. -/
theorem Plan.pollStable_up (h : (p.askStable deadline).play f s = (tr, s', some (.ok none))) :
    (p.pollStable deadline left).play f s = (tr, s', some (.ok ())) := by
  cases left <;>
  · rw [pollStable, Task.play_andThen_ok h]
    exact Prod.ext (List.append_nil _) rfl

/-- It is over when there is no time to ask again. -/
theorem Plan.pollStable_error {e : Error}
    (h : (p.askStable deadline).play f s = (tr, s', some (.error e))) :
    (p.pollStable deadline left).play f s = (tr, s', some (.error e)) := by
  cases left <;> rw [pollStable, Task.play_andThen_error h]

theorem Plan.pollStable_none (h : (p.askStable deadline).play f s = (tr, s', none)) :
    (p.pollStable deadline left).play f s = (tr, s', none) := by
  cases left <;> rw [pollStable, Task.play_andThen_none h]

/-- Else it pauses, and goes on. -/
theorem Plan.pollStable_again {s'' : Option Layout × σ}
    (h : (p.askStable deadline).play f s = (tr, s', some (.ok (some next))))
    (hsleep : (Ask.sleep next).answered f s' = some ((), s'')) :
    (p.pollStable deadline (left + 1)).play f s =
      (tr ++ ⟨.sleep next, ()⟩ :: ((p.pollStable deadline left).play f s'').1,
        ((p.pollStable deadline left).play f s'').2) := by
  rw [pollStable, Task.play_andThen_ok h]
  simp only
  rw [Task.play_bind_some (Task.play_ask_some hsleep)]
  rfl

end

/-- After a round a wait is over, or the next point to ask at does not lie behind the deadline. -/
theorem Round.From.over_or_again (hf : Clocked f clock) (h : round.From f clock p s s')
    (deadline : Instant) :
    (∃ tr o, Polls f clock p deadline s [round] tr s' o ∧
      ∀ left, (p.pollStable deadline left).play f s = (tr, s', o)) ∨
    ∃ next, Plan.isStable round.answer = false ∧
      round.ended.after? p.stabilizePoll = some next ∧ next.nanos ≤ deadline.nanos ∧
      (p.askStable deadline).play f s =
        (round.events ++ [⟨.now, round.ended⟩], s', some (.ok (some next))) := by
  cases hanswer : Plan.isStable round.answer with
  | true => exact Or.inl ⟨_, _, .up h hanswer, fun _ => Plan.pollStable_up (h.play_up hanswer)⟩
  | false =>
    have hplay := h.play_down hf hanswer deadline
    cases hnext : round.ended.after? p.stabilizePoll with
    | none =>
      rw [hnext] at hplay
      exact Or.inl ⟨_, _, .lost h hanswer hnext, fun _ => Plan.pollStable_none hplay⟩
    | some next =>
      rw [hnext, Option.map_some] at hplay
      by_cases hlate : deadline.nanos < next.nanos
      · rw [if_pos hlate] at hplay
        exact Or.inl ⟨_, _, .late h hanswer hnext hlate, fun _ => Plan.pollStable_error hplay⟩
      · rw [if_neg hlate] at hplay
        exact Or.inr ⟨next, rfl, rfl, Nat.not_lt.1 hlate, hplay⟩

/-- The next point to ask at comes a pause after the round. -/
theorem Round.From.nanos_next (h : round.From f clock p s s')
    (hnext : round.ended.after? p.stabilizePoll = some next) :
    next.nanos = (clock s'.2).nanos + p.stabilizePoll.nanos := by
  rw [Instant.nanos_of_after? hnext, h.ended]

/-- The pause ends right at that point. -/
theorem Clocked.exists_pause (hf : Clocked f clock) {m : Option Layout} {t : σ} {d : Duration}
    (hnext : (clock t).after? d = some next) :
    ∃ t', (Ask.sleep next).answered f (m, t) = some ((), (m, t')) ∧ clock t' = next := by
  obtain ⟨t', hsleep, hclock⟩ := hf.sleep next t
  refine ⟨t', by simp [Ask.answered, hsleep], hclock.trans ?_⟩
  rw [Instant.later, Instant.nanos_of_after? hnext, Nat.max_eq_right (Nat.le_add_right _ _),
    ← Instant.nanos_of_after? hnext]

/-- Every round together with the pause after it takes this long at least. -/
def Plan.Ticks (f : Answers σ) (clock : σ → Instant) (p : Plan) (tick : Nat) : Prop :=
  ∀ ⦃round : Round⦄ ⦃s s' : Option Layout × σ⦄, round.From f clock p s s' →
    (clock s.2).nanos + tick ≤ (clock s'.2).nanos + p.stabilizePoll.nanos

/-- It takes as long as the pause alone. -/
theorem Plan.ticks_poll (f : Answers σ) (clock : σ → Instant) (p : Plan) :
    p.Ticks f clock p.stabilizePoll.nanos := by
  intro round s s' h
  have hle := h.le
  rw [h.begun, h.ended] at hle
  exact Nat.add_le_add_right hle _

/-- **A wait takes rounds, and as many as it may take are enough.** The induction is on how many
    may still begin before the deadline. -/
theorem Plan.pollStable_polls (hf : Clocked f clock) {p : Plan} {tick : Nat}
    (htick : p.Ticks f clock tick) (deadline : Instant) (left : Nat) (m : Option Layout) (s : σ)
    (hleft : deadline.nanos < (clock s).nanos + (left + 1) * tick) :
    ∃ rounds tr s' o, (p.pollStable deadline left).play f (m, s) = (tr, s', o) ∧
      Polls f clock p deadline (m, s) rounds tr s' o := by
  induction left generalizing s with
  | zero =>
    obtain ⟨round, s', hround⟩ := hf.exists_round p m s
    obtain ⟨tr, o, hpolls, hplay⟩ | ⟨next, -, hnext, hle, -⟩ := hround.over_or_again hf deadline
    · exact ⟨_, _, _, _, hplay 0, hpolls⟩
    · have hpause := htick hround
      have hsum := hround.nanos_next hnext
      simp only at hpause hsum
      omega
  | succ left ih =>
    obtain ⟨round, s', hround⟩ := hf.exists_round p m s
    obtain ⟨tr, o, hpolls, hplay⟩ | ⟨next, hanswer, hnext, hle, hplay⟩ :=
      hround.over_or_again hf deadline
    · exact ⟨_, _, _, _, hplay _, hpolls⟩
    · have hpause := htick hround
      have hsum := hround.nanos_next hnext
      obtain ⟨s'', hsleep, hclock⟩ := hf.exists_pause (m := m) (hround.ended ▸ hnext)
      have hless : deadline.nanos < (clock s'').nanos + (left + 1) * tick := by
        rw [Nat.add_mul _ 1, Nat.one_mul] at hleft
        rw [hclock]
        simp only at hpause hsum
        omega
      obtain ⟨rounds, tr, t, o, hrest, hpolls⟩ := ih s'' hless
      refine ⟨round :: rounds, _, t, o, ?_,
        .again hround hanswer hnext hle hsleep hclock hpolls⟩
      rw [Plan.pollStable_again hplay hsleep, hrest]
      simp

/-- **The wait takes rounds until it is over.** Without a pause between them the clock must go on
    during each of them, or there would be no end. -/
theorem Plan.waitForStabilize_polls (hf : Clocked f clock) {p : Plan}
    (htick : p.Ticks f clock (max 1 p.stabilizePoll.nanos)) {m : Option Layout} {s : σ}
    {deadline : Instant} (hdeadline : (clock s).after? p.stabilizeTimeout = some deadline) :
    ∃ rounds tr t o, p.waitForStabilize.play f (m, s) = (⟨.now, clock s⟩ :: tr, t, o) ∧
      Polls f clock p deadline (m, s) rounds tr t o := by
  have hdue := hf.deadline_play p.stabilizeTimeout (m, s)
  have hsum := Instant.nanos_of_after? hdeadline
  have hfits := Nat.lt_mul_div_succ p.stabilizeTimeout.nanos
    (Nat.lt_of_lt_of_le Nat.zero_lt_one (Nat.le_max_left 1 p.stabilizePoll.nanos))
  rw [Nat.mul_comm] at hfits
  obtain ⟨rounds, tr, t, o, hplay, hpolls⟩ := pollStable_polls hf htick deadline
    (p.stabilizeTimeout.nanos / max 1 p.stabilizePoll.nanos) m s (by omega)
  refine ⟨rounds, tr, t, o, ?_, hpolls⟩
  rw [hdeadline] at hdue
  rw [waitForStabilize, Task.play_bind_some hdue, hplay]
  rfl

namespace Polls

variable {rounds : List Round} {tr : List Event} {t : Option Layout × σ} {o : Option (Result Unit)}

/-- The first round begins where the wait does. -/
theorem ne_nil (h : Polls f clock p deadline s rounds tr t o) : rounds ≠ [] := by
  cases h <;> exact List.cons_ne_nil _ _

/-- No round begins behind the deadline. -/
theorem begun_le (h : Polls f clock p deadline s rounds tr t o)
    (hs : (clock s.2).nanos ≤ deadline.nanos) :
    ∀ round ∈ rounds, round.begun.nanos ≤ deadline.nanos := by
  induction h with
  | up h | late h | lost h =>
    rw [List.forall_mem_singleton, h.begun]
    exact hs
  | again h _ _ hle _ hclock _ ih =>
    rw [List.forall_mem_cons, h.begun]
    exact ⟨hs, ih (hclock ▸ hle)⟩

/-- All rounds but the first come a pause after the one before. -/
theorem length_le (h : Polls f clock p deadline s rounds tr t o)
    (hs : (clock s.2).nanos ≤ deadline.nanos) :
    (clock s.2).nanos + rounds.length * p.stabilizePoll.nanos ≤
      deadline.nanos + p.stabilizePoll.nanos := by
  induction h with
  | up | late | lost =>
    rw [List.length_singleton, Nat.one_mul]
    exact Nat.add_le_add_right hs _
  | again h _ hnext hle _ hclock _ ih =>
    have hpause := p.ticks_poll f clock h
    have hsum := h.nanos_next hnext
    have hrest := ih (hclock ▸ hle)
    rw [hclock] at hrest
    rw [List.length_cons, Nat.add_mul, Nat.one_mul]
    omega

/-- Only the last round can find the services running, and the wait succeeds if it does. -/
theorem result_iff (h : Polls f clock p deadline s rounds tr t o) :
    o = some (.ok ()) ↔ ∃ round ∈ rounds, Plan.isStable round.answer = true := by
  induction h with
  | up _ hanswer => simpa using hanswer
  | late _ hanswer => simp [hanswer]
  | lost _ hanswer => simp [hanswer]
  | again _ hanswer _ _ _ _ _ ih => simp [hanswer, ih]

theorem dropLast_down (h : Polls f clock p deadline s rounds tr t o) :
    ∀ round ∈ rounds.dropLast, Plan.isStable round.answer = false := by
  induction h with
  | up | late | lost => exact nofun
  | again _ hanswer _ _ _ _ hrest ih =>
    rw [List.dropLast_cons_of_ne_nil hrest.ne_nil, List.forall_mem_cons]
    exact ⟨hanswer, ih⟩

/-- Otherwise it fails, unless the clock cannot show the next point to ask at. -/
theorem result_cases (h : Polls f clock p deadline s rounds tr t o) :
    o = some (.ok ()) ∨ o = some (.error p.notStable) ∨
      o = none ∧ ∃ round ∈ rounds, round.ended.after? p.stabilizePoll = none := by
  induction h with
  | up => exact Or.inl rfl
  | late => exact Or.inr (Or.inl rfl)
  | lost _ _ hnext => exact Or.inr (Or.inr ⟨rfl, _, List.mem_singleton_self _, hnext⟩)
  | again _ _ _ _ _ _ _ ih =>
    refine ih.imp_right (Or.imp_right ?_)
    rintro ⟨rfl, round, hround, hnext⟩
    exact ⟨rfl, round, List.mem_cons_of_mem _ hround, hnext⟩

/-- The device is handed nothing but the question for the status, once a round at most. -/
theorem lines_sublist (h : Polls f clock p deadline s rounds tr t o) : (lines tr).Sublist
    (List.replicate rounds.length (Shell.commandLine "status" ["system-services"])) := by
  have hone {s s' : Option Layout × σ} {round : Round} (h : round.From f clock p s s') :
      (lines round.events).Sublist [Shell.commandLine "status" ["system-services"]] := by
    have hrun := p.status.run_play (f := f) s
    rw [h.play] at hrun
    obtain hnone | hone := Link.runCommand_lines hrun
    · rw [hnone]
      exact List.nil_sublist _
    · rw [hone]
  induction h with
  | up h => exact hone h
  | late h | lost h =>
    rw [lines_append]
    exact (List.append_nil _).symm ▸ hone h
  | again h _ _ _ _ _ _ ih =>
    rw [lines_append, List.length_cons, List.replicate_succ]
    exact (hone h).append ih

end Polls

/-- **The wait for the system services is bounded and exact**, whatever the device answers and
    however long that takes. It asks for their status at least once, and at most once more than the
    pause fits into the time limit, and never begins to after the deadline. It succeeds if and only
    if the status said that they run, and then that was the last time it asked; else it fails for
    the time that has passed. A status that is not told never ends it. What ends it without a result
    is a clock that cannot show the deadline, or the next point to ask at: the program panics when
    it adds these up. -/
theorem waitForStabilize_rounds (p : Plan) (hpoll : 0 < p.stabilizePoll.nanos)
    (hf : Clocked f clock) (m : Option Layout) (s : σ) :
    ((clock s).after? p.stabilizeTimeout = none ∧
      p.waitForStabilize.play f (m, s) = ([⟨.now, clock s⟩], (m, s), none)) ∨
    ∃ deadline rounds tr t o, (clock s).after? p.stabilizeTimeout = some deadline ∧
      p.waitForStabilize.play f (m, s) = (⟨.now, clock s⟩ :: tr, t, o) ∧
      Polls f clock p deadline (m, s) rounds tr t o ∧
      1 ≤ rounds.length ∧
      rounds.length ≤ p.stabilizeTimeout.nanos / p.stabilizePoll.nanos + 1 ∧
      (lines tr).Sublist
        (List.replicate rounds.length (Shell.commandLine "status" ["system-services"])) ∧
      (∀ round ∈ rounds, round.begun.nanos ≤ deadline.nanos) ∧
      (o = some (.ok ()) ↔ ∃ round ∈ rounds, ∃ output, round.answer = .ok output ∧
        "start/running".toList <:+: output.toList) ∧
      (∀ round ∈ rounds.dropLast, ∀ output, round.answer = .ok output →
        ¬"start/running".toList <:+: output.toList) ∧
      (o = some (.ok ()) ∨
        o = some (.error (.validation ("system services did not start within " ++
          p.stabilizeTimeout.text))) ∨
        o = none ∧ ∃ round ∈ rounds, round.ended.after? p.stabilizePoll = none) := by
  cases hdeadline : (clock s).after? p.stabilizeTimeout with
  | none =>
    have hdue := hf.deadline_play p.stabilizeTimeout (m, s)
    rw [hdeadline] at hdue
    refine Or.inl ⟨rfl, ?_⟩
    rw [Plan.waitForStabilize, Task.play_bind_none hdue]
  | some deadline =>
    have hsum := Instant.nanos_of_after? hdeadline
    have htick := p.ticks_poll f clock
    rw [← Nat.max_eq_right (Nat.succ_le_of_lt hpoll)] at htick
    obtain ⟨rounds, tr, t, o, hplay, hpolls⟩ :=
      Plan.waitForStabilize_polls (m := m) hf htick hdeadline
    refine Or.inr ⟨deadline, rounds, tr, t, o, rfl, hplay, hpolls,
      List.length_pos_of_ne_nil hpolls.ne_nil, ?_, hpolls.lines_sublist,
      hpolls.begun_le (by simp only; omega), ?_, fun round hround output hanswer hup => ?_,
      hpolls.result_cases⟩
    · have hlength := hpolls.length_le (by simp only; omega)
      rw [← Nat.add_div_right _ hpoll, Nat.le_div_iff_mul_le hpoll]
      simp only at hlength
      omega
    · simp only [hpolls.result_iff, Plan.isStable_iff]
    · exact Bool.false_ne_true ((hpolls.dropLast_down round hround).symm.trans
        (Plan.isStable_iff.2 ⟨output, hanswer, hup⟩))

/-- A device on a link that stays up, of which it is known beforehand how long each command takes
    and how it ends. What comes after these is lost at once. -/
def foreseen (c : Connection) : Answers (Instant × List (Duration × Result Finished))
  | .now, s => some (s.1, s)
  | .sleep t, s => some ((), (s.1.later t, s.2))
  | .isClosed, s => some (false, s)
  | .current, s => some (some c, s)
  | .install _, s => some (true, s)
  | .dial, s => some (.ok c, s)
  | .acquire, s | .release, s | .disconnect _, s => some ((), s)
  | .run .., (t, []) => some (.error (.transport "lost"), (t, []))
  | .run .., (t, (d, r) :: rest) => some (r, (t.plus d, rest))
  | _, _ => none

theorem clocked_foreseen (c : Connection) : Clocked (foreseen c) Prod.fst where
  now _ := rfl
  sleep t s := ⟨(s.1.later t, s.2), rfl, rfl⟩
  command q s hq := by
    obtain ⟨t, rest⟩ := s
    cases q with
    | run =>
      match rest with
      | [] => exact ⟨_, _, rfl, Nat.le_refl _⟩
      | (d, r) :: rest => exact ⟨_, _, rfl, Nat.le_add_right _ _⟩
    | isClosed | current | install | dial | acquire | release | disconnect =>
      exact ⟨_, _, rfl, Nat.le_refl _⟩
    | _ => exact hq.elim

/-- A plan to ask for at most four seconds, every other second. -/
def patient : Plan :=
  { link := { dut := "dut1" }, request := default
    stabilizeTimeout := .ofSecs 4, stabilizePoll := .ofSecs 2 }

/-- The first command is lost, at the second the services are still down, and the third, which is
    begun right at the deadline, finds them running. -/
def coming : List (Duration × Result Finished) :=
  [(⟨0⟩, .error (.transport "lost")),
    (⟨0⟩, .ok { stdout := Text.Utf8.ofString "system-services stop/waiting\n" }),
    (.ofSecs 1, .ok { stdout := Text.Utf8.ofString "system-services start/running\n" })]

theorem waitForStabilize_rounds_coming : 0 < patient.stabilizePoll.nanos ∧
    Clocked (foreseen ⟨1, "dut1"⟩) Prod.fst ∧ ∃ rounds tr t,
      patient.waitForStabilize.play (foreseen ⟨1, "dut1"⟩) (none, ⟨0⟩, coming) =
        (⟨.now, ⟨0⟩⟩ :: tr, t, some (.ok ())) ∧
      rounds.length ≤ 3 ∧
      Polls (foreseen ⟨1, "dut1"⟩) Prod.fst patient ⟨4000000000⟩ (none, ⟨0⟩, coming) rounds tr t
        (some (.ok ())) ∧
      ∃ round ∈ rounds, ∃ output, round.answer = .ok output ∧
        "start/running".toList <:+: output.toList := by
  have hresult : (patient.waitForStabilize.play (foreseen ⟨1, "dut1"⟩)
      (none, ⟨0⟩, coming)).2.2.bind Except.toOption = some () := by decide +kernel
  refine ⟨by decide, clocked_foreseen _, ?_⟩
  obtain ⟨hdeadline, -⟩ | ⟨deadline, rounds, tr, t, o, hdeadline, hplay, hpolls, -, hlength, -, -,
    hup, -⟩ := waitForStabilize_rounds patient (by decide) (clocked_foreseen ⟨1, "dut1"⟩) none
      (⟨0⟩, coming)
  · cases hdeadline
  · cases hdeadline
    rw [hplay] at hresult
    obtain ⟨r, rfl, hr⟩ := Option.bind_eq_some_iff.1 hresult
    cases r with
    | error e => cases hr
    | ok => exact ⟨rounds, tr, t, hplay, hlength, hpolls, hup.1 rfl⟩

end

end Reimage
