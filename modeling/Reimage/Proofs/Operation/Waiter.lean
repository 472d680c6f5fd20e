/-
  Waiting for operations, while other tasks call on their registry.

  A call that ends an operation or closes the registry changes it under the lock, gives the lock
  back, and notifies the waiters in a step of its own. A waiter subscribes in one step and looks at
  its operation in the next; once it has found the operation pending it counts as asleep. All these
  steps may come in any order.

  * `Watch.Sound`: what every step preserves. A waiter sleeps only on an operation without a result,
    unless it has a notification to come;
  * `Watch.Runs.vigilant`: so no notification is lost, and what waiters return is what was recorded.
-/
import Mathlib.Logic.Function.Basic
import Reimage.Proofs.Operation.Registry
import Reimage.Proofs.Steps

namespace Reimage

open Registry (Answered Cause Closed Recalls given recorded)

/-- A task that waits: for which operation, until when, and how far it is. -/
structure Waiting where
  name : String
  deadline : Instant
  state : Waiter

/-- A registry, the notifications that calls are about to give, the clock, and the tasks that
    wait. -/
structure Watch where
  registry : Registry := {}
  owed : List Cause := []
  clock : Instant := ⟨0⟩
  waiting : Nat → Option Waiting := fun _ => none

namespace Watch

/-! ## Steps -/

/-- One step of a call, of a waiter or of the clock. -/
inductive Move
  /-- A call does its part under the lock. -/
  | call (e : Answered)
  /-- A call that has given the lock back notifies the waiters. -/
  | notify (c : Cause)
  /-- Task `i` begins to wait. -/
  | begins (i : Nat) (name : String) (deadline : Instant)
  /-- Task `i` takes its next step. -/
  | goes (i : Nat)
  /-- Task `i` is woken by its deadline, even if it was notified as well. -/
  | expires (i : Nat)
  | tick (now : Instant)

/-- Task `i` goes on as `w`. -/
def put (s : Watch) (i : Nat) (w : Waiting) : Watch :=
  { s with waiting := Function.update s.waiting i (some w) }

/-- The deadline has passed. -/
def Late (s : Watch) (deadline : Instant) : Prop := deadline.nanos ≤ s.clock.nanos

instance (s : Watch) (deadline : Instant) : Decidable (s.Late deadline) :=
  inferInstanceAs (Decidable (_ ≤ _))

/-- The state of a waiter after its next step. -/
def next (s : Watch) (w : Waiting) : Waiter :=
  w.state.step s.registry w.name (decide (s.Late w.deadline))

/-- What a step changes. -/
inductive Step (s : Watch) : Move → Watch → Prop
  | call {c : Registry.Call} {a : c.Answer} {r : Registry} : c.locked s.registry = some (r, a) →
    Step s (.call ⟨c, a⟩)
      { s with registry := r, owed := s.owed ++ (Answered.cause? ⟨c, a⟩).toList }
  | notify {c : Cause} : c ∈ s.owed →
    Step s (.notify c) { s with registry := s.registry.notify, owed := s.owed.erase c }
  | begins {i : Nat} {name : String} {deadline : Instant} : s.waiting i = none →
    Step s (.begins i name deadline) (s.put i ⟨name, deadline, .start⟩)
  | goes {i : Nat} {w : Waiting} : s.waiting i = some w →
    Step s (.goes i) (s.put i { w with state := s.next w })
  | expires {i : Nat} {w : Waiting} {seen : Nat} : s.waiting i = some w →
    w.state = .asleep seen → s.Late w.deadline →
    Step s (.expires i) (s.put i { w with state := .expired })
  | tick {now : Instant} : s.clock.nanos ≤ now.nanos → Step s (.tick now) { s with clock := now }

/-- Any number of steps. -/
abbrev Runs : Watch → List Move → Watch → Prop := Steps Step

/-- The calls among the steps. -/
def calls (tr : List Move) : List Answered := tr.filterMap fun
  | .call e => some e
  | _ => none

/-! ## What is claimed of a waiter -/

/-- A waiter that subscribed at `seen` has a notification to come: one was given since then, or a
    call that has ended its operation or closed the registry gives one with its next step. -/
def Pending (s : Watch) (name : String) (seen : Nat) : Prop :=
  seen < s.registry.notified ∨ ∃ c ∈ s.owed, c.Concerns name

/-- With its next step, after the history `tr`, the waiter `w` reads `answer` and returns it. -/
structure LastRead (tr : List Move) (s : Watch) (w : Waiting) (answer : Result Operation) :
    Prop where
  next : s.next w = .returned answer
  read : s.registry.get w.name = answer
  /-- A pending operation is returned at the deadline only, and only if it has no result. -/
  pending : ∀ op, answer = .ok op → op.done = false →
    w.state = .expired ∧ s.Late w.deadline ∧ w.name ∉ (recorded (calls tr)).map Prod.fst
  /-- An operation that is done is returned with the result that was recorded. -/
  done : ∀ op, answer = .ok op → op.done = true → ∃ result,
    op = ⟨w.name, true, some result⟩ ∧ (w.name, result) ∈ recorded (calls tr)
  /-- An operation is missed only if it was not registered or the registry was closed. -/
  missing : ∀ e, answer = .error e →
    e = Registry.notFound w.name ∧ (w.name ∉ given (calls tr) ∨ Closed (calls tr))

/-- What the steps so far preserve of the waiter `w`. -/
def Fits (tr : List Move) (s : Watch) (i : Nat) (w : Waiting) : Prop :=
  match w.state with
  | .start => True
  | .subscribed seen => seen ≤ s.registry.notified
  | .asleep seen =>
    seen ≤ s.registry.notified ∧ (s.Pending w.name seen ∨ s.registry.Awaits w.name)
  | .expired => s.Late w.deadline
  | .returned answer => ∃ u v t w', tr = u ++ .goes i :: v ∧ Runs {} u t ∧ t.waiting i = some w' ∧
    w'.name = w.name ∧ w'.deadline = w.deadline ∧ t.LastRead u w' answer

/-- What every step preserves. -/
structure Sound (tr : List Move) (s : Watch) : Prop where
  recalls : Recalls (calls tr) s.registry
  fits : ∀ i w, s.waiting i = some w → s.Fits tr i w

section

variable {tr : List Move} {s s' : Watch} {i : Nat} {w : Waiting} {m : Move}

theorem waiting_put_self : (s.put i w).waiting i = some w := Function.update_self ..

theorem waiting_put_of_ne {j : Nat} (h : j ≠ i) : (s.put i w).waiting j = s.waiting j :=
  Function.update_of_ne h _ _

theorem calls_snoc_call (e : Answered) : calls (tr ++ [.call e]) = calls tr ++ [e] := by
  simp [calls]

theorem calls_snoc (h : ∀ e, m ≠ .call e) : calls (tr ++ [m]) = calls tr := by
  rw [calls, List.filterMap_append]
  cases m with
  | call e => exact absurd rfl (h e)
  | _ => exact List.append_nil _

/-- What is claimed of a waiter stays true while others go on. -/
theorem Fits.mono (h : s.Fits tr i w) (hn : s.registry.notified ≤ s'.registry.notified)
    (hp : ∀ seen ≤ s.registry.notified, s.Pending w.name seen ∨ s.registry.Awaits w.name →
      s'.Pending w.name seen ∨ s'.registry.Awaits w.name)
    (hc : s.clock.nanos ≤ s'.clock.nanos) : s'.Fits (tr ++ [m]) i w := by
  unfold Fits at h ⊢
  cases hw : w.state with
  | start => trivial
  | subscribed seen =>
    rw [hw] at h
    exact Nat.le_trans h hn
  | asleep seen =>
    rw [hw] at h
    exact ⟨Nat.le_trans h.1 hn, hp seen h.1 h.2⟩
  | expired =>
    rw [hw] at h
    exact Nat.le_trans h hc
  | returned answer =>
    rw [hw] at h
    obtain ⟨u, v, t, w', rfl, h⟩ := h
    exact ⟨u, v ++ [m], t, w', by simp, h⟩

/-- What a waiter returns is what the history tells. -/
theorem lastRead_get (hr : Recalls (calls tr) s.registry)
    (hnext : s.next w = .returned (s.registry.get w.name))
    (hlate : ∀ op, s.registry.get w.name = .ok op → op.done = false →
      w.state = .expired ∧ s.Late w.deadline) :
    s.LastRead tr w (s.registry.get w.name) where
  next := hnext
  read := rfl
  pending op hop hd :=
    ⟨(hlate op hop hd).1, (hlate op hop hd).2, (hr.awaits_iff.1 ⟨op, hop, hd⟩).2.2⟩
  done op hop hd := by
    obtain ⟨-, -, rfl⟩ := hr.get_ok hop
    obtain ⟨result, hmem, -⟩ := Registry.mem_recorded_of_done hd
    exact ⟨result, Registry.told_of_mem hr.nodup_recorded hmem, hmem⟩
  missing _ he := hr.get_error he

/-- The step of a waiter. -/
theorem Sound.fits_next (h : Sound tr s) (hrun : Runs {} tr s) (hw : s.waiting i = some w) :
    s.Fits (tr ++ [.goes i]) i { w with state := s.next w } := by
  have hfits := h.fits i w hw
  -- A step that returns what it reads is the last step of the waiter.
  have hreturn (hnext : s.next w = .returned (s.registry.get w.name))
      (hlate : ∀ op, s.registry.get w.name = .ok op → op.done = false →
        w.state = .expired ∧ s.Late w.deadline) :
      s.Fits (tr ++ [.goes i]) i { w with state := s.next w } := by
    rw [hnext]
    exact ⟨tr, [], s, w, rfl, hrun, hw, rfl, rfl, lastRead_get h.recalls hnext hlate⟩
  unfold Fits at hfits
  cases hstate : w.state with
  | start =>
    have hnext : s.next w = .subscribed s.registry.notified := by rw [next, hstate, Waiter.step]
    rw [hnext]
    exact Nat.le_refl _
  | subscribed seen =>
    rw [hstate] at hfits
    cases hget : s.registry.get w.name with
    | error e =>
      refine hreturn ?_ fun op hop => ?_
      · rw [next, hstate, Waiter.step, hget]
      · rw [hget] at hop
        cases hop
    | ok op =>
      cases hd : op.done
      · have hnext : s.next w = .asleep seen := by
          rw [next, hstate, Waiter.step, hget]
          exact if_neg (by simp [hd])
        rw [hnext]
        exact ⟨hfits, .inr ⟨op, hget, hd⟩⟩
      · refine hreturn ?_ fun op' hop hd' => ?_
        · rw [next, hstate, Waiter.step, hget]
          exact if_pos hd
        · rw [hget] at hop
          cases hop
          simp [hd] at hd'
  | asleep seen =>
    rw [hstate] at hfits
    rw [next, hstate, Waiter.step]
    split
    · trivial
    · split
      · rename_i hlate
        exact show s.Late w.deadline from of_decide_eq_true hlate
      · exact hfits
  | expired =>
    rw [hstate] at hfits
    refine hreturn ?_ fun _ _ _ => ⟨hstate, hfits⟩
    rw [next, hstate, Waiter.step]
  | returned answer =>
    rw [hstate] at hfits
    obtain ⟨u, v, t, w', rfl, hread⟩ := hfits
    have hnext : s.next w = .returned answer := by rw [next, hstate, Waiter.step]
    rw [hnext]
    exact ⟨u, v ++ [.goes i], t, w', by simp, hread⟩

/-- A call that ends an operation or closes the registry owes its waiters a notification. -/
theorem Sound.call (h : Sound tr s) {c : Registry.Call} {a : c.Answer} {r : Registry}
    (hc : c.locked s.registry = some (r, a)) : Sound (tr ++ [.call ⟨c, a⟩])
      { s with registry := r, owed := s.owed ++ (Answered.cause? ⟨c, a⟩).toList } := by
  have hrecalls : Recalls (calls (tr ++ [.call ⟨c, a⟩])) r := by
    rw [calls_snoc_call]
    exact h.recalls.call hc
  refine ⟨hrecalls, fun i w hw => (h.fits i w hw).mono ?_ ?_ (Nat.le_refl _)⟩
  · exact Nat.le_of_eq (Registry.Call.notified_eq hc).symm
  · rintro seen - ((hseen | ⟨cause, hmem, hcause⟩) | hawaits)
    · exact .inl (.inl (Nat.lt_of_lt_of_eq hseen (Registry.Call.notified_eq hc).symm))
    · exact .inl (.inr ⟨cause, List.mem_append_left _ hmem, hcause⟩)
    · by_cases hcon : ∃ cause, Answered.cause? ⟨c, a⟩ = some cause ∧ cause.Concerns w.name
      · obtain ⟨cause, hcause, hcon⟩ := hcon
        exact .inl (.inr ⟨cause, List.mem_append_right _ (by simp [hcause]), hcon⟩)
      · rw [calls_snoc_call] at hrecalls
        exact .inr (h.recalls.awaits_snoc hrecalls hawaits fun cause hcause hconcerns =>
          hcon ⟨cause, hcause, hconcerns⟩)

theorem Sound.step (h : Sound tr s) (hrun : Runs {} tr s) (hs : s.Step m s') :
    Sound (tr ++ [m]) s' := by
  -- What one waiter does is nothing to the others.
  have hput {i w} (hm : ∀ e, m ≠ .call e) (hw : s.Fits (tr ++ [m]) i w) :
      Sound (tr ++ [m]) (s.put i w) := by
    refine ⟨by rw [calls_snoc hm]; exact h.recalls, fun j w' hw' => ?_⟩
    by_cases hj : j = i
    · subst hj
      rw [waiting_put_self, Option.some_inj] at hw'
      exact hw' ▸ hw
    · rw [waiting_put_of_ne hj] at hw'
      exact (h.fits j w' hw').mono (Nat.le_refl _) (fun _ _ => id) (Nat.le_refl _)
  cases hs with
  | call hc => exact h.call hc
  | notify hc =>
    refine ⟨by rw [calls_snoc (m := .notify _) fun _ => nofun]; exact h.recalls.notify,
      fun i w hw => ?_⟩
    refine (h.fits i w hw).mono (Nat.le_succ _) (fun seen hseen _ => ?_) (Nat.le_refl _)
    exact .inl (.inl (Nat.lt_succ_of_le hseen))
  | begins => exact hput (fun _ => nofun) trivial
  | goes hw => exact hput (fun _ => nofun) (h.fits_next hrun hw)
  | expires _ _ hlate => exact hput (fun _ => nofun) hlate
  | tick hle =>
    refine ⟨by rw [calls_snoc (m := .tick _) fun _ => nofun]; exact h.recalls, fun i w hw => ?_⟩
    exact (h.fits i w hw).mono (Nat.le_refl _) (fun _ _ => id) hle

theorem Runs.sound (h : Runs {} tr s) : Sound tr s := by
  exact h.induct ⟨.start, nofun⟩ fun hrun hsound hs => hsound.step hrun hs

/-! ## The law of waiting -/

/-- What holds of a registry and those that wait, after the history `tr`. -/
structure Law (tr : List Move) (s : Watch) : Prop where
  /-- **No notification is lost.** A waiter that sleeps, with no notification to come, waits for an
      operation that is registered and has no result. -/
  sleeps : ∀ i w seen, s.waiting i = some w → w.state = .asleep seen →
    ¬s.Pending w.name seen → s.registry.Awaits w.name
  /-- A call that owes a notification may give it at once, and then no waiter sleeps that does not
      have it. -/
  delivers : ∀ c ∈ s.owed, ∃ s', s.Step (.notify c) s' ∧
    ∀ i w seen, s'.waiting i = some w → w.state = .asleep seen → seen < s'.registry.notified
  /-- A waiter that was notified, or whose deadline has passed, returns what there is, if that is
      not an operation without a result. -/
  wakes : ∀ i w seen, s.waiting i = some w → w.state = .asleep seen →
    seen < s.registry.notified ∨ s.Late w.deadline → ¬s.registry.Awaits w.name →
    w.state.settle s.registry w.name (decide (s.Late w.deadline)) =
      .returned (s.registry.get w.name)
  /-- What a waiter has returned it has read with its last step. -/
  returns : ∀ i w answer, s.waiting i = some w → w.state = .returned answer →
    ∃ u v t w', tr = u ++ .goes i :: v ∧ Runs {} u t ∧ t.waiting i = some w' ∧
      w'.name = w.name ∧ w'.deadline = w.deadline ∧ t.LastRead u w' answer

theorem settle_asleep {r : Registry} {name : String} {late : Bool} {seen : Nat}
    (h : seen < r.notified ∨ late = true) (ha : ¬r.Awaits name) :
    (Waiter.asleep seen).settle r name late = .returned (r.get name) := by
  have hread : (Waiter.subscribed r.notified).step r name late = .returned (r.get name) := by
    rw [Waiter.step]
    cases hget : r.get name with
    | error e => rfl
    | ok op =>
      cases hd : op.done
      · exact absurd ⟨op, hget, hd⟩ ha
      · exact if_pos hd
  have hstart : Waiter.start.step r name late = .subscribed r.notified := rfl
  have hexpired : Waiter.expired.step r name late = .returned (r.get name) := rfl
  have hreturned (a) : (Waiter.returned a).step r name late = .returned a := rfl
  by_cases hseen : seen < r.notified
  · have hwoken : (Waiter.asleep seen).step r name late = .start := if_pos hseen
    simp only [Waiter.settle, Nat.repeat, hwoken, hstart, hread, hreturned]
  · have hwoken : (Waiter.asleep seen).step r name late = .expired :=
      (if_neg hseen).trans (if_pos (h.resolve_left hseen))
    simp only [Waiter.settle, Nat.repeat, hwoken, hexpired, hreturned]

/-- **Waiting keeps the law.** -/
theorem Runs.vigilant (h : Runs {} tr s) : Law tr s where
  sleeps i w seen hw hstate hp := by
    have hfits := h.sound.fits i w hw
    rw [Fits, hstate] at hfits
    exact hfits.2.resolve_left hp
  delivers c hc := by
    refine ⟨_, .notify hc, fun i w seen hw hstate => ?_⟩
    have hfits := h.sound.fits i w hw
    rw [Fits, hstate] at hfits
    exact Nat.lt_succ_of_le hfits.1
  wakes i w seen _ hstate hwoken ha := by
    rw [hstate]
    exact settle_asleep (hwoken.imp_right decide_eq_true) ha
  returns i w answer hw hstate := by
    have hfits := h.sound.fits i w hw
    rw [Fits, hstate] at hfits
    exact hfits

/-- A result is recorded after the waiter has looked. The deadline passes before the waiter is
    notified, and wakes it. -/
theorem Runs.vigilant_late : ∃ tr s w, Runs {} tr s ∧ Law tr s ∧ s.waiting 0 = some w ∧
    w.state = .returned (.ok ⟨"operations/a", true, some (.ok .cache)⟩) ∧
    s.owed = [.ended "operations/a"] := by
  have h₀ : Runs {} [] {} := .nil _
  have h₁ := h₀.snoc (.call (c := .register ["operations/a"]) rfl)
  have h₂ := h₁.snoc (m := .begins 0 "operations/a" ⟨5⟩) (.begins rfl)
  have h₃ := (h₂.snoc (m := .goes 0) (.goes rfl)).snoc (m := .goes 0) (.goes rfl)
  have h₄ := h₃.snoc (.call (c := .setResult "operations/a" (.ok .cache)) rfl)
  have h₅ := h₄.snoc (m := .tick ⟨5⟩) (.tick (by decide))
  have h₆ := h₅.snoc (m := .expires 0) (.expires rfl rfl (by decide))
  have h₇ := h₆.snoc (m := .goes 0) (.goes rfl)
  exact ⟨_, _, _, h₇, Runs.vigilant h₇, rfl, rfl, rfl⟩

end

end Watch

end Reimage
