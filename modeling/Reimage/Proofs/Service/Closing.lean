/-
  Closing a service while calls begin background work.

  A closing call takes the tasks that are remembered and aborts them. A call that comes later cannot
  register its operation. In between a task can be missed: its operation was registered before the
  registry was closed, and it was remembered after the tasks were taken.

  * `Calls.Runs.closing`: that is the only way in which a task is left behind;
  * `Calls.left_behind`: there is a run in which one is.
-/
import Reimage.Proofs.Operation.Registry
import Reimage.Proofs.Service.Jobs

namespace Reimage

/-- The operation that a job is for. -/
def Job.operation? : Job → Option String
  | .startDaemon _ => none
  | .restart op _ _ | .cache op _ | .reconnect op => some op

namespace Service

open Link (Move own)

/-! ## Histories of calls -/

theorem run_dropAll {is : List Nat} {tr : List Event} (h : (dropAll is).Run tr (some ())) :
    tr = is.map fun i => ⟨.drop i, ()⟩ := by
  induction is generalizing tr with
  | nil => exact (Program.run_pure_some.1 h).1
  | cons i is ih =>
    obtain ⟨_, u, rfl, hrest⟩ := Task.run_ask_bind_some.1 h
    rw [ih hrest]
    rfl

/-- Closing takes the tasks, aborts each, and then closes the registry. -/
theorem Use.run_close {s : Service} {tr : List Event} {r : Reply}
    (h : (Use.close.task s).Run tr (some r)) : ∃ is rest,
      tr = ⟨.takeTracked, is⟩ :: ((is.map fun i => ⟨.drop i, ()⟩) ++ ⟨.closeRegistry, ()⟩ :: rest) ∧
      ∀ e ∈ rest, e.question.Works := by
  obtain ⟨_, hclose, -⟩ := Program.run_bind_pure_some.1 h
  obtain ⟨is, u, rfl, hdrops⟩ := Task.run_ask_bind_some.1 hclose
  obtain ⟨v, _, w, rfl, hdrop, hcloses⟩ := Program.run_bind_some.1 hdrops
  obtain ⟨_, rest, rfl, hrest⟩ := Task.run_ask_bind_some.1 hcloses
  rw [run_dropAll hdrop]
  exact ⟨is, rest, rfl, Task.Only.of_run Link.works_close hrest⟩

/-- Closing takes tasks, aborts those and closes the registry. All else that it asks is work. -/
theorem Use.mem_run_close {s : Service} {tr : List Event} {r : Reply}
    (h : (Use.close.task s).Run tr (some r)) {e : Event} (he : e ∈ tr) (hp : ¬e.question.Works) :
    ∃ is, (∀ i ∈ is, ⟨.drop i, ()⟩ ∈ tr) ∧
      (e = ⟨.takeTracked, is⟩ ∨ (∃ i ∈ is, e = ⟨.drop i, ()⟩) ∨ e = ⟨.closeRegistry, ()⟩) := by
  obtain ⟨is, rest, rfl, hrest⟩ := Use.run_close h
  refine ⟨is, fun i hi => ?_, ?_⟩
  · exact List.mem_cons_of_mem _ (List.mem_append_left _ (List.mem_map.2 ⟨i, hi, rfl⟩))
  · simp only [List.mem_cons, List.mem_append, List.mem_map] at he
    obtain rfl | ⟨i, hi, rfl⟩ | rfl | he := he
    · exact .inl rfl
    · exact .inr (.inl ⟨i, hi, rfl⟩)
    · exact .inr (.inr rfl)
    · exact absurd (hrest e he) hp

/-- A call that begins background work is refused, or registers an operation, starts its task and
    remembers the task. -/
theorem run_launch {job : String → Job} {tr : List Event} {r : Result Operation}
    (h : (launch job).Run tr (some r)) :
    (∃ e, tr = [⟨.register, .error e⟩] ∧ r = .error e) ∨
    ∃ op i, tr = [⟨.register, .ok op⟩, ⟨.spawn (job op.name), i⟩, ⟨.track i, ()⟩] ∧ r = .ok op := by
  obtain ⟨h, -⟩ | ⟨e, h, hr⟩ | ⟨u, op, v, rfl, h, h'⟩ := Task.run_andThen.1 h
  · cases h
  · rw [Task.run_ask_some.1 h]
    exact .inl ⟨e, rfl, (Option.some.inj (hr.resolve_left nofun))⟩
  · rw [Task.run_ask_some.1 h]
    obtain ⟨i, w, rfl, htrack⟩ := Task.run_ask_bind_some.1 h'
    obtain ⟨_, x, rfl, hend⟩ := Task.run_ask_bind_some.1 htrack
    obtain ⟨rfl, rfl⟩ := Program.run_pure_some.1 hend
    exact .inr ⟨op, i, rfl, rfl⟩

/-- The history of a call that has returned, unless it closes the service. -/
theorem Use.run_task {s : Service} {u : Use} (hu : u ≠ .close) {tr : List Event} {r : Reply}
    (h : (u.task s).Run tr (some r)) :
    (∃ e, r = .started (.error e) ∧ (tr = [] ∨ tr = [⟨.register, .error e⟩])) ∨
    ∃ op job i, r = .started (.ok op) ∧ job.operation? = some op.name ∧
      tr = [⟨.register, .ok op⟩, ⟨.spawn job, i⟩, ⟨.track i, ()⟩] := by
  have hlaunch {job : String → Job} {tr : List Event}
      (h : (launch job >>= fun op => pure (Reply.started op) : Task Reply).Run tr (some r))
      (hjob : ∀ op, (job op).operation? = some op) :
      (∃ e, r = .started (.error e) ∧ (tr = [] ∨ tr = [⟨.register, .error e⟩])) ∨
      ∃ op job i, r = .started (.ok op) ∧ job.operation? = some op.name ∧
        tr = [⟨.register, .ok op⟩, ⟨.spawn job, i⟩, ⟨.track i, ()⟩] := by
    obtain ⟨_, hlaunch, rfl⟩ := Program.run_bind_pure_some.1 h
    obtain ⟨e, rfl, rfl⟩ | ⟨op, i, rfl, rfl⟩ := run_launch hlaunch
    · exact .inl ⟨e, rfl, .inr rfl⟩
    · exact .inr ⟨op, _, i, rfl, hjob op.name, rfl⟩
  cases u with
  | close => exact absurd rfl hu
  | restart args => exact hlaunch h fun _ => rfl
  | reconnect => exact hlaunch h fun _ => rfl
  | cache source destination =>
    rw [Use.task, Service.cache] at h
    split at h
    · rename_i e _
      obtain ⟨rfl, rfl⟩ := Program.run_pure_some.1 h
      exact .inl ⟨e, rfl, .inl rfl⟩
    · exact hlaunch h fun _ => rfl

namespace Calls

/-! ## What stays -/

theorem pair_sublist {α : Type} {a b : α} {u v : List α} (h : a ∈ u) :
    [a, b].Sublist (u ++ b :: v) :=
  (List.singleton_sublist.2 h).append (List.cons_sublist_cons.2 (List.nil_sublist v))

section

variable {l : Link} {s s' : Calls} {m : Move} {tr : List Move} {i n : Nat}

/-- A task that has ended stays ended. -/
theorem Step.ended (h : Step l s m s') (hs : s.ended i = true) : s'.ended i = true := by
  have hm : m.caller ≠ i := by
    rintro rfl
    cases h with
    | does hq _ _ => simp [Calls.ended, Link.Move.caller, hq] at hs
  have hi : s.tasks i ≠ none := fun hi => by simp [Calls.ended, hi] at hs
  rwa [Calls.ended, h.tasks_of_ne hm hi]

/-- What is forgotten of a service: nothing of its closing, no task that was aborted, and no task
    that is remembered, unless it has ended or was taken. -/
structure Keeps (s : Calls) (m : Move) (s' : Calls) : Prop where
  closed : s.registry.closed = true → s'.registry.closed = true
  aborted : s.aborted ⊆ s'.aborted
  tracked : ∀ n ∈ s.tracked, n ∈ s'.tracked ∨ s.ended n = true ∨
    ∃ k is, m = .does k ⟨.takeTracked, is⟩ ∧ n ∈ is

theorem Keeps.refl (s : Calls) (m : Move) : Keeps s m s :=
  ⟨id, fun _ => id, fun _ => .inl⟩

theorem Step.keeps (h : Step l s m s') : Keeps s m s' := by
  cases h with
  | @does i q f a t _ _ hserves =>
    suffices h : Keeps s (.does i ⟨q, a⟩) t from ⟨h.closed, h.aborted, h.tracked⟩
    cases q with
    | register =>
      obtain ⟨candidates, r, hr, rfl⟩ := hserves
      refine ⟨fun hc => ?_, fun _ => id, fun _ => .inl⟩
      obtain ⟨-, rfl, -⟩ | ⟨hopen, -⟩ := Registry.register_cases hr
      · exact hc
      · simp [hc] at hopen
    | setResult op result =>
      obtain ⟨-, rfl⟩ := hserves
      exact ⟨fun hc => (Registry.closed_setResult ..).trans hc, fun _ => id, fun _ => .inl⟩
    | operation op =>
      obtain ⟨-, rfl⟩ := hserves
      exact .refl _ _
    | closeRegistry =>
      cases hserves
      exact ⟨fun _ => rfl, fun _ => id, fun _ => .inl⟩
    | spawn job =>
      obtain ⟨-, rfl⟩ := hserves
      exact ⟨id, fun _ => id, fun _ => .inl⟩
    | track j =>
      cases hserves
      refine ⟨id, fun _ => id, fun n hn => ?_⟩
      by_cases hend : s.ended n = true
      · exact .inr (.inl hend)
      · exact .inl (List.mem_append_left _ (List.mem_filter.2 ⟨hn, by simpa using hend⟩))
    | takeTracked =>
      obtain ⟨rfl, rfl⟩ := hserves
      exact ⟨id, fun _ => id, fun n hn => .inr (.inr ⟨i, _, rfl, hn⟩)⟩
    | drop j =>
      cases hserves
      exact ⟨id, fun _ => List.mem_cons_of_mem _, fun _ => .inl⟩
    | _ =>
      cases hserves
      exact .refl _ _

theorem Runs.ended (h : Runs l s tr s') (hs : s.ended i = true) : s'.ended i = true :=
  h.stable hs fun hstep => hstep.ended

theorem Runs.closed (h : Runs l s tr s') (hs : s.registry.closed = true) :
    s'.registry.closed = true :=
  h.stable hs fun hstep => hstep.keeps.closed

/-- A task that was dropped is aborted. -/
theorem Runs.aborted (h : Runs l s tr s') (hd : .does i ⟨.drop n, ()⟩ ∈ tr) : n ∈ s'.aborted := by
  obtain ⟨u, v, rfl⟩ := List.append_of_mem hd
  obtain ⟨s₁, s₂, -, hstep, hrest⟩ := h.split_at
  have hn : n ∈ s₂.aborted := by
    cases hstep with
    | does _ _ hserves =>
      cases hserves
      exact List.mem_cons_self ..
  exact hrest.stable (P := fun s => n ∈ s.aborted) hn fun hstep hn => hstep.keeps.aborted hn

/-- Nothing is registered once the registry was closed. -/
theorem Runs.not_registered {u v : List Move} {k : Nat} {op : Operation}
    (h : Runs l s (u ++ .does k ⟨.closeRegistry, ()⟩ :: v) s') :
    .does i ⟨.register, .ok op⟩ ∉ v := by
  obtain ⟨s₁, s₂, -, hclose, hrest⟩ := h.split_at
  have hclosed : s₂.registry.closed = true := by
    cases hclose with
    | does _ _ hserves =>
      cases hserves
      rfl
  intro hmem
  obtain ⟨w, x, rfl⟩ := List.append_of_mem hmem
  obtain ⟨s₃, s₄, hbefore, hregister, -⟩ := hrest.split_at
  cases hregister with
  | does _ _ hserves =>
    obtain ⟨_, _, hr, -⟩ := hserves
    obtain ⟨-, -, ha⟩ | ⟨hopen, -⟩ := Registry.register_cases hr
    · cases ha
    · simp [Runs.closed hbefore hclosed] at hopen

/-- What was registered at all was registered before the registry was closed. -/
theorem Runs.registered_first {k : Nat} {op : Operation} (h : Runs l s tr s')
    (hregister : .does i ⟨.register, .ok op⟩ ∈ tr) (hclosed : .does k ⟨.closeRegistry, ()⟩ ∈ tr) :
    [.does i ⟨.register, .ok op⟩, .does k ⟨.closeRegistry, ()⟩].Sublist tr := by
  obtain ⟨u, v, rfl⟩ := List.append_of_mem hclosed
  obtain hbefore | heq | hafter := by simpa only [List.mem_append, List.mem_cons] using hregister
  · exact pair_sublist hbefore
  · cases heq
  · exact absurd hafter (Runs.not_registered h)

/-- A task that is remembered stays so until it has ended or is taken. -/
theorem Runs.tracked (h : Runs l s tr s') (hn : n ∈ s.tracked) :
    n ∈ s'.tracked ∨ s'.ended n = true ∨ ∃ k is, .does k ⟨.takeTracked, is⟩ ∈ tr ∧ n ∈ is := by
  induction h with
  | nil => exact .inl hn
  | cons hstep hrest ih =>
    obtain hn | hend | ⟨k, is, rfl, hmem⟩ := hstep.keeps.tracked n hn
    · obtain hn | hend | ⟨k, is, htake, hmem⟩ := ih hn
      · exact .inl hn
      · exact .inr (.inl hend)
      · exact .inr (.inr ⟨k, is, List.mem_cons_of_mem _ htake, hmem⟩)
    · exact .inr (.inl (Runs.ended hrest (hstep.ended hend)))
    · exact .inr (.inr ⟨k, is, List.mem_cons_self .., hmem⟩)

end

/-! ## Closing -/

/-- The calls have returned. -/
def Returned (uses : Nat → Option Use) (s : Calls) : Prop :=
  ∀ i u, uses i = some u → s.ended i = true

/-- The operation of task `n` was registered by call `i` before call `k` closed the registry, and
    the task was remembered after call `k` had taken the tasks. -/
structure Misses (tr : List Move) (k i n : Nat) : Prop where
  registered : ∃ op, [.does i ⟨.register, .ok op⟩, .does k ⟨.closeRegistry, ()⟩].Sublist tr
  tracked : ∃ is, [.does k ⟨.takeTracked, is⟩, .does i ⟨.track n, ()⟩].Sublist tr

section

variable {service : Service} {uses : Nat → Option Use} {s : Calls} {tr : List Move} {i k n : Nat}

/-- The history of a call that has returned is a run of its task to the end. -/
theorem Runs.run_use (h : Runs service.link (start service uses) tr s) (hall : s.Returned uses)
    {u : Use} (hu : uses i = some u) :
    ∃ r, s.result i = some r ∧ (u.task service).Run (own i tr) (some r) := by
  have hstart : (start service uses).tasks i = some (u.task service) := by simp [start, hu]
  have hrun := Runs.run_own h hstart
  have hend := hall i u hu
  rw [Calls.ended] at hend
  split at hend
  · rename_i r hr
    have hresult : s.result i = some r := by rw [result, hr]
    exact ⟨r, hresult, hresult ▸ hrun⟩
  · cases hend

/-- What is not work was asked by a call. -/
theorem Runs.exists_use (h : Runs service.link (start service uses) tr s) {e : Event}
    (he : .does i e ∈ tr) (hp : ¬e.question.Works) : (∃ u, uses i = some u) ∧ e ∈ own i tr := by
  refine ⟨Option.ne_none_iff_exists'.1 fun hi => hp (h.works.2 i e hi he), ?_⟩
  refine List.mem_flatMap.2 ⟨_, he, ?_⟩
  rw [Link.Move.own_does_self]
  obtain ⟨-, line, hline⟩ | hone := Link.record_eq e.question e.answer
  · rw [hline] at hp
    exact absurd trivial hp
  · rw [hone]
    exact List.mem_singleton_self _

/-- Tasks that were taken are aborted once all calls have returned. -/
theorem Runs.aborted_of_taken (h : Runs service.link (start service uses) tr s)
    (hall : s.Returned uses) {is : List Nat} (htake : .does k ⟨.takeTracked, is⟩ ∈ tr)
    (hn : n ∈ is) : n ∈ s.aborted := by
  obtain ⟨⟨u, hu⟩, hmem⟩ := Runs.exists_use h htake id
  obtain ⟨r, -, hrun⟩ := Runs.run_use h hall hu
  have hdrop : (⟨.drop n, ()⟩ : Event) ∈ own k tr := by
    by_cases hclose : u = .close
    · subst hclose
      obtain ⟨_, hdrops, heq | ⟨_, -, heq⟩ | heq⟩ := Use.mem_run_close hrun hmem id
      · cases heq
        exact hdrops n hn
      · cases heq
      · cases heq
    · obtain ⟨e, -, hown | hown⟩ | ⟨op, job, j, -, -, hown⟩ := Use.run_task hclose hrun
      all_goals
        rw [hown] at hmem
        simp at hmem
  obtain ⟨u, v, rfl⟩ := Link.exists_of_mem_own hdrop
  exact Runs.aborted h (List.mem_append_right _ (List.mem_cons_self ..))

/-- What a call asks that has started task `n`. -/
theorem Runs.own_of_spawn (h : Runs service.link (start service uses) tr s)
    (hall : s.Returned uses) {job : Job} (hspawn : .does i ⟨.spawn job, n⟩ ∈ tr) :
    ∃ op, own i tr = [⟨.register, .ok op⟩, ⟨.spawn job, n⟩, ⟨.track n, ()⟩] := by
  obtain ⟨⟨u, hu⟩, hmem⟩ := Runs.exists_use h hspawn id
  obtain ⟨r, -, hrun⟩ := Runs.run_use h hall hu
  by_cases hclose : u = .close
  · subst hclose
    obtain ⟨_, -, heq | ⟨_, -, heq⟩ | heq⟩ := Use.mem_run_close hrun hmem id
    all_goals cases heq
  · obtain ⟨e, -, hown | hown⟩ | ⟨op, job', j, -, -, hown⟩ := Use.run_task hclose hrun
    · rw [hown] at hmem
      cases hmem
    · rw [hown] at hmem
      simp at hmem
    · rw [hown] at hmem ⊢
      obtain ⟨rfl, rfl⟩ : job = job' ∧ n ≍ j := by simpa using hmem
      exact ⟨op, rfl⟩

/-- A task that is remembered before some call takes the tasks has ended or is aborted. -/
theorem Runs.ended_or_aborted {u v : List Move} {is : List Nat}
    (h : Runs service.link (start service uses) (u ++ .does i ⟨.track n, ()⟩ :: v) s)
    (hall : s.Returned uses) (htake : .does k ⟨.takeTracked, is⟩ ∈ v) :
    s.ended n = true ∨ n ∈ s.aborted := by
  obtain ⟨s₁, s₂, -, htrack, hv⟩ := h.split_at
  have hn : n ∈ s₂.tracked := by
    cases htrack with
    | does _ _ hserves =>
      cases hserves
      exact List.mem_append_right _ (List.mem_singleton_self n)
  have hlater {m : Move} (hm : m ∈ v) : m ∈ u ++ .does i ⟨.track n, ()⟩ :: v :=
    List.mem_append_right u (List.mem_cons_of_mem _ hm)
  obtain ⟨v₁, v₂, rfl⟩ := List.append_of_mem htake
  obtain ⟨s₃, s₄, hv₁, hstep, hv₂⟩ := hv.split_at
  obtain hn | hend | ⟨k', is', htake', hn⟩ := Runs.tracked hv₁ hn
  · have his : is = s₃.tracked := by
      cases hstep with
      | does _ _ hserves => exact hserves.1
    exact .inr (Runs.aborted_of_taken h hall (hlater htake) (his ▸ hn))
  · exact .inl (Runs.ended hv₂ (hstep.ended hend))
  · exact .inr (Runs.aborted_of_taken h hall (hlater (List.mem_append_left _ htake')) hn)

theorem mem_of_mem_own {e : Event} (h : e ∈ own i tr) : .does i e ∈ tr :=
  (Link.map_own_sublist i tr).subset (List.mem_map_of_mem h)

/-- A call that has returned an operation has started a task for it. -/
theorem Runs.spawn_of_started (h : Runs service.link (start service uses) tr s)
    (hall : s.Returned uses) {u : Use} {op : Operation} (hu : uses i = some u)
    (hresult : s.result i = some (.started (.ok op))) :
    ∃ job n, job.operation? = some op.name ∧ .does i ⟨.spawn job, n⟩ ∈ tr := by
  obtain ⟨r, hr, hrun⟩ := Runs.run_use h hall hu
  obtain rfl : r = .started (.ok op) := by simpa [hr] using hresult
  have hclose : u ≠ .close := by
    rintro rfl
    obtain ⟨_, -, heq⟩ := Program.run_bind_pure_some.1 hrun
    cases heq
  obtain ⟨e, heq, -⟩ | ⟨op', job, n, heq, hjob, hown⟩ := Use.run_task hclose hrun
  · cases heq
  · cases heq
    exact ⟨job, n, hjob, mem_of_mem_own (by simp [hown])⟩

/-- **What closing leaves behind.** Once the service was closed and all calls have returned, every
    task that was started has ended or is aborted, unless the closing has missed it. Every call that
    has returned an operation has started a task for it. -/
theorem Runs.closing (h : Runs service.link (start service uses) tr s) (hall : s.Returned uses) :
    (∀ k, uses k = some .close → ∀ i job n, .does i ⟨.spawn job, n⟩ ∈ tr →
      s.ended n = true ∨ n ∈ s.aborted ∨ Misses tr k i n) ∧
    ∀ i u op, uses i = some u → s.result i = some (.started (.ok op)) →
      ∃ job n, job.operation? = some op.name ∧ .does i ⟨.spawn job, n⟩ ∈ tr := by
  refine ⟨fun k hk i job n hspawn => ?_, fun i u op hu hresult => ?_⟩
  · obtain ⟨op, hi⟩ := Runs.own_of_spawn h hall hspawn
    obtain ⟨r, -, hrun⟩ := Runs.run_use h hall hk
    obtain ⟨is, rest, hclose, -⟩ := Use.run_close hrun
    have hregister : .does i ⟨.register, .ok op⟩ ∈ tr := mem_of_mem_own (by simp [hi])
    have htrack : .does i ⟨.track n, ()⟩ ∈ tr := mem_of_mem_own (by simp [hi])
    have htake : .does k ⟨.takeTracked, is⟩ ∈ tr := mem_of_mem_own (by simp [hclose])
    have hclosed : .does k ⟨.closeRegistry, ()⟩ ∈ tr := mem_of_mem_own (by simp [hclose])
    have hfirst := Runs.registered_first h hregister hclosed
    obtain ⟨u, v, rfl⟩ := List.append_of_mem htrack
    obtain htake | heq | htake := by simpa only [List.mem_append, List.mem_cons] using htake
    · exact .inr (.inr ⟨⟨op, hfirst⟩, is, pair_sublist htake⟩)
    · cases heq
    · exact (Runs.ended_or_aborted h hall htake).imp_right .inl
  · exact Runs.spawn_of_started h hall hu hresult

end

/-- Two calls on a service. -/
def both (u v : Use) : Nat → Option Use
  | 0 => some u
  | 1 => some v
  | _ => none

theorem returned_both {u v : Use} {s : Calls} (h₀ : s.ended 0 = true) (h₁ : s.ended 1 = true) :
    s.Returned (both u v) := by
  rintro (_ | _ | i) u h
  · exact h₀
  · exact h₁
  · cases h

def sampleService : Service where
  link := { dut := "dut" }
  helperPath := "/usr/bin/helper"
  chunkSize := 4096
  rebootTimeout := .ofSecs 300

/-- A service is closed after a call has begun to replace the connection. -/
theorem Runs.closing_aborts : ∃ tr s,
    Runs sampleService.link (start sampleService (both .reconnect .close)) tr s ∧
    s.Returned (both .reconnect .close) ∧ .does 0 ⟨.spawn (.reconnect "operations/a"), 2⟩ ∈ tr ∧
    (s.ended 2 = true ∨ 2 ∈ s.aborted ∨ Misses tr 1 0 2) := by
  have h : Runs sampleService.link (start sampleService (both .reconnect .close))
      [.does 0 ⟨.register, .ok { name := "operations/a" }⟩,
        .does 0 ⟨.spawn (.reconnect "operations/a"), 2⟩, .does 0 ⟨.track 2, ()⟩,
        .does 1 ⟨.takeTracked, [2]⟩, .does 1 ⟨.drop 2, ()⟩, .does 1 ⟨.closeRegistry, ()⟩,
        .does 1 ⟨.closeLink, none⟩] _ :=
    .cons (.does rfl nofun ⟨["operations/a"], _, rfl, rfl⟩) <|
    .cons (.does rfl nofun ⟨rfl, rfl⟩) <| .cons (.does rfl nofun rfl) <|
    .cons (.does rfl nofun ⟨rfl, rfl⟩) <| .cons (.does rfl nofun rfl) <|
    .cons (.does rfl (fun _ => id) rfl) <| .cons (.does rfl (fun _ => id) rfl) (.nil _)
  exact ⟨_, _, h, returned_both rfl rfl, by simp,
    (Runs.closing h (returned_both rfl rfl)).1 1 rfl 0 (.reconnect "operations/a") 2 (by simp)⟩

/-- **A task is left behind.** Its operation is registered before the service is closed, and the
    task is started after. When both calls have returned, the caller has the operation, and the task
    goes on. -/
theorem left_behind : ∃ tr s,
    Runs sampleService.link (start sampleService (both .reconnect .close)) tr s ∧
    s.Returned (both .reconnect .close) ∧
    s.result 0 = some (.started (.ok { name := "operations/a" })) ∧
    .does 0 ⟨.spawn (.reconnect "operations/a"), 2⟩ ∈ tr ∧ s.ended 2 = false ∧ 2 ∉ s.aborted := by
  refine ⟨[.does 0 ⟨.register, .ok { name := "operations/a" }⟩, .does 1 ⟨.takeTracked, []⟩,
    .does 1 ⟨.closeRegistry, ()⟩, .does 1 ⟨.closeLink, none⟩,
    .does 0 ⟨.spawn (.reconnect "operations/a"), 2⟩, .does 0 ⟨.track 2, ()⟩,
    .does 2 ⟨.acquire, ()⟩], _,
    .cons (.does rfl nofun ⟨["operations/a"], _, rfl, rfl⟩) <|
    .cons (.does rfl nofun ⟨rfl, rfl⟩) <| .cons (.does rfl nofun rfl) <|
    .cons (.does rfl nofun rfl) <| .cons (.does rfl nofun ⟨rfl, rfl⟩) <|
    .cons (.does rfl nofun rfl) <| .cons (.does rfl nofun rfl) (.nil _),
    returned_both rfl rfl, rfl, by simp, rfl, nofun⟩

end Calls

end Service

end Reimage
