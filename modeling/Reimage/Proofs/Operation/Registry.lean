/-
  Calls on one registry, in any order.

  Any number of tasks call on a registry. What a call does under the lock is one step, and waiters
  may be notified between any two steps. The history of a registry lists the calls with their
  answers.

  * `Registry.Runs.run`: calls that nothing comes between are a run;
  * `Registry.Recalls`: a registry holds what its history tells;
  * `Registry.Runs.law`: names are given out once and results recorded once, no operation is lost
    before the registry is closed, and nothing is there after.
-/
import Mathlib.Data.List.Nodup
import Reimage.Operation

namespace Reimage

namespace Registry

/-! ## Calls -/

/-- A call on a registry. -/
inductive Call
  /-- Register a new operation under the first of these names that is free. -/
  | register (candidates : List String)
  | setResult (name : String) (result : OperationResult)
  | get (name : String)
  | close

/-- What a call is answered with. -/
abbrev Call.Answer : Call → Type
  | register _ | get _ => Result Operation
  | setResult _ _ => Result Unit
  | close => Unit

/-- What a call does under the lock, with its answer. A registration that finds no name free is not
    over. -/
def Call.locked (r : Registry) : (c : Call) → Option (Registry × c.Answer)
  | register candidates => r.register candidates
  | setResult name result => some ((r.finish name result).1, (r.finish name result).2.1)
  | get name => some (r, r.get name)
  | close => some (r.clear.1, ())

/-- A call that was answered. -/
structure Answered where
  call : Call
  answer : call.Answer

/-- Why waiters are notified. -/
inductive Cause
  | ended (name : String)
  | closed
  deriving DecidableEq

/-- Why a call notifies the waiters once it has given the lock back, if it does. -/
def Answered.cause? : Answered → Option Cause
  | ⟨.setResult name _, .ok ()⟩ => some (.ended name)
  | ⟨.close, ()⟩ => some .closed
  | _ => none

/-- Whoever waits for the operation `name` has to look again. -/
def Cause.Concerns (name : String) : Cause → Prop
  | ended other => other = name
  | closed => True

/-- A call from its beginning to its end. -/
def Call.run (r : Registry) : (c : Call) → Option (Registry × c.Answer)
  | register candidates => r.register candidates
  | setResult name result => some ((r.setResult name result).1, (r.setResult name result).2.1)
  | get name => some (r, r.get name)
  | close => some (r.close.1, ())

/-- Any number of calls, in the order in which they have the lock. -/
inductive Runs (r : Registry) : List Answered → Registry → Prop
  | nil : Runs r [] r
  | call {tr : List Answered} {s s' : Registry} {c : Call} {a : c.Answer} :
    Runs r tr s → c.locked s = some (s', a) → Runs r (tr ++ [⟨c, a⟩]) s'
  | notify {tr : List Answered} {s : Registry} : Runs r tr s → Runs r tr s.notify

/-! ## What a history tells -/

/-- The name that a call gave out. -/
def Answered.name? : Answered → Option String
  | ⟨.register _, .ok op⟩ => some op.name
  | _ => none

/-- The operation that a call ended, and how. -/
def Answered.result? : Answered → Option (String × OperationResult)
  | ⟨.setResult name result, .ok ()⟩ => some (name, result)
  | _ => none

/-- The names that were given out. -/
def given (tr : List Answered) : List String := tr.filterMap Answered.name?

/-- The results that were recorded. -/
def recorded (tr : List Answered) : List (String × OperationResult) :=
  tr.filterMap Answered.result?

/-- The registry was closed. -/
def Closed (tr : List Answered) : Prop := ⟨.close, ()⟩ ∈ tr

/-- An operation as a history tells of it. -/
def told (tr : List Answered) (name : String) : Operation where
  name := name
  done := ((recorded tr).lookup name).isSome
  result := (recorded tr).lookup name

/-- An operation is registered and has no result. -/
def Awaits (r : Registry) (name : String) : Prop := ∃ op, r.get name = .ok op ∧ op.done = false

/-- The registry holds what the history tells. -/
structure Recalls (tr : List Answered) (r : Registry) : Prop where
  closed_iff : r.closed = true ↔ Closed tr
  operations_eq_nil : Closed tr → r.operations = []
  operations_eq : ¬Closed tr → r.operations = (given tr).map (told tr)
  nodup_given : (given tr).Nodup
  nodup_recorded : ((recorded tr).map Prod.fst).Nodup
  recorded_subset : (recorded tr).map Prod.fst ⊆ given tr

section

variable {tr : List Answered} {r s t : Registry} {name : String} {result : OperationResult}
  {e : Answered}

theorem given_snoc : given (tr ++ [e]) = given tr ++ e.name?.toList := by
  rw [given, List.filterMap_append, given]
  cases h : e.name? <;> simp [h]

theorem recorded_snoc : recorded (tr ++ [e]) = recorded tr ++ e.result?.toList := by
  rw [recorded, List.filterMap_append, recorded]
  cases h : e.result? <;> simp [h]

theorem closed_snoc : Closed (tr ++ [e]) ↔ Closed tr ∨ e = ⟨.close, ()⟩ := by
  rw [Closed, List.mem_append, List.mem_singleton, @eq_comm _ e, Closed]

theorem lookup_eq_none (h : name ∉ (recorded tr).map Prod.fst) :
    (recorded tr).lookup name = none := by
  rw [List.lookup_eq_none_iff]
  intro p hp
  simpa using fun heq : name = p.1 => h (heq ▸ List.mem_map_of_mem hp)

theorem lookup_eq_some (hn : ((recorded tr).map Prod.fst).Nodup)
    (h : (name, result) ∈ recorded tr) : (recorded tr).lookup name = some result := by
  obtain ⟨u, v, huv⟩ := List.append_of_mem h
  rw [huv, List.map_append, List.map_cons, List.nodup_append] at hn
  rw [List.lookup_eq_some_iff]
  refine ⟨u, v, huv, fun p hp => ?_⟩
  exact bne_iff_ne.2 (hn.2.2 p.1 (List.mem_map_of_mem hp) name (List.mem_cons_self ..)).symm

theorem told_of_not_mem (h : name ∉ (recorded tr).map Prod.fst) :
    told tr name = { name := name } := by
  simp [told, lookup_eq_none h]

theorem told_of_mem (hn : ((recorded tr).map Prod.fst).Nodup) (h : (name, result) ∈ recorded tr) :
    told tr name = ⟨name, true, some result⟩ := by
  simp [told, lookup_eq_some hn h]

theorem get_eq {op : Operation} (h : r.find? name = some op) : r.get name = .ok op := by
  rw [get, h]

theorem get_of_none (h : r.find? name = none) : r.get name = .error (notFound name) := by
  rw [get, h]

namespace Recalls

theorem start : Recalls [] {} where
  closed_iff := by simp [Closed]
  operations_eq_nil _ := rfl
  operations_eq _ := rfl
  nodup_given := List.nodup_nil
  nodup_recorded := List.nodup_nil
  recorded_subset := List.nil_subset _

/-- An operation that was registered is found as its history tells. -/
theorem find?_of_mem (h : Recalls tr r) (hc : ¬Closed tr) (hn : name ∈ given tr) :
    r.find? name = some (told tr name) := by
  have hmem : told tr name ∈ r.operations := by
    rw [h.operations_eq hc]
    exact List.mem_map_of_mem hn
  have hsome : (r.find? name).isSome := List.find?_isSome.2 ⟨_, hmem, by simp [told]⟩
  obtain ⟨op, hop⟩ := Option.isSome_iff_exists.1 hsome
  have hname : op.name = name := by simpa using List.find?_some hop
  have hmem' := List.mem_of_find?_eq_some hop
  rw [h.operations_eq hc] at hmem'
  obtain ⟨n, -, rfl⟩ := List.mem_map.1 hmem'
  rw [hop, show n = name from hname]

theorem find?_of_not_mem (h : Recalls tr r) (hn : name ∉ given tr) : r.find? name = none := by
  rw [find?, List.find?_eq_none]
  intro op hop
  by_cases hc : Closed tr
  · simp [h.operations_eq_nil hc] at hop
  · rw [h.operations_eq hc] at hop
    obtain ⟨n, hmem, rfl⟩ := List.mem_map.1 hop
    rintro heq
    exact hn (by rwa [show n = name by simpa [told] using heq] at hmem)

theorem find?_of_closed (h : Recalls tr r) (hc : Closed tr) : r.find? name = none := by
  rw [find?, h.operations_eq_nil hc, List.find?_nil]

/-- What is found was registered, and the registry is open. -/
theorem of_find? (h : Recalls tr r) {op : Operation} (hop : r.find? name = some op) :
    ¬Closed tr ∧ name ∈ given tr ∧ op = told tr name := by
  have hc : ¬Closed tr := fun hc => by simp [h.find?_of_closed hc] at hop
  have hn : name ∈ given tr := by
    by_contra hn
    simp [h.find?_of_not_mem hn] at hop
  refine ⟨hc, hn, ?_⟩
  rw [h.find?_of_mem hc hn, Option.some_inj] at hop
  exact hop.symm

theorem get_ok (h : Recalls tr r) {op : Operation} (hop : r.get name = .ok op) :
    ¬Closed tr ∧ name ∈ given tr ∧ op = told tr name := by
  rw [get] at hop
  split at hop
  · rename_i hfind
    cases hop
    exact h.of_find? hfind
  · cases hop

theorem get_error (h : Recalls tr r) {e : Error} (he : r.get name = .error e) :
    e = notFound name ∧ (name ∉ given tr ∨ Closed tr) := by
  rw [get] at he
  split at he
  · cases he
  · rename_i hfind
    cases he
    refine ⟨rfl, ?_⟩
    by_contra hcon
    rw [not_or, not_not] at hcon
    simp [h.find?_of_mem hcon.2 hcon.1] at hfind

/-- What a history tells of an operation without a result. -/
theorem awaits_iff (h : Recalls tr r) :
    r.Awaits name ↔ ¬Closed tr ∧ name ∈ given tr ∧ name ∉ (recorded tr).map Prod.fst := by
  constructor
  · rintro ⟨op, hop, hd⟩
    obtain ⟨hc, hn, rfl⟩ := h.get_ok hop
    refine ⟨hc, hn, fun hmem => ?_⟩
    obtain ⟨p, hp, rfl⟩ := List.mem_map.1 hmem
    simp [told_of_mem h.nodup_recorded hp] at hd
  · rintro ⟨hc, hn, hnew⟩
    exact ⟨_, get_eq (h.find?_of_mem hc hn), by rw [told_of_not_mem hnew]⟩

/-- An operation without a result stays so through every call that does not concern it. -/
theorem awaits_snoc (h : Recalls tr r) (h' : Recalls (tr ++ [e]) s) (ha : r.Awaits name)
    (he : ∀ c, e.cause? = some c → ¬c.Concerns name) : s.Awaits name := by
  obtain ⟨hc, hn, hnew⟩ := h.awaits_iff.1 ha
  refine h'.awaits_iff.2 ⟨?_, ?_, ?_⟩
  · rw [closed_snoc]
    rintro (hc' | rfl)
    · exact hc hc'
    · exact he _ rfl trivial
  · rw [given_snoc]
    exact List.mem_append_left _ hn
  · rw [recorded_snoc, List.map_append, List.mem_append]
    rintro (hmem | hmem)
    · exact hnew hmem
    · obtain ⟨c, a⟩ := e
      cases c with
      | setResult other result =>
        cases a with
        | ok =>
          obtain rfl : name = other := by simpa [Answered.result?] using hmem
          exact he _ rfl rfl
        | error => simp [Answered.result?] at hmem
      | _ => simp [Answered.result?] at hmem

/-- A call after which the history tells the same. -/
theorem snoc_of_none (h : Recalls tr r) (hn : e.name? = none) (hr : e.result? = none)
    (hc : e ≠ ⟨.close, ()⟩) : Recalls (tr ++ [e]) r := by
  have hgiven : given (tr ++ [e]) = given tr := by simp [given_snoc, hn]
  have hrecorded : recorded (tr ++ [e]) = recorded tr := by simp [recorded_snoc, hr]
  have htold : told (tr ++ [e]) = told tr := by
    funext name
    simp [told, hrecorded]
  have hclosed : Closed (tr ++ [e]) ↔ Closed tr := by simp [closed_snoc, hc]
  exact ⟨by rw [hclosed, h.closed_iff], by rw [hclosed]; exact h.operations_eq_nil,
    by rw [hclosed, hgiven, htold]; exact h.operations_eq, by rw [hgiven]; exact h.nodup_given,
    by rw [hrecorded]; exact h.nodup_recorded,
    by rw [hgiven, hrecorded]; exact h.recorded_subset⟩

theorem notify (h : Recalls tr r) : Recalls tr r.notify := ⟨h.closed_iff, h.operations_eq_nil,
  h.operations_eq, h.nodup_given, h.nodup_recorded, h.recorded_subset⟩

/-- A new operation is told as it was registered. -/
theorem register (h : Recalls tr r) (hc : ¬Closed tr) (hn : r.find? name = none)
    {candidates : List String} {op : Operation} (hop : op = { name := name }) :
    Recalls (tr ++ [⟨.register candidates, .ok op⟩])
      { r with operations := r.operations ++ [op] } := by
  subst hop
  have hnew : name ∉ given tr := fun hmem => by simp [h.find?_of_mem hc hmem] at hn
  have hgiven : given (tr ++ [⟨.register candidates, .ok { name := name }⟩]) =
      given tr ++ [name] := given_snoc
  have hrecorded : recorded (tr ++ [⟨.register candidates, .ok { name := name }⟩]) =
      recorded tr := recorded_snoc.trans (List.append_nil _)
  have htold : told (tr ++ [⟨.register candidates, .ok { name := name }⟩]) = told tr := by
    funext name
    simp [told, hrecorded]
  have hclosed : Closed (tr ++ [⟨.register candidates, .ok { name := name }⟩]) ↔ Closed tr := by
    simp [closed_snoc]
  refine ⟨by rw [hclosed]; exact h.closed_iff, fun hc' => absurd (hclosed.1 hc') hc, fun _ => ?_,
    ?_, by rw [hrecorded]; exact h.nodup_recorded, ?_⟩
  · rw [hgiven, htold, List.map_append, h.operations_eq hc, List.map_singleton,
      told_of_not_mem fun hmem => hnew (h.recorded_subset hmem)]
  · rw [hgiven]
    exact h.nodup_given.append (List.nodup_singleton _) (by simpa using hnew)
  · rw [hgiven, hrecorded]
    exact fun _ hmem => List.mem_append_left _ (h.recorded_subset hmem)

/-- A recorded result is told from then on, of this operation alone. -/
theorem finish (h : Recalls tr r) {op : Operation} (hop : r.find? name = some op)
    (hd : op.done = false) :
    Recalls (tr ++ [⟨.setResult name result, .ok ()⟩])
      { r with operations := r.operations.map (record name result) } := by
  obtain ⟨hc, hn, rfl⟩ := h.of_find? hop
  have hlookup : (recorded tr).lookup name = none := by simpa [told] using hd
  have hnew : name ∉ (recorded tr).map Prod.fst := fun hmem => by
    obtain ⟨p, hp, rfl⟩ := List.mem_map.1 hmem
    simp [lookup_eq_some h.nodup_recorded hp] at hlookup
  have hgiven : given (tr ++ [⟨.setResult name result, .ok ()⟩]) = given tr :=
    given_snoc.trans (List.append_nil _)
  have hrecorded : recorded (tr ++ [⟨.setResult name result, .ok ()⟩]) =
      recorded tr ++ [(name, result)] := recorded_snoc
  have hclosed : Closed (tr ++ [⟨.setResult name result, .ok ()⟩]) ↔ Closed tr := by
    simp [closed_snoc]
  refine ⟨by rw [hclosed]; exact h.closed_iff, fun hc' => absurd (hclosed.1 hc') hc, fun _ => ?_,
    by rw [hgiven]; exact h.nodup_given, ?_, ?_⟩
  · rw [hgiven, h.operations_eq hc, List.map_map]
    refine List.map_congr_left fun n _ => ?_
    rw [Function.comp, record, told, told, hrecorded, List.lookup_append]
    by_cases hne : n = name
    · subst hne
      simp [hlookup]
    · simp [List.lookup_cons, beq_eq_false_iff_ne.2 hne]
  · rw [hrecorded, List.map_append]
    exact h.nodup_recorded.append (List.nodup_singleton _) (by simpa using hnew)
  · rw [hrecorded, hgiven, List.map_append]
    exact List.append_subset.2 ⟨h.recorded_subset, by simpa using hn⟩

theorem clear (h : Recalls tr r) : Recalls (tr ++ [⟨.close, ()⟩]) r.clear.1 := by
  have hgiven : given (tr ++ [⟨.close, ()⟩]) = given tr := given_snoc.trans (List.append_nil _)
  have hrecorded : recorded (tr ++ [⟨.close, ()⟩]) = recorded tr :=
    recorded_snoc.trans (List.append_nil _)
  have hclosed : Closed (tr ++ [⟨.close, ()⟩]) := closed_snoc.2 (.inr rfl)
  exact ⟨iff_of_true rfl hclosed, fun _ => rfl, fun hc => absurd hclosed hc,
    by rw [hgiven]; exact h.nodup_given, by rw [hrecorded]; exact h.nodup_recorded,
    by rw [hgiven, hrecorded]; exact h.recorded_subset⟩

end Recalls

/-! ## Steps -/

/-- A registration is refused, or the operation is new. -/
theorem register_cases {candidates : List String} {a : Result Operation}
    (h : r.register candidates = some (s, a)) :
    (r.closed = true ∧ s = r ∧ a = .error (.operation "operation manager is closed")) ∨
    r.closed = false ∧ ∃ name ∈ candidates, r.find? name = none ∧
      s = { r with operations := r.operations ++ [{ name := name }] } ∧
      a = .ok { name := name } := by
  rw [register] at h
  split at h
  · rename_i hc
    simp only [Option.some.injEq, Prod.mk.injEq] at h
    exact .inl ⟨hc, h.1.symm, h.2.symm⟩
  · rename_i hc
    obtain ⟨name, hname, h⟩ := Option.map_eq_some_iff.1 h
    simp only [Prod.mk.injEq] at h
    have hfree := List.find?_some hname
    exact .inr ⟨by simpa using hc, name, List.mem_of_find?_eq_some hname, by simpa using hfree,
      h.1.symm, h.2.symm⟩

theorem finish_of_none (h : r.find? name = none) :
    r.finish name result = (r, .error (notFound name), []) := by
  rw [finish, h]

theorem finish_of_done {op : Operation} (h : r.find? name = some op) (hd : op.done = true) :
    r.finish name result = (r, .error (.operation (name ++ " already has a result")),
      [.warn ("Ignoring second result for " ++ name)]) := by
  rw [finish, h]
  exact if_pos hd

theorem finish_of_pending {op : Operation} (h : r.find? name = some op) (hd : op.done = false) :
    r.finish name result =
      ({ r with operations := r.operations.map (record name result) }, .ok (), []) := by
  rw [finish, h]
  exact if_neg (by simp [hd])

theorem closed_setResult (r : Registry) (name : String) (result : OperationResult) :
    (r.setResult name result).1.closed = r.closed := by
  cases h : r.find? name with
  | none => rw [setResult, finish_of_none h]
  | some op =>
    cases hd : op.done
    · rw [setResult, finish_of_pending h hd]
      rfl
    · rw [setResult, finish_of_done h hd]

/-- Nobody is notified under the lock. -/
theorem Call.notified_eq {c : Call} {a : c.Answer} (h : c.locked r = some (s, a)) :
    s.notified = r.notified := by
  cases c with
  | register candidates =>
    obtain ⟨-, rfl, -⟩ | ⟨-, name, -, -, rfl, -⟩ := register_cases h
    · rfl
    · rfl
  | setResult name result =>
    cases h
    rw [finish]
    split
    · rfl
    · split
      · rfl
      · rfl
  | get name | close =>
    cases h
    rfl

/-- A call by itself is what it does under the lock, and then the notification if it gives one. -/
theorem Call.run_eq (r : Registry) (c : Call) : c.run r = (c.locked r).map fun (s, a) =>
    (if (Answered.cause? ⟨c, a⟩).isSome then s.notify else s, a) := by
  cases c with
  | register candidates =>
    cases h : r.register candidates with
    | none => simp [run, locked, h]
    | some p => simp [run, locked, h, Answered.cause?]
  | setResult name result =>
    rw [run, locked, Registry.setResult]
    obtain ⟨s, a, log⟩ := r.finish name result
    cases a <;> rfl
  | get name => rfl
  | close => rfl

/-- Calls that nothing comes between are a run as well. -/
theorem Runs.run {c : Call} {a : c.Answer} (h : Runs r tr s) (hc : c.run s = some (t, a)) :
    Runs r (tr ++ [⟨c, a⟩]) t := by
  rw [Call.run_eq] at hc
  obtain ⟨⟨locked, b⟩, hlocked, hnotified⟩ := Option.map_eq_some_iff.1 hc
  cases hnotified
  have hcall := h.call hlocked
  split
  · exact hcall.notify
  · exact hcall

/-- What every call preserves: the registry holds what the history tells. -/
theorem Recalls.call (h : Recalls tr r) {c : Call} {a : c.Answer}
    (hc : c.locked r = some (s, a)) : Recalls (tr ++ [⟨c, a⟩]) s := by
  cases c with
  | register candidates =>
    obtain ⟨-, rfl, rfl⟩ | ⟨hopen, name, -, hname, rfl, rfl⟩ := register_cases hc
    · exact h.snoc_of_none rfl rfl nofun
    · exact h.register (by simp [← h.closed_iff, hopen]) hname rfl
  | setResult name result =>
    cases hc
    cases hfind : r.find? name with
    | none =>
      rw [finish_of_none hfind]
      exact h.snoc_of_none rfl rfl nofun
    | some op =>
      cases hd : op.done
      · rw [finish_of_pending hfind hd]
        exact h.finish hfind hd
      · rw [finish_of_done hfind hd]
        exact h.snoc_of_none rfl rfl nofun
  | get name =>
    cases hc
    exact h.snoc_of_none rfl rfl nofun
  | close =>
    cases hc
    exact h.clear

/-- After every run from the beginning the registry holds what the history tells. -/
theorem Runs.recalls (h : Runs {} tr r) : Recalls tr r := by
  induction h with
  | nil => exact .start
  | call _ hc ih => exact ih.call hc
  | notify _ ih => exact ih.notify

theorem Runs.append {u : List Answered} {t : Registry} (h : Runs r tr s) (h' : Runs s u t) :
    Runs r (tr ++ u) t := by
  induction h' with
  | nil => rwa [List.append_nil]
  | call _ hc ih =>
    rw [← List.append_assoc]
    exact ih.call hc
  | notify _ ih => exact ih.notify

/-! ## The law of the registry -/

/-- What holds of a registry `r` with the history `tr`. -/
structure Law (tr : List Answered) (r : Registry) : Prop where
  /-- An operation has a result exactly if it is done. -/
  done_iff : ∀ op ∈ r.operations, op.done = true ↔ ∃ result, op.result = some result
  /-- No name is given out twice, whatever names are proposed. -/
  distinct : (given tr).Nodup
  /-- A registration goes through if the registry is open and a name is free. -/
  registers : ¬Closed tr → ∀ candidates, (∃ name ∈ candidates, name ∉ given tr) →
    ∃ name ∈ candidates, name ∉ given tr ∧ ∃ s,
      r.register candidates = some (s, .ok { name := name })
  /-- An operation is ended once at most. -/
  once : ((recorded tr).map Prod.fst).Nodup
  /-- The first result of an operation is taken, and none before it is read. -/
  pends : ¬Closed tr → ∀ name ∈ given tr, name ∉ (recorded tr).map Prod.fst →
    r.get name = .ok { name := name } ∧ ∀ result, (r.setResult name result).2.1 = .ok ()
  /-- The result that was taken is read until the closing, and no other is taken. -/
  reads : ¬Closed tr → ∀ name result, (name, result) ∈ recorded tr →
    r.get name = .ok ⟨name, true, some result⟩ ∧
    ∀ second, (r.setResult name second).2.1 =
      .error (.operation (name ++ " already has a result"))
  /-- Until the closing no operation is lost, and none that is done changes. -/
  stays : ∀ u s, Runs r u s → ¬Closed u → ∀ op ∈ r.operations, ∃ op' ∈ s.operations,
    op'.name = op.name ∧ (op.done = true → op' = op)
  /-- A call that fails changes nothing. -/
  refuses : (∀ candidates s e, r.register candidates = some (s, .error e) → s = r) ∧
    ∀ name result e, (r.setResult name result).2.1 = .error e → (r.setResult name result).1 = r
  /-- An operation that was not registered is not found. -/
  unknown : ∀ name, name ∉ given tr → r.get name = .error (notFound name) ∧
    ∀ result, (r.setResult name result).2.1 = .error (notFound name)
  /-- After the closing there is no operation, and there will be none. -/
  closed : Closed tr → r.operations = [] ∧
    (∀ candidates, r.register candidates =
      some (r, .error (.operation "operation manager is closed"))) ∧
    ∀ name, r.get name = .error (notFound name) ∧
      ∀ result, (r.setResult name result).2.1 = .error (notFound name)

theorem setResult_of_none (h : r.find? name = none) :
    r.setResult name result = (r, .error (notFound name), []) := by
  rw [setResult, finish_of_none h]

theorem setResult_of_done {op : Operation} (h : r.find? name = some op) (hd : op.done = true) :
    r.setResult name result = (r, .error (.operation (name ++ " already has a result")),
      [.warn ("Ignoring second result for " ++ name)]) := by
  rw [setResult, finish_of_done h hd]

theorem setResult_of_pending {op : Operation} (h : r.find? name = some op)
    (hd : op.done = false) : (r.setResult name result).2.1 = .ok () := by
  rw [setResult, finish_of_pending h hd]

theorem register_refused {candidates : List String} {e : Error}
    (h : r.register candidates = some (s, .error e)) : s = r := by
  obtain ⟨-, rfl, -⟩ | ⟨-, _, -, -, -, ha⟩ := register_cases h
  · rfl
  · cases ha

theorem setResult_refused {e : Error} (h : (r.setResult name result).2.1 = .error e) :
    (r.setResult name result).1 = r := by
  cases hfind : r.find? name with
  | none => rw [setResult_of_none hfind]
  | some op =>
    cases hd : op.done
    · rw [setResult_of_pending hfind hd] at h
      cases h
    · rw [setResult_of_done hfind hd]

theorem mem_recorded_of_done (h : (told tr name).done = true) :
    ∃ result, (name, result) ∈ recorded tr ∧ (recorded tr).lookup name = some result := by
  obtain ⟨result, hresult⟩ := Option.isSome_iff_exists.1 h
  obtain ⟨u, v, huv, -⟩ := List.lookup_eq_some_iff.1 hresult
  exact ⟨result, by simp [huv], hresult⟩

/-- A registration takes the first of the proposed names that is free. -/
theorem exists_register {candidates : List String} (h : Recalls tr r) (hc : ¬Closed tr)
    (hname : name ∈ candidates) (hfree : name ∉ given tr) :
    ∃ first ∈ candidates, first ∉ given tr ∧ ∃ s,
      r.register candidates = some (s, .ok { name := first }) := by
  have hopen : r.closed = false := by simpa [← h.closed_iff] using hc
  have hfind : (candidates.find? fun name => (r.find? name).isNone).isSome := by
    rw [List.find?_isSome]
    exact ⟨name, hname, by simp [h.find?_of_not_mem hfree]⟩
  obtain ⟨first, hfirst⟩ := Option.isSome_iff_exists.1 hfind
  have hnew : first ∉ given tr := fun hmem => by
    simpa [h.find?_of_mem hc hmem] using List.find?_some hfirst
  have hregister : r.register candidates = some
      ({ r with operations := r.operations ++ [{ name := first }] }, .ok { name := first }) := by
    rw [register, if_neg (by simp [hopen]), hfirst]
    rfl
  exact ⟨first, List.mem_of_find?_eq_some hfirst, hnew, _, hregister⟩

/-- Before the closing no operation is lost, and none that is done changes. -/
theorem Recalls.exists_later {u : List Answered} (h : Recalls tr r) (h' : Recalls (tr ++ u) s)
    (hu : ¬Closed u) {op : Operation} (hop : op ∈ r.operations) :
    ∃ op' ∈ s.operations, op'.name = op.name ∧ (op.done = true → op' = op) := by
  have hc : ¬Closed tr := fun hc => by simp [h.operations_eq_nil hc] at hop
  have hc' : ¬Closed (tr ++ u) := by
    rw [Closed, List.mem_append, not_or]
    exact ⟨hc, hu⟩
  rw [h.operations_eq hc] at hop
  obtain ⟨name, hname, rfl⟩ := List.mem_map.1 hop
  have hgiven : name ∈ given (tr ++ u) := by
    rw [given, List.filterMap_append]
    exact List.mem_append_left _ hname
  rw [h'.operations_eq hc']
  refine ⟨told (tr ++ u) name, List.mem_map_of_mem hgiven, rfl, fun hd => ?_⟩
  obtain ⟨result, hmem, hlookup⟩ := mem_recorded_of_done hd
  have hmem' : (name, result) ∈ recorded (tr ++ u) := by
    rw [recorded, List.filterMap_append]
    exact List.mem_append_left _ hmem
  rw [told_of_mem h'.nodup_recorded hmem', told_of_mem h.nodup_recorded hmem]

/-- **Registries keep the law.** -/
theorem Runs.law (h : Runs {} tr r) : Law tr r where
  done_iff op hop := by
    have hr := h.recalls
    by_cases hc : Closed tr
    · simp [hr.operations_eq_nil hc] at hop
    · rw [hr.operations_eq hc] at hop
      obtain ⟨name, -, rfl⟩ := List.mem_map.1 hop
      exact Option.isSome_iff_exists
  distinct := h.recalls.nodup_given
  registers hc _ := fun ⟨_, hname, hfree⟩ => exists_register h.recalls hc hname hfree
  once := h.recalls.nodup_recorded
  pends hc name hname hnew := by
    have hfind := h.recalls.find?_of_mem hc hname
    rw [told_of_not_mem hnew] at hfind
    exact ⟨get_eq hfind, fun result => setResult_of_pending hfind rfl⟩
  reads hc name result hmem := by
    have hr := h.recalls
    have hfind := hr.find?_of_mem hc (hr.recorded_subset (List.mem_map_of_mem hmem))
    rw [told_of_mem hr.nodup_recorded hmem] at hfind
    exact ⟨get_eq hfind, fun second => by rw [setResult_of_done hfind rfl]⟩
  stays u s hu hclosed op hop :=
    h.recalls.exists_later (h.append hu).recalls hclosed hop
  refuses := ⟨fun _ _ _ => register_refused, fun _ _ _ => setResult_refused⟩
  unknown name hname := by
    have hfind := h.recalls.find?_of_not_mem hname
    exact ⟨get_of_none hfind, fun result => by rw [setResult_of_none hfind]⟩
  closed hc := by
    have hr := h.recalls
    refine ⟨hr.operations_eq_nil hc, fun candidates => if_pos (hr.closed_iff.2 hc), fun name => ?_⟩
    have hfind : r.find? name = none := hr.find?_of_closed hc
    exact ⟨get_of_none hfind, fun result => by rw [setResult_of_none hfind]⟩

/-- Two operations of which the second is proposed the name of the first. The first gets two results
    while the registry is closed. -/
theorem Runs.law_race : ∃ tr r, Runs {} tr r ∧ given tr = ["operations/a", "operations/b"] ∧
    recorded tr = [("operations/a", .ok .cache)] ∧ Closed tr ∧ Law tr r := by
  have h₁ := Runs.nil.call (r := {}) (c := .register ["operations/a"]) rfl
  have h₂ := h₁.call (c := .register ["operations/a", "operations/b"]) rfl
  have h₃ := h₂.call (c := .setResult "operations/a" (.ok .cache)) rfl
  have h₄ := h₃.call (c := .setResult "operations/a" (.ok .forceReconnect)) rfl
  have h₅ := h₄.notify.call (c := .close) rfl
  have h₆ := h₅.call (c := .setResult "operations/b" (.ok .cache)) rfl
  exact ⟨_, _, h₆.notify, rfl, rfl, by simp [Closed], h₆.notify.law⟩

end

end Registry

end Reimage
