/-
  The rollback law of chains.

  A chain executes its commands in order. If one fails, those before it are reverted, the last one
  first, up to the first revert that fails; what comes after the failed command is never touched.

  * `Executed` and `Reverted`: commands that were executed, or reverted, with success;
  * `runChain_run`: the runs of a chain, also those that are cut short;
  * `runChainAfter_sameRuns`: a chain with nothing to undo runs like its commands by themselves;
  * `runChain_rollback`: the law for chains that come to an end.
-/
import Reimage.Install.Command
import Reimage.Proofs.Runs

namespace Reimage

/-- The run has not come to its end, or it has given `a`. -/
def Gives {α : Type} (o : Option α) (a : α) : Prop := o = none ∨ o = some a

@[simp] theorem gives_some {α : Type} {a b : α} : Gives (some b) a ↔ b = a := by simp [Gives]

theorem gives_map {α β : Type} {f : α → β} {o : Option β} {a : α} :
    Gives o (f a) ↔ ∃ r, Gives r a ∧ o = r.map f := by
  constructor
  · rintro (rfl | rfl)
    · exact ⟨none, Or.inl rfl, rfl⟩
    · exact ⟨some a, Or.inr rfl, rfl⟩
  · rintro ⟨_, rfl | rfl, rfl⟩
    · exact Or.inl rfl
    · exact Or.inr rfl

/-- Commands `cs` succeed one after the other. They leave the events `tr`, and are `ds` with what
    they have found out. -/
inductive Executed (p : Plan) : (cs : List Command) → (tr : List Event) → (ds : List Command) → Prop
  | nil : Executed p [] [] []
  | cons {c d : Command} {cs ds : List Command} {t u : List Event} :
    (c.execute p).Run t (some (.ok d)) → Executed p cs u ds →
    Executed p (c :: cs) (t ++ u) (d :: ds)

/-- Commands are reverted one after the other, all with success. They leave the events `tr`. -/
inductive Reverted (p : Plan) : (cs : List Command) → (tr : List Event) → Prop
  | nil : Reverted p [] []
  | cons {c : Command} {cs : List Command} {t u : List Event} :
    (c.revert p).Run t (some (.ok ())) → Reverted p cs u → Reverted p (c :: cs) (t ++ u)

variable {p : Plan} {title : String}

/-! ## Rollback -/

/-- The runs of a rollback. -/
theorem rollback_run {reason : Error} {cs : List Command} {tr : List Event} {o : Option Error} :
    (rollback p title reason cs).Run tr o ↔
      (Reverted p cs tr ∧ Gives o reason) ∨
      ∃ before c after t u, cs = before ++ c :: after ∧ tr = t ++ u ∧ Reverted p before t ∧
        ((o = none ∧ (c.revert p).Run u none) ∨
          ∃ f, (c.revert p).Run u (some (.error f)) ∧ Gives o (.revert reason f)) := by
  induction cs generalizing tr with
  | nil =>
    rw [rollback, Program.run_pure]
    constructor
    · rintro ⟨rfl, h⟩
      exact Or.inl ⟨.nil, h⟩
    · rintro (⟨h, ho⟩ | ⟨before, c, after, t, u, h, -⟩)
      · cases h; exact ⟨rfl, ho⟩
      · exact absurd h.symm (by simp)
  | cons c cs ih =>
    rw [rollback, Procedure.run_log_bind, Program.run_bind]
    constructor
    · rintro (⟨rfl, h⟩ | ⟨t, f | ⟨⟨⟩⟩, u, rfl, h, h'⟩)
      · exact Or.inr ⟨[], c, cs, [], tr, rfl, rfl, .nil, Or.inl ⟨rfl, h⟩⟩
      · obtain ⟨rfl, ho⟩ := Program.run_pure.1 h'
        exact Or.inr ⟨[], c, cs, [], t, rfl, by simp, .nil, Or.inr ⟨f, h, ho⟩⟩
      · obtain ⟨hr, ho⟩ | ⟨before, d, after, v, w, rfl, rfl, hr, hd⟩ := ih.1 h'
        · exact Or.inl ⟨.cons h hr, ho⟩
        · exact Or.inr ⟨c :: before, d, after, t ++ v, w, rfl, (List.append_assoc ..).symm,
            .cons h hr, hd⟩
    · rintro (⟨h, ho⟩ | ⟨before, d, after, t, u, hcs, rfl, hr, hd⟩)
      · cases h with
        | cons h hr => exact Or.inr ⟨_, .ok (), _, rfl, h, ih.2 (Or.inl ⟨hr, ho⟩)⟩
      · cases hr with
        | nil =>
          obtain ⟨rfl, rfl⟩ := List.cons.inj hcs
          rcases hd with ⟨rfl, h⟩ | ⟨f, h, ho⟩
          · exact Or.inl ⟨rfl, h⟩
          · exact Or.inr ⟨u, .error f, [], by simp, h, Program.run_pure.2 ⟨rfl, ho⟩⟩
        | cons h hr =>
          obtain ⟨rfl, rfl⟩ := List.cons.inj hcs
          exact Or.inr ⟨_, .ok (), _, List.append_assoc .., h,
            ih.2 (Or.inr ⟨_, d, after, _, u, rfl, rfl, hr, hd⟩)⟩

/-! ## Chains -/

/-- What happens after the failure of a command for the reason `e`: `executed` is reverted as far
    as that succeeds. -/
def RollsBack (p : Plan) (e : Error) (executed : List Command) (tr : List Event)
    (o : Option (Result (List Command))) : Prop :=
  (Reverted p executed tr ∧ Gives o (.error e)) ∨
  ∃ before c after t u, executed = before ++ c :: after ∧ tr = t ++ u ∧ Reverted p before t ∧
    ((o = none ∧ (c.revert p).Run u none) ∨
      ∃ f, (c.revert p).Run u (some (.error f)) ∧ Gives o (.error (.revert e f)))

/-- A command ends a chain: it is never done, or it fails and `executed` is rolled back. -/
def Ends (p : Plan) (c : Command) (executed : List Command) (tr : List Event)
    (o : Option (Result (List Command))) : Prop :=
  (o = none ∧ (c.execute p).Run tr none) ∨
  ∃ e t u, tr = t ++ u ∧ (c.execute p).Run t (some (.error e)) ∧
    RollsBack p (.context c.failureText e) executed u o

theorem rollsBack_run {e : Error} {executed : List Command} {tr : List Event}
    {o : Option (Result (List Command))} :
    (rollback p title e executed >>= fun e => pure (.error e)).Run tr o ↔
      RollsBack p e executed tr o := by
  rw [Program.run_bind_pure]
  simp only [rollback_run, RollsBack, gives_map (f := Except.error)]
  constructor
  · rintro ⟨r, ⟨h, ho⟩ | ⟨before, c, after, t, u, h₁, h₂, h₃, ⟨rfl, h⟩ | ⟨f, h, ho⟩⟩, rfl⟩
    · exact Or.inl ⟨h, r, ho, rfl⟩
    · exact Or.inr ⟨before, c, after, t, u, h₁, h₂, h₃, Or.inl ⟨rfl, h⟩⟩
    · exact Or.inr ⟨before, c, after, t, u, h₁, h₂, h₃, Or.inr ⟨f, h, r, ho, rfl⟩⟩
  · rintro (⟨h, r, ho, rfl⟩ | ⟨before, c, after, t, u, h₁, h₂, h₃, ⟨rfl, h⟩ | ⟨f, h, r, ho, rfl⟩⟩)
    · exact ⟨r, Or.inl ⟨h, ho⟩, rfl⟩
    · exact ⟨none, Or.inr ⟨before, c, after, t, u, h₁, h₂, h₃, Or.inl ⟨rfl, h⟩⟩, rfl⟩
    · exact ⟨r, Or.inr ⟨before, c, after, t, u, h₁, h₂, h₃, Or.inr ⟨f, h, ho⟩⟩, rfl⟩

/-- The runs of a chain after `executed`, the latest of which comes first. -/
theorem runChainAfter_run {executed cs : List Command} {tr : List Event}
    {o : Option (Result (List Command))} :
    (runChainAfter p title executed cs).Run tr o ↔
      (∃ ds, Executed p cs tr ds ∧ Gives o (.ok (executed.reverse ++ ds))) ∨
      ∃ before c after ds t u, cs = before ++ c :: after ∧ tr = t ++ u ∧
        Executed p before t ds ∧ Ends p c (ds.reverse ++ executed) u o := by
  induction cs generalizing executed tr with
  | nil =>
    rw [runChainAfter, Program.run_pure]
    constructor
    · rintro ⟨rfl, ho⟩
      exact Or.inl ⟨[], .nil, by rwa [List.append_nil]⟩
    · rintro (⟨ds, h, ho⟩ | ⟨before, c, after, ds, t, u, h, -⟩)
      · cases h
        rw [List.append_nil] at ho
        exact ⟨rfl, ho⟩
      · exact absurd h.symm (by simp)
  | cons c cs ih =>
    rw [runChainAfter, Program.run_bind]
    constructor
    · rintro (⟨rfl, h⟩ | ⟨t, e | d, u, rfl, h, h'⟩)
      · exact Or.inr ⟨[], c, cs, [], [], tr, rfl, rfl, .nil, Or.inl ⟨rfl, h⟩⟩
      · exact Or.inr ⟨[], c, cs, [], [], t ++ u, rfl, rfl, .nil,
          Or.inr ⟨e, t, u, rfl, h, rollsBack_run.1 h'⟩⟩
      · obtain ⟨ds, hd, ho⟩ | ⟨before, c', after, ds, v, w, rfl, rfl, hd, hc⟩ := ih.1 h'
        · rw [List.reverse_cons, List.append_assoc] at ho
          exact Or.inl ⟨d :: ds, .cons h hd, ho⟩
        · refine Or.inr ⟨c :: before, c', after, d :: ds, t ++ v, w, rfl,
            (List.append_assoc ..).symm, .cons h hd, ?_⟩
          rwa [List.reverse_cons, List.append_assoc]
    · rintro (⟨_, h, ho⟩ | ⟨before, c', after, _, t, u, hcs, rfl, hd, hc⟩)
      · cases h with
        | cons h hd =>
          refine Or.inr ⟨_, .ok _, _, rfl, h, ih.2 (Or.inl ⟨_, hd, ?_⟩)⟩
          rwa [List.reverse_cons, List.append_assoc]
      · cases hd with
        | nil =>
          obtain ⟨rfl, rfl⟩ := List.cons.inj hcs
          rcases hc with ⟨rfl, h⟩ | ⟨e, t, u, rfl, h, hr⟩
          · exact Or.inl ⟨rfl, h⟩
          · exact Or.inr ⟨t, .error e, u, rfl, h, rollsBack_run.2 hr⟩
        | cons h hd =>
          obtain ⟨rfl, rfl⟩ := List.cons.inj hcs
          refine Or.inr ⟨_, .ok _, _, List.append_assoc .., h,
            ih.2 (Or.inr ⟨_, c', after, _, _, u, rfl, rfl, hd, ?_⟩)⟩
          rwa [List.reverse_cons, List.append_assoc] at hc

/-- The runs of a chain, also those that are cut short. -/
theorem runChain_run {cs : List Command} {tr : List Event} {o : Option (Result (List Command))} :
    (runChain p title cs).Run tr o ↔
      (∃ ds, Executed p cs tr ds ∧ Gives o (.ok ds)) ∨
      ∃ before c after ds t u, cs = before ++ c :: after ∧ tr = t ++ u ∧
        Executed p before t ds ∧ Ends p c ds.reverse u o := by
  simp [runChain, runChainAfter_run]

/-- A chain succeeds if all its commands do. -/
theorem runChain_ok {cs ds : List Command} {tr : List Event} :
    (runChain p title cs).Run tr (some (.ok ds)) ↔ Executed p cs tr ds := by
  simp [runChain_run, Ends, RollsBack]

/-- In a chain that succeeds each command does. -/
theorem Executed.mem {cs ds : List Command} {tr : List Event} (h : Executed p cs tr ds)
    {c : Command} (hc : c ∈ cs) :
    ∃ a t b d, tr = a ++ (t ++ b) ∧ (c.execute p).Run t (some (.ok d)) := by
  induction h with
  | nil => cases hc
  | @cons c' d cs ds t u h _ ih =>
    rcases List.mem_cons.1 hc with rfl | hc
    · exact ⟨[], t, u, d, rfl, h⟩
    · obtain ⟨a, v, b, d, rfl, h⟩ := ih hc
      exact ⟨t ++ a, v, b, d, by simp, h⟩

/-- Commands in two parts. -/
theorem Executed.split {cs cs' ds : List Command} {tr : List Event}
    (h : Executed p (cs ++ cs') tr ds) :
    ∃ t u es fs, tr = t ++ u ∧ ds = es ++ fs ∧ Executed p cs t es ∧ Executed p cs' u fs := by
  induction cs generalizing tr ds with
  | nil => exact ⟨[], tr, [], ds, rfl, rfl, .nil, h⟩
  | cons c cs ih =>
    cases h with
    | @cons _ d _ _ v w hc hrest =>
      obtain ⟨t, u, es, fs, rfl, rfl, hes, hfs⟩ := ih hrest
      exact ⟨v ++ t, u, d :: es, fs, (List.append_assoc ..).symm, rfl, .cons hc hes, hfs⟩

/-! ## What a command finds out -/

/-- `d` is the command `c` after its work, with what it has found out. -/
inductive Command.Done : (c d : Command) → Prop
  | same (c : Command) : Done c c
  | slot (x y : Option String) : Done (.checkFirmwareSlot x) (.checkFirmwareSlot y)

theorem Command.kept_run {α : Type} {c d : Command} {work : Procedure (Result α)}
    {tr : List Event} : (c.kept work).Run tr (some (.ok d)) ↔
      d = c ∧ ∃ a, work.Run tr (some (.ok a)) := by
  rw [Command.kept, Program.run_bind_pure_some]
  constructor
  · rintro ⟨e | a, h, hd⟩
    · cases hd
    · cases hd; exact ⟨rfl, a, h⟩
  · rintro ⟨rfl, a, h⟩
    exact ⟨.ok a, h, rfl⟩

theorem Command.done_of_execute {c d : Command} {tr : List Event}
    (h : (c.execute p).Run tr (some (.ok d))) : c.Done d := by
  cases c with
  | checkFirmwareSlot x =>
    obtain ⟨y, -, rfl⟩ := Program.run_map_ok.1 h
    exact .slot x y
  | _ => obtain ⟨rfl, -⟩ := Command.kept_run.1 h; exact .same _

theorem Executed.done {cs ds : List Command} {tr : List Event} (h : Executed p cs tr ds) :
    List.Forall₂ Command.Done cs ds := by
  induction h with
  | nil => exact .nil
  | cons h _ ih => exact .cons (Command.done_of_execute h) ih

/-- What a command has found out does not matter to its revert. -/
theorem Command.Done.revert_eq {c d : Command} (h : c.Done d) : d.revert p = c.revert p := by
  cases h <;> rfl

theorem Executed.exists_done {cs ds : List Command} {tr : List Event} (h : Executed p cs tr ds)
    {d : Command} (hd : d ∈ ds) : ∃ c ∈ cs, c.Done d := by
  induction h with
  | nil => cases hd
  | cons h _ ih =>
    rcases List.mem_cons.1 hd with rfl | hd
    · exact ⟨_, List.mem_cons_self, Command.done_of_execute h⟩
    · obtain ⟨c, hc, hdone⟩ := ih hd
      exact ⟨c, List.mem_cons_of_mem _ hc, hdone⟩

/-! ## What a chain leaves behind -/

section

variable {P : List Event → Prop} {cs ds : List Command} {tr : List Event}

theorem Executed.trace (h : Executed p cs tr ds) (hnil : P [])
    (happend : ∀ t u, P t → P u → P (t ++ u))
    (hc : ∀ c ∈ cs, ∀ t o, (c.execute p).Run t o → P t) : P tr := by
  induction h with
  | nil => exact hnil
  | cons h _ ih =>
    rw [List.forall_mem_cons] at hc
    exact happend _ _ (hc.1 _ _ h) (ih hc.2)

theorem Reverted.trace (h : Reverted p cs tr) (hnil : P [])
    (happend : ∀ t u, P t → P u → P (t ++ u))
    (hc : ∀ c ∈ cs, ∀ t o, (c.revert p).Run t o → P t) : P tr := by
  induction h with
  | nil => exact hnil
  | cons h _ ih =>
    rw [List.forall_mem_cons] at hc
    exact happend _ _ (hc.1 _ _ h) (ih hc.2)

theorem RollsBack.trace {e : Error} {o : Option (Result (List Command))}
    (h : RollsBack p e ds tr o) (hnil : P []) (happend : ∀ t u, P t → P u → P (t ++ u))
    (hc : ∀ c ∈ ds, ∀ t o, (c.revert p).Run t o → P t) : P tr := by
  obtain ⟨h, -⟩ | ⟨before, c, after, t, u, rfl, rfl, hr, hf⟩ := h
  · exact h.trace hnil happend hc
  · rw [List.forall_mem_append, List.forall_mem_cons] at hc
    refine happend _ _ (hr.trace hnil happend hc.1) ?_
    rcases hf with ⟨-, h⟩ | ⟨f, h, -⟩ <;> exact hc.2.1 _ _ h

/-- A property that passes from two traces to one after the other holds of what a chain leaves
    behind, if it does of what its commands and their reverts leave. -/
theorem runChain_trace {o : Option (Result (List Command))} (h : (runChain p title cs).Run tr o)
    (hnil : P []) (happend : ∀ t u, P t → P u → P (t ++ u))
    (hc : ∀ c ∈ cs, ∀ t o, (c.execute p).Run t o → P t)
    (hr : ∀ c ∈ cs, ∀ t o, (c.revert p).Run t o → P t) : P tr := by
  obtain ⟨ds, hd, -⟩ | ⟨before, c, after, ds, t, u, rfl, rfl, hd, he⟩ := runChain_run.1 h
  · exact hd.trace hnil happend hc
  rw [List.forall_mem_append, List.forall_mem_cons] at hc hr
  refine happend _ _ (hd.trace hnil happend hc.1) ?_
  obtain ⟨-, h⟩ | ⟨e, v, w, rfl, h, hb⟩ := he
  · exact hc.2.1 _ _ h
  · refine happend _ _ (hc.2.1 _ _ h) (hb.trace hnil happend fun d hd' => ?_)
    obtain ⟨c', hc', hdone⟩ := hd.exists_done (List.mem_reverse.1 hd')
    rw [hdone.revert_eq]
    exact hr.1 c' hc'

end

/-! ## Chains that go on -/

/-- After its success a command goes on. The writes of the partitions are left out: their events do
    not tell which of the two has left which. -/
theorem Command.leads {c d : Command} (hc : c ≠ .installPartitions) {tr : List Event}
    (h : (c.execute p).Run tr (some (.ok d))) : (c.execute p).Leads tr (.ok d) := by
  cases c with
  | installPartitions => exact absurd rfl hc
  | _ => exact Task.leads_map h

/-- After its first commands have succeeded a chain goes on with those that are left. -/
theorem Executed.goes_on {β : Type} {cs ds executed : List Command} (rest : List Command)
    {t u : List Event} {f : Result (List Command) → Procedure β} {o : Option β}
    (h : Executed p cs t ds) (hcs : .installPartitions ∉ cs)
    (hrun : (runChainAfter p title executed (cs ++ rest) >>= f).Run (t ++ u) o) :
    (runChainAfter p title (ds.reverse ++ executed) rest >>= f).Run u o := by
  induction h generalizing executed with
  | nil => exact hrun
  | @cons c d cs ds t v hc _ ih =>
    rw [List.mem_cons, not_or] at hcs
    rw [List.cons_append, runChainAfter, Program.bind_assoc, List.append_assoc] at hrun
    have hnext := ih hcs.2 ((Command.leads (Ne.symm hcs.1) hc).run hrun)
    rwa [List.reverse_cons, List.append_assoc]

/-! ## Chains with nothing to undo -/

/-- A chain of two parts. -/
theorem runChainAfter_append (executed cs cs' : List Command) :
    runChainAfter p title executed (cs ++ cs') =
      (runChainAfter p title executed cs).andThen fun ds =>
        runChainAfter p title ds.reverse cs' := by
  induction cs generalizing executed with
  | nil =>
    show _ = runChainAfter p title executed.reverse.reverse cs'
    rw [List.reverse_reverse, List.nil_append]
  | cons c cs ih =>
    rw [List.cons_append, runChainAfter, runChainAfter, Procedure.andThen, Program.bind_assoc]
    congr 1
    funext r
    cases r with
    | error e =>
      simp only [Program.bind_assoc]
      rfl
    | ok d => exact ih (d :: executed)

/-- Nothing is left to undo after the command. -/
def Command.Harmless (p : Plan) (c : Command) : Prop := c.revert p = pure (.ok ())

/-- Executes commands after those in `executed`, each of them outside a chain. -/
def executeInTurn (p : Plan) : (executed : List Command) → List Command →
    Procedure (Result (List Command))
  | executed, [] => pure (.ok executed.reverse)
  | executed, c :: cs => (c.executeAlone p).andThen fun d => executeInTurn p (d :: executed) cs

theorem rollback_sameRuns {cs : List Command} (hcs : ∀ c ∈ cs, c.Harmless p) (reason : Error) :
    (rollback p title reason cs).SameRuns (pure reason) := by
  induction cs with
  | nil => exact .refl _
  | cons c cs ih =>
    intro tr o
    rw [List.forall_mem_cons] at hcs
    rw [rollback, Procedure.run_log_bind, hcs.1]
    exact ih hcs.2 tr o

/-- A failure with nothing to undo. -/
theorem rollback_harmless {cs : List Command} (hcs : ∀ c ∈ cs, c.Harmless p) {e : Error}
    {tr : List Event} {o : Option (Result (List Command))} :
    (rollback p title e cs >>= fun e => pure (.error e)).Run tr o ↔
      tr = [] ∧ Gives o (.error e) :=
  (Program.SameRuns.bind (rollback_sameRuns hcs e) (fun _ _ _ => .refl _) tr o).trans
    Program.run_pure

/-- A rollback where only the latest command has something to undo. -/
theorem rollback_latest {c : Command} {cs : List Command} (hcs : ∀ d ∈ cs, d.Harmless p)
    {reason : Error} {tr : List Event} {o : Option Error}
    (h : (rollback p title reason (c :: cs)).Run tr o) :
    ∃ r, (c.revert p).Run tr r ∧ (o = none ∨ r.isSome) := by
  rw [rollback, Procedure.run_log_bind] at h
  obtain ⟨rfl, h₁⟩ | ⟨t, r, u, rfl, h₁, h₂⟩ := Program.run_bind.1 h
  · exact ⟨none, h₁, Or.inl rfl⟩
  · have hu : u = [] := by
      rcases r with f | ⟨⟩
      · exact (Program.run_pure.1 h₂).1
      · exact (Program.run_pure.1 ((rollback_sameRuns hcs reason u o).1 h₂)).1
    rw [hu, List.append_nil]
    exact ⟨some r, h₁, Or.inr rfl⟩

/-- The command that was executed is harmless if it was so before. -/
theorem Command.Harmless.executed {c d : Command} (hc : c.Harmless p) {tr : List Event}
    (h : (c.execute p).Run tr (some (.ok d))) : d.Harmless p := by
  have hrevert := (Command.done_of_execute h).revert_eq (p := p)
  exact hrevert.trans hc

theorem Executed.harmless {cs ds : List Command} {tr : List Event} (h : Executed p cs tr ds)
    (hcs : ∀ c ∈ cs, c.Harmless p) : ∀ d ∈ ds, d.Harmless p := by
  intro d hd
  obtain ⟨c, hc, hdone⟩ := h.exists_done hd
  exact hdone.revert_eq.trans (hcs c hc)

/-- **A chain with nothing to undo.** -/
theorem runChainAfter_sameRuns {executed cs : List Command}
    (hexecuted : ∀ d ∈ executed, d.Harmless p) (hcs : ∀ c ∈ cs, c.Harmless p) :
    (runChainAfter p title executed cs).SameRuns (executeInTurn p executed cs) := by
  induction cs generalizing executed with
  | nil => exact .refl _
  | cons c cs ih =>
    rw [List.forall_mem_cons] at hcs
    rw [runChainAfter, executeInTurn, Command.executeAlone, Procedure.andThen, Program.bind_assoc]
    refine .bind (.refl _) fun t r hr => ?_
    cases r with
    | error e => exact .bind (rollback_sameRuns hexecuted _) fun _ _ _ => .refl _
    | ok d =>
      refine ih ?_ hcs.2
      exact List.forall_mem_cons.2 ⟨hcs.1.executed hr, hexecuted⟩

/-! ## The law -/

/-- What `RollsBack` says of a rollback that came to its end. -/
theorem rollsBack_some {e : Error} {executed : List Command} {tr : List Event}
    {r : Result (List Command)} :
    RollsBack p e executed tr (some r) ↔
      (Reverted p executed tr ∧ r = .error e) ∨
      ∃ undone d rest f t u, executed = undone ++ d :: rest ∧ tr = t ++ u ∧
        Reverted p undone t ∧ (d.revert p).Run u (some (.error f)) ∧ r = .error (.revert e f) := by
  simp only [RollsBack, gives_some, reduceCtorEq, false_and, false_or]
  refine or_congr_right ⟨?_, ?_⟩
  · rintro ⟨undone, d, rest, t, u, h, rfl, hr, f, hf, ho⟩
    exact ⟨undone, d, rest, f, t, u, h, rfl, hr, hf, ho⟩
  · rintro ⟨undone, d, rest, f, t, u, h, rfl, hr, hf, ho⟩
    exact ⟨undone, d, rest, t, u, h, rfl, hr, f, hf, ho⟩

/-- **Rollback.** A chain that came to its end has either executed all its commands and reverted
    nothing, or a command `c` of it failed first: then the commands before `c` were reverted, the
    latest first, up to the first revert that failed, and those after `c` were never touched. A run
    that is cut short keeps to the same order. -/
theorem runChain_rollback (p : Plan) (title : String) (cs : List Command) :
    (∀ tr r, (runChain p title cs).Run tr (some r) ↔
      (∃ ds, Executed p cs tr ds ∧ r = .ok ds) ∨
      ∃ before c after ds e t u v, cs = before ++ c :: after ∧ tr = t ++ (u ++ v) ∧
        Executed p before t ds ∧ (c.execute p).Run u (some (.error e)) ∧
        (((Reverted p ds.reverse v ∧ r = .error (.context c.failureText e)) ∧
            (Error.context c.failureText e).kind = e.kind ∧
            (Error.context c.failureText e).root = e.root) ∨
          ∃ undone d rest f x y, ds.reverse = undone ++ d :: rest ∧ v = x ++ y ∧
            Reverted p undone x ∧ (d.revert p).Run y (some (.error f)) ∧
            r = .error (.revert (.context c.failureText e) f) ∧
            (Error.revert (.context c.failureText e) f).kind = .fatal)) ∧
    (∀ tr, (runChain p title cs).Run tr none ↔
      (∃ ds, Executed p cs tr ds) ∨
      ∃ before c after ds t u, cs = before ++ c :: after ∧ tr = t ++ u ∧
        Executed p before t ds ∧ Ends p c ds.reverse u none) ∧
    ∀ tr ds, Executed p cs tr ds → List.Forall₂ Command.Done cs ds := by
  refine ⟨fun tr r => ?_, fun tr => ?_, fun tr ds h => h.done⟩
  · simp only [runChain_run, gives_some, Ends, reduceCtorEq, false_and, false_or, rollsBack_some]
    refine or_congr_right ⟨?_, ?_⟩
    · rintro ⟨before, c, after, ds, t, w, hcs, rfl, hd, e, u, v, rfl, he, hb⟩
      refine ⟨before, c, after, ds, e, t, u, v, hcs, rfl, hd, he, hb.imp ?_ ?_⟩
      · exact fun h => ⟨h, by simp [Error.kind], by simp [Error.root]⟩
      · rintro ⟨undone, d, rest, f, x, y, h, hv, hr, hf, ho⟩
        exact ⟨undone, d, rest, f, x, y, h, hv, hr, hf, ho, by simp [Error.kind]⟩
    · rintro ⟨before, c, after, ds, e, t, u, v, hcs, rfl, hd, he, hb⟩
      refine ⟨before, c, after, ds, t, u ++ v, hcs, rfl, hd, e, u, v, rfl, he, hb.imp And.left ?_⟩
      rintro ⟨undone, d, rest, f, x, y, h, hv, hr, hf, ho, -⟩
      exact ⟨undone, d, rest, f, x, y, h, hv, hr, hf, ho⟩
  · simp [runChain_run, Gives]

end Reimage
