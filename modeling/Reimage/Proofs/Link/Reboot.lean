/-
  Which connection a restart sees drop, when other calls share the link.

  A restart reads the current connection twice: for the connection whose end it waits for, and
  again to run the reboot command. Between the two reads another call may replace the connection.

  * `Calls.Runs.restart_reads`: the connection that was seen to drop is the one on which the reboot
    command ran, unless another call has installed a connection between the two reads;
  * `restart_unseen`: a run in which that happens, and the restart reports success although nothing
    shows that the connection it rebooted has dropped.
-/
import Reimage.Proofs.Link.Slot
import Reimage.Proofs.Link.Success

namespace Reimage.Link

variable {l : Link} {i : Nat} {c : Connection}

/-! ## The history of a restart -/

/-- After `past`, the event `e` gives a call the connection `c`. -/
inductive Gives (past : List Event) (c : Connection) : Event → Prop
  | current : Gives past c ⟨.current, some c⟩
  | first : FirstDial past c → Gives past c ⟨.install c, true⟩

theorem Gives.prepend {past : List Event} {e : Event} (h : Gives past c e) (t : List Event) :
    Gives (t ++ past) c e := by
  cases h with
  | current => exact .current
  | first h => exact .first (List.suffix_append_of_suffix h)

theorem Gives.took {past : List Event} {e : Event} (h : Gives past c e) :
    e = ⟨.current, some c⟩ ∨ e = ⟨.install c, true⟩ := by
  cases h with
  | current => exact .inl rfl
  | first => exact .inr rfl

theorem connection_ok {tr : List Event} (h : l.connection.Run tr (some (.ok c))) :
    ∃ t e u, tr = t ++ e :: u ∧ Gives t c e ∧ (∀ x ∈ t, x.Quiet) ∧ ∀ x ∈ u, x.Quiet := by
  obtain ⟨closed, _, rfl, h₁⟩ := Task.run_ask_bind_some.1 h
  match closed with
  | true => cases (Program.run_pure_some.1 h₁).2
  | false =>
    obtain ⟨known, _, rfl, h₂⟩ := Task.run_ask_bind_some.1 h₁
    match known with
    | some c' =>
      obtain ⟨rfl, ⟨⟩⟩ := Program.run_pure_some.1 h₂
      exact ⟨[⟨.isClosed, false⟩], _, [], rfl, .current, by simp [Event.Quiet], by simp⟩
    | none =>
      obtain ⟨_, _, rfl, h₃⟩ := Task.run_ask_bind_some.1 h₂
      obtain ⟨known, _, rfl, h₄⟩ := Task.run_ask_bind_some.1 h₃
      match known with
      | some c' =>
        obtain ⟨_, _, rfl, h₅⟩ := Task.run_ask_bind_some.1 h₄
        obtain ⟨rfl, ⟨⟩⟩ := Program.run_pure_some.1 h₅
        exact ⟨[⟨.isClosed, false⟩, ⟨.current, none⟩, ⟨.acquire, ()⟩], _, [⟨.release, ()⟩], rfl,
          .current, by simp [Event.Quiet], by simp [Event.Quiet]⟩
      | none =>
        obtain ⟨dialed, _, rfl, h₅⟩ := Task.run_ask_bind_some.1 h₄
        match dialed with
        | .error e =>
          obtain ⟨_, _, rfl, h₆⟩ := Task.run_ask_bind_some.1 h₅
          cases (Program.run_pure_some.1 h₆).2
        | .ok c' =>
          obtain ⟨_, r, _, rfl, h₆, h₇⟩ := Program.run_bind_some.1 h₅
          obtain ⟨installed, _, rfl, h₈⟩ := Task.run_ask_bind_some.1 h₆
          obtain ⟨_, _, rfl, h₉⟩ := Task.run_ask_bind_some.1 h₇
          match installed with
          | true =>
            obtain ⟨rfl, rfl⟩ := Program.run_pure_some.1 h₈
            obtain ⟨rfl, ⟨⟩⟩ := Program.run_pure_some.1 h₉
            refine ⟨[⟨.isClosed, false⟩, ⟨.current, none⟩, ⟨.acquire, ()⟩, ⟨.current, none⟩,
              ⟨.dial, .ok c'⟩], _, [⟨.release, ()⟩], rfl, .first ⟨[_, _], rfl⟩, ?_, ?_⟩
            · simp [Event.Quiet]
            · simp [Event.Quiet]
          | false =>
            obtain ⟨_, _, rfl, h₁₀⟩ := Task.run_ask_bind_some.1 h₈
            obtain ⟨-, rfl⟩ := Program.run_pure_some.1 h₁₀
            cases (Program.run_pure_some.1 h₉).2

/-- Between the connection it reads and the command it runs, a call installs nothing. -/
theorem runCommand_reads {command : String} {args : List String} {stdin : Option (List UInt8)}
    {mode : StderrMode} {tr : List Event} {out : String}
    (h : (l.runCommand command args stdin mode).Run tr (some (.ok out))) :
    ∃ c f t e u, tr = t ++ e :: u ∧ Gives t c e ∧ (∀ x ∈ t, x.Quiet) ∧ f.status = 0 ∧
      (⟨.run c (Shell.commandLine command args) stdin mode, .ok f⟩ : Event) ∈ u := by
  obtain ⟨r, hrun, hr⟩ := Program.run_bind_pure_some.1 h
  obtain ⟨f, rfl, hf, -⟩ := ExecResult.intoStdout_eq_ok.1 hr.symm
  obtain ⟨v, e | c, w, rfl, h₁, h₂⟩ := Program.run_bind_some.1 hrun
  · cases (Program.run_pure_some.1 h₂).2
  · obtain ⟨a, _, rfl, h₃⟩ := Task.run_ask_bind_some.1 h₂
    obtain ⟨rfl, ha⟩ := Program.run_pure_some.1 h₃
    obtain ⟨t, e, u, rfl, he, ht, -⟩ := connection_ok h₁
    match a with
    | .error _ => cases ha
    | .ok g =>
      cases ha
      exact ⟨c, f, t, e, u ++ [⟨.run c (Shell.commandLine command args) stdin mode, .ok f⟩],
        by simp [Ask.record], he, ht, hf, by simp⟩

/-- **The history of a restart that succeeded.** -/
theorem restart_history {args : List String} {timeout : Duration} {tr : List Event} {out : String}
    (h : (l.restart args timeout).Run tr (some (.ok out))) :
    ∃ old c f deadline new t e u e' v, tr = t ++ e :: (u ++ e' :: v) ∧ Gives t old e ∧
      Gives u c e' ∧ (∀ x ∈ u, x.Quiet) ∧ f.status = 0 ∧
      List.Sublist [(⟨.run c (Shell.commandLine "reboot" args) none .separate, .ok f⟩ : Event),
        ⟨.awaitCloseBefore old deadline, some (.ok ())⟩, ⟨.acquire, ()⟩,
        ⟨.dialBefore deadline, some (.ok new)⟩, ⟨.install new, true⟩] v := by
  obtain ⟨t₀, deadline, _, rfl, -, h₁⟩ := Program.run_bind_some.1 h
  obtain ⟨t₁, old, _, rfl, hold, h₂⟩ := Task.run_andThen_ok.1 h₁
  obtain ⟨t₂, printed, _, rfl, hrun, h₃⟩ := Task.run_andThen_ok.1 h₂
  rw [Task.run_log_bind] at h₃
  obtain ⟨dropped, _, rfl, h₄⟩ := Task.run_ask_bind_some.1 h₃
  match dropped with
  | none => simp at h₄
  | some (.error e) => simp at h₄
  | some (.ok ()) =>
    obtain ⟨t₃, ⟨⟩, t₄, rfl, h₅, -⟩ := Task.run_andThen_ok.1 h₄
    obtain ⟨t, e, u, rfl, he, -, hu⟩ := connection_ok hold
    obtain ⟨c, f, t', e', v, rfl, he', ht', hf, hc⟩ := runCommand_reads hrun
    obtain ⟨new, hnew⟩ := redial_sublist h₅
    refine ⟨old, c, f, deadline, new, t₀ ++ t, e, u ++ t', e',
      v ++ ⟨.awaitCloseBefore old deadline, some (.ok ())⟩ :: (t₃ ++ t₄), ?_, he.prepend t₀,
      he'.prepend u, ?_, hf, ?_⟩
    · simp [Ask.record]
    · intro x hx
      exact (List.mem_append.1 hx).elim (hu x) (ht' x)
    · have hnew := (hnew.trans (List.sublist_append_left t₃ t₄)).cons_cons
        (⟨.awaitCloseBefore old deadline, some (.ok ())⟩ : Event)
      exact (List.singleton_sublist.2 hc).append hnew

/-! ## Restarts among other calls -/

/-- In `tr`, call `i` has run its reboot command on `c`, seen `old` drop after that, and then dialed
    and installed another connection. -/
def Rebooted (i : Nat) (args : List String) (c old : Connection) (tr : List Move) : Prop :=
  ∃ f deadline new, f.status = 0 ∧ List.Sublist
    [.does i ⟨.run c (Shell.commandLine "reboot" args) none .separate, .ok f⟩,
      .does i ⟨.awaitCloseBefore old deadline, some (.ok ())⟩, .does i ⟨.acquire, ()⟩,
      .does i ⟨.dialBefore deadline, some (.ok new)⟩, .does i ⟨.install new, true⟩] tr

namespace Calls

variable {uses : Nat → Use} {tr u : List Move} {s s' : Calls}

/-- Once there is a connection, there is one until the link is closed; it is the old one or one that
    was installed since. -/
theorem Runs.exists_current (h : s.Runs u s') {P : Connection → Prop}
    (hs : ∃ c, s.current.connection = some c ∧ P c)
    (hP : ∀ j n, .does j ⟨.install n, true⟩ ∈ u → P n) :
    (∃ c, s'.current.connection = some c ∧ P c) ∨ s'.current.closed = true := by
  induction h with
  | nil => exact .inl hs
  | @cons s s' s'' m tr h₁ h₂ ih =>
    have hP' : ∀ j n, .does j ⟨.install n, true⟩ ∈ tr → P n :=
      fun j n h => hP j n (List.mem_cons_of_mem _ h)
    obtain h | ⟨j, known, -, h⟩ | ⟨j, n, rfl, -, h⟩ := h₁.current
    · exact ih (h ▸ hs) hP'
    · exact .inr (h₂.closed (by rw [h]))
    · exact ih ⟨n, by rw [h], hP j n (List.mem_cons_self ..)⟩ hP'

/-- A call that finds a connection installs no first one. -/
theorem Step.eq_current_of_gives (h : (start l uses).Runs tr s) {e : Event}
    (hm : s.Step (.does i e) s') (he : Gives (own i tr) c e)
    (hs : (∃ c, s.current.connection = some c) ∨ s.current.closed = true) :
    e = ⟨.current, some c⟩ := by
  cases he with
  | current => rfl
  | first hc =>
    obtain ⟨t, ht⟩ := hm.exists_task
    obtain ⟨c', hc'⟩ | hc' := hs
    · rw [h.sound.empty i t ht hc.foundNone] at hc'
      cases hc'
    · have := hm.answer_install.1
      rw [hc'] at this
      cases this

/-- **The two connections of a restart.** A restart that succeeded has read the current connection
    twice. It has seen the first drop, after the reboot command had run on the second. They are the
    same unless another call has installed a connection in between. -/
theorem Runs.restart_reads {args : List String} {timeout : Duration} {out : String}
    (h : (start l uses).Runs tr s) (hu : uses i = .restart args timeout)
    (hr : s.result i = some (.restart (.ok out))) :
    ∃ old c t e u v, tr = t ++ .does i e :: (u ++ .does i ⟨.current, some c⟩ :: v) ∧
      (e = ⟨.current, some old⟩ ∨ e = ⟨.install old, true⟩) ∧ Rebooted i args c old v ∧
      (c = old ∨ ∃ j n, j ≠ i ∧ .does j ⟨.install n, true⟩ ∈ u) := by
  have hrun := h.run_own (i := i) rfl
  rw [hr, hu] at hrun
  obtain ⟨r, hrun, hr'⟩ := Program.run_bind_pure_some.1 hrun
  cases hr'
  obtain ⟨old, c, f, deadline, new, t, e, u, e', v, hown, he, he', hq, hf, hv⟩ :=
    restart_history hrun
  -- The two reads as moves, and the states around them.
  obtain ⟨t', w, rfl, rfl, hw⟩ := own_eq_append_cons hown
  obtain ⟨u', v', rfl, rfl, rfl⟩ := own_eq_append_cons hw
  obtain ⟨s₁, h₁, h₂⟩ := runs_append.1 h
  obtain ⟨s₂, hm, h₃⟩ := runs_cons.1 h₂
  obtain ⟨s₃, h₄, h₅⟩ := runs_append.1 h₃
  obtain ⟨s₄, hm', -⟩ := runs_cons.1 h₅
  have hold := hm.current_of_took he.took
  have hpast := (h₁.snoc hm).append h₄
  have hs₃ := h₄.exists_current (P := fun _ => True) ⟨old, hold, trivial⟩ fun _ _ _ => trivial
  obtain rfl : e' = ⟨.current, some c⟩ := by
    refine hm'.eq_current_of_gives hpast (by rw [own_append]; exact he'.prepend _) ?_
    exact hs₃.imp_left fun ⟨c', h, _⟩ => ⟨c', h⟩
  refine ⟨old, c, t', e, u', v', rfl, he.took, ⟨f, deadline, new, hf, ?_⟩, ?_⟩
  · exact (hv.map (Move.does i)).trans (map_own_sublist i v')
  · by_contra hne
    obtain ⟨hne, hother⟩ := not_or.1 hne
    have hmine : ∀ j n, .does j ⟨.install n, true⟩ ∈ u' → n = old := by
      intro j n hj
      by_cases hji : j = i
      · subst hji
        refine (hq ⟨.install n, true⟩ ?_).elim
        obtain ⟨x, y, rfl⟩ := List.append_of_mem hj
        simp [Ask.record]
      · exact absurd ⟨j, n, hji, hj⟩ hother
    have hc : some c = s₃.current.connection := by
      cases hm' with
      | does _ ha => exact ha
    obtain ⟨c', hc', rfl⟩ | hclosed := h₄.exists_current (P := (· = old)) ⟨old, hold, rfl⟩ hmine
    · exact hne (Option.some.inj (hc.trans hc'))
    · rw [hpast.sound.closed hclosed] at hc
      cases hc

end Calls

/-! ## A reboot that nobody saw -/

/-- The connection that a move shows to be closed. -/
def Move.shows : Move → Option Connection
  | .does _ ⟨.awaitClose c, .ok _⟩ => some c
  | .does _ ⟨.awaitCloseBefore c _, some (.ok _)⟩ => some c
  | _ => none

/-- The connections of `unseen`, in the order in which they are dialed. -/
def nth (k : Nat) : Connection := ⟨k, "10.0.0.2"⟩

/-- One call dials, one restarts, and one replaces the connection. -/
def unseenUses : Nat → Use
  | 0 => .connect
  | 1 => .restart [] ⟨5⟩
  | 2 => .reconnect
  | _ => .close

/-- The restart waits for the end of a connection that is long dead, and reboots on another one. -/
def unseen : List Move := [
  .does 0 ⟨.isClosed, false⟩, .does 0 ⟨.current, none⟩, .does 0 ⟨.acquire, ()⟩,
  .does 0 ⟨.current, none⟩, .does 0 ⟨.dial, .ok (nth 1)⟩, .does 0 ⟨.install (nth 1), true⟩,
  .does 0 ⟨.release, ()⟩,
  .does 1 ⟨.now, ⟨0⟩⟩, .does 1 ⟨.isClosed, false⟩, .does 1 ⟨.current, some (nth 1)⟩,
  .does 2 ⟨.acquire, ()⟩, .does 2 ⟨.dial, .ok (nth 2)⟩, .does 2 ⟨.install (nth 2), true⟩,
  .does 2 ⟨.log (.info ("Reconnected to " ++ "dut1" ++ " at " ++ "10.0.0.2")), ()⟩,
  .does 2 ⟨.release, ()⟩,
  .does 1 ⟨.isClosed, false⟩, .does 1 ⟨.current, some (nth 2)⟩,
  .does 1 ⟨.run (nth 2) (Shell.commandLine "reboot" []) none .separate, .ok {}⟩,
  .does 1 ⟨.log (.info
    ("Reboot issued on " ++ "dut1" ++ ", waiting for the connection to drop")), ()⟩,
  .does 1 ⟨.awaitCloseBefore (nth 1) ⟨5⟩, some (.ok ())⟩, .does 1 ⟨.acquire, ()⟩,
  .does 1 ⟨.dialBefore ⟨5⟩, some (.ok (nth 3))⟩, .does 1 ⟨.install (nth 3), true⟩,
  .does 1 ⟨.log (.info ("Reconnected to " ++ "dut1" ++ " after reboot")), ()⟩,
  .does 1 ⟨.release, ()⟩]

theorem unseen_runs : ∃ s, (Calls.start { dut := "dut1" } unseenUses).Runs unseen s ∧
    s.result 1 = some (.restart (.ok (Text.Utf8.lossy []))) := by
  unfold unseen
  repeat refine exists_runs_cons (.does rfl (by first | exact rfl | exact trivial)) ?_
  exact ⟨_, .nil _, rfl⟩

/-- **A restart may report success without a reboot.** The restart has run its reboot command on the
    second connection, and nothing in the whole run shows that this one was ever closed. -/
theorem restart_unseen : ∃ s out, (Calls.start { dut := "dut1" } unseenUses).Runs unseen s ∧
    s.result 1 = some (.restart (.ok out)) ∧
    (.does 1 ⟨.run (nth 2) (Shell.commandLine "reboot" []) none .separate, .ok {}⟩ ∈ unseen ∧
      nth 2 ∉ unseen.filterMap Move.shows) ∧
    ¬ ∃ c, Rebooted 1 [] c c unseen := by
  obtain ⟨s, h, hr⟩ := unseen_runs
  refine ⟨s, _, h, hr, ⟨by simp [unseen], by decide⟩, ?_⟩
  rintro ⟨c, f, deadline, new, -, hsub⟩
  obtain ⟨rfl, -⟩ : c = nth 2 ∧ f = {} := by
    simpa [unseen] using hsub.subset (List.mem_cons_self ..)
  have hshown : nth 2 ∈ unseen.filterMap Move.shows :=
    List.mem_filterMap.2 ⟨_, hsub.subset (List.mem_cons_of_mem _ (List.mem_cons_self ..)), rfl⟩
  exact absurd hshown (by decide)

/-- What `Calls.Runs.restart_reads` says of this run. -/
theorem unseen_reads : ∃ s out, (Calls.start { dut := "dut1" } unseenUses).Runs unseen s ∧
    unseenUses 1 = .restart [] ⟨5⟩ ∧ s.result 1 = some (.restart (.ok out)) ∧
    ∃ old c t e u v, unseen = t ++ .does 1 e :: (u ++ .does 1 ⟨.current, some c⟩ :: v) ∧
      (e = ⟨.current, some old⟩ ∨ e = ⟨.install old, true⟩) ∧ Rebooted 1 [] c old v ∧
      (c = old ∨ ∃ j n, j ≠ 1 ∧ .does j ⟨.install n, true⟩ ∈ u) := by
  obtain ⟨s, h, hr⟩ := unseen_runs
  exact ⟨s, _, h, rfl, hr, h.restart_reads rfl hr⟩

end Reimage.Link
